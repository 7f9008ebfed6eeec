/-
  Aegis.Api.Sse

  Server-sent events: what the gateway's `sseWriter` (internal/api/gateway.go)
  and the mock provider's handler (internal/api/mock_provider.go) write, and
  what the OpenAI adapter reads of it.

  A chunk is written as one JSON object on a line `data: …` and a blank line,
  and the end of the stream as `data: [DONE]`.  A cut of that text, anywhere,
  leaves whole frames and the start of one.  Since the text of an object has no
  line break and no object's text starts another's, the adapter emits the
  chunks of the whole frames, possibly the one of a line that lost only its
  break, and reports an error unless the end marker is there.
-/

import Aegis.JsonText.WholeFormat
import Aegis.Provider.OpenAI

namespace Aegis.Api

open Aegis.JsonText (Format bytes object_text text text_bytes wholeFormat)
open Aegis.Provider (Body Chunk Codec Delta Event Exchange OpenAICompatible StreamScript blanks
  sampleAdapter trimSpace)
open Aegis.Provider.OpenAICompatible (data? dropCR maxLine tokens)
open Aegis.Request (Json Usage)

/-! ## What is written -/

def nilIfBlank (value : String) : Json := if value = "" then .null else .str value

/-- The `choices` of an event. -/
def choicesOf (chunk : Chunk) : Json :=
  .arr [.obj [("delta", .obj [("content", .str chunk.content)]),
    ("finish_reason", nilIfBlank chunk.finishReason), ("index", .num (0 : Int))]]

/-- `sseWriter`: the fields that its events contain. -/
structure SseWriter where
  requestID : String
  model : String

/-- The event of `Emit`, written at the Unix time `created`.  The names of a Go
    map are written in order. -/
def SseWriter.event (writer : SseWriter) (created : Int) (chunk : Chunk) : List (String × Json) :=
  [("choices", choicesOf chunk), ("created", .num created),
    ("id", .str ("chatcmpl-" ++ writer.requestID)), ("model", .str writer.model),
    ("object", .str "chat.completion.chunk")]

/-- The event of the mock provider's handler. -/
def mockEvent (model : String) (chunk : Chunk) : List (String × Json) :=
  [("choices", choicesOf chunk), ("id", .str "mock-stream"), ("model", .str model),
    ("object", .str "chat.completion.chunk")]

/-- `fmt.Fprintf(w, "data: %s\n\n", encoded)`. -/
def frame (encoded : List UInt8) : List UInt8 := bytes "data: " ++ encoded ++ [0x0a, 0x0a]

section Write

variable (format : Format)

/-- `Emit`. -/
def SseWriter.emit (writer : SseWriter) (created : Int) (chunk : Chunk) : List UInt8 :=
  frame (text format (.obj (writer.event created chunk)))

/-- The callback of the mock provider's handler. -/
def mockEmit (model : String) (chunk : Chunk) : List UInt8 :=
  frame (text format (.obj (mockEvent model chunk)))

end Write

/-- `Done`. -/
def done : List UInt8 := bytes "data: [DONE]\n\n"

/-! ## What is read of one line -/

theorem not_blank : ∀ b ∈ bytes "d:\x7b\x7d[]", ∀ blank ∈ blanks, b ∉ blank :=
  List.all_iff_forall_prop.mp (by decide)

theorem data?_blank : data? [] = none := by decide

/-- The field name, as far as it goes. -/
theorem data?_name : ∀ line ∈ (bytes "data: ").inits, data? line = none ∨ data? line = some [] := by
  decide

/-- The end marker, as far as it goes. -/
theorem data?_marker : ∀ p ∈ (bytes "[DONE]").inits, data? (bytes "data: " ++ p) = some p := by
  decide

/-- The blank before an object is trimmed. -/
theorem trimSpace_blank (v : List UInt8) :
    trimSpace (0x20 :: 0x7b :: v) = Lib.trimEnd blanks (0x7b :: v) := by
  have hblank : Lib.trimStart blanks (v.length + 1 + 1) (0x20 :: 0x7b :: v)
      = Lib.trimStart blanks (v.length + 1) (0x7b :: v) := rfl
  rw [trimSpace, Lib.trim, List.length_cons, List.length_cons, hblank,
    Lib.trimStart_eq_self (not_blank 0x7b (by decide))]

/-- The data of a line with the field name: only its end is trimmed. -/
theorem data?_field {v u : List UInt8}
    (h : Lib.trimEnd blanks (bytes "data: " ++ 0x7b :: v) = bytes "data: " ++ 0x7b :: u) :
    data? (bytes "data: " ++ 0x7b :: v) = some (Lib.trimEnd blanks (0x7b :: u)) := by
  have hbytes : bytes "data: " = [0x64, 0x61, 0x74, 0x61, 0x3a, 0x20] := by decide
  have hname : bytes "data:" = [0x64, 0x61, 0x74, 0x61, 0x3a] := by decide
  have hstart : ∀ n, Lib.trimStart blanks n (bytes "data: " ++ 0x7b :: v)
      = bytes "data: " ++ 0x7b :: v := by
    intro n
    rw [hbytes]
    exact Lib.trimStart_eq_self (not_blank 0x64 (by decide)) n _
  have htrim : trimSpace (bytes "data: " ++ 0x7b :: v) = bytes "data: " ++ 0x7b :: u := by
    rw [trimSpace, Lib.trim, hstart, h]
  have hfield : (bytes "data:").isPrefixOf (bytes "data: " ++ 0x7b :: u) = true := by
    rw [hbytes, hname]
    rfl
  rw [data?, htrim, if_pos hfield, hbytes]
  exact congrArg some (trimSpace_blank u)

/-- An object, as far as it goes: trimming may shorten it, but not past the brace. -/
theorem data?_object (v : List UInt8) :
    ∃ v', v' <+: v ∧ data? (bytes "data: " ++ 0x7b :: v) = some (0x7b :: v') := by
  have hbrace := not_blank 0x7b (by decide)
  obtain ⟨u, hu, hline⟩ := Lib.trimEnd_through hbrace (bytes "data: ") v
  obtain ⟨v', hv', hdata⟩ := Lib.trimEnd_through hbrace [] u
  refine ⟨v', hv'.trans hu, ?_⟩
  rw [data?_field hline]
  exact congrArg some hdata

/-- A whole object is not shortened. -/
theorem data?_whole (inner : List UInt8) :
    data? (bytes "data: " ++ 0x7b :: (inner ++ [0x7d])) = some (0x7b :: (inner ++ [0x7d])) := by
  have hbrace := not_blank 0x7d (by decide)
  have hline : Lib.trimEnd blanks (bytes "data: " ++ 0x7b :: (inner ++ [0x7d]))
      = bytes "data: " ++ 0x7b :: (inner ++ [0x7d]) := by
    rw [← List.cons_append, ← List.append_assoc]
    exact Lib.trimEnd_eq_self hbrace _
  rw [data?_field hline]
  exact congrArg some (Lib.trimEnd_eq_self hbrace (0x7b :: inner))

/-! ## Lines -/

section Tokens

variable {line : List UInt8}

/-- A line as a writer leaves it: no control character, and not too long. -/
structure Plain (line : List UInt8) : Prop where
  printable : ∀ b ∈ line, 0x20 ≤ b
  short : line.length < maxLine

theorem Plain.of_init {whole : List UInt8} (h : Plain whole) (hinit : line <+: whole) :
    Plain line where
  printable := fun b hb => h.printable b (hinit.subset hb)
  short := hinit.length_le.trans_lt h.short

theorem Plain.no_break (h : Plain line) : (0x0a : UInt8) ∉ line :=
  fun hmem => absurd (h.printable _ hmem) (by decide)

theorem Plain.dropCR (h : Plain line) : dropCR line = line := by
  apply if_neg
  intro hlast
  exact absurd (h.printable _ (List.mem_of_getLast? hlast)) (by decide)

theorem tokens_append (h : Plain line) (rest : List UInt8) :
    tokens (line ++ 0x0a :: rest) = line :: tokens rest := by
  rw [tokens, Lib.lines_append h.no_break, List.takeWhile_cons, if_pos (decide_eq_true h.short),
    List.map_cons, h.dropCR]
  rfl

theorem tokens_single (h : Plain line) (hne : line ≠ []) : tokens line = [line] := by
  rw [tokens, Lib.lines_single h.no_break hne,
    List.takeWhile_cons, if_pos (decide_eq_true h.short), List.takeWhile_nil, List.map_cons,
    List.map_nil, h.dropCR]

theorem tokens_nil : tokens [] = [] := rfl

theorem plain_nil : Plain [] where
  printable := fun _ h => absurd h List.not_mem_nil
  short := Nat.two_pow_pos 20

end Tokens

/-! ## Scanning -/

/-- The event that a chunk is decoded to. -/
def eventOf (chunk : Chunk) : Event := ⟨[⟨chunk.content, chunk.finishReason⟩], none⟩

section Scan

variable {adapter : OpenAICompatible} {codec : Codec} {last : Option GoError} {isPartial : Bool}
  {usage : Usage} {line data : List UInt8} {rest : List (List UInt8)}

theorem scan_skip (h : data? line = none) :
    adapter.scan codec last isPartial usage (line :: rest)
      = adapter.scan codec last isPartial usage rest := by
  rw [OpenAICompatible.scan, h]

theorem scan_done (h : data? line = some (bytes "[DONE]")) :
    adapter.scan codec last isPartial usage (line :: rest) = .done usage := by
  rw [OpenAICompatible.scan, h]
  exact if_pos rfl

theorem scan_emit {chunk : Chunk} (h : data? line = some data) (hne : data ≠ bytes "[DONE]")
    (hevent : codec.event data = .ok (eventOf chunk)) :
    (adapter.scan codec last isPartial usage (line :: rest)).accepted
      = (chunk :: (adapter.scan codec last (isPartial || chunk.content != "") usage
            rest).accepted.1,
          (adapter.scan codec last (isPartial || chunk.content != "") usage rest).accepted.2) := by
  rw [OpenAICompatible.scan, h]
  dsimp only
  rw [if_neg hne, hevent]
  rfl

/-- Nothing is emitted, and the error says whether something was before. -/
def Stops (isPartial : Bool) (outcome : List Chunk × Except GoError Usage) : Prop :=
  ∃ err e, outcome = ([], .error err) ∧ err.asProvider = some e ∧ e.isPartial = isPartial

theorem stops_end : Stops isPartial (adapter.scan codec last isPartial usage []).accepted := by
  cases last with
  | none => exact ⟨_, _, rfl, rfl, rfl⟩
  | some err => exact ⟨_, _, rfl, rfl, rfl⟩

theorem stops_reject {err : GoError} (h : data? line = some data) (hne : data ≠ bytes "[DONE]")
    (hevent : codec.event data = .error err) :
    Stops isPartial (adapter.scan codec last isPartial usage (line :: rest)).accepted := by
  rw [OpenAICompatible.scan, h]
  dsimp only
  rw [if_neg hne, hevent]
  exact ⟨_, _, rfl, rfl, rfl⟩

end Scan

/-! ## A cut stream -/

section Cut

variable {format : Format} {adapter : OpenAICompatible} {codec : Codec} {last : Option GoError}
  {isPartial : Bool} {usage : Usage}

/-- A chunk with the members of its event. -/
abbrev Post := List (String × Json) × Chunk

/-- The line of an event. -/
def lineOf (format : Format) (post : Post) : List UInt8 :=
  bytes "data: " ++ text format (.obj post.1)

/-- Everything written before `Done`. -/
def sent (format : Format) (posts : List Post) : List UInt8 :=
  posts.flatMap fun post => frame (text format (.obj post.1))

/-- What is relied on of encoding/json: it decodes the object of a post to its
    chunk, and rejects it when it is cut off. -/
structure Decodes (format : Format) (codec : Codec) (post : Post) : Prop where
  whole : codec.event (text format (.obj post.1)) = .ok (eventOf post.2)
  cut : ∀ p, p <+: text format (.obj post.1) → p ≠ text format (.obj post.1) →
    ∃ err, codec.event p = .error err

/-- It also rejects the start of the end marker, which is no JSON. -/
def RejectsMarker (codec : Codec) : Prop :=
  ∀ p, p <+: bytes "[DONE]" → p ≠ bytes "[DONE]" → ∃ err, codec.event p = .error err

/-- A post that can be decoded, in a line that is not too long. -/
structure Legible (format : Format) (codec : Codec) (post : Post) : Prop where
  decodes : Decodes format codec post
  short : (lineOf format post).length < maxLine

theorem object_ne_marker (members : List (String × Json)) :
    text format (.obj members) ≠ bytes "[DONE]" := by
  obtain ⟨inner, htext⟩ : ∃ inner, text format (.obj members) = _ := object_text members
  rw [htext]
  intro h
  exact absurd (List.cons.inj h).1 (by decide)

theorem Legible.plain {post : Post} (h : Legible format codec post) :
    Plain (lineOf format post) where
  printable := by
    intro b hb
    rcases List.mem_append.mp hb with hname | htext
    · have hprintable : ∀ b ∈ bytes "data: ", 0x20 ≤ b := List.all_iff_forall_prop.mp (by decide)
      exact hprintable b hname
    · exact text_bytes _ b htext
  short := h.short

theorem Legible.data? {post : Post} :
    data? (lineOf format post) = some (text format (.obj post.1)) := by
  obtain ⟨inner, htext⟩ : ∃ inner, text format (.obj post.1) = _ := object_text post.1
  rw [lineOf, htext]
  exact data?_whole inner

/-- A start of a list is a start of its first part, or the first part and a
    start of the rest. -/
theorem init_append {p u v : List UInt8} (h : p <+: u ++ v) :
    p <+: u ∨ ∃ q, q <+: v ∧ p = u ++ q := by
  rcases List.prefix_or_prefix_of_prefix h (List.prefix_append u v) with hp | ⟨q, rfl⟩
  · exact Or.inl hp
  · exact Or.inr ⟨q, (List.prefix_append_right_inj u).mp h, rfl⟩

/-- The stream stops in the middle of the line of an object. -/
theorem stops_in_line (hmarker : RejectsMarker codec) {post : Post}
    (hlegible : Legible format codec post) {p : List UInt8} (hp : p <+: lineOf format post)
    (hne : p ≠ lineOf format post) :
    Stops isPartial (adapter.scan codec last isPartial usage (tokens p)).accepted := by
  by_cases hempty : p = []
  · rw [hempty, tokens_nil]
    exact stops_end
  rw [tokens_single (hlegible.plain.of_init hp) hempty]
  rcases init_append hp with hname | ⟨q, hq, rfl⟩
  · rcases data?_name p ((List.mem_inits _ _).mpr hname) with hnone | hdata
    · rw [scan_skip hnone]
      exact stops_end
    · obtain ⟨err, herr⟩ := hmarker [] (List.nil_prefix) (by decide)
      exact stops_reject hdata (by decide) herr
  · have hq' : q ≠ text format (.obj post.1) := fun h => hne (by rw [h]; rfl)
    obtain ⟨inner, htext⟩ : ∃ inner, text format (.obj post.1) = _ := object_text post.1
    cases q with
    | nil =>
        have hdata : OpenAICompatible.data? (bytes "data: " ++ []) = some [] := by decide
        obtain ⟨err, herr⟩ := hmarker [] (List.nil_prefix) (by decide)
        exact stops_reject hdata (by decide) herr
    | cons b v =>
        -- the object is cut off after its brace
        have hb : b = 0x7b := by
          rw [htext] at hq
          exact (List.cons_prefix_cons.mp hq).1
        subst hb
        obtain ⟨v', hv', hdata⟩ := data?_object v
        have hstart : 0x7b :: v' <+: text format (.obj post.1) :=
          (List.cons_prefix_cons.mpr ⟨rfl, hv'⟩).trans hq
        have hcut : 0x7b :: v' ≠ text format (.obj post.1) := by
          intro h
          have hinit : 0x7b :: v' <+: 0x7b :: v := List.cons_prefix_cons.mpr ⟨rfl, hv'⟩
          have hlength := hinit.length_le
          rw [h] at hlength
          exact hq' (hq.eq_of_length_le hlength)
        obtain ⟨err, herr⟩ := hlegible.decodes.cut _ hstart hcut
        refine stops_reject hdata ?_ herr
        intro h
        exact absurd (List.cons.inj h).1 (by decide)

theorem plain_marker : Plain (bytes "data: [DONE]") where
  printable := List.all_iff_forall_prop.mp (by decide)
  short := by decide

/-- The stream stops in the middle of the end marker. -/
theorem stops_in_marker (hmarker : RejectsMarker codec) {p : List UInt8}
    (hp : p <+: bytes "data: [DONE]") (hne : p ≠ bytes "data: [DONE]") :
    Stops isPartial (adapter.scan codec last isPartial usage (tokens p)).accepted := by
  by_cases hempty : p = []
  · rw [hempty, tokens_nil]
    exact stops_end
  rw [tokens_single (plain_marker.of_init hp) hempty]
  have hsplit : bytes "data: [DONE]" = bytes "data: " ++ bytes "[DONE]" := by decide
  rw [hsplit] at hp hne
  rcases init_append hp with hname | ⟨q, hq, rfl⟩
  · rcases data?_name p ((List.mem_inits _ _).mpr hname) with hnone | hdata
    · rw [scan_skip hnone]
      exact stops_end
    · obtain ⟨err, herr⟩ := hmarker [] List.nil_prefix (by decide)
      exact stops_reject hdata (by decide) herr
  · have hq' : q ≠ bytes "[DONE]" := fun h => hne (by rw [h])
    obtain ⟨err, herr⟩ := hmarker q hq hq'
    exact stops_reject (data?_marker q ((List.mem_inits _ _).mpr hq)) hq' herr

/-- What the adapter made of a stream of chunks of which `isWhole` says whether
    the end marker arrived. -/
structure Read (chunks : List Chunk) (isWhole : Prop) (isPartial : Bool) (usage : Usage)
    (outcome : List Chunk × Except GoError Usage) : Prop where
  emitted : outcome.1 <+: chunks
  whole : isWhole → outcome = (chunks, .ok usage)
  cut : ¬isWhole → ∃ err e, outcome.2 = .error err ∧ err.asProvider = some e
    ∧ (e.isPartial = true ↔ isPartial = true ∨ ∃ chunk ∈ outcome.1, chunk.content ≠ "")

/-- A stream that succeeds returns the usage so far. -/
theorem Read.usage_eq {chunks : List Chunk} {isWhole : Prop} {u : Usage}
    {outcome : List Chunk × Except GoError Usage}
    (h : Read chunks isWhole isPartial usage outcome) (hok : outcome.2 = .ok u) : u = usage := by
  by_cases hwhole : isWhole
  · rw [h.whole hwhole] at hok
    exact (Except.ok.inj hok).symm
  · obtain ⟨err, e, herr, -⟩ := h.cut hwhole
    cases herr.symm.trans hok

theorem Stops.read {outcome : List Chunk × Except GoError Usage} (h : Stops isPartial outcome)
    (chunks : List Chunk) {isWhole : Prop} (hcut : ¬isWhole) :
    Read chunks isWhole isPartial usage outcome := by
  obtain ⟨err, e, rfl, he, hflag⟩ := h
  refine ⟨List.nil_prefix, fun h => absurd h hcut, fun _ => ⟨err, e, rfl, he, ?_⟩⟩
  rw [hflag]
  simp

/-- The chunk before is emitted first. -/
theorem Read.cons {chunk : Chunk} {chunks : List Chunk} {isWhole isWhole' : Prop}
    {outcome : List Chunk × Except GoError Usage}
    (h : Read chunks isWhole (isPartial || chunk.content != "") usage outcome)
    (hwhole : isWhole' ↔ isWhole) :
    Read (chunk :: chunks) isWhole' isPartial usage (chunk :: outcome.1, outcome.2) := by
  refine ⟨List.cons_prefix_cons.mpr ⟨rfl, h.emitted⟩, ?_, ?_⟩
  · intro hw
    rw [h.whole (hwhole.mp hw)]
  · intro hcut
    obtain ⟨err, e, herr, he, hflag⟩ := h.cut fun hw => hcut (hwhole.mpr hw)
    refine ⟨err, e, herr, he, hflag.trans ?_⟩
    simp [or_assoc]

theorem lineOf_ne (post : Post) : lineOf format post ≠ [] :=
  List.append_ne_nil_of_left_ne_nil (by decide) _

theorem sent_cons (post : Post) (posts : List Post) :
    sent format (post :: posts) = lineOf format post ++ 0x0a :: 0x0a :: sent format posts := by
  rw [sent, List.flatMap_cons, frame, List.append_assoc]
  rfl

theorem scan_line {post : Post} (hlegible : Legible format codec post) (rest : List (List UInt8)) :
    (adapter.scan codec last isPartial usage (lineOf format post :: rest)).accepted
      = (post.2 :: (adapter.scan codec last (isPartial || post.2.content != "") usage
            rest).accepted.1,
          (adapter.scan codec last (isPartial || post.2.content != "") usage rest).accepted.2) :=
  scan_emit Legible.data? (object_ne_marker _) hlegible.decodes.whole

/-- The line of a post arrived, but not the next: its chunk is emitted. -/
theorem read_line {post : Post} (hlegible : Legible format codec post) {q : List UInt8}
    (hq : q <+: [0x0a]) (chunks : List Chunk) {isWhole : Prop} (hcut : ¬isWhole) :
    Read (post.2 :: chunks) isWhole isPartial usage
      (adapter.scan codec last isPartial usage (tokens (lineOf format post ++ q))).accepted := by
  have htokens : tokens (lineOf format post ++ q) = [lineOf format post] := by
    cases q with
    | nil =>
        rw [List.append_nil]
        exact tokens_single hlegible.plain (lineOf_ne post)
    | cons b q =>
        obtain ⟨rfl, hempty⟩ := List.cons_prefix_cons.mp hq
        rw [List.prefix_nil.mp hempty]
        exact tokens_append hlegible.plain []
  rw [htokens, scan_line hlegible]
  exact Read.cons (stops_end.read chunks not_false) (iff_of_false hcut not_false)

/-- The end marker, as far as it arrived. -/
theorem read_marker (hmarker : RejectsMarker codec) {p : List UInt8} (hp : p <+: done) :
    Read [] (bytes "data: [DONE]" <+: p) isPartial usage
      (adapter.scan codec last isPartial usage (tokens p)).accepted := by
  have hwhole : ∀ rest, tokens p = bytes "data: [DONE]" :: rest → bytes "data: [DONE]" <+: p →
      Read [] (bytes "data: [DONE]" <+: p) isPartial usage
        (adapter.scan codec last isPartial usage (tokens p)).accepted := by
    intro rest htokens hin
    rw [htokens, scan_done (by decide)]
    exact ⟨List.nil_prefix, fun _ => rfl, fun hcut => absurd hin hcut⟩
  have hdone : done = bytes "data: [DONE]" ++ [0x0a, 0x0a] := by decide
  rw [hdone] at hp
  rcases init_append hp with hp | ⟨q, hq, rfl⟩
  · by_cases hall : p = bytes "data: [DONE]"
    · rw [hall] at hwhole ⊢
      exact hwhole [] (tokens_single plain_marker (by decide)) (List.prefix_refl _)
    · refine (stops_in_marker hmarker hp hall).read _ ?_
      intro hin
      exact hall (hp.eq_of_length_le hin.length_le)
  · cases q with
    | nil =>
        refine hwhole [] ?_ (List.prefix_append _ _)
        rw [List.append_nil]
        exact tokens_single plain_marker (by decide)
    | cons b q =>
        obtain ⟨rfl, -⟩ := List.cons_prefix_cons.mp hq
        exact hwhole _ (tokens_append plain_marker q) (List.prefix_append _ _)

/-- **A stream that is cut anywhere.** By induction over the posts: the cut is
    in the line of the first, between it and the next, or after them. -/
theorem read_cut (hmarker : RejectsMarker codec) {posts : List Post}
    (hposts : ∀ post ∈ posts, Legible format codec post) {p : List UInt8}
    (hp : p <+: sent format posts ++ done) :
    Read (posts.map Prod.snd) (sent format posts ++ bytes "data: [DONE]" <+: p) isPartial usage
      (adapter.scan codec last isPartial usage (tokens p)).accepted := by
  induction posts generalizing p isPartial with
  | nil =>
      rw [sent, List.flatMap_nil, List.nil_append] at hp ⊢
      exact read_marker hmarker hp
  | cons post posts ih =>
      have hlegible := hposts post (List.mem_cons_self ..)
      rw [sent_cons, List.append_assoc, List.cons_append, List.cons_append] at hp ⊢
      rw [List.map_cons]
      -- too short to hold the two line breaks
      have hshort : p.length < (lineOf format post).length + 2 →
          ¬ lineOf format post ++ 0x0a :: 0x0a :: (sent format posts ++ bytes "data: [DONE]")
            <+: p := by
        intro hlt hin
        have hlength := hin.length_le
        simp only [List.length_append, List.length_cons] at hlength
        omega
      rcases init_append hp with hinit | ⟨q, hq, rfl⟩
      · have hlength := hinit.length_le
        by_cases hall : p = lineOf format post
        · have hcut := hshort (by omega)
          rw [← List.append_nil (lineOf format post)] at hall
          rw [hall] at hcut ⊢
          exact read_line hlegible List.nil_prefix (posts.map Prod.snd) hcut
        · exact (stops_in_line hmarker hlegible hinit hall).read _ (hshort (by omega))
      · rcases init_append (u := [0x0a]) hq with hbreak | ⟨r, hr, rfl⟩
        · have hlength := hbreak.length_le
          refine read_line hlegible hbreak (posts.map Prod.snd) (hshort ?_)
          rw [List.length_append]
          rw [List.length_singleton] at hlength
          omega
        · cases r with
          | nil =>
              refine read_line hlegible (List.prefix_refl _) (posts.map Prod.snd) (hshort ?_)
              simp only [List.length_append, List.length_cons, List.length_nil]
              omega
          | cons b r =>
              obtain ⟨rfl, hrest⟩ := List.cons_prefix_cons.mp hr
              have htokens : tokens (lineOf format post ++ 0x0a :: 0x0a :: r)
                  = lineOf format post :: [] :: tokens r := by
                rw [tokens_append hlegible.plain]
                exact congrArg _ (tokens_append plain_nil r)
              rw [List.singleton_append, htokens, scan_line hlegible, scan_skip data?_blank]
              refine Read.cons
                (ih (fun post hpost => hposts post (List.mem_cons_of_mem _ hpost)) hrest) ?_
              rw [List.prefix_append_right_inj, List.cons_prefix_cons, List.cons_prefix_cons]
              simp only [true_and]

end Cut

/-! ## Both writers -/

/-- Reading the body of an exchange, of which `received` gets past the limit,
    when `frames` was written for the chunks and then the end marker. -/
structure Inverts (adapter : OpenAICompatible) (codec : Codec) (exchange : Exchange)
    (received frames : List UInt8) (chunks : List Chunk) : Prop where
  /-- a start of the chunks is emitted -/
  emitted : (adapter.stream codec exchange).accepted.1 <+: chunks
  /-- success means that the end marker arrived -/
  success : (∃ usage, (adapter.stream codec exchange).accepted.2 = .ok usage)
    ↔ frames ++ bytes "data: [DONE]" <+: received
  /-- and then everything was emitted -/
  whole : frames ++ bytes "data: [DONE]" <+: received →
    (adapter.stream codec exchange).accepted.1 = chunks
  /-- otherwise the error says whether some content was emitted -/
  cut : ¬ frames ++ bytes "data: [DONE]" <+: received →
    ∃ err e, (adapter.stream codec exchange).accepted.2 = .error err ∧ err.asProvider = some e
      ∧ (e.isPartial = true
        ↔ ∃ chunk ∈ (adapter.stream codec exchange).accepted.1, chunk.content ≠ "")

theorem limited_init (adapter : OpenAICompatible) (body : List UInt8) (ending : Option GoError) :
    (adapter.limited body ending).1 <+: body := by
  unfold OpenAICompatible.limited
  split
  · exact List.prefix_refl body
  · exact List.take_prefix _ _

/-- The limit on the response cuts the body once more. -/
theorem stream_read {format : Format} {codec : Codec} (hmarker : RejectsMarker codec)
    {posts : List Post} (hposts : ∀ post ∈ posts, Legible format codec post)
    (adapter : OpenAICompatible) {status : Int} (hstatus : status < 400) {body : List UInt8}
    (ending : Option GoError) (hbody : body <+: sent format posts ++ done) :
    Read (posts.map Prod.snd)
      (sent format posts ++ bytes "data: [DONE]" <+: (adapter.limited body ending).1) false
      OpenAICompatible.noUsage (adapter.stream codec (.answered status body ending)).accepted := by
  have hstream : adapter.stream codec (.answered status body ending)
      = adapter.scan codec (OpenAICompatible.scannerErr (adapter.limited body ending).1
          (adapter.limited body ending).2) false OpenAICompatible.noUsage
          (tokens (adapter.limited body ending).1) := by
    rw [OpenAICompatible.stream, OpenAICompatible.call, if_neg (not_le.mpr hstatus)]
  rw [hstream]
  exact read_cut hmarker hposts ((limited_init adapter body ending).trans hbody)

theorem inverts_of_posts {format : Format} {codec : Codec} (hmarker : RejectsMarker codec)
    {posts : List Post} (hposts : ∀ post ∈ posts, Legible format codec post)
    (adapter : OpenAICompatible) {status : Int} (hstatus : status < 400) {body : List UInt8}
    (ending : Option GoError) (hbody : body <+: sent format posts ++ done) :
    Inverts adapter codec (.answered status body ending) (adapter.limited body ending).1
      (sent format posts) (posts.map Prod.snd) := by
  have hread := stream_read hmarker hposts adapter hstatus ending hbody
  refine ⟨hread.emitted, ⟨?_, ?_⟩, ?_, ?_⟩
  · rintro ⟨usage, husage⟩
    by_contra hcut
    obtain ⟨err, e, herr, -⟩ := hread.cut hcut
    cases herr.symm.trans husage
  · intro hwhole
    exact ⟨_, congrArg Prod.snd (hread.whole hwhole)⟩
  · intro hwhole
    exact congrArg Prod.fst (hread.whole hwhole)
  · intro hcut
    obtain ⟨err, e, herr, he, hflag⟩ := hread.cut hcut
    exact ⟨err, e, herr, he, hflag.trans (or_iff_right Bool.false_ne_true)⟩

theorem sent_mock (format : Format) (model : String) (chunks : List Chunk) :
    sent format (chunks.map fun chunk => (mockEvent model chunk, chunk))
      = chunks.flatMap (mockEmit format model) := by
  rw [sent, List.flatMap_map]
  rfl

theorem chunks_mock (model : String) (chunks : List Chunk) :
    (chunks.map fun chunk => (mockEvent model chunk, chunk)).map Prod.snd = chunks := by
  rw [List.map_map]
  exact List.map_id chunks

/-- **Decoding inverts encoding and detects every truncation.** What the
    gateway's writer or the mock provider's handler writes for a list of chunks
    and `Done`, cut anywhere by the network or by the limit on the response,
    the adapter reads as the start of the list; it succeeds exactly if the end
    marker is there, and then it has emitted all chunks. -/
theorem stream_inverts (format : Format) {codec : Codec} (hmarker : RejectsMarker codec)
    (adapter : OpenAICompatible) {status : Int} (hstatus : status < 400) (body : List UInt8)
    (ending : Option GoError) :
    (∀ (writer : SseWriter) (chunks : List (Int × Chunk)),
      (∀ c ∈ chunks, Legible format codec (writer.event c.1 c.2, c.2)) →
      body <+: chunks.flatMap (fun c => writer.emit format c.1 c.2) ++ done →
      Inverts adapter codec (.answered status body ending) (adapter.limited body ending).1
        (chunks.flatMap fun c => writer.emit format c.1 c.2) (chunks.map Prod.snd))
    ∧ ∀ (model : String) (chunks : List Chunk),
      (∀ chunk ∈ chunks, Legible format codec (mockEvent model chunk, chunk)) →
      body <+: chunks.flatMap (mockEmit format model) ++ done →
      Inverts adapter codec (.answered status body ending) (adapter.limited body ending).1
        (chunks.flatMap (mockEmit format model)) chunks := by
  constructor
  · intro writer chunks hlegible hbody
    have hsent : sent format (chunks.map fun c => (writer.event c.1 c.2, c.2))
        = chunks.flatMap fun c => writer.emit format c.1 c.2 := by
      rw [sent, List.flatMap_map]
      rfl
    rw [← hsent] at hbody ⊢
    have hinverts := inverts_of_posts hmarker (List.forall_mem_map.mpr hlegible) adapter hstatus
      ending hbody
    rwa [List.map_map] at hinverts
  · intro model chunks hlegible hbody
    rw [← sent_mock] at hbody ⊢
    have hinverts := inverts_of_posts hmarker (List.forall_mem_map.mpr hlegible) adapter hstatus
      ending hbody
    rwa [chunks_mock] at hinverts

/-! ## Decoders that know some texts -/

section Table

variable (posts : List Post) (bodies : List (List (String × Json) × Body))

/-- The events of the posts and the bodies, by their texts. -/
def eventTable : List (List UInt8 × Event) :=
  posts.map fun post => (text wholeFormat (.obj post.1), eventOf post.2)

def bodyTable : List (List UInt8 × Body) :=
  bodies.map fun body => (text wholeFormat (.obj body.1), body.2)

/-- A decoder for these texts, for a body also with the line break after it. -/
def tableCodec : Codec where
  body := fun bs _ =>
    match (bodyTable bodies).lookup (if bs.getLast? = some 0x0a then bs.dropLast else bs) with
    | some body => .ok body
    | none => .error (.new "unexpected end of JSON input")
  event := fun bs =>
    match (eventTable posts).lookup bs with
    | some event => .ok event
    | none => .error (.new "unexpected end of JSON input")

variable {posts bodies}

theorem rejects_of_ne {bs : List UInt8}
    (h : ∀ post ∈ posts, bs ≠ text wholeFormat (.obj post.1)) :
    ∃ err, (tableCodec posts bodies).event bs = .error err := by
  have hnone : (eventTable posts).lookup bs = none := by
    rw [List.lookup_eq_none_iff]
    intro entry hentry
    obtain ⟨post, hpost, rfl⟩ := List.mem_map.mp hentry
    exact bne_iff_ne.mpr (h post hpost)
  refine ⟨.new "unexpected end of JSON input", ?_⟩
  simp only [tableCodec, hnone]

/-- No object's text starts another's. -/
theorem decodes_table {members : List (String × Json)} {chunk : Chunk}
    (h : (tableCodec posts bodies).event (text wholeFormat (.obj members)) = .ok (eventOf chunk)) :
    Decodes wholeFormat (tableCodec posts bodies) (members, chunk) where
  whole := h
  cut := by
    rintro p ⟨r, hr⟩ hne
    apply rejects_of_ne
    rintro post' - rfl
    have hrest := JsonText.object_reads (hr.trans (List.append_nil _).symm)
    rw [hrest.2, List.append_nil] at hr
    exact hne hr

theorem rejectsMarker_table : RejectsMarker (tableCodec posts bodies) := by
  rintro p ⟨r, hr⟩ -
  apply rejects_of_ne
  rintro post - rfl
  obtain ⟨inner, htext⟩ : ∃ inner, text wholeFormat (.obj post.1) = _ := object_text _
  rw [htext] at hr
  exact absurd (List.cons.inj hr).1 (by decide)

end Table

def greetingWriter : SseWriter := ⟨"q", "m"⟩

def greetingChunks : List (Int × Chunk) := [(1, ⟨"hi", ""⟩), (1, ⟨"", "stop"⟩)]

/-- The posts of the greeting. -/
def greetingPosts : List Post :=
  greetingChunks.map fun c => (greetingWriter.event c.1 c.2, c.2)

theorem legible_greeting : ∀ c ∈ greetingChunks,
    Legible wholeFormat (tableCodec greetingPosts []) (greetingWriter.event c.1 c.2, c.2) := by
  intro c hc
  refine ⟨decodes_table ?_, ?_⟩
  · rcases List.mem_cons.mp hc with rfl | hc
    · rfl
    · rw [List.mem_singleton.mp hc]
      rfl
  · revert c
    decide +kernel

/-- The greeting, cut in the middle of its second event. -/
theorem stream_inverts_greeting :
    let frames := greetingChunks.flatMap fun c => greetingWriter.emit wholeFormat c.1 c.2
    let body := (frames ++ done).take 200
    Inverts sampleAdapter (tableCodec greetingPosts []) (.answered 200 body none)
        (sampleAdapter.limited body none).1 frames (greetingChunks.map Prod.snd)
      ∧ (sampleAdapter.stream (tableCodec greetingPosts []) (.answered 200 body none)).accepted.1
        = [⟨"hi", ""⟩] := by
  intro frames body
  refine ⟨(stream_inverts wholeFormat rejectsMarker_table sampleAdapter (by decide) body
    none).1 greetingWriter greetingChunks legible_greeting (List.take_prefix _ _), ?_⟩
  decide +kernel

end Aegis.Api
