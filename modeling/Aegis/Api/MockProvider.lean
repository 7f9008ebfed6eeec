/-
  Aegis.Api.MockProvider

  The mock provider behind HTTP (internal/api/mock_provider.go), and the OpenAI
  adapter as its client.

  Without streaming, the handler sends the completion with its usage.  With
  streaming it sends the words of the content one by one and drops the usage
  that `Stream` returns, so that the adapter reports none: the two modes never
  agree.
-/

import Aegis.Api.Sse
import Aegis.Provider.Mock
import Mathlib.Data.List.Flatten
import Mathlib.Data.List.TakeWhile

namespace Aegis.Api

open Aegis.JsonText (Format bytes quote text wholeFormat)
open Aegis.Provider (Body Chunk Codec Completion CompletionRequest Exchange Mock OpenAICompatible
  estimateTokens fields normalizeModel sampleAdapter)
open Aegis.Provider.OpenAICompatible (maxLine noUsage)
open Aegis.Request (ChatInput Json Message Usage)

/-! ## The handler -/

/-- The members of the response to a completion.  The handler leaves the
    platform's own part at its zero value. -/
def responseMembers (completion : Completion) (created : Int) : List (String × Json) :=
  [("id", .str completion.providerRequestID), ("object", .str "chat.completion"),
    ("created", .num created), ("model", .str completion.model),
    ("choices", .arr [.obj [("index", .num (0 : Int)),
      ("message", .obj [("role", .str "assistant"), ("content", .str completion.content)]),
      ("finish_reason", .str completion.finishReason)]]),
    ("usage", .obj [("prompt_tokens", .num completion.usage.promptTokens),
      ("completion_tokens", .num completion.usage.completionTokens),
      ("total_tokens", .num completion.usage.totalTokens)]),
    ("aegis", .obj [("request_id", .str ""), ("status", .str "")])]

/-- A response that was written. -/
structure Reply where
  status : Int
  body : List UInt8

/-- `http.Error`. -/
def plainError (message : String) (status : Int) : Reply := ⟨status, bytes (message ++ "\n")⟩

/-- The handler `complete`, given what the body of the request is decoded to and
    the time of the response.  `interrupted` and `ended` are what the context
    does to the provider's call; nothing that is written gets lost. -/
def mockComplete (format : Format) (mock : Mock) (requestID : String) (decoded : Option ChatInput)
    (created : Int) (interrupted : Option GoError) (ended : Nat → Option GoError) : Reply × Mock :=
  match decoded with
  | none => (plainError "invalid request" 400, mock)
  | some input =>
      match h : input.validate with
      | .error _ => (plainError "invalid request" 400, mock)
      | .ok _ =>
          let providerInput := CompletionRequest.ofInput requestID input
            (input.validate_eq_ok_iff.mp h)
          if input.stream = false then
            match mock.complete providerInput interrupted with
            | (.error _, mock) => (plainError "mock provider failure" 503, mock)
            | (.ok completion, mock) =>
                (⟨200, text format (.obj (responseMembers completion created)) ++ [0x0a]⟩, mock)
          else
            let (script, mock) := mock.stream providerInput interrupted ended
            let frames := script.accepted.1.flatMap (mockEmit format input.model)
            match script.accepted.2 with
            -- the usage is not written
            | .ok _ => (⟨200, frames ++ done⟩, mock)
            | .error _ => (⟨200, frames⟩, mock)

/-! ## Requests through the adapter -/

theorem sublist_bytes {s t : String} (h : s.toList.Sublist t.toList) :
    s.utf8ByteSize ≤ t.utf8ByteSize := by
  rw [← JsonText.length_bytes, ← JsonText.length_bytes, bytes, bytes]
  exact (h.flatMap _).length_le

theorem normalizeModel_sublist (value : String) :
    (normalizeModel value).toList.Sublist value.toList := by
  rw [normalizeModel, trimmed, String.toList_ofList]
  have htail := List.dropWhile_sublist (p := isSpace)
    (l := (value.toList.dropWhile isSpace).reverse)
  have hreverse := htail.reverse
  rw [List.reverse_reverse] at hreverse
  exact hreverse.trans (List.dropWhile_sublist _)

/-- What is dropped from the front is blank. -/
theorem mem_dropWhile {cs : List Char} {c : Char} (hc : c ∈ cs) (hspace : isSpace c = false) :
    c ∈ cs.dropWhile isSpace := by
  rw [← List.takeWhile_append_dropWhile (p := isSpace) (l := cs)] at hc
  rcases List.mem_append.mp hc with htaken | hrest
  · rw [List.mem_takeWhile_imp htaken] at hspace
    exact absurd hspace (by decide)
  · exact hrest

theorem isBlank_normalizeModel {value : String} (h : isBlank value = false) :
    isBlank (normalizeModel value) = false := by
  obtain ⟨c, hc, hspace⟩ := List.all_eq_false.mp h
  have hspace : isSpace c = false := Bool.eq_false_of_not_eq_true hspace
  apply List.all_eq_false.mpr
  refine ⟨c, ?_, by simp [hspace]⟩
  rw [normalizeModel, trimmed, String.toList_ofList, List.mem_reverse]
  exact mem_dropWhile (List.mem_reverse.mpr (mem_dropWhile hc hspace)) hspace

section Payload

variable {input : ChatInput} (hvalid : input.Valid) (requestID : String) (stream : Bool)

/-- The payload of the adapter for an input. -/
def payloadOf : ChatInput :=
  OpenAICompatible.payload (.ofInput requestID input hvalid) stream

/-- The handler accepts what the adapter sends for a valid input. -/
theorem payloadOf_valid : (payloadOf hvalid requestID stream).Valid where
  model := isBlank_normalizeModel hvalid.model
  modelShort := (sublist_bytes (normalizeModel_sublist input.model)).trans hvalid.modelShort
  messages_ne := hvalid.messages_ne
  messagesFew := hvalid.messagesFew
  messages := hvalid.messages
  temperature := hvalid.temperature
  maxTokens := hvalid.maxTokens

/-- The provider's input behind the handler. -/
def receivedOf : CompletionRequest :=
  .ofInput requestID (payloadOf hvalid requestID stream) (payloadOf_valid hvalid requestID stream)

variable (format : Format) (mock : Mock) (created : Int)

/-- The exchange of the adapter with the handler, which the context does not end. -/
def mockExchange : Exchange :=
  let reply := (mockComplete format mock requestID (some (payloadOf hvalid requestID stream))
    created none fun _ => none).1
  .answered reply.status reply.body none

variable {mock}

theorem complete_uninterrupted (hmock : mock.injectFailure.1 = none) (input : CompletionRequest) :
    mock.complete input none
      = (.ok (mock.injectFailure.2.completion input), mock.injectFailure.2) := by
  rw [Mock.complete, mock.wait_none]
  dsimp only
  rw [← Prod.eta mock.injectFailure, hmock]

theorem stream_uninterrupted (hmock : mock.injectFailure.1 = none) (input : CompletionRequest) :
    (mock.stream input none fun _ => none).1.accepted
      = (Mock.wordChunks (fields (Mock.content input)),
          .ok (estimateTokens input.messages (Mock.content input))) := by
  rw [Mock.stream, mock.wait_none]
  dsimp only
  rw [← Prod.eta mock.injectFailure, hmock]
  exact Mock.emitWords_accepted _ _ (fun _ => rfl) 0 _

/-- Without streaming, the completion is sent. -/
theorem mockExchange_whole (hmock : mock.injectFailure.1 = none) :
    mockExchange hvalid requestID false format mock created
      = .answered 200 (text format (.obj (responseMembers
          (mock.injectFailure.2.completion (receivedOf hvalid requestID false)) created)) ++ [0x0a])
        none := by
  unfold mockExchange mockComplete
  dsimp only
  split
  · next h =>
      rw [(payloadOf hvalid requestID false).validate_eq_ok_iff.mpr
        (payloadOf_valid hvalid requestID false)] at h
      cases h
  · next h =>
      have hcomplete := complete_uninterrupted hmock (receivedOf hvalid requestID false)
      unfold receivedOf at hcomplete
      rw [hcomplete]
      rfl

/-- With streaming, the words are sent. -/
theorem mockExchange_stream (hmock : mock.injectFailure.1 = none) :
    mockExchange hvalid requestID true format mock created
      = .answered 200
          ((Mock.wordChunks (fields (Mock.content (receivedOf hvalid requestID true)))).flatMap
            (mockEmit format (normalizeModel input.model)) ++ done) none := by
  unfold mockExchange mockComplete
  dsimp only
  split
  · next h =>
      rw [(payloadOf hvalid requestID true).validate_eq_ok_iff.mpr
        (payloadOf_valid hvalid requestID true)] at h
      cases h
  · next h =>
      have hstream := stream_uninterrupted hmock (receivedOf hvalid requestID true)
      unfold receivedOf at hstream
      rw [hstream]
      rfl

end Payload

/-! ## Lines -/

/-- The pieces of a list are parts of it. -/
theorem sublist_of_mem_splitOnP {cs piece : List Char} (h : piece ∈ cs.splitOnP isSpace) :
    piece.Sublist cs := by
  induction cs generalizing piece with
  | nil =>
      rw [List.splitOnP_nil, List.mem_singleton] at h
      rw [h]
  | cons c cs ih =>
      rw [List.splitOnP_cons_eq_if_modifyHead] at h
      split at h
      · rcases List.mem_cons.mp h with rfl | hmem
        · exact List.nil_sublist _
        · exact (ih hmem).cons c
      · cases hsplit : cs.splitOnP isSpace with
        | nil => exact absurd hsplit (List.splitOnP_ne_nil _ _)
        | cons first rest =>
            rw [hsplit, List.modifyHead_cons] at h
            rcases List.mem_cons.mp h with rfl | hmem
            · exact (ih (hsplit ▸ List.mem_cons_self ..)).cons_cons c
            · exact (ih (hsplit ▸ List.mem_cons_of_mem _ hmem)).cons c

theorem fields_size {s word : String} (h : word ∈ fields s) :
    word.utf8ByteSize ≤ s.utf8ByteSize := by
  obtain ⟨piece, hpiece, rfl⟩ := List.mem_map.mp h
  apply sublist_bytes
  rw [String.toList_ofList]
  exact sublist_of_mem_splitOnP (List.mem_filter.mp hpiece).1

/-- A chunk holds a word and perhaps a blank, or it is the end. -/
theorem mem_wordChunks {words : List String} {chunk : Chunk} (h : chunk ∈ Mock.wordChunks words) :
    (chunk.content = "" ∨ ∃ word ∈ words, chunk.content = word ∨ chunk.content = word ++ " ")
      ∧ (chunk.finishReason = "" ∨ chunk.finishReason = "stop") := by
  induction words with
  | nil =>
      rw [Mock.wordChunks, List.mem_singleton] at h
      rw [h]
      exact ⟨Or.inl rfl, Or.inr rfl⟩
  | cons word words ih =>
      rw [Mock.wordChunks] at h
      rcases List.mem_cons.mp h with rfl | hmem
      · refine ⟨Or.inr ⟨word, List.mem_cons_self .., ?_⟩, Or.inl rfl⟩
        dsimp only
        split
        · exact Or.inr rfl
        · exact Or.inl rfl
      · obtain ⟨hcontent, hfinish⟩ := ih hmem
        refine ⟨hcontent.imp_right ?_, hfinish⟩
        rintro ⟨word', hword', heq⟩
        exact ⟨word', List.mem_cons_of_mem _ hword', heq⟩

/-- A line is short if its strings are. -/
theorem mockEvent_short (format : Format) {model : String} {chunk : Chunk}
    (hmodel : model.utf8ByteSize ≤ 128) (hcontent : chunk.content.utf8ByteSize ≤ 70000)
    (hfinish : chunk.finishReason = "" ∨ chunk.finishReason = "stop") :
    (lineOf format (mockEvent model chunk, chunk)).length < maxLine := by
  have hquoted := JsonText.quote_length chunk.content
  have hnamed := JsonText.quote_length model
  have hzero : (format.number ((0 : Int) : Float64)).length = 1 := by
    rw [format.number_whole 0 (by decide)]
    decide
  have hreason : (text format (nilIfBlank chunk.finishReason)).length ≤ 6 := by
    rcases hfinish with h | h
    · rw [h]
      show (bytes "null").length ≤ 6
      decide
    · rw [h]
      show (quote "stop").length ≤ 6
      decide
  -- the names and the fixed values
  have hfixed : (bytes "data: ").length = 6 ∧ (quote "choices").length = 9
      ∧ (quote "delta").length = 7 ∧ (quote "content").length = 9
      ∧ (quote "finish_reason").length = 15 ∧ (quote "index").length = 7
      ∧ (quote "id").length = 4 ∧ (quote "mock-stream").length = 13 ∧ (quote "model").length = 7
      ∧ (quote "object").length = 8 ∧ (quote "chat.completion.chunk").length = 23 := by
    decide
  have hmax : maxLine = 1048576 := rfl
  simp only [lineOf, mockEvent, choicesOf, text, JsonText.memberTexts, JsonText.texts, Lib.listed,
    Lib.tail, List.length_append, List.length_cons, List.length_nil]
  omega

/-! ## Both modes -/

/-- What the body of a response is decoded to. -/
def bodyOf (completion : Completion) : Body :=
  ⟨completion.providerRequestID, completion.model,
    [(⟨"assistant", completion.content⟩, completion.finishReason)], completion.usage⟩

/-- What is relied on of encoding/json for a body: it is decoded, with or without
    the line break after it, and rejected when it is cut off. -/
structure DecodesBody (format : Format) (codec : Codec) (members : List (String × Json))
    (body : Body) : Prop where
  whole : ∀ q, q <+: [0x0a] → codec.body (text format (.obj members) ++ q) none = .ok body
  cut : ∀ p, p <+: text format (.obj members) → p ≠ text format (.obj members) →
    ∃ err, codec.body p none = .error err

/-- The adapter returns the completion that was sent, or an error. -/
theorem complete_sent {format : Format} {codec : Codec} {completion : Completion} {created : Int}
    (hbody : DecodesBody format codec (responseMembers completion created) (bodyOf completion))
    (adapter : OpenAICompatible) {result : Completion}
    (h : adapter.complete codec (.answered 200
      (text format (.obj (responseMembers completion created)) ++ [0x0a]) none) = .ok result) :
    result = completion := by
  have hending : ∀ body, (adapter.limited body none).2 = none := by
    intro body
    unfold OpenAICompatible.limited
    split <;> rfl
  rw [OpenAICompatible.complete_answered adapter codec (by decide), hending] at h
  have hinit := limited_init adapter
    (text format (.obj (responseMembers completion created)) ++ [0x0a]) none
  generalize (adapter.limited _ none).1 = received at h hinit
  rcases init_append hinit with hinit | ⟨q, hq, rfl⟩
  · by_cases hall : received = text format (.obj (responseMembers completion created))
    · have hwhole := hbody.whole [] List.nil_prefix
      rw [List.append_nil, ← hall] at hwhole
      rw [hwhole] at h
      exact (Except.ok.inj h).symm
    · obtain ⟨err, herr⟩ := hbody.cut _ hinit hall
      rw [herr] at h
      cases h
  · rw [hbody.whole q hq] at h
    exact (Except.ok.inj h).symm

/-- A request with some content has at least one prompt token. -/
theorem estimateTokens_pos {input : ChatInput} (hvalid : input.Valid) (content : String) :
    0 < (estimateTokens input.messages content).promptTokens := by
  obtain ⟨message, rest, hmessages⟩ := List.exists_cons_of_ne_nil hvalid.messages_ne
  have hblank := (hvalid.messages message (hmessages ▸ List.mem_cons_self ..)).content
  have hsize : message.content.utf8ByteSize ≠ 0 := by
    intro hzero
    rw [String.utf8ByteSize_eq_zero_iff.mp hzero] at hblank
    exact absurd hblank (by decide)
  have hprompt : (estimateTokens input.messages content).promptTokens
      = (((input.messages.map fun message => message.content.utf8ByteSize).sum + 3) / 4 : Nat) :=
    rfl
  rw [hprompt, hmessages, List.map_cons, List.sum_cons]
  omega

/-- The two modes agree: both succeed, with the same content and usage. -/
def Agree (whole : Except GoError Completion) (streamed : List Chunk × Except GoError Usage) :
    Prop :=
  ∃ completion, whole = .ok completion ∧ streamed.2 = .ok completion.usage
    ∧ String.join (streamed.1.map Chunk.content) = completion.content

section Modes

variable {format : Format} {codec : Codec} {input : ChatInput}

/-- The lines of a valid input's stream are not too long. -/
theorem legible_words (hvalid : input.Valid) (requestID : String) {chunk : Chunk}
    (hchunk : chunk ∈ Mock.wordChunks (fields (Mock.content (receivedOf hvalid requestID true))))
    (hdecodes : Decodes format codec (mockEvent (normalizeModel input.model) chunk, chunk)) :
    Legible format codec (mockEvent (normalizeModel input.model) chunk, chunk) := by
  have hlast := (hvalid.messages _ (List.getLast_mem hvalid.messages_ne)).short
  have hcontent : (Mock.content (receivedOf hvalid requestID true)).utf8ByteSize
      = 27 + (input.messages.getLast hvalid.messages_ne).content.utf8ByteSize :=
    String.utf8ByteSize_append
  obtain ⟨hword, hfinish⟩ := mem_wordChunks hchunk
  refine ⟨hdecodes, mockEvent_short format (payloadOf_valid hvalid requestID true).modelShort ?_
    hfinish⟩
  rcases hword with hempty | ⟨word, hmem, heq | heq⟩
  · rw [hempty]
    decide
  · have hsize := fields_size hmem
    rw [heq]
    omega
  · have hsize := fields_size hmem
    have hblank : (word ++ " ").utf8ByteSize = word.utf8ByteSize + 1 := String.utf8ByteSize_append
    rw [heq]
    omega

/-- **The two modes never agree.** For every valid input served by the mock
    provider's handler without injected failure, the adapter reports no usage
    for the stream and at least one prompt token for the completion. -/
theorem modes_never_agree (hmarker : RejectsMarker codec) (adapter : OpenAICompatible)
    (requestID : String) (created : Int) (h : input.validate = .ok ()) {mock mock' : Mock}
    (hmock : mock.injectFailure.1 = none) (hmock' : mock'.injectFailure.1 = none) :
    let hvalid := input.validate_eq_ok_iff.mp h
    let completion := mock.injectFailure.2.completion (receivedOf hvalid requestID false)
    DecodesBody format codec (responseMembers completion created) (bodyOf completion) →
    (∀ chunk ∈ Mock.wordChunks (fields (Mock.content (receivedOf hvalid requestID true))),
      Decodes format codec (mockEvent (normalizeModel input.model) chunk, chunk)) →
    ¬ Agree (adapter.complete codec (mockExchange hvalid requestID false format mock created))
      (adapter.stream codec (mockExchange hvalid requestID true format mock' created)).accepted := by
  intro hvalid completion hbody hevents
  rintro ⟨result, hresult, husage, -⟩
  rw [mockExchange_whole hvalid requestID format created hmock] at hresult
  obtain rfl := complete_sent hbody adapter hresult
  rw [mockExchange_stream hvalid requestID format created hmock', ← sent_mock] at husage
  have hread := stream_read hmarker
    (List.forall_mem_map.mpr fun chunk hchunk => legible_words hvalid requestID hchunk
      (hevents chunk hchunk)) adapter (by decide : (200 : Int) < 400) none (List.prefix_refl _)
  have hnone : completion.usage = noUsage := hread.usage_eq husage
  have hpos := estimateTokens_pos hvalid (Mock.content (receivedOf hvalid requestID false))
  have hzero : (estimateTokens input.messages
      (Mock.content (receivedOf hvalid requestID false))).promptTokens = 0 :=
    congrArg Usage.promptTokens hnone
  omega

end Modes

/-- A decoder that knows the text of a body. -/
theorem decodesBody_table {posts : List Post} {bodies : List (List (String × Json) × Body)}
    {members : List (String × Json)} {body : Body}
    (h : ∀ q, q <+: [0x0a] →
      (tableCodec posts bodies).body (text wholeFormat (.obj members) ++ q) none = .ok body) :
    DecodesBody wholeFormat (tableCodec posts bodies) members body where
  whole := h
  cut := by
    rintro p ⟨r, hr⟩ hne
    -- the start of a text has no line break, and is no other text
    have hlast : p.getLast? ≠ some 0x0a := by
      intro hlast
      have hmem : 0x0a ∈ text wholeFormat (.obj members) := by
        rw [← hr]
        exact List.mem_append_left r (List.mem_of_getLast? hlast)
      exact absurd (JsonText.text_bytes _ _ hmem) (by decide)
    have hnone : (bodyTable bodies).lookup p = none := by
      rw [List.lookup_eq_none_iff]
      intro entry hentry
      obtain ⟨known, -, rfl⟩ := List.mem_map.mp hentry
      apply bne_iff_ne.mpr
      rintro rfl
      have hrest := JsonText.object_reads (hr.trans (List.append_nil _).symm)
      rw [hrest.2, List.append_nil] at hr
      exact hne hr
    refine ⟨.new "unexpected end of JSON input", ?_⟩
    simp only [tableCodec, if_neg hlast, hnone]

def blanksInput : ChatInput where
  model := "m"
  messages := [⟨"user", "a  b"⟩]

theorem blanksInput_validate : blanksInput.validate = .ok () := by decide +kernel

theorem blanksInput_valid : blanksInput.Valid :=
  blanksInput.validate_eq_ok_iff.mp blanksInput_validate

def freshMock : Mock := Aegis.Provider.newMock ⟨"", [], 0, 0, ""⟩

def blanksCompletion : Completion :=
  freshMock.injectFailure.2.completion (receivedOf blanksInput_valid "q" false)

def blanksChunks : List Chunk :=
  Mock.wordChunks (fields (Mock.content (receivedOf blanksInput_valid "q" true)))

def blanksPosts : List Post :=
  blanksChunks.map fun chunk => (mockEvent (normalizeModel blanksInput.model) chunk, chunk)

def blanksBodies : List (List (String × Json) × Body) :=
  [(responseMembers blanksCompletion 1, bodyOf blanksCompletion)]

/-- Two blanks between the words: they are lost in the stream, and so is the
    usage. -/
theorem blanks_differ :
    let served := fun stream => mockExchange blanksInput_valid "q" stream wholeFormat freshMock 1
    sampleAdapter.complete (tableCodec blanksPosts blanksBodies) (served false)
        = .ok { providerRequestID := "mock-1", model := "m"
                content := "Deterministic response to: a  b", finishReason := "stop"
                usage := ⟨1, 8, 9⟩ }
      ∧ (sampleAdapter.stream (tableCodec blanksPosts blanksBodies) (served true)).accepted
        = ([⟨"Deterministic ", ""⟩, ⟨"response ", ""⟩, ⟨"to: ", ""⟩, ⟨"a ", ""⟩, ⟨"b", ""⟩,
            ⟨"", "stop"⟩], .ok ⟨0, 0, 0⟩) := by
  decide +kernel

theorem modes_never_agree_blanks :
    ¬ Agree
      (sampleAdapter.complete (tableCodec blanksPosts blanksBodies)
        (mockExchange blanksInput_valid "q" false wholeFormat freshMock 1))
      (sampleAdapter.stream (tableCodec blanksPosts blanksBodies)
        (mockExchange blanksInput_valid "q" true wholeFormat freshMock 1)).accepted := by
  have hbody : DecodesBody wholeFormat (tableCodec blanksPosts blanksBodies)
      (responseMembers blanksCompletion 1) (bodyOf blanksCompletion) := by
    apply decodesBody_table
    intro q hq
    have hcases : ∀ q ∈ ([0x0a] : List UInt8).inits, (tableCodec blanksPosts blanksBodies).body
        (text wholeFormat (.obj (responseMembers blanksCompletion 1)) ++ q) none
          = .ok (bodyOf blanksCompletion) := by
      decide +kernel
    exact hcases q ((List.mem_inits _ _).mpr hq)
  have hevents : ∀ chunk ∈ blanksChunks,
      Decodes wholeFormat (tableCodec blanksPosts blanksBodies)
        (mockEvent (normalizeModel blanksInput.model) chunk, chunk) := by
    have hwhole : ∀ chunk ∈ blanksChunks,
        (tableCodec blanksPosts blanksBodies).event
          (text wholeFormat (.obj (mockEvent (normalizeModel blanksInput.model) chunk)))
            = .ok (eventOf chunk) := by
      decide +kernel
    intro chunk hchunk
    exact decodes_table (hwhole chunk hchunk)
  have hmarker : RejectsMarker (tableCodec blanksPosts blanksBodies) := rejectsMarker_table
  have hmock : freshMock.injectFailure.1 = none := rfl
  exact modes_never_agree hmarker sampleAdapter "q" 1 blanksInput_validate hmock hmock hbody
    hevents

end Aegis.Api
