/-
  Aegis.Idempotency

  The canonical hash of a chat request (internal/idempotency/hash.go): SHA-256
  of what encoding/json writes for the decoded input.

  What an input means is said by a denotation: an object is a function from
  names to values (`JsonValue`), so that neither the order of members nor the
  difference between absent and empty metadata is seen.  The denotation takes
  the reading of a number as a parameter.  Up to numbers read as `float64`s
  with the sign of their zeros, equal meaning is equal text
  (`marshal_eq_iff`); read as the values they stand for it is not, since `0`
  and `-0` are written differently.
-/

import Aegis.JsonText
import Aegis.Lib.Sha256
import Mathlib.Data.Int.Cast.Lemmas
import Mathlib.Data.List.Sort
import Mathlib.Data.String.Basic

namespace Aegis.Idempotency

open Aegis.JsonText (Format Json.induct text text_injective)
open Aegis.Request (ChatInput Json Message)

/-! ## What a value means -/

/-- A JSON value with numbers in `ν`, independent of the order of members. -/
inductive JsonValue (ν : Type) where
  | null
  | bool (b : Bool)
  | num (n : ν)
  | str (s : String)
  | arr (items : List (JsonValue ν))
  | obj (members : String → Option (JsonValue ν))

section Denote

variable {ν : Type} (number : Float64 → ν)

mutual

def denote : Json → JsonValue ν
  | .null => .null
  | .bool b => .bool b
  | .num x => .num (number x)
  | .str s => .str s
  | .arr items => .arr (denoteItems items)
  | .obj members => .obj (denoteMembers members)

def denoteItems : List Json → List (JsonValue ν)
  | [] => []
  | item :: items => denote item :: denoteItems items

def denoteMembers : List (String × Json) → String → Option (JsonValue ν)
  | [], _ => none
  | (name, value) :: members, key =>
      if name = key then some (denote value) else denoteMembers members key

end

theorem denoteItems_eq_map (items : List Json) :
    denoteItems number items = items.map (denote number) := by
  induction items with
  | nil => rw [denoteItems, List.map_nil]
  | cons item items ih => rw [denoteItems, ih, List.map_cons]

end Denote

/-- A value as a Go map holds it: no object has a name twice. -/
inductive Distinct : Json → Prop
  | null : Distinct .null
  | bool (b : Bool) : Distinct (.bool b)
  | num (x : Float64) : Distinct (.num x)
  | str (s : String) : Distinct (.str s)
  | arr {items : List Json} (h : ∀ item ∈ items, Distinct item) : Distinct (.arr items)
  | obj {members : List (String × Json)} (hnames : (members.map Prod.fst).Nodup)
      (h : ∀ member ∈ members, Distinct member.2) : Distinct (.obj members)

section Lookup

variable {ν : Type} {number : Float64 → ν} {members members' : List (String × Json)}

theorem denoteMembers_isSome {key : String} {v : JsonValue ν}
    (h : denoteMembers number members key = some v) :
    ∃ value, (key, value) ∈ members ∧ denote number value = v := by
  induction members with
  | nil => cases h
  | cons member members ih =>
      obtain ⟨name, value⟩ := member
      rw [denoteMembers] at h
      split at h
      · next hname =>
          subst hname
          exact ⟨value, List.mem_cons_self .., Option.some.inj h⟩
      · obtain ⟨value', hmem, hvalue⟩ := ih h
        exact ⟨value', List.mem_cons_of_mem _ hmem, hvalue⟩

/-- With distinct names, a member is what its name denotes. -/
theorem denoteMembers_of_mem (hnames : (members.map Prod.fst).Nodup) {key : String} {value : Json}
    (h : (key, value) ∈ members) :
    denoteMembers number members key = some (denote number value) := by
  induction members with
  | nil => exact absurd h List.not_mem_nil
  | cons member members ih =>
      obtain ⟨name, first⟩ := member
      rw [List.map_cons, List.nodup_cons] at hnames
      rw [denoteMembers]
      rcases List.mem_cons.mp h with heq | hmem
      · cases heq
        rw [if_pos rfl]
      · have hne : name ≠ key := by
          rintro rfl
          exact hnames.1 (List.mem_map.mpr ⟨(name, value), hmem, rfl⟩)
        rw [if_neg hne]
        exact ih hnames.2 hmem

/-- Rearranged members denote the same. -/
theorem denoteMembers_perm (hnames : (members.map Prod.fst).Nodup) (h : members.Perm members') :
    denoteMembers number members = denoteMembers number members' := by
  have hnames' : (members'.map Prod.fst).Nodup := (h.map Prod.fst).nodup_iff.mp hnames
  funext key
  cases hleft : denoteMembers number members key with
  | some v =>
      obtain ⟨value, hmem, rfl⟩ := denoteMembers_isSome hleft
      exact (denoteMembers_of_mem hnames' (h.mem_iff.mp hmem)).symm
  | none =>
      cases hright : denoteMembers number members' key with
      | none => rfl
      | some v =>
          obtain ⟨value, hmem, rfl⟩ := denoteMembers_isSome hright
          have hsome : denoteMembers number members key = some (denote number value) :=
            denoteMembers_of_mem hnames (h.mem_iff.mpr hmem)
          rw [hleft] at hsome
          cases hsome

end Lookup

/-! ## The canonical form -/

mutual

/-- `json.Marshal` writes the members of a map sorted by name. -/
def canonical : Json → Json
  | .null => .null
  | .bool b => .bool b
  | .num x => .num x
  | .str s => .str s
  | .arr items => .arr (canonicalItems items)
  | .obj members => .obj ((canonicalMembers members).insertionSort fun a b => a.1 ≤ b.1)

def canonicalItems : List Json → List Json
  | [] => []
  | item :: items => canonical item :: canonicalItems items

def canonicalMembers : List (String × Json) → List (String × Json)
  | [] => []
  | (name, value) :: members => (name, canonical value) :: canonicalMembers members

end

theorem canonicalItems_eq_map (items : List Json) :
    canonicalItems items = items.map canonical := by
  induction items with
  | nil => rw [canonicalItems, List.map_nil]
  | cons item items ih => rw [canonicalItems, ih, List.map_cons]

theorem canonicalMembers_eq_map (members : List (String × Json)) :
    canonicalMembers members = members.map fun member => (member.1, canonical member.2) := by
  induction members with
  | nil => rw [canonicalMembers, List.map_nil]
  | cons member members ih => rw [canonicalMembers, ih, List.map_cons]

theorem canonicalMembers_names (members : List (String × Json)) :
    (canonicalMembers members).map Prod.fst = members.map Prod.fst := by
  rw [canonicalMembers_eq_map, List.map_map]
  rfl

/-- The canonical form means the same. -/
theorem denote_canonical {ν : Type} (number : Float64 → ν) {a : Json} (ha : Distinct a) :
    denote number (canonical a) = denote number a := by
  induction a using Json.induct with
  | hnull | hbool | hnum | hstr => rfl
  | harr items ih =>
      cases ha with
      | arr h =>
          rw [canonical, denote, denote, canonicalItems_eq_map, denoteItems_eq_map,
            denoteItems_eq_map, List.map_map]
          congr 1
          apply List.map_congr_left
          intro item hitem
          exact ih item hitem (h item hitem)
  | hobj members ih =>
      cases ha with
      | obj hnames h =>
          have hsorted : ((canonicalMembers members).insertionSort fun a b => a.1 ≤ b.1).Perm
              (canonicalMembers members) := List.perm_insertionSort _ _
          have hnames' : ((canonicalMembers members).map Prod.fst).Nodup := by
            rw [canonicalMembers_names]
            exact hnames
          have hperm : denoteMembers number (canonicalMembers members) = _ :=
            denoteMembers_perm hnames' hsorted.symm
          rw [canonical, denote, denote, ← hperm]
          congr 1
          -- member by member
          clear hperm hsorted hnames' hnames
          induction members with
          | nil => rfl
          | cons member members ihm =>
              obtain ⟨name, value⟩ := member
              funext key
              rw [canonicalMembers, denoteMembers, denoteMembers]
              rw [ih _ (List.mem_cons_self ..) (h _ (List.mem_cons_self ..)),
                ihm (fun m hm => ih m (List.mem_cons_of_mem _ hm))
                  (fun m hm => h m (List.mem_cons_of_mem _ hm))]

/-- Members with distinct names are sorted in one way only. -/
theorem insertionSort_eq {ms ns : List (String × Json)} (hms : (ms.map Prod.fst).Nodup)
    (hns : (ns.map Prod.fst).Nodup) (h : ∀ member, member ∈ ms ↔ member ∈ ns) :
    ms.insertionSort (fun a b => a.1 ≤ b.1) = ns.insertionSort (fun a b => a.1 ≤ b.1) := by
  have hperm : ms.Perm ns :=
    (List.perm_ext_iff_of_nodup (List.Nodup.of_map _ hms) (List.Nodup.of_map _ hns)).mpr h
  have hsorted : (ms.insertionSort fun a b => a.1 ≤ b.1).Perm
      (ns.insertionSort fun a b => a.1 ≤ b.1) :=
    (List.perm_insertionSort _ _).trans (hperm.trans (List.perm_insertionSort _ _).symm)
  refine List.Perm.eq_of_pairwise ?_ (List.pairwise_insertionSort _ _)
    (List.pairwise_insertionSort _ _) hsorted
  intro a b ha hb hab hba
  -- equal names, so the same member
  have ha' : a ∈ ms := (List.mem_insertionSort _).mp ha
  have hb' : b ∈ ms := (h b).mpr ((List.mem_insertionSort _).mp hb)
  exact List.inj_on_of_nodup_map hms ha' hb' (le_antisymm hab hba)

theorem map_eq_map_of_agree {α β γ : Type} {f : α → β} {g : α → γ} {xs ys : List α}
    (h : ∀ x ∈ xs, ∀ y ∈ ys, f x = f y → g x = g y) (hf : xs.map f = ys.map f) :
    xs.map g = ys.map g := by
  induction xs generalizing ys with
  | nil =>
      have hys : ys = [] := List.map_eq_nil_iff.mp hf.symm
      rw [hys]
  | cons x xs ih =>
      cases ys with
      | nil => cases hf
      | cons y ys =>
          obtain ⟨hxy, hrest⟩ := List.cons.inj hf
          have hhead := h x (List.mem_cons_self ..) y (List.mem_cons_self ..) hxy
          have htail := ih (fun a ha b hb =>
            h a (List.mem_cons_of_mem _ ha) b (List.mem_cons_of_mem _ hb)) hrest
          rw [List.map_cons, List.map_cons, hhead, htail]

/-- Objects with the same lookups hold the same members, up to what agrees on
    the values that mean the same. -/
theorem mem_canonicalMembers_of_lookup {members members' : List (String × Json)}
    (hnames : (members.map Prod.fst).Nodup)
    (hlookup : denoteMembers id members = denoteMembers id members')
    (hagree : ∀ m ∈ members, ∀ m' ∈ members', denote id m.2 = denote id m'.2 →
      canonical m.2 = canonical m'.2)
    {member : String × Json} (h : member ∈ canonicalMembers members) :
    member ∈ canonicalMembers members' := by
  rw [canonicalMembers_eq_map] at h ⊢
  obtain ⟨⟨name, value⟩, hmem, rfl⟩ := List.mem_map.mp h
  have hvalue : denoteMembers id members name = some (denote id value) :=
    denoteMembers_of_mem hnames hmem
  rw [hlookup] at hvalue
  obtain ⟨value', hmem', hsame⟩ := denoteMembers_isSome hvalue
  have hcanonical := hagree _ hmem _ hmem' hsame.symm
  exact List.mem_map.mpr ⟨(name, value'), hmem', by rw [hcanonical]⟩

/-- **Equal meaning, equal canonical form.** -/
theorem canonical_of_denote {a b : Json} (ha : Distinct a) (hb : Distinct b)
    (h : denote id a = denote id b) : canonical a = canonical b := by
  induction a using Json.induct generalizing b with
  | hnull =>
      cases b with
      | null => rfl
      | _ => cases h
  | hbool c =>
      cases b with
      | bool d =>
          cases h
          rfl
      | _ => cases h
  | hnum x =>
      cases b with
      | num y =>
          have hxy : x = y := JsonValue.num.inj h
          rw [hxy]
      | _ => cases h
  | hstr s =>
      cases b with
      | str t =>
          cases h
          rfl
      | _ => cases h
  | harr items ih =>
      cases b with
      | arr items' =>
          cases ha with
          | arr hitems =>
              cases hb with
              | arr hitems' =>
                  rw [denote, denote, denoteItems_eq_map, denoteItems_eq_map] at h
                  rw [canonical, canonical, canonicalItems_eq_map, canonicalItems_eq_map]
                  rw [map_eq_map_of_agree (fun a ha b hb => ih a ha (hitems a ha) (hitems' b hb))
                    (JsonValue.arr.inj h)]
      | _ => cases h
  | hobj members ih =>
      cases b with
      | obj members' =>
          cases ha with
          | obj hnames hmembers =>
              cases hb with
              | obj hnames' hmembers' =>
                  rw [denote, denote] at h
                  have hlookup := JsonValue.obj.inj h
                  rw [canonical, canonical]
                  congr 1
                  apply insertionSort_eq
                  · rw [canonicalMembers_names]
                    exact hnames
                  · rw [canonicalMembers_names]
                    exact hnames'
                  · intro member
                    constructor
                    · exact mem_canonicalMembers_of_lookup hnames hlookup fun m hm m' hm' hmm' =>
                        ih m hm (hmembers m hm) (hmembers' m' hm') hmm'
                    · exact mem_canonicalMembers_of_lookup hnames' hlookup.symm
                        fun m' hm' m hm hmm' =>
                          (ih m hm (hmembers m hm) (hmembers' m' hm') hmm'.symm).symm
      | _ => cases h

theorem canonical_eq_iff {a b : Json} (ha : Distinct a) (hb : Distinct b) :
    canonical a = canonical b ↔ denote id a = denote id b := by
  constructor
  · intro h
    rw [← denote_canonical id ha, h, denote_canonical id hb]
  · exact canonical_of_denote ha hb

/-! ## Chat inputs -/

/-- What a chat input asks for. -/
@[ext] structure Meaning (ν : Type) where
  model : String
  messages : List Message
  temperature : Option ν
  maxTokens : Int
  stream : Bool
  metadata : String → Option (JsonValue ν)

def meaning {ν : Type} (number : Float64 → ν) (input : ChatInput) : Meaning ν where
  model := input.model
  messages := input.messages
  temperature := input.temperature.map number
  maxTokens := input.maxTokens
  stream := input.stream
  metadata := denoteMembers number input.metadata

/-- The same semantic input: numbers are compared by value. -/
def Same (x y : ChatInput) : Prop := meaning Float64.value x = meaning Float64.value y

/-- The same semantic input, down to the signs of zeros. -/
def Identical (x y : ChatInput) : Prop := meaning id x = meaning id y

/-- An input as the chat handler decodes it. -/
def Decoded (input : ChatInput) : Prop := Distinct (.obj input.metadata)

def messageJson (message : Message) : Json :=
  .obj [("role", .str message.role), ("content", .str message.content)]

/-- The metadata that is written, if any. -/
def writtenMetadata (input : ChatInput) : Option Json :=
  if input.metadata.isEmpty then none else some (canonical (.obj input.metadata))

/-- The members that `json.Marshal` writes for a `ChatInput`: the last four are
    left out when empty. -/
def inputMembers (input : ChatInput) : List (String × Json) :=
  [("model", .str input.model), ("messages", .arr (input.messages.map messageJson))]
    ++ (input.temperature.toList.map fun temperature => ("temperature", .num temperature))
    ++ (if input.maxTokens = 0 then [] else [("max_tokens", .num input.maxTokens)])
    ++ (if input.stream then [("stream", .bool true)] else [])
    ++ ((writtenMetadata input).toList.map fun metadata => ("metadata", metadata))

/-- `json.Marshal(input)`. -/
def marshal (format : Format) (input : ChatInput) : List UInt8 :=
  text format (.obj (inputMembers input))

/-- `HashChat`.  A decoded input has no number that cannot be written. -/
def hashChat (format : Format) (input : ChatInput) : Except GoError (List UInt8) :=
  .ok (Lib.Sha256.sum256 (marshal format input))

theorem lookup_inputMembers (input : ChatInput) :
    (inputMembers input).lookup "model" = some (.str input.model)
      ∧ (inputMembers input).lookup "messages" = some (.arr (input.messages.map messageJson))
      ∧ (inputMembers input).lookup "temperature" = input.temperature.map .num
      ∧ (inputMembers input).lookup "max_tokens"
          = (if input.maxTokens = 0 then none else some (.num input.maxTokens))
      ∧ (inputMembers input).lookup "stream"
          = (if input.stream then some (.bool true) else none)
      ∧ (inputMembers input).lookup "metadata" = writtenMetadata input := by
  unfold inputMembers
  cases input.temperature <;> by_cases hmax : input.maxTokens = 0 <;> cases input.stream <;>
    cases writtenMetadata input <;> simp [hmax, List.lookup_cons]

theorem messageJson_injective : Function.Injective messageJson := by
  rintro ⟨role, content⟩ ⟨role', content'⟩ h
  simp only [messageJson, Json.obj.injEq, List.cons.injEq, Prod.mk.injEq, Json.str.injEq, true_and,
    and_true] at h
  rw [h.1, h.2]

theorem intCast_injective {m n : Int} (h : (m : Float64) = (n : Float64)) : m = n := by
  have hvalue : ((m : Float64).value : ℚ) = (n : Float64).value := by rw [h]
  exact Int.cast_injective hvalue

/-- Metadata is written for all inputs that have some. -/
theorem metadata_of_isEmpty {ν : Type} {number : Float64 → ν} {members : List (String × Json)} :
    denoteMembers number members = (fun _ => none) ↔ members.isEmpty = true := by
  cases members with
  | nil => exact iff_of_true rfl rfl
  | cons member members =>
      refine iff_of_false ?_ Bool.false_ne_true
      intro h
      have hkey := congrFun h member.1
      rw [denoteMembers, if_pos rfl] at hkey
      cases hkey

theorem writtenMetadata_eq_iff {x y : ChatInput} (hx : Decoded x) (hy : Decoded y) :
    writtenMetadata x = writtenMetadata y
      ↔ denoteMembers id x.metadata = denoteMembers id y.metadata := by
  have hcanonical : canonical (.obj x.metadata) = canonical (.obj y.metadata)
      ↔ denoteMembers id x.metadata = denoteMembers id y.metadata := by
    rw [canonical_eq_iff hx hy, denote, denote, JsonValue.obj.injEq]
  have hnone : ∀ members : List (String × Json),
      denoteMembers id members = (fun _ => none) ↔ members.isEmpty = true :=
    fun _ => metadata_of_isEmpty
  unfold writtenMetadata
  split
  · next hempty =>
      rw [(hnone _).mpr hempty]
      split
      · next hempty' => rw [(hnone _).mpr hempty', eq_self, eq_self]
      · next hempty' =>
          apply iff_of_false (Option.some_ne_none _).symm
          intro h
          exact hempty' ((hnone _).mp h.symm)
  · next hempty =>
      split
      · next hempty' =>
          apply iff_of_false (Option.some_ne_none _)
          intro h
          rw [(hnone _).mpr hempty'] at h
          exact hempty ((hnone _).mp h)
      · rw [Option.some.injEq, hcanonical]

/-- Identical inputs agree field by field. -/
theorem Identical.fields {x y : ChatInput} (h : Identical x y) :
    x.model = y.model ∧ x.messages = y.messages ∧ x.temperature = y.temperature
      ∧ x.maxTokens = y.maxTokens ∧ x.stream = y.stream
      ∧ denoteMembers id x.metadata = denoteMembers id y.metadata := by
  have htemperature : x.temperature.map id = y.temperature.map id :=
    congrArg Meaning.temperature h
  rw [Option.map_id, id, id] at htemperature
  exact ⟨congrArg Meaning.model h, congrArg Meaning.messages h, htemperature,
    congrArg Meaning.maxTokens h, congrArg Meaning.stream h, congrArg Meaning.metadata h⟩

/-- **What the encoding keeps.** Two inputs are written alike exactly when they
    mean the same down to the signs of their zeros. -/
theorem marshal_eq_iff (format : Format) {x y : ChatInput} (hx : Decoded x) (hy : Decoded y) :
    marshal format x = marshal format y ↔ Identical x y := by
  constructor
  · intro h
    have hmembers : inputMembers x = inputMembers y := Json.obj.inj (JsonText.text_injective h)
    obtain ⟨hmodel, hmessages, htemperature, hmax, hstream, hmetadata⟩ := lookup_inputMembers x
    obtain ⟨hmodel', hmessages', htemperature', hmax', hstream', hmetadata'⟩ :=
      lookup_inputMembers y
    rw [hmembers] at hmodel hmessages htemperature hmax hstream hmetadata
    apply Meaning.ext
    · exact Json.str.inj (Option.some.inj (hmodel.symm.trans hmodel'))
    · have harr := Json.arr.inj (Option.some.inj (hmessages.symm.trans hmessages'))
      exact List.map_injective_iff.mpr messageJson_injective harr
    · have hnum := htemperature.symm.trans htemperature'
      rw [show (meaning id x).temperature = x.temperature from Option.map_id_apply,
        show (meaning id y).temperature = y.temperature from Option.map_id_apply]
      exact Option.map_injective (fun a b h => Json.num.inj h) hnum
    · have hint := hmax.symm.trans hmax'
      show x.maxTokens = y.maxTokens
      split at hint
      · next hzero =>
          split at hint
          · next hzero' => rw [hzero, hzero']
          · cases hint
      · split at hint
        · cases hint
        · exact intCast_injective (Json.num.inj (Option.some.inj hint))
    · have hbool := hstream.symm.trans hstream'
      show x.stream = y.stream
      cases hx' : x.stream <;> cases hy' : y.stream <;> simp [hx', hy'] at hbool ⊢
    · exact (writtenMetadata_eq_iff hx hy).mp (hmetadata.symm.trans hmetadata')
  · intro h
    obtain ⟨hmodel, hmessages, htemperature, hmax, hstream, hmembers⟩ := h.fields
    have hmetadata := (writtenMetadata_eq_iff hx hy).mpr hmembers
    unfold marshal inputMembers
    rw [hmodel, hmessages, htemperature, hmax, hstream, hmetadata]

/-- Inputs that are identical are the same. -/
theorem Identical.same {x y : ChatInput} (hx : Decoded x) (hy : Decoded y) (h : Identical x y) :
    Same x y := by
  obtain ⟨hmodel, hmessages, htemperature, hmax, hstream, hmembers⟩ := h.fields
  have hmetadata : denoteMembers Float64.value x.metadata
      = denoteMembers Float64.value y.metadata := by
    -- through the canonical form, which both readings keep
    have hcanonical : canonical (.obj x.metadata) = canonical (.obj y.metadata) := by
      apply canonical_of_denote hx hy
      rw [denote, denote, hmembers]
    have hvalue := congrArg (denote Float64.value) hcanonical
    rw [denote_canonical _ hx, denote_canonical _ hy, denote, denote] at hvalue
    exact JsonValue.obj.inj hvalue
  unfold Same meaning
  rw [hmodel, hmessages, htemperature, hmax, hstream, hmetadata]

end Aegis.Idempotency
