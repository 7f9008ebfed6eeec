/-
  Aegis.JsonText

  The text that encoding/json writes for a value, and that it determines the
  value.

  `Format` is what the platform relies on of the package: numbers are written in
  the shortest form that reads back, with the characters of a JSON number only.
  Everything else of the text is here, with the escapes of strings.
-/

import Aegis.Lib.Delimited
import Aegis.Request
import Mathlib.Data.Bool.AllAny

namespace Aegis.JsonText

open Aegis.Lib (Anything Ends Reads listed ends_anything)
open Aegis.Request (Json)

/-- The bytes of a Go string. -/
def bytes (s : String) : List UInt8 := s.toList.flatMap String.utf8EncodeChar

theorem length_bytes (s : String) : (bytes s).length = s.utf8ByteSize := by
  rw [← String.size_toByteArray]
  conv_rhs => rw [← @String.ofList_toList s]
  rw [String.toByteArray_ofList, List.utf8Encode, List.size_toByteArray, bytes]

/-! ## Strings -/

def hexDigit (n : Nat) : UInt8 := if n < 10 then UInt8.ofNat (0x30 + n) else UInt8.ofNat (0x57 + n)

/-- The escape sequence of a code point, if it has one. -/
def escapeCode (n : Nat) : Option (List UInt8) :=
  if n = 0x22 ∨ n = 0x5c then some [0x5c, UInt8.ofNat n]
  else if n = 0x08 then some (bytes "\\b")
  else if n = 0x0c then some (bytes "\\f")
  else if n = 0x0a then some (bytes "\\n")
  else if n = 0x0d then some (bytes "\\r")
  else if n = 0x09 then some (bytes "\\t")
  -- the other control characters, and those that HTML gives a meaning
  else if n < 0x20 ∨ n = 0x3c ∨ n = 0x3e ∨ n = 0x26 then
    some (bytes "\\u00" ++ [hexDigit (n / 16), hexDigit (n % 16)])
  else if n = 0x2028 ∨ n = 0x2029 then some (bytes "\\u202" ++ [hexDigit (n % 16)])
  else none

def escape (c : Char) : List UInt8 := (escapeCode c.toNat).getD (String.utf8EncodeChar c)

/-- A string as encoding/json writes it. -/
def quote (s : String) : List UInt8 := 0x22 :: (s.toList.flatMap escape ++ [0x22])

/-- The code points with an escape sequence. -/
def special : List Nat := List.range 0x20 ++ [0x22, 0x5c, 0x3c, 0x3e, 0x26, 0x2028, 0x2029]

theorem mem_special {n : Nat} {word : List UInt8} (h : escapeCode n = some word) :
    n ∈ special := by
  have hcases : n < 0x20 ∨ n ∈ [0x22, 0x5c, 0x3c, 0x3e, 0x26, 0x2028, 0x2029] := by
    simp only [List.mem_cons, List.not_mem_nil, or_false]
    unfold escapeCode at h
    split_ifs at h <;> omega
  rcases hcases with hlt | hmem
  · exact List.mem_append_left _ (List.mem_range.mpr hlt)
  · exact List.mem_append_right _ hmem

theorem not_special {n : Nat} (h : escapeCode n = none) : 0x20 ≤ n ∧ n ≠ 0x22 ∧ n ≠ 0x5c := by
  unfold escapeCode at h
  split_ifs at h
  omega

/-- An escape sequence starts with a backslash and has no control character. -/
theorem escapeCode_word : ∀ n ∈ special, ∀ word ∈ escapeCode n,
    word.head? = some 0x5c ∧ ∀ b ∈ word, 0x20 ≤ b := by
  decide +kernel

/-- No escape sequence starts another. -/
theorem escapeCode_code : ∀ n ∈ special, ∀ word ∈ escapeCode n, ∀ m ∈ special,
    ∀ word' ∈ escapeCode m, word <+: word' → n = m := by
  decide +kernel

theorem toNat_byte {n : Nat} (h : n < 256) : (UInt8.ofNat n).toNat = n := by
  rw [UInt8.toNat_ofNat']
  exact Nat.mod_eq_of_lt h

theorem byte_ne {n : Nat} {b : UInt8} (hn : n < 256) (hne : n ≠ b.toNat) : UInt8.ofNat n ≠ b := by
  intro heq
  rw [← heq, toNat_byte hn] at hne
  exact hne rfl

theorem le_byte {n : Nat} {b : UInt8} (hn : n < 256) (hle : b.toNat ≤ n) : b ≤ UInt8.ofNat n := by
  rw [UInt8.le_iff_toNat_le, toNat_byte hn]
  exact hle

/-- The bytes of a character without escape sequence. -/
theorem encode_plain {c : Char} (hc : escapeCode c.toNat = none) :
    (∃ first rest, String.utf8EncodeChar c = first :: rest ∧ first ≠ 0x5c ∧ first ≠ 0x22)
      ∧ ∀ b ∈ String.utf8EncodeChar c, 0x20 ≤ b := by
  obtain ⟨hle, hquote, hslash⟩ := not_special hc
  have hnat : c.toNat = c.val.toNat := rfl
  unfold String.utf8EncodeChar
  dsimp only
  rw [← hnat]
  generalize c.toNat = n at hle hquote hslash
  -- one byte, or a lead byte and continuation bytes, all above 0x7f
  have hlead : ∀ m, 192 ≤ m → m < 256 → UInt8.ofNat m ≠ 0x5c ∧ UInt8.ofNat m ≠ 0x22
      ∧ 0x20 ≤ UInt8.ofNat m := by
    intro m hm hlt
    refine ⟨byte_ne hlt ?_, byte_ne hlt ?_, le_byte hlt ?_⟩
    · exact fun h => absurd (hm.trans_eq h) (by decide)
    · exact fun h => absurd (hm.trans_eq h) (by decide)
    · exact le_trans (by decide) hm
  have hcont : ∀ m, 0x20 ≤ UInt8.ofNat (m % 64 + 128) := by
    intro m
    have hmod : m % 64 < 64 := Nat.mod_lt _ (by decide)
    exact le_byte (by omega) (le_trans (by decide) (Nat.le_add_left 128 _))
  split_ifs with h1 h2 h3
  · refine ⟨⟨_, _, rfl, byte_ne (by omega) hslash, byte_ne (by omega) hquote⟩, ?_⟩
    intro b hb
    rw [List.mem_singleton.mp hb]
    exact le_byte (by omega) hle
  · obtain ⟨hne, hne', hle'⟩ := hlead (n / 64 % 32 + 192) (by omega) (by omega)
    refine ⟨⟨_, _, rfl, hne, hne'⟩, ?_⟩
    simp only [List.forall_mem_cons]
    exact ⟨hle', hcont _, List.forall_mem_nil _⟩
  · obtain ⟨hne, hne', hle'⟩ := hlead (n / 4096 % 16 + 224) (by omega) (by omega)
    refine ⟨⟨_, _, rfl, hne, hne'⟩, ?_⟩
    simp only [List.forall_mem_cons]
    exact ⟨hle', hcont _, hcont _, List.forall_mem_nil _⟩
  · obtain ⟨hne, hne', hle'⟩ := hlead (n / 262144 % 8 + 240) (by omega) (by omega)
    refine ⟨⟨_, _, rfl, hne, hne'⟩, ?_⟩
    simp only [List.forall_mem_cons]
    exact ⟨hle', hcont _, hcont _, hcont _, List.forall_mem_nil _⟩

theorem encode_reads (c d : Char) {r r' : List UInt8}
    (h : String.utf8EncodeChar c ++ r = String.utf8EncodeChar d ++ r') : c = d := by
  have hbytes := congrArg List.toByteArray h
  rw [List.toByteArray_append, List.toByteArray_append] at hbytes
  have hdecode := congrArg (fun b => ByteArray.utf8DecodeChar? b 0) hbytes
  simp only [ByteArray.utf8DecodeChar?_utf8EncodeChar_append] at hdecode
  exact Option.some.inj hdecode

/-- What `escape` writes: no quotation mark first, and no control character. -/
theorem escape_word (c : Char) :
    (∃ first rest, escape c = first :: rest ∧ first ≠ 0x22) ∧ ∀ b ∈ escape c, 0x20 ≤ b := by
  unfold escape
  cases hc : escapeCode c.toNat with
  | none =>
      obtain ⟨⟨first, rest, hword, -, hne⟩, hbytes⟩ := encode_plain hc
      exact ⟨⟨first, rest, hword, hne⟩, hbytes⟩
  | some word =>
      obtain ⟨hhead, hbytes⟩ := escapeCode_word _ (mem_special hc) word hc
      obtain ⟨rest, rfl⟩ := List.head?_eq_some_iff.mp hhead
      exact ⟨⟨0x5c, rest, rfl, by decide⟩, hbytes⟩

theorem escape_reads (c : Char) : Reads Anything escape c := by
  intro d r r' _ _ h
  -- it is enough that the characters are the same
  suffices hcd : c = d by
    subst hcd
    exact ⟨rfl, List.append_cancel_left h⟩
  unfold escape at h
  cases hc : escapeCode c.toNat with
  | none =>
      rw [hc, Option.getD_none] at h
      cases hd : escapeCode d.toNat with
      | none =>
          rw [hd, Option.getD_none] at h
          exact encode_reads c d h
      | some word =>
          obtain ⟨hhead, -⟩ := escapeCode_word _ (mem_special hd) word hd
          obtain ⟨rest, rfl⟩ := List.head?_eq_some_iff.mp hhead
          obtain ⟨⟨first, rest', hword, hne, -⟩, -⟩ := encode_plain hc
          rw [hd, Option.getD_some, hword] at h
          exact absurd (List.cons.inj h).1 hne
  | some word =>
      rw [hc, Option.getD_some] at h
      cases hd : escapeCode d.toNat with
      | none =>
          obtain ⟨hhead, -⟩ := escapeCode_word _ (mem_special hc) word hc
          obtain ⟨rest, rfl⟩ := List.head?_eq_some_iff.mp hhead
          obtain ⟨⟨first, rest', hword, hne, -⟩, -⟩ := encode_plain hd
          rw [hd, Option.getD_none, hword] at h
          exact absurd (List.cons.inj h).1.symm hne
      | some word' =>
          rw [hd, Option.getD_some] at h
          have hcode : c.toNat = d.toNat := by
            rcases List.append_eq_append_iff.mp h with ⟨rest, hrest, -⟩ | ⟨rest, hrest, -⟩
            · exact escapeCode_code _ (mem_special hc) word hc _ (mem_special hd) word' hd
                ⟨rest, hrest.symm⟩
            · exact (escapeCode_code _ (mem_special hd) word' hd _ (mem_special hc) word hc
                ⟨rest, hrest.symm⟩).symm
          rw [← Char.ofNat_toNat c, hcode, Char.ofNat_toNat]

theorem quote_reads (s : String) : Reads Anything quote s := by
  intro t r r' _ _ h
  have hwords := Reads.closed escape_reads (fun c => (escape_word c).1) s.toList t.toList r r'
    (ends_anything r) (ends_anything r') (List.cons.inj h).2
  exact ⟨String.toList_inj.mp hwords.1, hwords.2⟩

theorem escapeCode_length : ∀ n ∈ special, ∀ word ∈ escapeCode n, word.length ≤ 6 := by
  decide +kernel

theorem escape_length (c : Char) : (escape c).length ≤ 6 * (String.utf8EncodeChar c).length := by
  have hpos : 0 < (String.utf8EncodeChar c).length := by
    rw [String.length_utf8EncodeChar]
    exact c.utf8Size_pos
  unfold escape
  cases hc : escapeCode c.toNat with
  | none =>
      rw [Option.getD_none]
      omega
  | some word =>
      have hword := escapeCode_length c.toNat (mem_special hc) word hc
      rw [Option.getD_some]
      omega

/-- A string gets at most six times as long. -/
theorem quote_length (s : String) : (quote s).length ≤ 6 * s.utf8ByteSize + 2 := by
  have hchars : ∀ cs : List Char,
      (cs.flatMap escape).length ≤ 6 * (cs.flatMap String.utf8EncodeChar).length := by
    intro cs
    induction cs with
    | nil => exact Nat.le_refl 0
    | cons c cs ih =>
        have hc := escape_length c
        rw [List.flatMap_cons, List.flatMap_cons, List.length_append, List.length_append]
        omega
  have hs := hchars s.toList
  rw [← length_bytes, quote, List.length_cons, List.length_append, List.length_singleton, bytes]
  omega

/-! ## Numbers -/

/-- The characters of a JSON number. -/
def numeric : List UInt8 := bytes "0123456789+-.eE"

/-- How encoding/json writes numbers.  Whole numbers below 2^53 are written as
    integers, so that this also says how the fields of integer type are written
    up to there. -/
structure Format where
  number : Float64 → List UInt8
  number_whole : ∀ n : Int, n.natAbs < 2 ^ 53 → number n = bytes (toString n)
  number_ne : ∀ x, number x ≠ []
  number_numeric : ∀ x, ∀ b ∈ number x, b ∈ numeric
  number_injective : Function.Injective number

variable (format : Format)

mutual

/-- `json.Marshal`, with the members of objects in the order given. -/
def text : Json → List UInt8
  | .null => bytes "null"
  | .bool true => bytes "true"
  | .bool false => bytes "false"
  | .num x => format.number x
  | .str s => quote s
  | .arr items => listed 0x5b 0x2c 0x5d (texts items)
  | .obj members => listed 0x7b 0x2c 0x7d (memberTexts members)

def texts : List Json → List (List UInt8)
  | [] => []
  | item :: items => text item :: texts items

def memberTexts : List (String × Json) → List (List UInt8)
  | [] => []
  | (name, value) :: members =>
      (quote name ++ 0x3a :: text value) :: memberTexts members

end

/-- The word of a member. -/
def memberText (member : String × Json) : List UInt8 :=
  quote member.1 ++ 0x3a :: text format member.2

theorem texts_eq_map (items : List Json) : texts format items = items.map (text format) := by
  induction items with
  | nil => rw [texts, List.map_nil]
  | cons item items ih => rw [texts, ih, List.map_cons]

theorem memberTexts_eq_map (members : List (String × Json)) :
    memberTexts format members = members.map (memberText format) := by
  induction members with
  | nil => rw [memberTexts, List.map_nil]
  | cons member members ih =>
      rw [memberTexts, ih, List.map_cons]
      rfl

/-- Induction over values, with the items of arrays and the members of objects. -/
theorem Json.induct {P : Json → Prop} (hnull : P .null) (hbool : ∀ b, P (.bool b))
    (hnum : ∀ x, P (.num x)) (hstr : ∀ s, P (.str s))
    (harr : ∀ items, (∀ item ∈ items, P item) → P (.arr items))
    (hobj : ∀ members, (∀ member ∈ members, P member.2) → P (.obj members)) (a : Json) : P a := by
  refine @Json.rec P (fun items => ∀ item ∈ items, P item)
    (fun members => ∀ member ∈ members, P member.2) (fun member => P member.2)
    hnull hbool hnum hstr harr hobj ?_ ?_ ?_ ?_ ?_ a
  · intro item hitem
    exact absurd hitem List.not_mem_nil
  · intro item items hitem hitems
    exact List.forall_mem_cons.mpr ⟨hitem, hitems⟩
  · intro member hmember
    exact absurd hmember List.not_mem_nil
  · intro member members hmember hmembers
    exact List.forall_mem_cons.mpr ⟨hmember, hmembers⟩
  · intro name value hvalue
    exact hvalue

/-! ## The first byte -/

/-- The kinds of values, as their first byte tells them apart. -/
def kind : Json → Nat
  | .null => 0
  | .bool true => 1
  | .bool false => 2
  | .str _ => 3
  | .arr _ => 4
  | .obj _ => 5
  | .num _ => 6

def kindOf (first : UInt8) : Nat :=
  if first = 0x6e then 0
  else if first = 0x74 then 1
  else if first = 0x66 then 2
  else if first = 0x22 then 3
  else if first = 0x5b then 4
  else if first = 0x7b then 5
  else 6

theorem kindOf_numeric : ∀ b ∈ numeric, kindOf b = 6 ∧ b ≠ 0x5d :=
  List.all_iff_forall_prop.mp (by decide)

theorem text_head (a : Json) :
    ∃ first rest, text format a = first :: rest ∧ kindOf first = kind a ∧ first ≠ 0x5d := by
  cases a with
  | null => exact ⟨0x6e, _, rfl, rfl, by decide⟩
  | bool b =>
      cases b with
      | true => exact ⟨0x74, _, rfl, rfl, by decide⟩
      | false => exact ⟨0x66, _, rfl, rfl, by decide⟩
  | num x =>
      rw [text]
      obtain ⟨first, rest, hnumber⟩ := List.exists_cons_of_ne_nil (format.number_ne x)
      have hfirst : first ∈ numeric := by
        apply format.number_numeric x
        rw [hnumber]
        exact List.mem_cons_self ..
      obtain ⟨hkind, hne⟩ := kindOf_numeric first hfirst
      exact ⟨first, rest, hnumber, hkind, hne⟩
  | str s =>
      rw [text]
      exact ⟨0x22, _, rfl, rfl, by decide⟩
  | arr items =>
      rw [text]
      cases texts format items with
      | nil => exact ⟨0x5b, _, rfl, rfl, by decide⟩
      | cons word words => exact ⟨0x5b, _, rfl, rfl, by decide⟩
  | obj members =>
      rw [text]
      cases memberTexts format members with
      | nil => exact ⟨0x7b, _, rfl, rfl, by decide⟩
      | cons word words => exact ⟨0x7b, _, rfl, rfl, by decide⟩

variable {format}

theorem kind_eq {a b : Json} {r r' : List UInt8} (h : text format a ++ r = text format b ++ r') :
    kind a = kind b := by
  obtain ⟨first, rest, ha, hkind, -⟩ := text_head format a
  obtain ⟨first', rest', hb, hkind', -⟩ := text_head format b
  rw [ha, hb, List.cons_append, List.cons_append] at h
  rw [← hkind, ← hkind', (List.cons.inj h).1]

/-! ## The bytes of a text -/

theorem quote_bytes (s : String) : ∀ b ∈ quote s, 0x20 ≤ b := by
  intro b hb
  rcases List.mem_cons.mp hb with rfl | hb
  · decide
  · rcases List.mem_append.mp hb with hb | hb
    · obtain ⟨c, -, hc⟩ := List.mem_flatMap.mp hb
      exact (escape_word c).2 b hc
    · rw [List.mem_singleton.mp hb]
      decide

/-- The text of a value has no control character. -/
theorem text_bytes (a : Json) : ∀ b ∈ text format a, 0x20 ≤ b := by
  induction a using Json.induct with
  | hnull =>
      rw [text]
      exact List.all_iff_forall_prop.mp (by decide)
  | hbool c => cases c <;> rw [text] <;> exact List.all_iff_forall_prop.mp (by decide)
  | hnum x =>
      intro b hb
      have hnumeric : ∀ b ∈ numeric, 0x20 ≤ b := List.all_iff_forall_prop.mp (by decide)
      rw [text] at hb
      exact hnumeric b (format.number_numeric x b hb)
  | hstr s =>
      rw [text]
      exact quote_bytes s
  | harr items ih =>
      rw [text, texts_eq_map]
      refine Lib.listed_forall (P := fun b => 0x20 ≤ b) (by decide) (by decide) (by decide) ?_
      intro word hword
      obtain ⟨item, hitem, rfl⟩ := List.mem_map.mp hword
      exact ih item hitem
  | hobj members ih =>
      rw [text, memberTexts_eq_map]
      refine Lib.listed_forall (P := fun b => 0x20 ≤ b) (by decide) (by decide) (by decide) ?_
      intro word hword b hb
      obtain ⟨member, hmember, rfl⟩ := List.mem_map.mp hword
      rcases List.mem_append.mp hb with hb | hb
      · exact quote_bytes _ b hb
      · rcases List.mem_cons.mp hb with rfl | hb
        · decide
        · exact ih member hmember b hb

/-- The text of an object starts and ends with a brace. -/
theorem object_text (members : List (String × Json)) :
    ∃ inner, text format (.obj members) = 0x7b :: inner ++ [0x7d] := by
  rw [text]
  exact Lib.listed_eq 0x7b 0x2c 0x7d _

/-! ## Reading -/

/-- What may follow a value: anything but more digits. -/
def Stop (b : UInt8) : Prop := b ∉ numeric

instance : DecidablePred Stop := fun b => inferInstanceAs (Decidable (b ∉ numeric))

theorem reads_members {members : List (String × Json)}
    (h : ∀ member ∈ members, Reads Stop (text format) member.2) :
    Reads Anything (fun members => listed 0x7b 0x2c 0x7d (members.map (memberText format)))
      members := by
  have hsep : Stop 0x2c := by decide
  have hclose : Stop 0x7d := by decide
  apply Reads.listed 0x7b hsep hclose (by decide)
  · rintro ⟨name, value⟩
    exact ⟨0x22, _, rfl, by decide⟩
  · rintro ⟨name, value⟩ hmember
    exact (quote_reads name).pair (h _ hmember) 0x3a

theorem reads_items {items : List Json} (h : ∀ item ∈ items, Reads Stop (text format) item) :
    Reads Anything (fun items => listed 0x5b 0x2c 0x5d (items.map (text format))) items := by
  have hsep : Stop 0x2c := by decide
  have hclose : Stop 0x5d := by decide
  apply Reads.listed 0x5b hsep hclose (by decide) _ h
  intro item
  obtain ⟨first, rest, htext, -, hne⟩ := text_head format item
  exact ⟨first, rest, htext, hne⟩

/-- **The text determines the value**, as long as no digit follows it. -/
theorem text_reads (a : Json) : Reads Stop (text format) a := by
  induction a using Json.induct with
  | hnull =>
      intro b r r' _ _ h
      have hkind := kind_eq h
      cases b with
      | null => exact ⟨rfl, List.append_cancel_left h⟩
      | bool b => cases b <;> cases hkind
      | _ => cases hkind
  | hbool c =>
      intro b r r' _ _ h
      have hkind := kind_eq h
      cases b with
      | bool b =>
          have hsame : c = b := by cases c <;> cases b <;> first | rfl | cases hkind
          rw [hsame] at h
          exact ⟨by rw [hsame], List.append_cancel_left h⟩
      | _ => cases c <;> cases hkind
  | hnum x =>
      intro b r r' hr hr' h
      have hkind := kind_eq h
      cases b with
      | num y =>
          have hread : Reads Stop format.number x :=
            Aegis.Lib.reads_of_injective format.number_injective
              (fun z c hc hstop => hstop (format.number_numeric z c hc)) x
          obtain ⟨rfl, hrest⟩ := hread y r r' hr hr' (by simpa only [text] using h)
          exact ⟨rfl, hrest⟩
      | bool b => cases b <;> cases hkind
      | _ => cases hkind
  | hstr s =>
      intro b r r' _ _ h
      have hkind := kind_eq h
      cases b with
      | str t =>
          obtain ⟨rfl, hrest⟩ := quote_reads s t r r' (ends_anything r) (ends_anything r')
            (by simpa only [text] using h)
          exact ⟨rfl, hrest⟩
      | bool b => cases b <;> cases hkind
      | _ => cases hkind
  | harr items ih =>
      intro b r r' _ _ h
      have hkind := kind_eq h
      cases b with
      | arr items' =>
          obtain ⟨rfl, hrest⟩ := reads_items ih items' r r' (ends_anything r) (ends_anything r')
            (by simpa only [text, texts_eq_map] using h)
          exact ⟨rfl, hrest⟩
      | bool b => cases b <;> cases hkind
      | _ => cases hkind
  | hobj members ih =>
      intro b r r' _ _ h
      have hkind := kind_eq h
      cases b with
      | obj members' =>
          obtain ⟨rfl, hrest⟩ := reads_members ih members' r r' (ends_anything r)
            (ends_anything r') (by simpa only [text, memberTexts_eq_map] using h)
          exact ⟨rfl, hrest⟩
      | bool b => cases b <;> cases hkind
      | _ => cases hkind

/-- An object can be read whatever follows it: its text starts no other. -/
theorem object_reads {members members' : List (String × Json)} {r r' : List UInt8}
    (h : text format (.obj members) ++ r = text format (.obj members') ++ r') :
    members = members' ∧ r = r' := by
  rw [text, text, memberTexts_eq_map, memberTexts_eq_map] at h
  exact reads_members (fun member _ => text_reads member.2) members' r r' (ends_anything r)
    (ends_anything r') h

theorem text_injective : Function.Injective (text format) := by
  intro a b h
  have happend : text format a ++ [] = text format b ++ [] := by rw [h]
  exact (text_reads a b [] [] trivial trivial happend).1

end Aegis.JsonText
