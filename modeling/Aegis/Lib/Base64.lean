/-
  Aegis.Lib.Base64

  The URL-safe base64 encoding without padding: bytes are cut into groups of
  six bits, and each group is one symbol of `A-Z a-z 0-9 - _`.

  Text is a list of bytes.  `ascii` gives the bytes of a literal.
-/

import Mathlib.Algebra.Order.Ring.Int
import Mathlib.Data.List.Basic

namespace Aegis.Lib

/-- The bytes of a text of ASCII characters. -/
def ascii (text : String) : List UInt8 := text.toList.map fun c => UInt8.ofNat c.toNat

namespace Base64

/-- The groups of six bits, the last one filled with zeros. -/
def sextets : List UInt8 → List (Fin 64)
  | [] => []
  | [a] => [.ofNat 64 (a.toNat / 4), .ofNat 64 (a.toNat % 4 * 16)]
  | [a, b] =>
      [.ofNat 64 (a.toNat / 4), .ofNat 64 (a.toNat % 4 * 16 + b.toNat / 16),
        .ofNat 64 (b.toNat % 16 * 4)]
  | a :: b :: c :: rest =>
      .ofNat 64 (a.toNat / 4) :: .ofNat 64 (a.toNat % 4 * 16 + b.toNat / 16)
        :: .ofNat 64 (b.toNat % 16 * 4 + c.toNat / 64) :: .ofNat 64 (c.toNat % 64)
        :: sextets rest

def alphabet : List UInt8 :=
  ascii "ABCDEFGHIJKLMNOPQRSTUVWXYZabcdefghijklmnopqrstuvwxyz0123456789-_"

def symbol (s : Fin 64) : UInt8 := alphabet.getD s.val 0

def encode (bytes : List UInt8) : List UInt8 := (sextets bytes).map symbol

/-- Four symbols for three bytes, and two or three for what remains. -/
theorem length_sextets (bytes : List UInt8) :
    (sextets bytes).length = (bytes.length * 4 + 2) / 3 := by
  fun_induction sextets bytes with
  | case1 => rfl
  | case2 => simp
  | case3 => simp
  | case4 a b c rest ih =>
      simp only [List.length_cons, ih]
      omega

theorem length_encode (bytes : List UInt8) :
    (encode bytes).length = (bytes.length * 4 + 2) / 3 := by
  rw [encode, List.length_map, length_sextets]

/-- The underscore is the last symbol of the alphabet. -/
theorem symbol_eq_underscore_iff (s : Fin 64) : symbol s = 95 ↔ s = 63 := by
  revert s
  decide +kernel

theorem underscore_mem_take_encode_iff (bytes : List UInt8) (n : Nat) :
    95 ∈ (encode bytes).take n ↔ 63 ∈ (sextets bytes).take n := by
  unfold encode
  rw [← List.map_take, List.mem_map]
  constructor
  · rintro ⟨s, hs, hunderscore⟩
    rw [(symbol_eq_underscore_iff s).mp hunderscore] at hs
    exact hs
  · intro hmem
    exact ⟨63, hmem, by decide⟩

end Base64

/-! ## Splitting -/

/-- The parts of `text` between separators, at most `n`: the last part is what
    is left. -/
def splitN (separator : UInt8) : Nat → List UInt8 → List (List UInt8)
  | 0, _ => []
  | 1, text => [text]
  | n + 2, text =>
      match text.dropWhile (· != separator) with
      | [] => [text]
      | _ :: rest => text.takeWhile (· != separator) :: splitN separator (n + 1) rest

/-- The first part ends at the first separator. -/
theorem splitN_append {separator : UInt8} {part rest : List UInt8} (n : Nat)
    (hpart : separator ∉ part) :
    splitN separator (n + 2) (part ++ separator :: rest)
      = part :: splitN separator (n + 1) rest := by
  have hall : ∀ c ∈ part, (c != separator) = true := by
    intro c hc
    rw [bne_iff_ne]
    rintro rfl
    exact hpart hc
  rw [splitN, List.dropWhile_append_of_pos hall, List.takeWhile_append_of_pos hall]
  simp

/-- A text that begins with a part in which there is a separator is cut inside
    that part. -/
theorem splitN_of_mem {separator : UInt8} {part : List UInt8} (rest : List UInt8) (n : Nat)
    (hpart : separator ∈ part) :
    ∃ first others, splitN separator (n + 2) (part ++ rest) = first :: others
      ∧ first.length < part.length := by
  obtain ⟨before, later, rfl, hbefore⟩ := List.eq_append_cons_of_mem hpart
  refine ⟨before, splitN separator (n + 1) (later ++ rest), ?_, ?_⟩
  · rw [List.append_assoc, List.cons_append]
    exact splitN_append n hbefore
  · rw [List.length_append, List.length_cons]
    omega

end Aegis.Lib
