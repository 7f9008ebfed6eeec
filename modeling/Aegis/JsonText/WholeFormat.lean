/-
  Aegis.JsonText.WholeFormat

  A number format that can be evaluated.  Whole numbers are written as
  encoding/json writes them, and the two zeros as `0` and `-0`.  Fractions are
  written as numerator and denominator, which the package does not do, but no
  two numbers are written alike.
-/

import Aegis.JsonText

namespace Aegis.JsonText

/-- The signed digits of a whole number. -/
def signed : List UInt8 := bytes "-0123456789"

theorem bytes_append (s t : String) : bytes (s ++ t) = bytes s ++ bytes t := by
  rw [bytes, String.toList_append, List.flatMap_append]
  rfl

theorem bytes_injective : Function.Injective bytes := by
  intro s t h
  apply String.toList_inj.mp
  unfold bytes at h
  generalize s.toList = cs at h
  generalize t.toList = ds at h
  induction cs generalizing ds with
  | nil =>
      cases ds with
      | nil => rfl
      | cons d ds =>
          rw [List.flatMap_nil, List.flatMap_cons] at h
          exact absurd (List.append_eq_nil_iff.mp h.symm).1 String.utf8EncodeChar_ne_nil
  | cons c cs ih =>
      cases ds with
      | nil =>
          rw [List.flatMap_nil, List.flatMap_cons] at h
          exact absurd (List.append_eq_nil_iff.mp h).1 String.utf8EncodeChar_ne_nil
      | cons d ds =>
          rw [List.flatMap_cons, List.flatMap_cons] at h
          obtain rfl := encode_reads c d h
          rw [ih ds (List.append_cancel_left h)]

theorem natText_injective {m n : Nat} (h : toString m = toString n) : m = n := by
  rw [Nat.toString_eq_repr, Nat.toString_eq_repr] at h
  have hdigits := congrArg (fun s : String => Nat.ofDigitChars 10 s.toList 0) h
  simpa only [Nat.toList_repr, Nat.ofDigitChars_ten_toDigits] using hdigits

theorem natText_digits (n : Nat) : ∀ c ∈ (toString n).toList, c.isDigit = true := by
  intro c hc
  rw [Nat.toString_eq_repr, Nat.toList_repr] at hc
  exact Nat.isDigit_of_mem_toDigits (by decide) (by decide) hc

theorem intText_cases (n : Int) :
    (0 ≤ n ∧ toString n = toString n.toNat)
      ∨ (n < 0 ∧ toString n = "-" ++ toString (-n).toNat) := by
  rw [Int.toString_eq_repr, Int.repr_eq_if]
  split
  · next h => exact Or.inl ⟨h, rfl⟩
  · next h => exact Or.inr ⟨by omega, rfl⟩

theorem encode_digit : ∀ k ∈ List.range' 48 10,
    ∀ b ∈ String.utf8EncodeChar (Char.ofNat k), b ∈ signed := by
  have hall : (List.range' 48 10).all (fun k =>
      (String.utf8EncodeChar (Char.ofNat k)).all fun b => decide (b ∈ signed)) = true := by decide
  intro k hk
  exact List.all_iff_forall_prop.mp (List.all_eq_true.mp hall k hk)

theorem intText_signed (n : Int) : ∀ b ∈ bytes (toString n), b ∈ signed := by
  have hnat : ∀ m : Nat, ∀ b ∈ bytes (toString m), b ∈ signed := by
    intro m b hb
    obtain ⟨c, hc, hbc⟩ := List.mem_flatMap.mp hb
    have hdigit := Char.isDigit_iff_toNat.mp (natText_digits m c hc)
    rw [← Char.ofNat_toNat c] at hbc
    refine encode_digit c.toNat (List.mem_range'_1.mpr ⟨hdigit.1, ?_⟩) b hbc
    exact Nat.lt_succ_of_le hdigit.2
  rcases intText_cases n with ⟨-, htext⟩ | ⟨-, htext⟩
  · rw [htext]
    exact hnat _
  · rw [htext, bytes_append]
    intro b hb
    rcases List.mem_append.mp hb with hsign | hdigits
    · have hminus : ∀ b ∈ bytes "-", b ∈ signed := List.all_iff_forall_prop.mp (by decide)
      exact hminus b hsign
    · exact hnat _ b hdigits

theorem minus_ne_natText (s : String) (n : Nat) : "-" ++ s ≠ toString n := by
  intro h
  have hminus : '-' ∈ (toString n).toList := by
    rw [← h, String.toList_append]
    exact List.mem_append_left _ (by decide)
  exact absurd (natText_digits n '-' hminus) (by decide)

theorem intText_injective {m n : Int} (h : toString m = toString n) : m = n := by
  rcases intText_cases m with ⟨hm, htext⟩ | ⟨hm, htext⟩
  · rcases intText_cases n with ⟨hn, htext'⟩ | ⟨hn, htext'⟩
    · have hnat := natText_injective (htext.symm.trans (h.trans htext'))
      omega
    · exact absurd (htext'.symm.trans (h.symm.trans htext)) (minus_ne_natText _ _)
  · rcases intText_cases n with ⟨hn, htext'⟩ | ⟨hn, htext'⟩
    · exact absurd (htext.symm.trans (h.trans htext')) (minus_ne_natText _ _)
    · have heq := htext.symm.trans (h.trans htext')
      have hnat := natText_injective ((String.append_right_inj _).mp heq)
      omega

/-- No whole number is written `-0`. -/
theorem minusZero_ne_intText (n : Int) : "-0" ≠ toString n := by
  intro h
  rcases intText_cases n with ⟨-, htext⟩ | ⟨hn, htext⟩
  · exact minus_ne_natText "0" n.toNat (h.trans htext)
  · have heq : "-" ++ toString 0 = "-" ++ toString (-n).toNat := h.trans htext
    have hnat := natText_injective ((String.append_right_inj _).mp heq)
    omega

def wholeNumber (x : Float64) : List UInt8 :=
  if x.negativeZero then bytes "-0"
  else if x.value.den = 1 then bytes (toString x.value.num)
  else bytes (toString x.value.num) ++ 0x65 :: bytes (toString (x.value.den : Int))

/-- The three ways to write a number, with the exponent sign in the last only. -/
theorem wholeNumber_cases (x : Float64) :
    (x = Float64.minusZero ∧ wholeNumber x = bytes "-0")
      ∨ (x.negativeZero = false ∧ x.value.den = 1 ∧ wholeNumber x = bytes (toString x.value.num))
      ∨ (x.negativeZero = false ∧ wholeNumber x
          = bytes (toString x.value.num) ++ 0x65 :: bytes (toString (x.value.den : Int))) := by
  obtain ⟨value, negativeZero, isZero⟩ := x
  cases negativeZero with
  | true =>
      obtain rfl := isZero rfl
      exact Or.inl ⟨rfl, rfl⟩
  | false =>
      unfold wholeNumber
      dsimp only
      rw [if_neg Bool.false_ne_true]
      split
      · next hden => exact Or.inr (Or.inl ⟨rfl, hden, rfl⟩)
      · exact Or.inr (Or.inr ⟨rfl, rfl⟩)

theorem float64_ext {x y : Float64} (hx : x.negativeZero = false) (hy : y.negativeZero = false)
    (hnum : x.value.num = y.value.num) (hden : x.value.den = y.value.den) : x = y := by
  obtain ⟨value, negativeZero, isZero⟩ := x
  obtain ⟨value', negativeZero', isZero'⟩ := y
  obtain rfl : negativeZero = false := hx
  obtain rfl : negativeZero' = false := hy
  obtain rfl : value = value' := Rat.ext hnum hden
  rfl

theorem exponent_not_signed : (0x65 : UInt8) ∉ signed := by decide

theorem not_mem_intText (n : Int) : (0x65 : UInt8) ∉ bytes (toString n) :=
  fun h => exponent_not_signed (intText_signed n _ h)

/-- A text with an exponent sign is that of a fraction. -/
theorem fraction_ne {text : List UInt8} (h : (0x65 : UInt8) ∉ text) (a b : Int) :
    text ≠ bytes (toString a) ++ 0x65 :: bytes (toString b) := by
  rintro rfl
  exact h (List.mem_append_right _ (List.mem_cons_self ..))

theorem wholeNumber_injective : Function.Injective wholeNumber := by
  intro x y h
  have hzero : (0x65 : UInt8) ∉ bytes "-0" := by decide
  rcases wholeNumber_cases x with ⟨hx, htext⟩ | ⟨hx, hden, htext⟩ | ⟨hx, htext⟩ <;>
    rcases wholeNumber_cases y with ⟨hy, htext'⟩ | ⟨hy, hden', htext'⟩ | ⟨hy, htext'⟩ <;>
    rw [htext, htext'] at h
  · rw [hx, hy]
  · exact absurd (bytes_injective h) (minusZero_ne_intText _)
  · exact absurd h (fraction_ne hzero _ _)
  · exact absurd (bytes_injective h).symm (minusZero_ne_intText _)
  · exact float64_ext hx hy (intText_injective (bytes_injective h)) (hden.trans hden'.symm)
  · exact absurd h (fraction_ne (not_mem_intText _) _ _)
  · exact absurd h.symm (fraction_ne hzero _ _)
  · exact absurd h.symm (fraction_ne (not_mem_intText _) _ _)
  · obtain ⟨hnum, -, hden⟩ := (List.append_cons_inj_of_notMem (not_mem_intText _)
      (not_mem_intText _)).mp h
    exact float64_ext hx hy (intText_injective (bytes_injective hnum))
      (Int.ofNat.inj (intText_injective (bytes_injective hden)))

theorem intText_ne (n : Int) : bytes (toString n) ≠ [] := by
  intro h
  have hempty : toString n = "" := bytes_injective h
  rcases intText_cases n with ⟨-, htext⟩ | ⟨-, htext⟩
  · have hdigits := congrArg String.toList (htext.symm.trans hempty)
    rw [Nat.toString_eq_repr, Nat.toList_repr] at hdigits
    exact Nat.toDigits_ne_nil hdigits
  · have hlist := congrArg String.toList (htext.symm.trans hempty)
    rw [String.toList_append] at hlist
    cases hlist

def wholeFormat : Format where
  number := wholeNumber
  number_whole := by
    intro n _
    rfl
  number_ne := by
    intro x h
    rcases wholeNumber_cases x with ⟨-, htext⟩ | ⟨-, -, htext⟩ | ⟨-, htext⟩
    · cases htext.symm.trans h
    · exact intText_ne _ (htext.symm.trans h)
    · exact intText_ne _ (List.append_eq_nil_iff.mp (htext.symm.trans h)).1
  number_numeric := by
    have hsigned : ∀ b ∈ signed, b ∈ numeric := List.all_iff_forall_prop.mp (by decide)
    intro x b hb
    rcases wholeNumber_cases x with ⟨-, htext⟩ | ⟨-, -, htext⟩ | ⟨-, htext⟩
    · rw [htext] at hb
      have hzero : ∀ b ∈ bytes "-0", b ∈ numeric := List.all_iff_forall_prop.mp (by decide)
      exact hzero b hb
    · rw [htext] at hb
      exact hsigned b (intText_signed _ b hb)
    · rw [htext] at hb
      rcases List.mem_append.mp hb with hnum | htail
      · exact hsigned b (intText_signed _ b hnum)
      · rcases List.mem_cons.mp htail with rfl | hden
        · decide
        · exact hsigned b (intText_signed _ b hden)
  number_injective := wholeNumber_injective

end Aegis.JsonText
