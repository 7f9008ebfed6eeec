/-
  Aegis.Lib.Double

  Integers as IEEE 754 doubles.  A double holds 53 significant bits, so an
  integer of at least `2^53` is rounded to the nearest one that has no more,
  ties to even.  Below `2^53` arithmetic is exact, and rounding never brings a
  larger integer below it; that is all a comparison with a bound under `2^53`
  needs.
-/

import Mathlib.Data.Nat.Log
import Mathlib.Tactic.Ring

namespace Aegis.Lib

/-- The multiple of `2^e` nearest to `n`, ties to the even multiple. -/
def roundTo (e n : Nat) : Nat :=
  let quotient := n / 2 ^ e
  let remainder := n % 2 ^ e
  if 2 * remainder < 2 ^ e ∨ (2 * remainder = 2 ^ e ∧ quotient % 2 = 0) then quotient * 2 ^ e
  else (quotient + 1) * 2 ^ e

/-- The double nearest to an integer. -/
def toDouble (x : Int) : Int :=
  let magnitude := roundTo (Nat.log 2 x.natAbs - 52) x.natAbs
  if x < 0 then -(magnitude : Int) else magnitude

theorem roundTo_zero (n : Nat) : roundTo 0 n = n := by
  simp [roundTo, Nat.mod_one]

theorem le_roundTo (e n : Nat) : n / 2 ^ e * 2 ^ e ≤ roundTo e n := by
  unfold roundTo
  dsimp only
  split
  · exact Nat.le_refl _
  · exact Nat.mul_le_mul_right _ (Nat.le_succ _)

/-- Integers of at most 53 bits are doubles. -/
theorem toDouble_of_lt {x : Int} (hnonneg : 0 ≤ x) (hlt : x < 2 ^ 53) : toDouble x = x := by
  have hlog : Nat.log 2 x.natAbs - 52 = 0 := by
    have hpow : x.natAbs < 2 ^ 53 := by omega
    have := Nat.log_lt_of_lt_pow' (by decide) hpow
    omega
  have hsign : ¬ x < 0 := by omega
  simp only [toDouble, hlog, roundTo_zero, hsign, if_false]
  omega

/-- Rounding keeps `2^53` as a lower bound. -/
theorem le_toDouble {x : Int} (hle : 2 ^ 53 ≤ x) : 2 ^ 53 ≤ toDouble x := by
  have hpow : 2 ^ 53 ≤ x.natAbs := by omega
  have hlog : 53 ≤ Nat.log 2 x.natAbs := Nat.le_log_of_pow_le (by decide) hpow
  have hsign : ¬ x < 0 := by omega
  have hne : x.natAbs ≠ 0 := by omega
  -- the quotient keeps the 53 leading bits
  obtain ⟨e, he⟩ : ∃ e, Nat.log 2 x.natAbs = 53 + e := ⟨_, (Nat.add_sub_of_le hlog).symm⟩
  have hshift : Nat.log 2 x.natAbs - 52 = e + 1 := by omega
  have hquotient : 2 ^ 52 ≤ x.natAbs / 2 ^ (e + 1) := by
    rw [Nat.le_div_iff_mul_le (Nat.two_pow_pos _), ← Nat.pow_add]
    have hself := Nat.pow_log_le_self 2 hne
    rw [he] at hself
    rwa [show 52 + (e + 1) = 53 + e by omega]
  have hround : 2 ^ 53 ≤ roundTo (e + 1) x.natAbs :=
    calc 2 ^ 53 = 2 ^ 52 * 2 ^ 1 := rfl
      _ ≤ 2 ^ 52 * 2 ^ (e + 1) :=
          Nat.mul_le_mul_left _ (Nat.pow_le_pow_right (by decide) (by omega))
      _ ≤ x.natAbs / 2 ^ (e + 1) * 2 ^ (e + 1) := Nat.mul_le_mul_right _ hquotient
      _ ≤ roundTo (e + 1) x.natAbs := le_roundTo _ _
  simp only [toDouble, hshift, hsign, if_false]
  exact_mod_cast hround

/-- A sum of doubles below a bound under `2^53` is exact. -/
theorem toDouble_add_le_iff {x y bound : Int} (hx : 0 ≤ x) (hxlt : x < 2 ^ 53) (hy : 0 ≤ y)
    (hbound : bound < 2 ^ 53) :
    toDouble (toDouble x + toDouble y) ≤ bound ↔ x + y ≤ bound := by
  rw [toDouble_of_lt hx hxlt]
  by_cases hylt : y < 2 ^ 53
  · rw [toDouble_of_lt hy hylt]
    by_cases hsum : x + y < 2 ^ 53
    · rw [toDouble_of_lt (by omega) hsum]
    · have := le_toDouble (x := x + y) (by omega)
      omega
  · have hylarge := le_toDouble (x := y) (by omega)
    have := le_toDouble (x := x + toDouble y) (by omega)
    omega

-- the first integer that is not a double is rounded to its even neighbour
example : toDouble (2 ^ 53 + 1) = 2 ^ 53 := by decide

end Aegis.Lib
