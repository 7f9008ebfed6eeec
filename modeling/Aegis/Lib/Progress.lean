/-
  Aegis.Lib.Progress

  Potentials.  Where a step of one kind takes from a potential and only steps of
  another kind add to it, the second kind pays for the first.
-/

import Aegis.Lib.Runs
import Mathlib.Algebra.Order.Ring.Int

namespace Aegis.Lib

/-- Each step of kind `p` takes one from the potential, and a step adds at most
    `c`, if it is of kind `q`. -/
theorem trace_potential {σ α : Type} {step : σ → α → σ} {I : σ → Prop} {φ : σ → Int}
    {p q : σ → α → Bool} {c : Int} (hkeep : ∀ s a, I s → I (step s a))
    (hpay : ∀ s a, I s →
      φ (step s a) + (if p s a then 1 else 0) ≤ φ s + (if q s a then c else 0))
    {s : σ} (as : List α) (h0 : I s) :
    ((trace step s as).countP fun x => p x.1 x.2.1) + φ (run step s as)
      ≤ φ s + c * ((trace step s as).countP fun x => q x.1 x.2.1) := by
  induction as generalizing s with
  | nil => simp
  | cons a as ih =>
      have hrest := ih (hkeep s a h0)
      have hfirst := hpay s a h0
      rw [trace_cons, run_cons, List.countP_cons, List.countP_cons]
      by_cases hq : q s a = true
      · rw [if_pos hq] at hfirst ⊢
        push_cast
        rw [mul_add, mul_one]
        omega
      · rw [if_neg hq] at hfirst ⊢
        push_cast
        rw [add_zero]
        omega

end Aegis.Lib
