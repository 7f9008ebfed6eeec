/-
  Aegis.Lib.Precedes

  The order of first occurrences in a list.  `Precedes l a b` says that `b`
  does not occur in `l` before `a` has: when `b` is there, `a` is too, and
  occurs first at an earlier place.
-/

import Mathlib.Data.List.Basic

namespace Aegis.Lib

variable {α : Type _} [DecidableEq α] {l l' : List α} {a b c : α}

/-- Where `b` occurs, `a` has occurred first. -/
def Precedes (l : List α) (a b : α) : Prop := b ∈ l → l.idxOf a < l.idxOf b

instance : Decidable (Precedes l a b) := inferInstanceAs (Decidable (_ → _))

namespace Precedes

theorem mem (h : Precedes l a b) (hb : b ∈ l) : a ∈ l := by
  have hlt := h hb
  have hlen : l.idxOf b < l.length := List.idxOf_lt_length_of_mem hb
  exact List.idxOf_lt_length_iff.mp (by omega)

/-- Appending keeps the order when a new `b` finds `a` already there. -/
theorem append (h : Precedes l a b) (hnew : b ∈ l' → a ∈ l) : Precedes (l ++ l') a b := by
  intro hb
  by_cases hold : b ∈ l
  · rw [List.idxOf_append_of_mem hold, List.idxOf_append_of_mem (h.mem hold)]
    exact h hold
  · have hb' : b ∈ l' := (List.mem_append.mp hb).resolve_left hold
    have ha := hnew hb'
    have hlen : l.idxOf a < l.length := List.idxOf_lt_length_of_mem ha
    rw [List.idxOf_append_of_mem ha, List.idxOf_append_of_notMem hold]
    omega

/-- Nothing precedes the first element. -/
theorem not_head : ¬ Precedes (b :: l) a b := by
  intro h
  have hlt := h (List.mem_cons_self ..)
  rw [List.idxOf_cons_self] at hlt
  omega

/-- Without the first element the order of the others stays. -/
theorem tail (h : Precedes (c :: l) a b) (hne : a ≠ c) : Precedes l a b := by
  intro hb
  have hbc : b ≠ c := by
    rintro rfl
    exact not_head h
  have hlt := h (List.mem_cons_of_mem _ hb)
  rw [List.idxOf_cons_ne _ hne.symm, List.idxOf_cons_ne _ hbc.symm] at hlt
  omega

end Precedes

end Aegis.Lib
