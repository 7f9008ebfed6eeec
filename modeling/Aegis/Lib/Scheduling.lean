/-
  Aegis.Lib.Scheduling

  Ways to arrange a list of candidates.

    * Insertion sort by a key is stable: `pairwise_insertionSort_key` says that
      candidates with equal keys keep the order they came in, and
      `pair_sublist_of_key_lt` reads off who stands first.
    * `pick` scans weights for the candidate that owns a position.  The
      candidates own consecutive intervals of positions (`pick_eq_some`), each
      as long as its weight (`countP_pick`), also when the positions of any
      window are taken modulo the sum of the weights (`countP_pick_window`).
-/

import Mathlib.Data.List.Sort
import Mathlib.Data.Nat.Count
import Mathlib.Data.Nat.Periodic

namespace Aegis.Lib

/-! ## Sorting by a key -/

section ByKey

variable {α β : Type _} [LinearOrder β] {f : α → β} {before : α → α → Prop}

/-- The order of a stable sort: by key, and among equal keys as given. -/
def ByKey (f : α → β) (before : α → α → Prop) (a b : α) : Prop :=
  f a < f b ∨ f a = f b ∧ before a b

/-- An element that came before all others is inserted in front of those with
    its key. -/
theorem pairwise_orderedInsert_key {a : α} {l : List α} (hl : l.Pairwise (ByKey f before))
    (ha : ∀ b ∈ l, before a b) :
    (l.orderedInsert (fun x y => f x ≤ f y) a).Pairwise (ByKey f before) := by
  induction l with
  | nil => exact List.pairwise_singleton _ _
  | cons b l ih =>
      obtain ⟨hb, hl'⟩ := List.pairwise_cons.mp hl
      by_cases hle : f a ≤ f b
      · have hinsert : (b :: l).orderedInsert (fun x y => f x ≤ f y) a = a :: b :: l :=
          if_pos hle
        rw [hinsert]
        refine List.pairwise_cons.mpr ⟨fun c hc => ?_, hl⟩
        -- `b` has the least key of the list
        have hac : f a ≤ f c := by
          rcases List.mem_cons.mp hc with rfl | hc
          · exact hle
          · rcases hb c hc with hlt | ⟨heq, -⟩
            · exact hle.trans hlt.le
            · exact hle.trans heq.le
        rcases hac.lt_or_eq with hlt | heq
        · exact Or.inl hlt
        · exact Or.inr ⟨heq, ha c hc⟩
      · have hinsert : (b :: l).orderedInsert (fun x y => f x ≤ f y) a
            = b :: l.orderedInsert (fun x y => f x ≤ f y) a :=
          if_neg hle
        rw [hinsert]
        refine List.pairwise_cons.mpr ⟨fun c hc => ?_, ?_⟩
        · rcases List.mem_orderedInsert _ |>.mp hc with rfl | hc
          · exact Or.inl (not_le.mp hle)
          · exact hb c hc
        · exact ih hl' fun c hc => ha c (List.mem_cons_of_mem _ hc)

/-- **Stability.** -/
theorem pairwise_insertionSort_key {l : List α} (hl : l.Pairwise before) :
    (l.insertionSort fun x y => f x ≤ f y).Pairwise (ByKey f before) := by
  induction l with
  | nil => exact List.Pairwise.nil
  | cons a l ih =>
      obtain ⟨ha, hl'⟩ := List.pairwise_cons.mp hl
      rw [List.insertionSort_cons]
      apply pairwise_orderedInsert_key (ih hl')
      intro b hb
      exact ha b ((List.mem_insertionSort _).mp hb)

/-- In a list sorted so, the smaller key stands first. -/
theorem pair_sublist_of_key_lt {l : List α} (hl : l.Pairwise (ByKey f before)) {a b : α}
    (ha : a ∈ l) (hb : b ∈ l) (hlt : f a < f b) : [a, b].Sublist l := by
  obtain ⟨front, back, rfl⟩ := List.append_of_mem ha
  rcases List.mem_append.mp hb with hb | hb
  · -- `b` before `a` would have the smaller key
    have hba : ByKey f before b a :=
      (List.pairwise_append.mp hl).2.2 b hb a (List.mem_cons_self ..)
    rcases hba with hba | ⟨hba, -⟩
    · exact absurd hlt (lt_asymm hba)
    · exact absurd hlt hba.not_gt
  · rcases List.mem_cons.mp hb with rfl | hb
    · exact absurd hlt (lt_irrefl _)
    · have hpair : [a, b].Sublist (a :: back) := (List.singleton_sublist.mpr hb).cons_cons a
      exact hpair.trans (List.sublist_append_right front _)

theorem key_le_of_pair_sublist {l : List α} (hl : l.Pairwise (ByKey f before)) {a b : α}
    (h : [a, b].Sublist l) : f a ≤ f b := by
  rcases List.pairwise_iff_forall_sublist.mp hl h with hlt | ⟨heq, -⟩
  · exact hlt.le
  · exact heq.le

end ByKey

/-! ## Weighted positions -/

/-- The index of the weight that owns position `p`: weights own consecutive
    intervals from 0 on. -/
def pick : List Nat → Nat → Option Nat
  | [], _ => none
  | w :: ws, p => if p < w then some 0 else (pick ws (p - w)).map (· + 1)

/-- The interval that a weight owns. -/
theorem pick_eq_some {ws : List Nat} {p n : Nat} (h : pick ws p = some n) :
    (ws.take n).sum ≤ p ∧ p < (ws.take (n + 1)).sum := by
  induction ws generalizing p n with
  | nil => cases h
  | cons w ws ih =>
      unfold pick at h
      split at h
      · next hlt =>
          cases h
          simpa using hlt
      · next hge =>
          obtain ⟨m, hm, rfl⟩ := Option.map_eq_some_iff.mp h
          obtain ⟨hlow, hhigh⟩ := ih hm
          simp only [List.take_succ_cons, List.sum_cons]
          omega

/-- Every position below the sum is owned. -/
theorem pick_isSome {ws : List Nat} {p : Nat} (h : p < ws.sum) :
    ∃ n < ws.length, pick ws p = some n := by
  induction ws generalizing p with
  | nil => exact absurd h (Nat.not_lt_zero p)
  | cons w ws ih =>
      unfold pick
      by_cases hlt : p < w
      · exact ⟨0, Nat.zero_lt_succ _, if_pos hlt⟩
      · rw [List.sum_cons] at h
        have hrest : p - w < ws.sum := by omega
        obtain ⟨n, hn, hpick⟩ := ih hrest
        refine ⟨n + 1, Nat.succ_lt_succ hn, ?_⟩
        rw [if_neg hlt, hpick]
        rfl

/-- **A weight owns as many positions as it says.** -/
theorem countP_pick (ws : List Nat) (n : Nat) :
    (List.range ws.sum).countP (fun p => pick ws p = some n) = ws[n]?.getD 0 := by
  induction ws generalizing n with
  | nil => simp
  | cons w ws ih =>
      rw [List.sum_cons, List.range_add, List.countP_append, List.countP_map]
      have hlow : ∀ p ∈ List.range w, pick (w :: ws) p = some 0 := by
        intro p hp
        exact if_pos (List.mem_range.mp hp)
      have hhigh : ∀ p, pick (w :: ws) (w + p) = (pick ws p).map (· + 1) := by
        intro p
        rw [pick, if_neg (by omega), Nat.add_sub_cancel_left]
      cases n with
      | zero =>
          have hfirst : (List.range w).countP (fun p => pick (w :: ws) p = some 0) = w := by
            rw [List.countP_eq_length.mpr fun p hp => decide_eq_true (hlow p hp), List.length_range]
          have hrest : (List.range ws.sum).countP
              ((fun p => decide (pick (w :: ws) p = some 0)) ∘ fun p => w + p) = 0 := by
            rw [List.countP_eq_zero]
            intro p _
            simp [hhigh]
          rw [hfirst, hrest]
          rfl
      | succ n =>
          have hfirst : (List.range w).countP (fun p => pick (w :: ws) p = some (n + 1)) = 0 := by
            rw [List.countP_eq_zero]
            intro p hp
            simp [hlow p hp]
          have hrest : (List.range ws.sum).countP
              ((fun p => decide (pick (w :: ws) p = some (n + 1))) ∘ fun p => w + p)
              = (List.range ws.sum).countP (fun p => pick ws p = some n) := by
            congr 1
            funext p
            simp [hhigh]
          rw [hfirst, hrest, ih, Nat.zero_add, List.getElem?_cons_succ]

/-- A window of as many numbers as the weights sum to, wherever it starts,
    gives each weight its share. -/
theorem countP_pick_window (ws : List Nat) (s n : Nat) :
    (List.range' s ws.sum).countP (fun k => pick ws (k % ws.sum) = some n) = ws[n]?.getD 0 := by
  have hperiodic : Function.Periodic (fun k => pick ws (k % ws.sum) = some n) ws.sum := by
    intro k
    simp only [Nat.add_mod_right]
  have hwindow := Nat.filter_Ico_card_eq_of_periodic s ws.sum _ hperiodic
  have hcard : ((Finset.Ico s (s + ws.sum)).filter
        fun k => pick ws (k % ws.sum) = some n).card
      = (List.range' s (s + ws.sum - s)).countP (fun k => pick ws (k % ws.sum) = some n) := by
    rw [List.countP_eq_length_filter]
    rfl
  rw [hcard, Nat.add_sub_cancel_left] at hwindow
  rw [hwindow, ← countP_pick ws n]
  -- below the sum, the remainder is the number itself
  apply List.countP_congr
  intro p hp
  have hmod : p % ws.sum = p := Nat.mod_eq_of_lt (List.mem_range.mp hp)
  simp only [hmod]

end Aegis.Lib
