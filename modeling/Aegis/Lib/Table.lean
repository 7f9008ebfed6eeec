/-
  Aegis.Lib.Table

  Relational tables whose uniqueness constraints are part of the type.

  A `Table key clash` is a list of rows, in insertion order, no two of which
  clash on their keys: `key` projects the constrained columns of a row and
  `clash` says when two keys may not stand side by side (`clash := Eq` for one
  primary key; a disjunction for several unique constraints).  A table that
  violates its constraints cannot be built:

    * `insert?` is `INSERT`: it refuses a row that clashes;
    * `updateWhere` is `UPDATE ... SET ... WHERE`: its assignment must leave
      the constrained columns alone.

  The second half relates sums over two tables when one covers the other row
  by row.
-/

import Mathlib.Data.List.Basic
import Mathlib.Data.List.Nodup
import Mathlib.Data.List.Pairwise
import Mathlib.Algebra.BigOperators.Group.List.Basic
import Mathlib.Algebra.Order.Ring.Int

namespace Aegis.Lib

/-- Rows in insertion order, no two of which clash. -/
structure Table {α κ : Type} (key : α → κ) (clash : κ → κ → Prop) where
  rows : List α
  unique : rows.Pairwise fun a b => ¬ clash (key a) (key b)

namespace Table

variable {α κ : Type} {key : α → κ} {clash : κ → κ → Prop}

/-- The table without rows. -/
def empty : Table key clash := ⟨[], List.Pairwise.nil⟩

@[simp] theorem rows_empty : (empty : Table key clash).rows = [] := rfl

/-- `INSERT`: append the row, or refuse it when it clashes with one present. -/
def insert? [DecidableRel clash] (t : Table key clash) (r : α) : Option (Table key clash) :=
  if h : ∀ a ∈ t.rows, ¬ clash (key a) (key r) then
    some ⟨t.rows ++ [r], by
      rw [List.pairwise_append]
      exact ⟨t.unique, List.pairwise_singleton _ _, fun a ha b hb => by
        rw [List.mem_singleton.mp hb]
        exact h a ha⟩⟩
  else none

/-- `UPDATE ... SET f WHERE p`, for an assignment that keeps the key. -/
def updateWhere (t : Table key clash) (p : α → Bool) (f : α → α)
    (hf : ∀ a, key (f a) = key a) : Table key clash :=
  ⟨t.rows.map fun a => if p a then f a else a, by
    rw [List.pairwise_map]
    refine t.unique.imp ?_
    intro a b hab
    have hkey : ∀ c, key (if p c then f c else c) = key c := by
      intro c
      by_cases hc : p c
      · rw [if_pos hc, hf]
      · rw [if_neg hc]
    rw [hkey, hkey]
    exact hab⟩

@[simp] theorem rows_updateWhere (t : Table key clash) (p : α → Bool) (f : α → α)
    (hf : ∀ a, key (f a) = key a) :
    (t.updateWhere p f hf).rows = t.rows.map fun a => if p a then f a else a := rfl

/-- `UPDATE ... SET f WHERE p`, refused when rows clash afterwards. -/
def updateWhere? [DecidableRel clash] (t : Table key clash) (p : α → Bool) (f : α → α) :
    Option (Table key clash) :=
  let rows := t.rows.map fun a => if p a then f a else a
  if h : rows.Pairwise fun a b => ¬ clash (key a) (key b) then some ⟨rows, h⟩ else none

theorem updateWhere?_eq_some [DecidableRel clash] {t t' : Table key clash} {p : α → Bool}
    {f : α → α} (h : t.updateWhere? p f = some t') :
    t'.rows = t.rows.map fun a => if p a then f a else a := by
  unfold updateWhere? at h
  dsimp only at h
  split at h
  · cases h
    rfl
  · cases h

/-- An accepted row is appended. -/
theorem insert?_eq_some [DecidableRel clash] {t t' : Table key clash} {r : α}
    (h : t.insert? r = some t') :
    (∀ a ∈ t.rows, ¬ clash (key a) (key r)) ∧ t'.rows = t.rows ++ [r] := by
  unfold insert? at h
  split at h
  · next hfree =>
      refine ⟨hfree, ?_⟩
      rw [← Option.some.inj h]
  · exact absurd h (by simp)

/-- A refused row clashes with one present. -/
theorem insert?_eq_none [DecidableRel clash] {t : Table key clash} {r : α}
    (h : t.insert? r = none) : ∃ a ∈ t.rows, clash (key a) (key r) := by
  unfold insert? at h
  split at h
  · exact absurd h (by simp)
  · next hclash =>
      push Not at hclash
      exact hclash

/-- A row that clashes with none is accepted. -/
theorem exists_insert? [DecidableRel clash] {t : Table key clash} {r : α}
    (h : ∀ a ∈ t.rows, ¬ clash (key a) (key r)) : ∃ t', t.insert? r = some t' := by
  cases hinsert : t.insert? r with
  | some t' => exact ⟨t', rfl⟩
  | none =>
      obtain ⟨a, ha, hclash⟩ := insert?_eq_none hinsert
      exact absurd hclash (h a ha)

/-- Rows that clash are one and the same row. -/
theorem eq_of_clash (t : Table key clash) (hsymm : ∀ a b, clash a b → clash b a)
    {a b : α} (ha : a ∈ t.rows) (hb : b ∈ t.rows) (h : clash (key a) (key b)) : a = b := by
  by_contra hne
  have : Std.Symm fun a b : α => ¬ clash (key a) (key b) :=
    ⟨fun _ _ hab hba => hab (hsymm _ _ hba)⟩
  exact t.unique.forall ha hb hne h

end Table

/-! ## Rows selected by a unique condition -/

section Unique

variable {α : Type} {l : List α} {p q : α → Bool}

/-- A condition that at most one row of the list meets. -/
def Unique (l : List α) (q : α → Bool) : Prop :=
  l.Pairwise fun a b => ¬ (q a = true ∧ q b = true)

/-- `find?` on a unique condition finds every row that meets it. -/
theorem Unique.find?_eq_some_iff (h : Unique l q) {a : α} :
    l.find? q = some a ↔ a ∈ l ∧ q a = true := by
  induction l with
  | nil => simp
  | cons b l ih =>
      have hb := (List.pairwise_cons.mp h).1
      have hl := (List.pairwise_cons.mp h).2
      by_cases hqb : q b = true
      · rw [List.find?_cons_of_pos hqb]
        constructor
        · intro he
          rw [← Option.some.inj he]
          exact ⟨List.mem_cons_self .., hqb⟩
        · rintro ⟨ha, hqa⟩
          rcases List.mem_cons.mp ha with rfl | ha
          · rfl
          · exact absurd ⟨hqb, hqa⟩ (hb a ha)
      · rw [List.find?_cons_of_neg hqb, ih hl]
        constructor
        · rintro ⟨ha, hqa⟩
          exact ⟨List.mem_cons_of_mem _ ha, hqa⟩
        · rintro ⟨ha, hqa⟩
          rcases List.mem_cons.mp ha with rfl | ha
          · exact absurd hqa hqb
          · exact ⟨ha, hqa⟩

/-- A condition stronger than a unique one holds of one row exactly when it
    holds of the row the unique condition finds. -/
theorem Unique.countP_eq_one_iff (h : Unique l q) (hpq : ∀ a, p a = true → q a = true) :
    l.countP p = 1 ↔ ∃ a, l.find? q = some a ∧ p a = true := by
  induction l with
  | nil => simp
  | cons b l ih =>
      have hb := (List.pairwise_cons.mp h).1
      have hl := (List.pairwise_cons.mp h).2
      by_cases hqb : q b = true
      · have hrest : l.countP p = 0 := by
          rw [List.countP_eq_zero]
          intro a ha hpa
          exact hb a ha ⟨hqb, hpq a hpa⟩
        rw [List.find?_cons_of_pos hqb, List.countP_cons, hrest]
        by_cases hpb : p b = true
        · simp [hpb]
        · simp [hpb]
      · have hpb : ¬ p b = true := fun hp => hqb (hpq b hp)
        rw [List.find?_cons_of_neg hqb, List.countP_cons_of_neg hpb]
        exact ih hl

end Unique

/-! ## Lookups after an update -/

section Update

variable {α : Type} {l : List α} {p q : α → Bool} {f : α → α}

/-- A lookup on columns the update leaves alone finds the updated row. -/
theorem find?_update (hq : ∀ a, q (f a) = q a) :
    (l.map fun a => if p a then f a else a).find? q
      = (l.find? q).map fun a => if p a then f a else a := by
  rw [List.find?_map]
  congr 2
  funext a
  by_cases ha : p a
  · simp [ha, hq]
  · simp [ha]

/-- A selection on columns the update leaves alone selects the updated rows. -/
theorem filter_update (hq : ∀ a, q (f a) = q a) :
    (l.map fun a => if p a then f a else a).filter q
      = (l.filter q).map fun a => if p a then f a else a := by
  rw [List.filter_map]
  congr 2
  funext a
  by_cases ha : p a
  · simp [ha, hq]
  · simp [ha]

/-- An update whose condition excludes the selected rows does not show. -/
theorem map_update_of_disjoint (h : ∀ a ∈ l, p a = false) :
    (l.map fun a => if p a then f a else a) = l := by
  conv_rhs => rw [← List.map_id l]
  refine List.map_congr_left ?_
  intro a ha
  simp [h a ha]

/-- A deletion outside the selection does not show either. -/
theorem filter_eraseP_of_not (h : ∀ a, p a = true → q a = false) :
    (l.eraseP p).filter q = l.filter q := by
  induction l with
  | nil => rfl
  | cons a l ih =>
      by_cases ha : p a = true
      · rw [List.eraseP_cons_of_pos ha, List.filter_cons_of_neg (by rw [h a ha]; simp)]
      · rw [List.eraseP_cons_of_neg ha, List.filter_cons, List.filter_cons, ih]

/-- A deletion inside the selection is one from it. -/
theorem filter_eraseP_of_imp (h : ∀ a, p a = true → q a = true) :
    (l.eraseP p).filter q = (l.filter q).eraseP p := by
  rw [List.eraseP_filter]
  congr 2
  funext a
  by_cases ha : p a = true
  · simp [ha, h a ha]
  · simp [ha]

end Update

/-! ## Counting -/

/-- One row is replaced: the count changes by what the two rows count for. -/
theorem countP_set_add {α : Type} {l : List α} {i : Nat} {a : α} (h : l[i]? = some a)
    (p : α → Bool) (b : α) : (l.set i b).countP p + (p a).toNat = l.countP p + (p b).toNat := by
  obtain ⟨hlt, rfl⟩ := List.getElem?_eq_some_iff.mp h
  have hpos : p l[i] = true → 0 < l.countP p := fun hp =>
    List.countP_pos_iff.mpr ⟨l[i], List.getElem_mem hlt, hp⟩
  rw [List.countP_set hlt]
  cases hold : p l[i] <;> cases p b <;> simp_all

/-- The same for rows that stand for several. -/
theorem countP_flatMap_set_add {α β : Type} {l : List α} {i : Nat} {a : α} (h : l[i]? = some a)
    (f : α → List β) (p : β → Bool) (b : α) :
    ((l.set i b).flatMap f).countP p + (f a).countP p
      = (l.flatMap f).countP p + (f b).countP p := by
  induction l generalizing i with
  | nil => cases h
  | cons c l ih =>
      cases i with
      | zero =>
          cases h
          simp only [List.set_cons_zero, List.flatMap_cons, List.countP_append]
          omega
      | succ i =>
          have hrest := ih (List.getElem?_cons_succ ▸ h)
          simp only [List.set_cons_succ, List.flatMap_cons, List.countP_append]
          omega

/-- Those of one kind and the others. -/
theorem countP_split {α : Type} (l : List α) (p q : α → Bool) :
    l.countP p = l.countP (fun a => p a && q a) + l.countP (fun a => p a && !q a) := by
  induction l with
  | nil => rfl
  | cons a l ih =>
      simp only [List.countP_cons, ih]
      cases p a <;> cases q a <;> simp <;> omega

/-! ## Sums -/

/-- The sum of a column over a list of rows. -/
def sumOf {α : Type} (f : α → Int) (l : List α) : Int := (l.map f).sum

section Sums

variable {α β κ : Type} {f : α → Int} {l : List α}

@[simp] theorem sumOf_nil : sumOf f [] = 0 := rfl

@[simp] theorem sumOf_cons (a : α) : sumOf f (a :: l) = f a + sumOf f l := by
  simp [sumOf]

theorem sumOf_append (l₁ l₂ : List α) : sumOf f (l₁ ++ l₂) = sumOf f l₁ + sumOf f l₂ := by
  simp [sumOf]

theorem sumOf_map (g : β → α) (l : List β) : sumOf f (l.map g) = sumOf (fun b => f (g b)) l := by
  simp only [sumOf, List.map_map, Function.comp_def]

theorem sumOf_congr {g : α → Int} (h : ∀ a ∈ l, f a = g a) : sumOf f l = sumOf g l :=
  congrArg List.sum (List.map_congr_left h)

theorem sumOf_nonneg (h : ∀ a ∈ l, 0 ≤ f a) : 0 ≤ sumOf f l := by
  induction l with
  | nil => simp
  | cons a l ih =>
      have ha := h a (List.mem_cons_self ..)
      have hl := ih (fun b hb => h b (List.mem_cons_of_mem _ hb))
      rw [sumOf_cons]
      omega

theorem sumOf_le_sumOf {g : α → Int} (h : ∀ a ∈ l, f a ≤ g a) : sumOf f l ≤ sumOf g l := by
  induction l with
  | nil => simp
  | cons a l ih =>
      have ha := h a (List.mem_cons_self ..)
      have hl := ih (fun b hb => h b (List.mem_cons_of_mem _ hb))
      rw [sumOf_cons, sumOf_cons]
      omega

/-- One summand is at most the sum. -/
theorem le_sumOf (h : ∀ a ∈ l, 0 ≤ f a) {a : α} (ha : a ∈ l) : f a ≤ sumOf f l := by
  induction l with
  | nil => exact absurd ha (List.not_mem_nil)
  | cons b l ih =>
      have hb := h b (List.mem_cons_self ..)
      have hl : ∀ c ∈ l, 0 ≤ f c := fun c hc => h c (List.mem_cons_of_mem _ hc)
      rw [sumOf_cons]
      rcases List.mem_cons.mp ha with rfl | ha
      · have := sumOf_nonneg hl
        omega
      · have := ih hl ha
        omega

theorem sumOf_perm {m : List α} (h : l.Perm m) : sumOf f l = sumOf f m :=
  (h.map f).sum_eq

/-- The row at a position is taken out. -/
theorem sumOf_eraseIdx {i : Nat} {a : α} (h : l[i]? = some a) :
    sumOf f (l.eraseIdx i) + f a = sumOf f l := by
  obtain ⟨hlt, rfl⟩ := List.getElem?_eq_some_iff.mp h
  rw [← sumOf_perm (List.getElem_cons_eraseIdx_perm hlt), sumOf_cons]
  omega

/-- One entry of a map changes. -/
theorem sumOf_update [DecidableEq κ] {g : κ → α → Int} {r : κ → α} {keys : List κ} {k : κ}
    (hnodup : keys.Nodup) (hk : k ∈ keys) (a : α) :
    sumOf (fun j => g j (Function.update r k a j)) keys + g k (r k)
      = sumOf (fun j => g j (r j)) keys + g k a := by
  have hother : ∀ j ≠ k, g j (Function.update r k a j) = g j (r j) := by
    intro j hne
    rw [Function.update_of_ne hne]
  induction keys with
  | nil => exact absurd hk List.not_mem_nil
  | cons j keys ih =>
      obtain ⟨hj, hrest⟩ := List.nodup_cons.mp hnodup
      rw [sumOf_cons, sumOf_cons]
      rcases List.mem_cons.mp hk with rfl | hk
      · -- no other key is `k`
        rw [Function.update_self, sumOf_congr fun i hi => hother i fun heq => hj (heq ▸ hi)]
        omega
      · rw [hother j fun heq => hj (heq ▸ hk)]
        have := ih hrest hk
        omega

/-- The rows that a filter drops may as well count for nothing. -/
theorem sumOf_filter (p : α → Bool) :
    sumOf f (l.filter p) = sumOf (fun a => if p a then f a else 0) l := by
  induction l with
  | nil => rfl
  | cons a l ih =>
      rw [List.filter_cons, sumOf_cons, ← ih]
      by_cases hp : p a = true
      · rw [if_pos hp, if_pos hp, sumOf_cons]
      · rw [if_neg hp, if_neg hp, Int.zero_add]

theorem sumOf_filter_le {p q : α → Bool} (hf : ∀ a ∈ l, 0 ≤ f a)
    (hpq : ∀ a ∈ l, p a = true → q a = true) :
    sumOf f (l.filter p) ≤ sumOf f (l.filter q) := by
  rw [sumOf_filter, sumOf_filter]
  apply sumOf_le_sumOf
  intro a ha
  by_cases hp : p a = true
  · rw [if_pos hp, if_pos (hpq a ha hp)]
  · rw [if_neg hp]
    split
    · exact hf a ha
    · exact Int.le_refl _

/-- A list splits into the rows that meet a condition and the rest. -/
theorem sumOf_split (p : α → Bool) :
    sumOf f l = sumOf f (l.filter p) + sumOf f (l.filter fun a => !p a) := by
  induction l with
  | nil => simp
  | cons a l ih =>
      by_cases ha : p a
      · simp only [ha, List.filter_cons_of_pos, Bool.not_true, Bool.false_eq_true,
          not_false_eq_true, List.filter_cons_of_neg, sumOf_cons, ih]
        omega
      · simp only [ha, Bool.false_eq_true, not_false_eq_true, List.filter_cons_of_neg,
          Bool.not_false, List.filter_cons_of_pos, sumOf_cons, ih]
        omega

/-- **Covering.** If the rows of `l` have distinct keys and each positive one
    is covered by a row of `m` with the same key and at least its amount, then
    the total of `l` is at most the total of `m`. -/
theorem sumOf_le_of_cover [DecidableEq κ] {g : β → Int} {k : α → κ} {j : β → κ} {m : List β}
    (hnodup : (l.map k).Nodup) (hg : ∀ b ∈ m, 0 ≤ g b)
    (hcover : ∀ a ∈ l, 0 < f a → ∃ b ∈ m, j b = k a ∧ f a ≤ g b) :
    sumOf f l ≤ sumOf g m := by
  induction l generalizing m with
  | nil => simpa using sumOf_nonneg hg
  | cons a l ih =>
      rw [List.map_cons, List.nodup_cons] at hnodup
      rw [sumOf_cons]
      by_cases hpos : 0 < f a
      · -- the rows of `m` under `a`'s key pay for `a`, the others for the rest
        have hsplit := sumOf_split (f := g) (l := m) fun b => decide (j b = k a)
        have hmine : f a ≤ sumOf g (m.filter fun b => decide (j b = k a)) := by
          obtain ⟨b, hb, hkey, hle⟩ := hcover a (List.mem_cons_self ..) hpos
          have hbm : b ∈ m.filter fun b => decide (j b = k a) :=
            List.mem_filter.mpr ⟨hb, by simpa using hkey⟩
          have := le_sumOf (fun c hc => hg c (List.mem_filter.mp hc).1) hbm
          omega
        have hothers : sumOf f l ≤ sumOf g (m.filter fun b => !decide (j b = k a)) := by
          refine ih hnodup.2 (fun c hc => hg c (List.mem_filter.mp hc).1) ?_
          intro c hc hcpos
          obtain ⟨b, hb, hkey, hle⟩ := hcover c (List.mem_cons_of_mem _ hc) hcpos
          refine ⟨b, List.mem_filter.mpr ⟨hb, ?_⟩, hkey, hle⟩
          have hne : j b ≠ k a := by
            intro he
            exact hnodup.1 (List.mem_map.mpr ⟨c, hc, by rw [← hkey, he]⟩)
          simpa using hne
        omega
      · have hrest := ih hnodup.2 hg fun c hc => hcover c (List.mem_cons_of_mem _ hc)
        omega

end Sums

end Aegis.Lib
