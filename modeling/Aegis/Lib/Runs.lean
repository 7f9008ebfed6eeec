/-
  Aegis.Lib.Runs

  Runs of a deterministic labelled system.  A system is a step function
  `step : σ → α → σ`; everything the environment may choose (a schedule, a
  clock reading, a lost message) is part of the label, so a theorem about
  every list of labels is a theorem about every interleaving.

  `run` is the state a list of labels leads to and `trace` lists the steps
  taken on the way, each as (state before, label, state after).  The rules
  below turn facts about one step into facts about whole runs:

    * `run_invariant` — an invariant of the states;
    * `trace_invariant` — the same, at both ends of every step of the run;
    * `trace_labels_nodup` — no step is taken twice;
    * `run_simulation` — each run of one system is a run of another;
    * `observed_purge` — what an observer sees of a run does not change when
      the steps hidden from it are deleted.
-/

import Mathlib.Data.List.Basic
import Mathlib.Data.List.Destutter

namespace Aegis.Lib

variable {σ τ α β : Type _} {step : σ → α → σ}

/-- The state reached from `s` by taking the labels `as` in order. -/
def run (step : σ → α → σ) (s : σ) (as : List α) : σ :=
  as.foldl step s

/-- The steps of the run of `as` from `s`. -/
def trace (step : σ → α → σ) : σ → List α → List (σ × α × σ)
  | _, [] => []
  | s, a :: as => (s, a, step s a) :: trace step (step s a) as

/-- The states of the run of `as` from `s`, both ends included. -/
def states (step : σ → α → σ) : σ → List α → List σ
  | s, [] => [s]
  | s, a :: as => s :: states step (step s a) as

@[simp] theorem run_nil (s : σ) : run step s [] = s := rfl

@[simp] theorem run_cons (s : σ) (a : α) (as : List α) :
    run step s (a :: as) = run step (step s a) as := rfl

theorem run_append (s : σ) (as bs : List α) :
    run step s (as ++ bs) = run step (run step s as) bs := by
  simp only [run, List.foldl_append]

@[simp] theorem trace_nil (s : σ) : trace step s [] = [] := rfl

@[simp] theorem trace_cons (s : σ) (a : α) (as : List α) :
    trace step s (a :: as) = (s, a, step s a) :: trace step (step s a) as := rfl

theorem trace_append (s : σ) (as bs : List α) :
    trace step s (as ++ bs) = trace step s as ++ trace step (run step s as) bs := by
  induction as generalizing s with
  | nil => rfl
  | cons a as ih => simp only [List.cons_append, trace_cons, run_cons, ih]

/-! ## Invariant rules -/

/-- A property that every allowed step keeps holds at the end of every run
    all of whose steps are allowed. -/
theorem run_invariant {I : σ → Prop} {C : σ → α → Prop}
    (hstep : ∀ s a, I s → C s a → I (step s a)) {s : σ} (as : List α) (h0 : I s)
    (hC : ∀ x ∈ trace step s as, C x.1 x.2.1) : I (run step s as) := by
  induction as generalizing s with
  | nil => exact h0
  | cons a as ih =>
      have ha : C s a := hC (s, a, step s a) (List.mem_cons_self ..)
      exact ih (hstep s a h0 ha) (fun x hx => hC x (List.mem_cons_of_mem _ hx))

/-- A property that every step keeps holds in every reachable state. -/
theorem run_invariant' {I : σ → Prop} (hstep : ∀ s a, I s → I (step s a)) {s : σ}
    (as : List α) (h0 : I s) : I (run step s as) :=
  run_invariant (C := fun _ _ => True) (fun s a h _ => hstep s a h) as h0
    (fun _ _ => trivial)

/-- Each step of a run is a step of the system. -/
theorem trace_step {s : σ} {as : List α} {x : σ × α × σ} (hx : x ∈ trace step s as) :
    x.2.2 = step x.1 x.2.1 := by
  induction as generalizing s with
  | nil => exact absurd hx (List.not_mem_nil)
  | cons a as ih =>
      rcases List.mem_cons.mp hx with rfl | hx
      · rfl
      · exact ih hx

/-- Under the hypotheses of `run_invariant` the property also holds at both
    ends of every step of the run. -/
theorem trace_invariant {I : σ → Prop} {C : σ → α → Prop}
    (hstep : ∀ s a, I s → C s a → I (step s a)) {s : σ} {as : List α} (h0 : I s)
    (hC : ∀ x ∈ trace step s as, C x.1 x.2.1) {x : σ × α × σ}
    (hx : x ∈ trace step s as) : I x.1 ∧ I x.2.2 := by
  induction as generalizing s with
  | nil => exact absurd hx (List.not_mem_nil)
  | cons a as ih =>
      have ha : I (step s a) :=
        hstep s a h0 (hC (s, a, step s a) (List.mem_cons_self ..))
      rcases List.mem_cons.mp hx with rfl | hx
      · exact ⟨h0, ha⟩
      · exact ih ha (fun y hy => hC y (List.mem_cons_of_mem _ hy)) hx

/-- A step in the middle of a run starts where its prefix of labels leads. -/
theorem mem_trace {s : σ} {as : List α} {x : σ × α × σ} (hx : x ∈ trace step s as) :
    ∃ pre post, as = pre ++ x.2.1 :: post ∧ x.1 = run step s pre := by
  induction as generalizing s with
  | nil => exact absurd hx (List.not_mem_nil)
  | cons a as ih =>
      rcases List.mem_cons.mp hx with rfl | hx
      · exact ⟨[], as, rfl, rfl⟩
      · obtain ⟨pre, post, has, hpre⟩ := ih hx
        exact ⟨a :: pre, post, by rw [has]; rfl, hpre⟩

/-- The rest of a run after one of its steps. -/
theorem trace_rest {s : σ} {as : List α} {x : σ × α × σ} (hx : x ∈ trace step s as) :
    ∃ post, run step s as = run step x.2.2 post
      ∧ ∀ y ∈ trace step x.2.2 post, y ∈ trace step s as := by
  induction as generalizing s with
  | nil => exact absurd hx (List.not_mem_nil)
  | cons a as ih =>
      rcases List.mem_cons.mp hx with rfl | hx
      · exact ⟨as, rfl, fun y hy => List.mem_cons_of_mem _ hy⟩
      · obtain ⟨post, hrun, hrest⟩ := ih hx
        exact ⟨post, hrun, fun y hy => List.mem_cons_of_mem _ (hrest y hy)⟩

/-- If a step with label `k` makes `k` done, and what is done stays done and is
    not done again, then the labels of a run are distinct. -/
theorem trace_labels_nodup {κ : Type _} {I : σ → Prop} {C : σ → α → Prop}
    {label : σ → α → Option κ} {Done : σ → κ → Prop}
    (hstep : ∀ s a, I s → C s a → I (step s a))
    (hdone : ∀ s a k, I s → C s a → label s a = some k → Done (step s a) k)
    (hkeep : ∀ s a k, I s → C s a → Done s k → Done (step s a) k)
    (honce : ∀ s a k, I s → Done s k → label s a ≠ some k) {s : σ} (as : List α) (h0 : I s)
    (hC : ∀ x ∈ trace step s as, C x.1 x.2.1) :
    ((trace step s as).filterMap fun x => label x.1 x.2.1).Nodup := by
  induction as generalizing s with
  | nil => exact List.nodup_nil
  | cons a as ih =>
      have ha : C s a := hC (s, a, step s a) (List.mem_cons_self ..)
      have hrest : ∀ x ∈ trace step (step s a) as, C x.1 x.2.1 :=
        fun x hx => hC x (List.mem_cons_of_mem _ hx)
      have hnodup := ih (hstep s a h0 ha) hrest
      rw [trace_cons, List.filterMap_cons]
      cases hlabel : label s a with
      | none => exact hnodup
      | some k =>
          refine List.nodup_cons.mpr ⟨?_, hnodup⟩
          intro hk
          obtain ⟨x, hx, hagain⟩ := List.mem_filterMap.mp hk
          have hinv := trace_invariant (I := fun t => I t ∧ Done t k) (C := C)
            (fun t b ht hb => ⟨hstep t b ht.1 hb, hkeep t b k ht.1 hb ht.2⟩)
            ⟨hstep s a h0 ha, hdone s a k h0 ha hlabel⟩ hrest hx
          exact honce x.1 x.2.1 k hinv.1.1 hinv.1.2 hagain

/-! ## Simulation -/

/-- If each step of one system is matched by some labels of another, then
    each run of the first is matched by a run of the second. -/
theorem run_simulation {step' : τ → β → τ} (abs : σ → τ)
    (hsim : ∀ s a, ∃ bs, abs (step s a) = run step' (abs s) bs) (s : σ) (as : List α) :
    ∃ bs, abs (run step s as) = run step' (abs s) bs := by
  induction as generalizing s with
  | nil => exact ⟨[], rfl⟩
  | cons a as ih =>
      obtain ⟨bs, hbs⟩ := hsim s a
      obtain ⟨cs, hcs⟩ := ih (step s a)
      -- a step may be matched by several labels, or by none
      refine ⟨bs ++ cs, ?_⟩
      rw [run_append, ← hbs]
      exact hcs

/-! ## Deleting hidden steps -/

/-- The outputs of the visible steps of a run. -/
def observed {γ : Type _} (step : σ → α → σ) (out : σ → α → γ) (visible : α → Bool) (s : σ)
    (as : List α) : List γ :=
  ((trace step s as).filter fun x => visible x.2.1).map fun x => out x.1 x.2.1

section Purge

variable {γ : Type _} {step' : τ → β → τ} {out : σ → α → γ} {out' : τ → β → γ}
  {visible : α → Bool} {visible' : β → Bool}

theorem observed_cons (s : σ) (a : α) (as : List α) :
    observed step out visible s (a :: as)
      = if visible a then out s a :: observed step out visible (step s a) as
        else observed step out visible (step s a) as := by
  by_cases ha : visible a = true
  · rw [if_pos ha, observed, trace_cons, List.filter_cons, if_pos ha, List.map_cons]
    rfl
  · rw [if_neg ha, observed, trace_cons, List.filter_cons, if_neg ha]
    rfl

/-- **Unwinding.**  Let a relation between the states of two systems be kept by
    the hidden steps of the first, and by equal visible steps of both, which
    then have the same output.  Then deleting the hidden steps of a run does not
    change what is observed. -/
theorem observed_purge {R : σ → τ → Prop} {C : σ → α → Prop} {Same : α → β → Prop}
    (hhidden : ∀ s t a, R s t → C s a → visible a = false → R (step s a) t)
    (hvisible : ∀ s t a b, R s t → C s a → visible a = true → Same a b →
      visible' b = true ∧ out' t b = out s a ∧ R (step s a) (step' t b))
    {s : σ} {t : τ} {as : List α} {bs : List β} (h0 : R s t)
    (hC : ∀ x ∈ trace step s as, C x.1 x.2.1)
    (hsame : List.Forall₂ Same (as.filter visible) bs) :
    observed step' out' visible' t bs = observed step out visible s as := by
  induction as generalizing s t bs with
  | nil =>
      cases hsame
      rfl
  | cons a as ih =>
      have ha : C s a := hC (s, a, step s a) (List.mem_cons_self ..)
      have hrest : ∀ x ∈ trace step (step s a) as, C x.1 x.2.1 :=
        fun x hx => hC x (List.mem_cons_of_mem _ hx)
      by_cases hvis : visible a = true
      · rw [List.filter_cons_of_pos hvis] at hsame
        cases hsame with
        | cons hab hsame =>
            obtain ⟨hvis', hout, hstep⟩ := hvisible s t a _ h0 ha hvis hab
            rw [observed_cons, observed_cons, if_pos hvis, if_pos hvis', hout,
              ih hstep hrest hsame]
      · rw [List.filter_cons_of_neg hvis] at hsame
        rw [observed_cons, if_neg hvis]
        exact ih (hhidden s t a h0 ha (Bool.eq_false_iff.mpr hvis)) hrest hsame

end Purge

/-! ## Stuttering -/

/-- Removing repetitions keeps the first element in front. -/
theorem destutter'_starts [DecidableEq α] (a : α) (l : List α) :
    ∃ t, l.destutter' (· ≠ ·) a = a :: t := by
  induction l generalizing a with
  | nil => exact ⟨[], rfl⟩
  | cons b l ih =>
      by_cases heq : a = b
      · rw [List.destutter'_cons_neg _ (by simpa using heq)]
        exact ih a
      · rw [List.destutter'_cons_pos _ heq]
        exact ⟨_, rfl⟩

/-- If each element repeats the one before or follows it in `R`, then without
    the repetitions the list is a chain of `R`. -/
theorem isChain_destutter_of_stutter [DecidableEq α] {R : α → α → Prop} {l : List α}
    (h : l.IsChain fun a b => a = b ∨ R a b) : (l.destutter (· ≠ ·)).IsChain R := by
  cases l with
  | nil => exact List.IsChain.nil
  | cons a l =>
      rw [List.destutter_cons']
      induction l generalizing a with
      | nil => exact List.IsChain.singleton a
      | cons b l ih =>
          obtain ⟨hab, hrest⟩ := List.isChain_cons_cons.mp h
          by_cases heq : a = b
          · subst heq
            rw [List.destutter'_cons_neg _ (by simp)]
            exact ih a hrest
          · rw [List.destutter'_cons_pos _ heq]
            have hR : R a b := hab.resolve_left heq
            -- the destuttered rest still starts with `b`
            obtain ⟨t, ht⟩ : ∃ t, l.destutter' (· ≠ ·) b = b :: t :=
              destutter'_starts b l
            have hchain := ih b hrest
            rw [ht] at hchain ⊢
            exact List.isChain_cons_cons.mpr ⟨hR, hchain⟩

end Aegis.Lib
