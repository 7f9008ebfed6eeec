/-
  Aegis.Persistence.Lifecycle

  The life of a logical request, for both stores.

  `Moves` says what one step may do to a request as its clients see it:
  nothing, bring it into being in RECEIVED, or take it along an edge of the
  transition table.  Every lawful store refines this abstract lifecycle
  (`StoreLaw.moves`), and everything about whole runs follows from the abstract
  step alone (`lifecycleLaw_of_moves`): the states form a path of the table, a
  request is finalized by at most one call, and a final request never changes
  again.
-/

import Aegis.Lib.Runs
import Aegis.Persistence.Effects

namespace Aegis.Persistence

open Aegis.Lib (run trace states)
open Aegis.Request (ChatResponse Record State canTransition)

/-! ## The abstract lifecycle -/

/-- What one step may do to a request. -/
inductive Moves : Option RequestView → Option RequestView → Prop
  | stay (v : Option RequestView) : Moves v v
  | create {v : RequestView} (h : v.state = .received) : Moves none (some v)
  | advance {v w : RequestView} (h : canTransition v.state w.state = true) :
      Moves (some v) (some w)

/-- A final request does not move. -/
theorem Moves.frozen {v : RequestView} {w : Option RequestView} (h : Moves (some v) w)
    (hfinal : v.state.terminal = true) : w = some v := by
  cases h with
  | stay => rfl
  | advance hcan =>
      have := Request.not_terminal_of_canTransition hcan
      exact absurd hfinal (by simp [this])

/-- A request does not disappear. -/
theorem Moves.isSome {v w : Option RequestView} (h : Moves v w) (hv : v.isSome = true) :
    w.isSome = true := by
  cases h with
  | stay => exact hv
  | create => rfl
  | advance => rfl

section Law

variable {σ α : Type} (step : σ → α → σ) (view : σ → String → Option RequestView)

/-- The successive states of a request along a run, repetitions removed. -/
def statePath (s : σ) (as : List α) (id : String) : List State :=
  ((states step s as).filterMap fun t => (view t id).map RequestView.state).destutter (· ≠ ·)

/-- The step moves the request into a terminal state. -/
def finalizes (id : String) (x : σ × α × σ) : Bool :=
  match view x.2.2 id with
  | none => false
  | some after =>
      after.state.terminal && decide ((view x.1 id).map RequestView.state ≠ some after.state)

/-- Lifecycle and single finalisation of every request along a run. -/
structure LifecycleLaw (s : σ) (as : List α) : Prop where
  starts : ∀ id, ∀ first ∈ (statePath step view s as id).head?, first = .received
  path : ∀ id, (statePath step view s as id).IsChain fun a b => canTransition a b = true
  finalizedOnce : ∀ id, (trace step s as).countP (finalizes view id) ≤ 1
  frozen : ∀ id pre post v, as = pre ++ post → view (run step s pre) id = some v →
    v.state.terminal = true → view (run step s as) id = some v

variable {step view}

/-- Along a run of moves, a request that is final stays as it is. -/
theorem run_frozen {s : σ} {as : List α} {id : String} {v : RequestView}
    (hmoves : ∀ x ∈ trace step s as, Moves (view x.1 id) (view x.2.2 id))
    (hv : view s id = some v) (hfinal : v.state.terminal = true) :
    view (run step s as) id = some v ∧ (trace step s as).countP (finalizes view id) = 0 := by
  induction as generalizing s with
  | nil => exact ⟨hv, rfl⟩
  | cons a as ih =>
      have hfirst := hmoves (s, a, step s a) (List.mem_cons_self ..)
      rw [hv] at hfirst
      have hnext : view (step s a) id = some v := hfirst.frozen hfinal
      obtain ⟨hend, hcount⟩ := ih (fun x hx => hmoves x (List.mem_cons_of_mem _ hx)) hnext
      refine ⟨hend, ?_⟩
      have hnot : finalizes view id (s, a, step s a) = false := by
        simp [finalizes, hnext, hv]
      rw [Lib.trace_cons, List.countP_cons_of_neg (by simp [hnot]), hcount]

/-- At most one step of a run of moves finalizes a request. -/
theorem finalizedOnce_of_moves {s : σ} {as : List α} {id : String}
    (hmoves : ∀ x ∈ trace step s as, Moves (view x.1 id) (view x.2.2 id)) :
    (trace step s as).countP (finalizes view id) ≤ 1 := by
  induction as generalizing s with
  | nil => simp
  | cons a as ih =>
      have hrest : ∀ x ∈ trace step (step s a) as, Moves (view x.1 id) (view x.2.2 id) :=
        fun x hx => hmoves x (List.mem_cons_of_mem _ hx)
      rw [Lib.trace_cons, List.countP_cons]
      by_cases hfin : finalizes view id (s, a, step s a) = true
      · -- after the finalizing step the request is frozen
        have hafter : ∃ v, view (step s a) id = some v ∧ v.state.terminal = true := by
          unfold finalizes at hfin
          split at hfin
          · exact absurd hfin (by simp)
          · next v hv => exact ⟨v, hv, (Bool.and_eq_true_iff.mp hfin).1⟩
        obtain ⟨v, hv, hterm⟩ := hafter
        rw [(run_frozen hrest hv hterm).2]
        simp [hfin]
      · simpa [hfin] using ih hrest

/-- The states seen along a run of moves: each repeats the last or follows it
    in the table, and the first is the one the run starts with. -/
theorem stutter_of_moves {s : σ} {as : List α} {id : String}
    (hmoves : ∀ x ∈ trace step s as, Moves (view x.1 id) (view x.2.2 id)) :
    let seen := (states step s as).filterMap fun t => (view t id).map RequestView.state
    (seen.IsChain fun a b => a = b ∨ canTransition a b = true)
      ∧ (view s id = none → ∀ first ∈ seen.head?, first = .received)
      ∧ ∀ v, view s id = some v → seen.head? = some v.state := by
  induction as generalizing s with
  | nil =>
      cases hv : view s id with
      | none => simp [states, hv]
      | some v => simp [states, hv]
  | cons a as ih =>
      obtain ⟨hchain, hstart, hhead⟩ := ih (fun x hx => hmoves x (List.mem_cons_of_mem _ hx))
      have hfirst := hmoves (s, a, step s a) (List.mem_cons_self ..)
      dsimp only at hfirst
      cases hv : view s id with
      | none =>
          simp only [states, List.filterMap_cons, hv, Option.map_none]
          refine ⟨hchain, fun _ first hmem => ?_, fun v hsome => absurd hsome (by simp)⟩
          cases hw : view (step s a) id with
          | none => exact hstart hw first hmem
          | some w =>
              rw [hhead w hw] at hmem
              rw [hv, hw] at hfirst
              cases hfirst with
              | create hrec => rw [← Option.mem_some_iff.mp hmem, hrec]
      | some v =>
          simp only [states, List.filterMap_cons, hv, Option.map_some]
          refine ⟨?_, fun hnone => absurd hnone (by simp), fun v' hv' => ?_⟩
          · obtain ⟨w, hw⟩ : ∃ w, view (step s a) id = some w :=
              Option.isSome_iff_exists.mp (hfirst.isSome (by simp [hv]))
            have hnext := hhead w hw
            rw [hv, hw] at hfirst
            have hrel : v.state = w.state ∨ canTransition v.state w.state = true := by
              cases hfirst with
              | stay => exact Or.inl rfl
              | advance hcan => exact Or.inr hcan
            rw [List.isChain_cons]
            refine ⟨fun b hb => ?_, hchain⟩
            rw [hnext] at hb
            rw [← Option.mem_some_iff.mp hb]
            exact hrel
          · simp [Option.some.inj hv']

/-- **Lifecycle of runs.** If every step moves every request as the abstract
    lifecycle allows, the law holds of the whole run. -/
theorem lifecycleLaw_of_moves {s : σ} {as : List α} (hstart : ∀ id, view s id = none)
    (hmoves : ∀ x ∈ trace step s as, ∀ id, Moves (view x.1 id) (view x.2.2 id)) :
    LifecycleLaw step view s as where
  starts := by
    intro id first hmem
    obtain ⟨-, hfirst, -⟩ := stutter_of_moves fun x hx => hmoves x hx id
    refine hfirst (hstart id) first ?_
    unfold statePath at hmem
    cases hseen : (states step s as).filterMap fun t => (view t id).map RequestView.state with
    | nil => rw [hseen] at hmem; exact absurd hmem (by simp)
    | cons a l =>
        obtain ⟨t, ht⟩ := Lib.destutter'_starts a l
        rw [hseen, List.destutter_cons', ht] at hmem
        exact hmem
  path := fun id =>
    Lib.isChain_destutter_of_stutter (stutter_of_moves fun x hx => hmoves x hx id).1
  finalizedOnce := fun id => finalizedOnce_of_moves fun x hx => hmoves x hx id
  frozen := by
    rintro id pre post v rfl hv hfinal
    rw [Lib.run_append]
    refine (run_frozen (fun x hx => hmoves x ?_ id) hv hfinal).1
    rw [Lib.trace_append]
    exact List.mem_append_right _ hx

end Law

/-! ## The stores refine the lifecycle -/

/-- One call on a store. -/
def Store.step {σ : Type} (store : Store σ) (s : σ) (a : Call × Info) : σ :=
  (store a.1 a.2 s).2

/-- What a call does to a request is a move. -/
theorem Effect.moves {call : Call} {info : Info} {id : String} {v w : Option RequestView}
    (h : Effect call info id v w) : Moves v w := by
  cases h with
  | stay => exact .stay _
  | create params hcall hid hstate => exact .create hstate
  | move hedge haccepts hcan htarget hresponse => exact .advance (by rw [htarget]; exact hcan)

/-- Every call to a lawful store moves every request as the lifecycle allows. -/
theorem StoreLaw.moves {σ : Type} {store : Store σ} {view : σ → String → Option RequestView}
    {Fresh : σ → Call × Info → Prop} (law : StoreLaw store view Fresh) {s : σ} {a : Call × Info}
    (hfresh : Fresh s a) (id : String) : Moves (view s id) (view (Store.step store s a) id) :=
  (law.effect s a.1 a.2 hfresh id).moves

/-! ## Both stores -/

/-- **Request lifecycle and single finalisation.** For any calls, by any
    clients and with any arguments: on the in-memory store, as long as
    `randomID` does not repeat an identifier, and on PostgreSQL, whose primary
    key refuses a repeated one, every request follows the transition table from
    RECEIVED, is finalized by at most one call, and does not change after. -/
theorem request_lifecycle :
    (∀ (policies : String → Option TenantPolicy) (as : List (Call × Info)),
      (∀ x ∈ trace (Store.step Memory.store) (Memory.withPolicies policies) as,
        Memory.FreshID x.1 x.2.1) →
      LifecycleLaw (Store.step Memory.store) Memory.view (Memory.withPolicies policies) as)
    ∧ ∀ (catalog : Catalog) (as : List (Call × Info)),
        LifecycleLaw (Store.step Postgres.store) Db.view (Db.init catalog) as := by
  constructor
  · intro policies as hfresh
    refine lifecycleLaw_of_moves (fun id => rfl) ?_
    intro x hx id
    rw [Lib.trace_step hx]
    exact Memory.storeLaw.moves (hfresh x hx) id
  · intro catalog as
    refine lifecycleLaw_of_moves (fun id => rfl) ?_
    intro x hx id
    rw [Lib.trace_step hx]
    exact Postgres.storeLaw.moves trivial id

/-- A run on the in-memory store: a request is created, validated, cancelled,
    and cancelled once more in vain. -/
def cancelledRun : List (Call × Info) :=
  let info : Info := { now := 1, dbNow := 1, ids := fun _ => "r" }
  [(.createOrGetRequest {
      tenantID := "t", apiKeyID := "k", userID := "", idempotencyKey := "a", canonicalHash := [1]
      input := { model := "m", messages := [] }, correlationID := "c" }, info),
   (.transitionRequest "t" "r" .received .validated, info),
   (.cancelRequest "t" "r" "c", info),
   (.cancelRequest "t" "r" "c", info)]

theorem request_lifecycle_cancelledRun :
    LifecycleLaw (Store.step Memory.store) Memory.view (Memory.withPolicies fun _ => none)
        cancelledRun
      ∧ statePath (Store.step Memory.store) Memory.view (Memory.withPolicies fun _ => none)
          cancelledRun "r" = [.received, .validated, .cancelled] := by
  refine ⟨request_lifecycle.1 _ _ ?_, by decide +kernel⟩
  intro x hx
  simp only [cancelledRun, Lib.trace_cons, Lib.trace_nil, List.mem_cons, List.not_mem_nil,
    or_false] at hx
  rcases hx with rfl | rfl | rfl | rfl
  · rfl
  · trivial
  · trivial
  · trivial

end Aegis.Persistence
