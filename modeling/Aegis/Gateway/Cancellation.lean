/-
  Aegis.Gateway.Cancellation

  When a cancelled request stops spending.

  `CancelRequest` only updates the stored row.  `execute` learns of it when a
  guarded update of the request fails; neither the head of the retry loop, nor
  `StartAttempt`, nor the provider call looks at the row.  A cancellation is
  therefore respected if it is in place when the loop asks for a lease or
  arrives after the provider call has begun (`TimelyCancel`), and it is not in
  general: `cancellation_ignored` is a run in which a cancelled request goes on
  to start an attempt and to call a provider.
-/

import Aegis.Gateway.Custody
import Aegis.Persistence.Postgres

namespace Aegis.Gateway

open Aegis.Persistence (Call Catalog Db Info Memory RequestView Store StoreLaw TenantPolicy)
open Aegis.Request (ChatInput Record State)
open Aegis.Routing (Router)

namespace Process

/-- The request of a process at the head of the loop. -/
def asking (p : Process) : Option Record :=
  match p.phase with
  | .running record (.selecting _) => some record
  | _ => none

/-- The request of a process that holds a lease and has not called yet. -/
def committed (p : Process) : Option Record :=
  match p.phase with
  | .running record (.leased _ _) | .running record (.attempted _ _) => some record
  | _ => none

end Process

/-- As far as one execution is concerned: its request is not cancelled when it
    asks for a lease, and no cancellation of it arrives between that and the
    provider call. -/
def TimelyAt {σ : Type} (view : σ → String → Option RequestView) (x : System σ)
    (action : Action) (pid : Nat) : Prop :=
  match action with
  | .advance pid' _ => pid' = pid → ∀ p ∈ x.procs pid, ∀ record ∈ p.asking,
      ∀ v ∈ view x.store record.id, v.state ≠ .cancelled
  | .cancel _ requestID _ _ => ∀ p ∈ x.procs pid, ∀ record ∈ p.committed, record.id ≠ requestID
  | _ => True

/-- Cancellations arrive in time for every execution. -/
def TimelyCancel {σ : Type} (view : σ → String → Option RequestView) (x : System σ)
    (action : Action) : Prop :=
  ∀ pid, TimelyAt view x action pid

/-- A request is not spent on in a step: no `StartAttempt` for it succeeds and
    no provider call is begun on its behalf. -/
def StopsSpending {σ : Type} (platform : Platform σ) (x : System σ) (action : Action)
    (id : String) : Prop :=
  ∀ pid p p' record, x.procs pid = some p → p.opened = some (record, true) → record.id = id →
    (x.step platform action).procs pid = some p' →
    p'.calls = p.calls
      ∧ ∀ env params, action = .advance pid env → Makes p (.startAttempt params) →
          ∀ r s', perform platform.store (.startAttempt params) env x.store ≠ (.ok r, s')

instance {σ : Type} (view : σ → String → Option RequestView) (x : System σ) (action : Action)
    (pid : Nat) : Decidable (TimelyAt view x action pid) :=
  match action with
  | .advance pid' _ => inferInstanceAs (Decidable (pid' = pid → ∀ p ∈ x.procs pid,
      ∀ record ∈ p.asking, ∀ v ∈ view x.store record.id, v.state ≠ .cancelled))
  | .cancel _ requestID _ _ => inferInstanceAs (Decidable (∀ p ∈ x.procs pid,
      ∀ record ∈ p.committed, record.id ≠ requestID))
  | .submit _ _ => isTrue trivial
  | .interfere _ _ => isTrue trivial

theorem timelyAt_of_none {σ : Type} {view : σ → String → Option RequestView} {x : System σ}
    {pid : Nat} (action : Action) (h : x.procs pid = none) : TimelyAt view x action pid := by
  cases action with
  | advance pid' env =>
      intro _ p hp
      rw [h] at hp
      cases hp
  | cancel tenantID requestID correlationID env =>
      intro p hp
      rw [h] at hp
      cases hp
  | submit | interfere => exact trivial

/-- A process that holds a lease has its request in progress. -/
def Committed {σ : Type} (view : σ → String → Option RequestView) (x : System σ) : Prop :=
  ∀ pid p record, x.procs pid = some p → record ∈ p.committed →
    ∃ v, view x.store record.id = some v ∧ v.state = .inProgress

section Steps

variable {σ : Type} {platform : Platform σ} {view : σ → String → Option RequestView}
  {Fresh : σ → Call × Info → Prop} {x : System σ}

theorem committed_running {p : Process} {record : Record} (h : record ∈ p.committed) :
    ∃ stage, p.phase = .running record stage := by
  unfold Process.committed at h
  split at h
  · next hphase =>
      obtain rfl := Option.some.inj h
      exact ⟨_, hphase⟩
  · next hphase =>
      obtain rfl := Option.some.inj h
      exact ⟨_, hphase⟩
  · cases h

/-- A process comes to hold a lease at the head of the loop, and keeps it over
    `StartAttempt`. -/
theorem Branch.committed {store : Store σ} {service : Service} {p p' : Process}
    {record record' : Record} {env : Env} {s s' : σ} {stage : Stage}
    (h : Branch store service p record env s stage p' s')
    (hphase : p.phase = .running record stage) (hcommitted : record' ∈ p'.committed) :
    record' = record
      ∧ (p.asking = some record ∧ s' = s
        ∨ p.committed = some record ∧ ∃ params, Makes p (.startAttempt params)
            ∧ s' = (perform store (.startAttempt params) env s).2) := by
  cases h with
  | lease =>
      refine ⟨(Option.some.inj hcommitted).symm, Or.inl ⟨?_, rfl⟩⟩
      rw [Process.asking, hphase]
  | start h =>
      refine ⟨(Option.some.inj hcommitted).symm, Or.inr ⟨?_, _, .start hphase, by rw [h]⟩⟩
      rw [Process.committed, hphase]
  | _ => cases hcommitted

theorem committed_advance (law : StoreLaw platform.store view Fresh) (hcustody : Custody view x)
    (h : Committed view x) {pid : Nat} {env : Env} {p : Process} (hp : x.procs pid = some p)
    (hfresh : ∀ call, Makes p call → Fresh x.store (call, env.info))
    (htimely : ∀ record ∈ p.asking, ∀ v ∈ view x.store record.id, v.state ≠ .cancelled) :
    Committed view (x.step platform (.advance pid env)) := by
  intro pid' q record hq hcommitted
  rw [store_advance hp]
  rcases procs_advance hp hq with ⟨-, rfl⟩ | ⟨hne, hq⟩
  · rcases p.step_cases platform.store platform.hashChat (platform.services p.job.replica) env
      x.store (x.routers p.job.replica) with
      ⟨-, hp', -⟩ | ⟨record', stage, hphase, hbranch⟩ | ⟨-, hp', hs'⟩
    · obtain ⟨phase, opened, hopen, -, hrunning⟩ := p.open_result platform.store
        platform.hashChat env x.store
      rw [hp', hopen] at hcommitted
      obtain ⟨stage, hphase⟩ := committed_running hcommitted
      obtain ⟨-, rfl⟩ := hrunning record stage hphase
      rw [Process.committed, hphase] at hcommitted
      cases hcommitted
    · obtain ⟨v, hv, hfits⟩ := hcustody.fits hp hphase
      obtain ⟨rfl, ⟨hasking, hs'⟩ | ⟨hold, params, hmakes, hs'⟩⟩ :=
        hbranch.committed hphase hcommitted
      · -- at the head of the loop the state is IN_PROGRESS or CANCELLED
        rw [hs']
        refine ⟨v, hv, ?_⟩
        have hstate := htimely record hasking v hv
        unfold Process.asking at hasking
        rw [hphase] at hasking
        cases stage with
        | selecting => simpa [Stage.Fits, Stage.states, hstate] using hfits
        | _ => cases hasking
      · -- `StartAttempt` does not touch the request
        obtain ⟨w, hw, hstate⟩ := h _ _ _ hp hold
        rw [hs']
        exact ⟨w, perform_view_of_no_edge law (hfresh _ hmakes) hw (by rintro _ _ ⟨⟩), hstate⟩
    · rw [hs']
      rw [hp'] at hcommitted
      exact h _ _ _ hp hcommitted
  · obtain ⟨v, hv, hstate⟩ := h _ _ _ hq hcommitted
    obtain ⟨stage, hphase⟩ := committed_running hcommitted
    exact ⟨v, hcustody.view_other law hp hfresh hne hq (hcustody.opened hq hphase) hv, hstate⟩

theorem committed_step (law : StoreLaw platform.store view Fresh) (hcustody : Custody view x)
    (h : Committed view x) (action : Action) (hfresh : FreshStep Fresh x action)
    (htimely : TimelyCancel view x action) : Committed view (x.step platform action) := by
  cases action with
  | submit pid job =>
      intro pid' q record hq hcommitted
      rw [store_submit]
      rcases procs_submit hq with rfl | hold
      · cases hcommitted
      · exact h _ _ _ hold hcommitted
  | advance pid env =>
      cases hp : x.procs pid with
      | none =>
          rw [step_advance_none hp]
          exact h
      | some p => exact committed_advance law hcustody h hp (hfresh p hp) (htimely pid rfl p hp)
  | cancel tenantID requestID correlationID env =>
      -- a cancellation that arrives in time names another request
      intro pid p record hp hcommitted
      obtain ⟨v, hv, hstate⟩ := h _ _ _ hp hcommitted
      refine ⟨v, perform_view_of_no_edge law hfresh hv ?_, hstate⟩
      intro accepts target hedge
      exact htimely pid p hp record hcommitted
        (congrArg Prod.fst (Option.some.inj hedge)).symm
  | interfere replica state => exact h

/-- While no lease is held on a terminal request, it is not spent on. -/
theorem stopsSpending_of_committed (hcustody : Custody view x) (h : Committed view x)
    {id : String} {v : RequestView} (hv : view x.store id = some v)
    (hterminal : v.state.terminal = true) (action : Action) :
    StopsSpending platform x action id := by
  intro pid p p' record hp hopened hid hp'
  -- a lease means IN_PROGRESS, which is not terminal
  have hidle : ∀ record', record' ∈ p.committed → False := by
    intro record' hcommitted
    obtain ⟨w, hw, hstate⟩ := h _ _ _ hp hcommitted
    obtain ⟨stage, hphase⟩ := committed_running hcommitted
    obtain rfl : record' = record :=
      congrArg Prod.fst (Option.some.inj ((hcustody.opened hp hphase).symm.trans hopened))
    rw [hid, hv] at hw
    rw [Option.some.inj hw, hstate] at hterminal
    exact absurd hterminal (by decide)
  constructor
  · refine System.step_calls hp hp' ?_
    intro record' loop lease hphase
    exact hidle record' (by rw [Process.committed, hphase]; rfl)
  · intro env params _ hmakes
    cases hmakes with
    | start hphase => exact (hidle _ (by rw [Process.committed, hphase]; rfl)).elim

/-- What holds of every run with timely cancellations, on every store that
    meets `StoreLaw`. -/
theorem stopsSpending_of_storeLaw (platform : Platform σ)
    (law : StoreLaw platform.store view Fresh) (s : σ) (routers : Nat → Router)
    (early late : List Action) (action : Action)
    (hsteps : ∀ t ∈ Lib.trace (System.step platform) (System.init s routers) (early ++ late),
      FreshStep Fresh t.1 t.2.1 ∧ TimelyCancel view t.1 t.2.1)
    {id : String} {v : RequestView}
    (hv : view (Lib.run (System.step platform) (System.init s routers) early).store id = some v)
    (hterminal : v.state.terminal = true) :
    StopsSpending platform
      (Lib.run (System.step platform) (System.init s routers) (early ++ late)) action id := by
  obtain ⟨hcustody, hcommitted⟩ := Lib.run_invariant
    (I := fun x => Custody view x ∧ Committed view x)
    (C := fun x action => FreshStep Fresh x action ∧ TimelyCancel view x action)
    (fun x action h hC => ⟨custody_step law h.1 action hC.1,
      committed_step law h.1 h.2 action hC.1 hC.2⟩)
    (early ++ late) ⟨custody_init s routers, fun _ _ _ h => (nomatch h)⟩ hsteps
  -- a terminal state is still there later
  have hlater : view (Lib.run (System.step platform) (System.init s routers)
      (early ++ late)).store id = some v := by
    rw [Lib.run_append]
    refine Lib.run_invariant (I := fun x => view x.store id = some v)
      (C := fun x action => FreshStep Fresh x action ∧ TimelyCancel view x action)
      (fun x action h hC => System.step_terminal law h hterminal action hC.1) late hv ?_
    intro t ht
    refine hsteps t ?_
    rw [Lib.trace_append]
    exact List.mem_append_right _ ht
  exact stopsSpending_of_committed hcustody hcommitted hlater hterminal action

end Steps

/-- **A request cancelled in time stops spending.** In every run with timely
    cancellations, once the stored state of a request is terminal, no later
    `StartAttempt` for it succeeds and no later provider call is begun. -/
theorem cancellation_respected (hashChat : ChatInput → Except GoError (List UInt8))
    (services : Nat → Service) (routers : Nat → Router) (early late : List Action)
    (action : Action) (id : String) (v : RequestView) (hterminal : v.state.terminal = true) :
    (∀ db : Db,
        let platform : Platform Db := { store := Persistence.Postgres.store, hashChat, services }
        let start := System.init db routers
        (∀ t ∈ Lib.trace (System.step platform) start (early ++ late),
          TimelyCancel Db.view t.1 t.2.1) →
        (Lib.run (System.step platform) start early).store.view id = some v →
        StopsSpending platform (Lib.run (System.step platform) start (early ++ late)) action id)
      ∧ ∀ policies : String → Option TenantPolicy,
        let platform : Platform Memory := { store := Memory.store, hashChat, services }
        let start := System.init (Memory.withPolicies policies) routers
        (∀ t ∈ Lib.trace (System.step platform) start (early ++ late),
          UnusedID t.1 t.2.1 ∧ TimelyCancel Memory.view t.1 t.2.1) →
        (Lib.run (System.step platform) start early).store.view id = some v →
        StopsSpending platform (Lib.run (System.step platform) start (early ++ late)) action
          id := by
  constructor
  · intro db platform start hsteps hv
    exact stopsSpending_of_storeLaw platform Persistence.Postgres.storeLaw db routers early late
      action (fun t ht => ⟨freshStep_of_true t.2.1, hsteps t ht⟩) hv hterminal
  · intro policies platform start hsteps hv
    exact stopsSpending_of_storeLaw platform Memory.storeLaw _ routers early late action
      (fun t ht => ⟨freshStep_of_unusedID (hsteps t ht).1, (hsteps t ht).2⟩) hv hterminal

/-! ## Concrete runs -/

/-- The request is cancelled while its execution is at the head of the loop:
    it takes a lease, starts an attempt and calls the provider. -/
theorem cancellation_ignored :
    let step := System.step (samplePlatform Persistence.Postgres.store)
    let early := submitAndAdvance 7 ++ [.cancel "t" "r" "c" (sampleEnv "" "" 2)]
    let late := [.advance 0 (sampleEnv "" "" 3), .advance 0 (sampleEnv "a" "f" 4)]
    let x := Lib.run step sampleStart early
    let y := Lib.run step sampleStart (early ++ late)
    (x.store.view "r").map RequestView.state = some .cancelled
      ∧ (x.store.attemptsOf "r").map (·.status) = []
      ∧ (y.store.attemptsOf "r").map (·.status) = [.started]
      ∧ ¬ StopsSpending (samplePlatform Persistence.Postgres.store) y
          (.advance 0 (sampleEnv "" "" 5)) "r" := by
  refine ⟨by decide +kernel, by decide +kernel, by decide +kernel, ?_⟩
  intro h
  generalize hy : Lib.run _ _ _ = y at h
  have hbefore : (y.procs 0).map (fun p => (p.calls, p.opened.map fun o => (o.1.id, o.2)))
      = some ([], some ("r", true)) := by
    rw [← hy]
    decide +kernel
  have hafter : ((y.step (samplePlatform Persistence.Postgres.store)
      (.advance 0 (sampleEnv "" "" 5))).procs 0).map (fun p => p.calls) = some [(1, "p")] := by
    rw [← hy]
    decide +kernel
  obtain ⟨p, hp, hvalues⟩ := Option.map_eq_some_iff.mp hbefore
  obtain ⟨p', hp', hcalls⟩ := Option.map_eq_some_iff.mp hafter
  obtain ⟨hnone, hopened⟩ := Prod.mk.inj hvalues
  obtain ⟨⟨record, created⟩, hsome, hrecord⟩ := Option.map_eq_some_iff.mp hopened
  obtain ⟨hid, rfl⟩ := Prod.mk.inj hrecord
  have hsame := (h 0 p p' record hp hsome hid hp').1
  rw [hnone, hcalls] at hsame
  cases hsame

/-- The run in which the request is cancelled during the provider call. -/
def cancelledDuringCall : List Action :=
  submitAndAdvance 8 ++ [.advance 0 (sampleEnv "a" "f" 2), .advance 0 (sampleEnv "" "" 3),
    .cancel "t" "r" "c" (sampleEnv "" "" 4)]

/-- The execution finds out in `CompleteRequest`. -/
theorem cancellation_respected_during_call :
    let platform := samplePlatform Persistence.Postgres.store
    let late := [.advance 0 { sampleEnv "" "" 5 with complete := .ok {
      model := "m", content := "hi", finishReason := "stop", usage := ⟨2, 1, 3⟩ } }]
    let y := Lib.run (System.step platform) sampleStart (cancelledDuringCall ++ late)
    (y.procs 0).map (fun p => p.calls) = some [(1, "p")]
      ∧ StopsSpending platform y (.advance 0 (sampleEnv "" "" 6)) "r" := by
  refine ⟨by decide +kernel, ?_⟩
  have hview : ((Lib.run (System.step (samplePlatform Persistence.Postgres.store)) sampleStart
      cancelledDuringCall).store.view "r").map RequestView.state = some .cancelled := by
    decide +kernel
  obtain ⟨v, hv, hstate⟩ := Option.map_eq_some_iff.mp hview
  refine (cancellation_respected _ _ _ cancelledDuringCall _ _ "r" v
    (by rw [hstate]; rfl)).1 _ ?_ hv
  intro t ht pid
  by_cases hpid : pid = 0
  · subst hpid
    revert t
    decide +kernel
  · refine timelyAt_of_none _ (System.trace_procs_none rfl ?_ ht)
    intro a ha job heq
    subst heq
    simp [cancelledDuringCall, submitAndAdvance, hpid] at ha

end Aegis.Gateway
