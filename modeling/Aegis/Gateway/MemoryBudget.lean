/-
  Aegis.Gateway.MemoryBudget

  The monthly budget over the in-memory store.

  An execution reserves once, for its own request and tenant, and reconciles
  once, when it is done with the request; `Funded` says that in between its
  reservation is there.  So every call that the gateway makes is a `SoundCall`
  of Aegis.Persistence.MemoryBooks, and every tenant stays within its budget.
-/

import Aegis.Gateway.Custody
import Aegis.Persistence.MemoryBooks

namespace Aegis.Gateway

open Aegis.Persistence (Call Info Memory RequestView TenantPolicy)
open Aegis.Persistence.Memory (Budgeted Solvent SoundCall)
open Aegis.Request (ChatInput Record)
open Aegis.Routing (Router)

/-- The reservation has been made. -/
def Stage.isFunded : Stage → Bool
  | .received | .validated | .abandoning _ | .admitting _ | .reserving _ _
  | .rejecting _ _ => false
  | _ => true

/-- Before `ReconcileBudget`. -/
def Stage.isReconciling : Stage → Bool
  | .settling _ _ | .releasing _ => true
  | _ => false

/-- The `ReconcileBudget` that a process is about to make. -/
def Process.reconciling (p : Process) : Option (String × Int) :=
  match p.phase with
  | .running record (.settling _ cost) => some (record.id, cost)
  | .running record (.releasing _) => some (record.id, 0)
  | _ => none

/-- The `ReconcileBudget` of an action. -/
def Action.reconciles {σ : Type} (x : System σ) : Action → Option (String × Int)
  | .advance pid _ => (x.procs pid).bind Process.reconciling
  | _ => none

/-- The actual cost is not negative and at most the reservation. -/
def CostCovered (x : System Memory) (action : Action) : Prop :=
  ∀ call ∈ action.reconciles x, 0 ≤ call.2
    ∧ ∀ amount ∈ x.store.reservations.lookup call.1, call.2 ≤ amount

instance (x : System Memory) (action : Action) : Decidable (CostCovered x action) :=
  inferInstanceAs (Decidable (∀ call ∈ action.reconciles x, _ ∧ ∀ amount ∈ _, _))

/-- Each execution past `ReserveBudget` has its reservation, and its request
    belongs to its tenant. -/
structure Funded (policies : String → Option TenantPolicy) (x : System Memory) : Prop where
  solvent : x.store.Solvent policies
  custody : Custody Memory.view x
  owned : ∀ {pid p record stage}, x.procs pid = some p → p.phase = .running record stage →
    x.store.owner? record.id = some p.tenantID
  funded : ∀ {pid p record stage}, x.procs pid = some p → p.phase = .running record stage →
    stage.isFunded = true → (x.store.reservations.lookup record.id).isSome = true

theorem funded_init {policies : String → Option TenantPolicy} (hpolicies : Budgeted policies)
    (routers : Nat → Router) :
    Funded policies (System.init (Memory.withPolicies policies) routers) :=
  ⟨Memory.solvent_withPolicies hpolicies, custody_init _ _, fun h => (nomatch h),
    fun h => (nomatch h)⟩

section Steps

variable {hashChat : ChatInput → Except GoError (List UInt8)} {services : Nat → Service}
  {policies : String → Option TenantPolicy} {x : System Memory}

/-- **The calls of the gateway are sound.** -/
theorem Funded.sound (h : Funded policies x) {pid : Nat} {env : Env} {p : Process}
    (hp : x.procs pid = some p) (hunused : UnusedID x (.advance pid env))
    (hcovered : CostCovered x (.advance pid env)) {call : Call} (hmakes : Makes p call) :
    SoundCall x.store env.info call := by
  have hreconciles : Action.reconciles x (.advance pid env) = p.reconciling := by
    simp only [Action.reconciles, hp, Option.bind_some]
  cases hmakes with
  | create hphase =>
      have hnone := hunused p hp (by rw [Process.isSubmitted, hphase])
      exact Option.isNone_iff_eq_none.mp hnone
  | reserve hphase => exact h.owned hp hphase
  | settle hphase | release hphase =>
      obtain ⟨amount, hamount⟩ := Option.isSome_iff_exists.mp (h.funded hp hphase rfl)
      have hcall := hcovered _ (by rw [hreconciles, Process.reconciling, hphase]; rfl)
      exact ⟨amount, hamount, hcall.1, hcall.2 amount hamount⟩
  | _ => exact trivial

/-- The store after an advance. -/
theorem Funded.advance_store (hashChat : ChatInput → Except GoError (List UInt8))
    (h : Funded policies x) {pid : Nat} {env : Env} {p : Process}
    (hp : x.procs pid = some p) (hunused : UnusedID x (.advance pid env))
    (hcovered : CostCovered x (.advance pid env)) (router : Router) (service : Service) :
    let s' := (p.step Memory.store hashChat service env x.store router).2.1
    s' = x.store ∨ ∃ call, Makes p call ∧ SoundCall x.store env.info call
      ∧ s' = (Memory.store call env.info x.store).2 := by
  dsimp only
  rcases p.step_store x.store router with hsame | ⟨call, hmakes, hstore⟩
  · exact Or.inl hsame
  · rw [hstore]
    rcases perform_store Memory.store env call x.store with hrefused | hdone
    · exact Or.inl hrefused
    · exact Or.inr ⟨call, hmakes, h.sound hp hunused hcovered hmakes, hdone⟩

/-- A process that goes on has not reconciled, and is funded only if it was or
    has just reserved. -/
theorem Branch.funded {p p' : Process} {record record' : Record} {service : Service} {env : Env}
    {s s' : Memory} {stage stage' : Stage}
    (h : Branch Memory.store service p record env s stage p' s')
    (hphase' : p'.phase = .running record' stage') :
    record' = record
      ∧ stage.isReconciling = false
      ∧ (stage'.isFunded = true → stage.isFunded = true
        ∨ ∃ reservation r, perform Memory.store
            (.reserveBudget p.tenantID record.id reservation env.info.now) env s
          = (.ok r, s')) := by
  cases h with
  | unvalidated | abandon | unquoted | unreserved | reject | unrouted | stalled | unstarted
  | unpriced | uncompleted | settle | unfailed | release | panic => cases hphase'
  | reserve h =>
      obtain ⟨rfl, rfl⟩ := Phase.running.inj hphase'
      exact ⟨rfl, rfl, fun _ => Or.inr ⟨_, _, h⟩⟩
  | _ =>
      obtain ⟨rfl, rfl⟩ := Phase.running.inj hphase'
      exact ⟨rfl, rfl, fun hfunded => Or.inl hfunded⟩

/-- Only the process of a request reconciles it. -/
theorem Makes.reconcile {p : Process} {id : String} {actual : Int}
    (h : Makes p (.reconcileBudget id actual)) :
    p.reconciling = some (id, actual)
      ∧ ∃ record stage, p.phase = .running record stage ∧ id = record.id
        ∧ stage.isReconciling = true := by
  cases h with
  | settle hphase =>
      refine ⟨?_, _, _, hphase, rfl, rfl⟩
      rw [Process.reconciling, hphase]
  | release hphase =>
      refine ⟨?_, _, _, hphase, rfl, rfl⟩
      rw [Process.reconciling, hphase]

/-- The process that moves. -/
theorem Funded.own (h : Funded policies x) {pid : Nat} {env : Env} {p : Process}
    (hp : x.procs pid = some p) (hunused : UnusedID x (.advance pid env))
    (hcovered : CostCovered x (.advance pid env)) (router : Router) (service : Service)
    {record : Record} {stage : Stage}
    (hphase' : (p.step Memory.store hashChat service env x.store router).1.phase
      = .running record stage) :
    (p.step Memory.store hashChat service env x.store router).2.1.owner? record.id
        = some p.tenantID
      ∧ (stage.isFunded = true →
        ((p.step Memory.store hashChat service env x.store router).2.1.reservations.lookup
          record.id).isSome = true) := by
  have hstore := h.advance_store hashChat hp hunused hcovered router service
  dsimp only at hstore
  rcases p.step_cases Memory.store hashChat service env x.store router with
    ⟨hphase, hp', hs'⟩ | ⟨record', stage', hphase, hbranch⟩ | ⟨-, hp', hs'⟩
  · rw [hp'] at hphase'
    rw [hs']
    rcases p.open_cases Memory.store hashChat env x.store with
      ⟨err, s', hopen⟩ | ⟨params, created, _, s', htenant, -, hrun, ⟨rfl, hopen⟩ | ⟨-, _, hopen⟩⟩
    · rw [hopen] at hphase'
      cases hphase'
    · rw [hopen] at hphase' ⊢
      obtain ⟨rfl, rfl⟩ := Phase.running.inj hphase'
      refine ⟨?_, fun hfunded => nomatch hfunded⟩
      rw [← htenant]
      exact Memory.createOrGetRequest_owner (perform_ok hrun)
    · rw [hopen] at hphase'
      cases hphase'
  · obtain ⟨rfl, hgoes, hfunds⟩ := hbranch.funded hphase'
    have howned := h.owned hp hphase
    constructor
    · rcases hstore with hsame | ⟨call, hmakes, hsound, hcall⟩
      · rw [hsame]
        exact howned
      · rw [hcall]
        exact Memory.store_owner hsound howned
    · intro hfunded
      rcases hfunds hfunded with hbefore | ⟨reservation, r, hreserved⟩
      · have hlookup := h.funded hp hphase hbefore
        rcases hstore with hsame | ⟨call, hmakes, hsound, hcall⟩
        · rw [hsame]
          exact hlookup
        · rw [hcall]
          refine Memory.store_reservation hlookup ?_
          rintro actual rfl
          obtain ⟨-, record', stage', hphase'', -, hstage⟩ := hmakes.reconcile
          obtain ⟨-, rfl⟩ := Phase.running.inj (hphase.symm.trans hphase'')
          cases hstage.symm.trans hgoes
      · exact Memory.reserveBudget_ok (perform_ok hreserved)
  · rw [hp'] at hphase'
    rw [hs']
    exact ⟨h.owned hp hphase', h.funded hp hphase'⟩

/-- The request of a process that does not move. -/
theorem Funded.other (h : Funded policies x) {pid : Nat} {q : Process} {record : Record}
    {stage : Stage} (hq : x.procs pid = some q) (hphase : q.phase = .running record stage)
    {s' : Memory} (hstore : s' = x.store ∨ ∃ call info, SoundCall x.store info call
      ∧ (∀ actual, call ≠ .reconcileBudget record.id actual)
      ∧ s' = (Memory.store call info x.store).2) :
    s'.owner? record.id = some q.tenantID
      ∧ (stage.isFunded = true → (s'.reservations.lookup record.id).isSome = true) := by
  rcases hstore with rfl | ⟨call, info, hsound, hcall, rfl⟩
  · exact ⟨h.owned hq hphase, h.funded hq hphase⟩
  · exact ⟨Memory.store_owner hsound (h.owned hq hphase),
      fun hfunded => Memory.store_reservation (h.funded hq hphase hfunded) hcall⟩

/-- The store stays solvent. -/
theorem Funded.solvent_store (h : Funded policies x) (hpolicies : Budgeted policies) {s' : Memory}
    (hstore : s' = x.store ∨ ∃ call info, SoundCall x.store info call
      ∧ s' = (Memory.store call info x.store).2) : Solvent policies s' := by
  rcases hstore with rfl | ⟨call, info, hsound, rfl⟩
  · exact h.solvent
  · exact h.solvent.store hpolicies hsound

/-- **One step.** -/
theorem Funded.step (hashChat : ChatInput → Except GoError (List UInt8))
    (services : Nat → Service) (h : Funded policies x) (hpolicies : Budgeted policies)
    (action : Action) (hunused : UnusedID x action) (hcovered : CostCovered x action) :
    Funded policies (x.step { store := Memory.store, hashChat, services } action) := by
  have hcustody : Custody Memory.view
      (x.step { store := Memory.store, hashChat, services } action) :=
    custody_step Memory.storeLaw h.custody action (freshStep_of_unusedID hunused)
  cases action with
  | submit pid job =>
      refine ⟨by rw [store_submit]; exact h.solvent, hcustody, ?_, ?_⟩
      · intro pid' q record stage hq hphase
        rw [store_submit]
        exact h.owned (procs_submit_running hq hphase) hphase
      · intro pid' q record stage hq hphase hfunded
        rw [store_submit]
        exact h.funded (procs_submit_running hq hphase) hphase hfunded
  | interfere replica state => exact ⟨h.solvent, hcustody, h.owned, h.funded⟩
  | cancel tenantID requestID correlationID env =>
      let call : Call := .cancelRequest tenantID requestID correlationID
      have hstore := perform_store Memory.store env call x.store
      refine ⟨?_, hcustody, ?_, ?_⟩
      · refine h.solvent_store hpolicies (hstore.imp id ?_)
        exact fun hdone => ⟨call, env.info, trivial, hdone⟩
      · intro pid q record stage hq hphase
        refine (h.other hq hphase (hstore.imp id ?_)).1
        exact fun hdone => ⟨call, env.info, trivial, fun _ => Call.noConfusion, hdone⟩
      · intro pid q record stage hq hphase
        refine (h.other hq hphase (hstore.imp id ?_)).2
        exact fun hdone => ⟨call, env.info, trivial, fun _ => Call.noConfusion, hdone⟩
  | advance pid env =>
      cases hp : x.procs pid with
      | none =>
          rw [step_advance_none hp]
          exact h
      | some p =>
          have hstore := h.advance_store hashChat hp hunused hcovered
            (x.routers p.job.replica) (services p.job.replica)
          dsimp only at hstore
          -- another process's request is not the one this process reconciles
          have hother : ∀ {pid' q record stage}, pid' ≠ pid → x.procs pid' = some q →
              q.phase = .running record stage →
              (p.step Memory.store hashChat (services p.job.replica) env x.store
                  (x.routers p.job.replica)).2.1.owner? record.id = some q.tenantID
                ∧ (stage.isFunded = true → ((p.step Memory.store hashChat
                  (services p.job.replica) env x.store
                  (x.routers p.job.replica)).2.1.reservations.lookup record.id).isSome = true) := by
            intro pid' q record stage hne hq hphase
            refine h.other hq hphase (hstore.imp (fun hsame => hsame) ?_)
            rintro ⟨call, hmakes, hsound, hdone⟩
            refine ⟨call, env.info, hsound, ?_, hdone⟩
            rintro actual rfl
            obtain ⟨-, record', stage', hphase', hid, -⟩ := hmakes.reconcile
            exact hne (h.custody.distinct hq hp (h.custody.opened hq hphase)
              (h.custody.opened hp hphase') hid)
          refine ⟨?_, hcustody, ?_, ?_⟩
          · rw [store_advance hp]
            refine h.solvent_store hpolicies (hstore.imp id ?_)
            rintro ⟨call, -, hsound, hdone⟩
            exact ⟨call, env.info, hsound, hdone⟩
          · intro pid' q record stage hq hphase
            rw [store_advance hp]
            rcases procs_advance hp hq with ⟨rfl, rfl⟩ | ⟨hne, hold⟩
            · rw [Process.tenantID, Process.step_job]
              exact (h.own hp hunused hcovered _ _ hphase).1
            · exact (hother hne hold hphase).1
          · intro pid' q record stage hq hphase
            rw [store_advance hp]
            rcases procs_advance hp hq with ⟨rfl, rfl⟩ | ⟨hne, hold⟩
            · exact (h.own hp hunused hcovered _ _ hphase).2
            · exact (hother hne hold hphase).2

/-- The execution that created the request has returned. -/
def Spent (x : System Memory) (id : String) : Prop :=
  ∃ pid p record result, x.procs pid = some p ∧ p.opened = some (record, true)
    ∧ record.id = id ∧ p.phase = .returned result

/-- A process that reconciles is running its own request. -/
theorem Process.reconciling_some {p : Process} {id : String} {actual : Int}
    (h : p.reconciling = some (id, actual)) :
    ∃ record stage, p.phase = .running record stage ∧ record.id = id
      ∧ stage.isReconciling = true := by
  unfold Process.reconciling at h
  split at h
  · next hphase =>
      cases h
      exact ⟨_, _, hphase, rfl, rfl⟩
  · next hphase =>
      cases h
      exact ⟨_, _, hphase, rfl, rfl⟩
  · cases h

theorem Action.reconciles_some {action : Action} {id : String}
    (h : (action.reconciles x).map Prod.fst = some id) :
    ∃ pid env p actual, action = .advance pid env ∧ x.procs pid = some p
      ∧ p.reconciling = some (id, actual) := by
  obtain ⟨⟨id', actual⟩, hreconciles, rfl⟩ := Option.map_eq_some_iff.mp h
  cases action with
  | advance pid env =>
      obtain ⟨p, hp, hreconciling⟩ := Option.bind_eq_some_iff.mp hreconciles
      exact ⟨pid, env, p, actual, rfl, hp, hreconciling⟩
  | submit | cancel | interfere => cases hreconciles

/-- Reconciling is the last thing an execution does. -/
theorem spent_of_reconciles (platform : Platform Memory) (h : Custody Memory.view x)
    {action : Action} {id : String} (hid : (action.reconciles x).map Prod.fst = some id) :
    Spent (x.step platform action) id := by
  obtain ⟨pid, env, p, actual, rfl, hp, hreconciling⟩ := Action.reconciles_some hid
  obtain ⟨record, stage, hphase, hrecord, hstage⟩ := p.reconciling_some hreconciling
  have hbranch := p.advance_branch platform.store (platform.services p.job.replica) record env
    x.store (x.routers p.job.replica) stage
  have hreturned : ∃ result, (p.step platform.store platform.hashChat
      (platform.services p.job.replica) env x.store (x.routers p.job.replica)).1
      = p.done result := by
    simp only [Process.step, hphase]
    generalize p.advance platform.store (platform.services p.job.replica) record env x.store
      (x.routers p.job.replica) stage = out at hbranch
    obtain ⟨p', store', router', note⟩ := out
    cases hbranch with
    | settle | release => exact ⟨_, rfl⟩
    | _ => cases hstage
  obtain ⟨result, hreturned⟩ := hreturned
  have hopened := h.opened hp hphase
  refine ⟨pid, p.done result, record, result, ?_, hopened, hrecord, rfl⟩
  simp only [System.step, hp, Function.update_self, hreturned]

/-- What is spent stays spent. -/
theorem Spent.step (platform : Platform Memory) {id : String} (h : Spent x id)
    (action : Action) : Spent (x.step platform action) id := by
  obtain ⟨pid, p, record, result, hp, hopened, hid, hreturned⟩ := h
  refine ⟨pid, p, record, result, ?_, hopened, hid, hreturned⟩
  cases action with
  | submit pid' job =>
      simp only [System.step]
      split
      · exact hp
      · next hfree =>
          have hne : pid ≠ pid' := by
            rintro rfl
            cases hfree.symm.trans hp
          dsimp only
          rw [Function.update_of_ne hne]
          exact hp
  | interfere | cancel => exact hp
  | advance pid' env =>
      cases hq : x.procs pid' with
      | none =>
          rw [step_advance_none hq]
          exact hp
      | some q =>
          simp only [System.step, hq]
          by_cases hpid : pid = pid'
          · subst hpid
            obtain rfl := Option.some.inj (hq.symm.trans hp)
            rw [Function.update_self]
            simp only [Process.step, hreturned]
          · rw [Function.update_of_ne hpid]
            exact hp

/-- And is not reconciled again. -/
theorem Spent.reconciles_ne {id : String} (h : Spent x id) (hcustody : Custody Memory.view x)
    (action : Action) : (action.reconciles x).map Prod.fst ≠ some id := by
  intro heq
  obtain ⟨pid, env, p, actual, rfl, hp, hreconciling⟩ := Action.reconciles_some heq
  obtain ⟨record, stage, hphase, hrecord, -⟩ := p.reconciling_some hreconciling
  obtain ⟨pid', p', record', result, hp', hopened, hid, hreturned⟩ := h
  obtain rfl := hcustody.distinct hp' hp hopened (hcustody.opened hp hphase)
    (hid.trans hrecord.symm)
  obtain rfl := Option.some.inj (hp.symm.trans hp')
  cases hphase.symm.trans hreturned

/-- The addition of `ReconcileBudget` does not overflow. -/
theorem Funded.reconciles_fit (h : Funded policies x) (hpolicies : Budgeted policies)
    {action : Action} (hcovered : CostCovered x action) {id : String} {actual : Int}
    (hreconciles : action.reconciles x = some (id, actual)) {record : Record}
    (hrecord : x.store.requests id = some record) :
    isInt64 (x.store.used record.tenantID + actual) = true := by
  obtain ⟨hnonneg, hle⟩ := hcovered _ hreconciles
  obtain ⟨pid, env, p, actual', -, hp, hreconciling⟩ :=
    Action.reconciles_some (by rw [hreconciles]; rfl)
  obtain ⟨record', stage, hphase, rfl, hstage⟩ := p.reconciling_some hreconciling
  -- whoever reconciles has reserved
  have hfunded : stage.isFunded = true := by
    cases stage with
    | settling | releasing => rfl
    | _ => cases hstage
  obtain ⟨amount, hamount⟩ := Option.isSome_iff_exists.mp (h.funded hp hphase hfunded)
  exact (h.solvent.reconciled hpolicies hrecord hamount hnonneg (hle amount hamount)).1

end Steps

/-! ## Runs -/

/-- **The in-memory budget.**  Executions and cancellations in any order, over
    a store that starts empty: every tenant stays within its monthly budget, no
    `int64` operation on the books overflows, and each request is reconciled at
    most once. -/
theorem memoryBudget_bounded (hashChat : ChatInput → Except GoError (List UInt8))
    (services : Nat → Service) (routers : Nat → Router)
    (policies : String → Option TenantPolicy) (hpolicies : Budgeted policies)
    (actions : List Action)
    (hrun : ∀ t ∈ Lib.trace (System.step { store := Memory.store, hashChat, services })
        (System.init (Memory.withPolicies policies) routers) actions,
      UnusedID t.1 t.2.1 ∧ CostCovered t.1 t.2.1) :
    let platform : Platform Memory := { store := Memory.store, hashChat, services }
    let start := System.init (Memory.withPolicies policies) routers
    let memory := (Lib.run (System.step platform) start actions).store
    (∀ tenantID policy, policies tenantID = some policy →
        memory.used tenantID + memory.reservedFor tenantID ≤ policy.monthlyBudget
        -- `sumMap`, in any order
        ∧ (∀ order part, order.Perm memory.reservations.entries → part <+: order →
            isInt64 (Lib.sumOf (memory.share tenantID) part) = true)
        -- `CanReserve`, as far as it is evaluated
        ∧ ∀ requested, 0 ≤ requested → requested ≤ policy.monthlyBudget →
            isInt64 (policy.monthlyBudget - requested) = true
            ∧ (memory.used tenantID ≤ policy.monthlyBudget - requested →
              isInt64 (policy.monthlyBudget - requested - memory.used tenantID) = true))
      ∧ (∀ t ∈ Lib.trace (System.step platform) start actions, ∀ id actual,
          t.2.1.reconciles t.1 = some (id, actual) → ∀ record,
            t.1.store.requests id = some record →
            isInt64 (t.1.store.used record.tenantID + actual) = true)
      ∧ ((Lib.trace (System.step platform) start actions).filterMap fun t =>
          (t.2.1.reconciles t.1).map Prod.fst).Nodup := by
  intro platform start memory
  have hstep : ∀ x action, Funded policies x → UnusedID x action ∧ CostCovered x action →
      Funded policies (x.step platform action) := fun x action hx hsteps =>
    hx.step hashChat services hpolicies action hsteps.1 hsteps.2
  have hfunded : Funded policies (Lib.run (System.step platform) start actions) :=
    Lib.run_invariant hstep actions (funded_init hpolicies routers) hrun
  refine ⟨?_, ?_, ?_⟩
  · intro tenantID policy hpolicy
    refine ⟨hfunded.solvent.bounded tenantID policy hpolicy, ?_, ?_⟩
    · intro order part horder hpart
      exact hfunded.solvent.sums_fit hpolicies hpolicy horder hpart
    · intro requested hrequested hfirst
      exact Budget.differences_fit (hpolicies tenantID policy hpolicy).2
        (hfunded.solvent.used_nonneg tenantID) hrequested hfirst
  · intro t ht id actual hreconciles record hrecord
    have hbefore := (Lib.trace_invariant hstep (funded_init hpolicies routers) hrun ht).1
    exact hbefore.reconciles_fit hpolicies (hrun t ht).2 hreconciles hrecord
  · have hdone : ∀ x action id, Funded policies x → UnusedID x action ∧ CostCovered x action →
        (action.reconciles x).map Prod.fst = some id → Spent (x.step platform action) id :=
      fun x action id hx _ hid => spent_of_reconciles platform hx.custody hid
    have hkeep : ∀ x action id, Funded policies x → UnusedID x action ∧ CostCovered x action →
        Spent x id → Spent (x.step platform action) id :=
      fun x action id _ _ hspent => hspent.step platform action
    have honce : ∀ x (action : Action) id, Funded policies x → Spent x id →
        (action.reconciles x).map Prod.fst ≠ some id :=
      fun x action id hx hspent => hspent.reconciles_ne hx.custody action
    exact Lib.trace_labels_nodup hstep hdone hkeep honce actions (funded_init hpolicies routers)
      hrun

theorem budgeted_samplePolicies : Budgeted samplePolicies := by
  intro tenantID policy hpolicy
  unfold samplePolicies at hpolicy
  split at hpolicy
  · cases hpolicy
    decide
  · cases hpolicy

/-- A request that is answered for three micro-dollars of a budget of a
    thousand. -/
theorem memoryBudget_bounded_answered :
    let platform := samplePlatform Memory.store
    let start := System.init (Memory.withPolicies samplePolicies) fun _ => sampleRouter
    let memory := (Lib.run (System.step platform) start (upToCall ++ answerAndFinish)).store
    memory.used "t" = 3 ∧ memory.used "t" + memory.reservedFor "t" ≤ 1000 := by
  refine ⟨by decide +kernel, ?_⟩
  have hbounded := memoryBudget_bounded (fun _ => .ok [1]) (fun _ => newService false {})
    (fun _ => sampleRouter) samplePolicies budgeted_samplePolicies (upToCall ++ answerAndFinish)
    (by decide +kernel)
  exact (hbounded.1 "t" _ rfl).1

end Aegis.Gateway
