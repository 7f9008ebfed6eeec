/-
  Aegis.Gateway.System

  Any number of gateway replicas on one store: executions advance one call at a
  time, in any order, and anyone may cancel a request at any time.

  A process makes at most one call to the store in a step, and `Makes` lists
  them.  What a step does to the store is what that call does to it
  (`Process.step_store`); this is how facts about calls become facts about
  executions.
-/

import Aegis.Gateway.Branch
import Aegis.Lib.Runs
import Aegis.Persistence.Effects

namespace Aegis.Gateway

open Aegis.Persistence (Call Catalog CreateRequestParams Db Effect FailureParams Info RequestView
  Store StoreLaw)
open Aegis.Provider (Chunk)
open Aegis.Request (ChatInput Record State)
open Aegis.Routing (Managed Router)

/-- The store, the canonical hash and the service of each replica. -/
structure Platform (σ : Type) where
  store : Store σ
  hashChat : ChatInput → Except GoError (List UInt8)
  services : Nat → Service

structure System (σ : Type) where
  store : σ
  /-- the router of each replica -/
  routers : Nat → Router
  procs : Nat → Option Process

inductive Action where
  /-- a client calls `Submit` or `Stream` -/
  | submit (pid : Nat) (job : Job)
  | advance (pid : Nat) (env : Env)
  /-- `Cancel` -/
  | cancel (tenantID requestID correlationID : String) (env : Env)
  /-- other users of a replica's router change its state -/
  | interfere (replica : Nat) (state : Nat → Managed)

namespace System

variable {σ : Type}

def init (s : σ) (routers : Nat → Router) : System σ where
  store := s
  routers := routers
  procs := fun _ => none

def step (platform : Platform σ) (x : System σ) : Action → System σ
  | .submit pid job =>
      -- `pid` names an execution, so it is used once
      match x.procs pid with
      | some _ => x
      | none => { x with procs := Function.update x.procs pid (some { job }) }
  | .advance pid env =>
      match x.procs pid with
      | none => x
      | some p =>
          let replica := p.job.replica
          let (p, s, router) := p.step platform.store platform.hashChat
            (platform.services replica) env x.store (x.routers replica)
          { store := s
            routers := Function.update x.routers replica router
            procs := Function.update x.procs pid (some p) }
  | .cancel tenantID requestID correlationID env =>
      { x with store :=
          (perform platform.store (.cancelRequest tenantID requestID correlationID) env
            x.store).2 }
  | .interfere replica state =>
      { x with routers :=
          Function.update x.routers replica { x.routers replica with state } }

end System

/-! ## The calls of a process -/

/-- The calls to the store that a process makes in its phase. -/
inductive Makes (p : Process) : Call → Prop
  | create {params : CreateRequestParams} (hphase : p.phase = .submitted)
      (htenant : params.tenantID = p.tenantID)
      (hkey : params.idempotencyKey = p.job.idempotencyKey) : Makes p (.createOrGetRequest params)
  | validate {record} (hphase : p.phase = .running record .received) :
      Makes p (.transitionRequest p.tenantID record.id .received .validated)
  | policy {record} (hphase : p.phase = .running record .validated) :
      Makes p (.tenantPolicy p.tenantID p.job.input.model)
  | abandon {record err} (hphase : p.phase = .running record (.abandoning err)) :
      Makes p (.transitionRequest p.tenantID record.id .validated .failed)
  | reserve {record selection reservation now}
      (hphase : p.phase = .running record (.reserving selection reservation)) :
      Makes p (.reserveBudget p.tenantID record.id reservation now)
  | reject {record reservation err}
      (hphase : p.phase = .running record (.rejecting reservation err)) :
      Makes p (.rejectBudget p.tenantID record.id p.job.correlationID reservation)
  | route {record selection} (hphase : p.phase = .running record (.reserved selection)) :
      Makes p (.transitionRequest p.tenantID record.id .validated .routing)
  | progress {record selection} (hphase : p.phase = .running record (.routed selection)) :
      Makes p (.transitionRequest p.tenantID record.id .routing .inProgress)
  | start {record loop lease} (hphase : p.phase = .running record (.leased loop lease)) :
      Makes p (.startAttempt {
        requestID := record.id, tenantID := p.tenantID, number := loop.attemptNumber
        providerName := lease.provider.name, model := p.job.input.model
        correlationID := p.job.correlationID })
  | complete {record loop lease started providerRequestID response cost}
      (hphase : p.phase
        = .running record (.completing loop lease started providerRequestID response cost)) :
      Makes p (.completeRequest {
        requestID := record.id, tenantID := p.tenantID, attemptNumber := loop.attemptNumber
        providerRequestID, response, costMicroUSD := cost, startedAt := started
        correlationID := p.job.correlationID })
  | settle {record response cost}
      (hphase : p.phase = .running record (.settling response cost)) :
      Makes p (.reconcileBudget record.id cost)
  | fail {record loop started err isPartial retryable}
      (hphase : p.phase = .running record (.failing loop started err isPartial retryable)) :
      Makes p (.failAttempt {
        requestID := record.id, tenantID := p.tenantID, attemptNumber := loop.attemptNumber
        category := errorCategory err, retryable, isPartial, final := !retryable
        startedAt := started, correlationID := p.job.correlationID })
  | close {record err started} (hphase : p.phase = .running record (.closing err)) :
      Makes p (.failAttempt {
        requestID := record.id, tenantID := p.tenantID, category := errorCategory err
        final := true, startedAt := started, correlationID := p.job.correlationID })
  | release {record err} (hphase : p.phase = .running record (.releasing err)) :
      Makes p (.reconcileBudget record.id 0)

section Steps

variable {σ : Type} {store : Store σ} {hashChat : ChatInput → Except GoError (List UInt8)}
  {service : Service} {env : Env}

/-- An answer that arrived is the store's. -/
theorem perform_ok {call : Call} {s s' : σ} {r : call.Result}
    (h : perform store call env s = (.ok r, s')) : store call env.info s = (.ok r, s') := by
  unfold perform at h
  -- both kinds of fault answer with an error
  split at h
  · exact h
  · exact absurd (congrArg Prod.fst h) (by simp)
  · exact absurd (congrArg Prod.fst h) (by simp)

/-- Without a fault the answer arrives. -/
theorem perform_of_none (hfault : env.fault = none) (call : Call) (s : σ) :
    perform store call env s = store call env.info s := by
  rw [perform, hfault]

/-- Whatever the answer, the store is as it was or as the call leaves it. -/
theorem perform_store (store : Store σ) (env : Env) (call : Call) (s : σ) :
    (perform store call env s).2 = s
      ∨ (perform store call env s).2 = (store call env.info s).2 := by
  unfold perform
  split
  · exact Or.inr rfl
  · exact Or.inl rfl
  · exact Or.inr rfl

/-- The store after `open`: as before, or after `CreateOrGetRequest`. -/
theorem Process.open_store (p : Process) (hphase : p.phase = .submitted) (s : σ) :
    (p.open store hashChat env s).2 = s
      ∨ ∃ call, Makes p call
          ∧ (p.open store hashChat env s).2 = (perform store call env s).2 := by
  unfold Process.open
  split
  · exact Or.inl rfl
  · split
    · exact Or.inl rfl
    · split
      · exact Or.inl rfl
      · next hash hhash =>
          refine Or.inr ⟨.createOrGetRequest {
            tenantID := p.tenantID, apiKeyID := p.job.principal.apiKeyID
            userID := p.job.principal.userID, idempotencyKey := p.job.idempotencyKey
            canonicalHash := hash, input := p.job.input
            correlationID := p.job.correlationID }, .create hphase rfl rfl, ?_⟩
          split
          · next hrun => rw [hrun]
          · next hrun =>
              rw [hrun]
              dsimp only
              split
              · rfl
              · split <;> rfl

/-- The store after a branch: as before, or after one of the process's calls. -/
theorem Branch.store_eq {p p' : Process} {record : Record} {s s' : σ} {stage : Stage}
    (h : Branch store service p record env s stage p' s')
    (hphase : p.phase = .running record stage) :
    s' = s ∨ ∃ call, Makes p call ∧ s' = (perform store call env s).2 := by
  cases h with
  | validate h | unvalidated h => exact Or.inr ⟨_, .validate hphase, by rw [h]⟩
  | policy h | forbidden h => exact Or.inr ⟨_, .policy hphase, by rw [h]⟩
  | abandon => exact Or.inr ⟨_, .abandon hphase, rfl⟩
  | reserve h | exceeded h | unreserved h => exact Or.inr ⟨_, .reserve hphase, by rw [h]⟩
  | reject => exact Or.inr ⟨_, .reject hphase, rfl⟩
  | route h | unrouted h => exact Or.inr ⟨_, .route hphase, by rw [h]⟩
  | progress h | stalled h => exact Or.inr ⟨_, .progress hphase, by rw [h]⟩
  | start h | unstarted h => exact Or.inr ⟨_, .start hphase, by rw [h]⟩
  | complete h | uncompleted h => exact Or.inr ⟨_, .complete hphase, by rw [h]⟩
  | settle => exact Or.inr ⟨_, .settle hphase, rfl⟩
  | retry h | fail h | unfailed h =>
      exact Or.inr ⟨_, .fail hphase, (congrArg Prod.snd h).symm⟩
  | close => exact Or.inr ⟨_, .close hphase, rfl⟩
  | release => exact Or.inr ⟨_, .release hphase, rfl⟩
  -- the limiter, the router, the provider and the timer do not touch the store
  | refuse | unquoted | quote | lease | exhausted | panic | begin | answer | unpriced | fault
  | interrupted | again => exact Or.inl rfl

/-- **One call a step.** A step leaves the store as it was or does to it what
    one of the process's calls does. -/
theorem Process.step_store (p : Process) (s : σ) (router : Router) :
    (p.step store hashChat service env s router).2.1 = s
      ∨ ∃ call, Makes p call
          ∧ (p.step store hashChat service env s router).2.1 = (perform store call env s).2 := by
  unfold Process.step
  split
  · next hphase => exact p.open_store hphase s
  · next record stage hphase =>
      exact (p.advance_branch store service record env s router stage).store_eq hphase
  · exact Or.inl rfl
  · exact Or.inl rfl

/-- The calls that take an edge do so at the process's own request. -/
theorem Makes.edge {p : Process} {call : Call} (h : Makes p call) {id : String}
    {accepts : State → Bool} {target : State} (hedge : call.edge = some (id, accepts, target)) :
    ∃ record stage, p.phase = .running record stage ∧ id = record.id := by
  cases h with
  | create | policy | reserve | start | settle | release => cases hedge
  | validate hphase | abandon hphase | reject hphase | route hphase | progress hphase
  | complete hphase | close hphase =>
      exact ⟨_, _, hphase, (congrArg Prod.fst (Option.some.inj hedge)).symm⟩
  | fail hphase =>
      -- only a final failure moves the request
      simp only [Call.edge] at hedge
      split at hedge
      · exact ⟨_, _, hphase, (congrArg Prod.fst (Option.some.inj hedge)).symm⟩
      · cases hedge

/-- `open` ends the process without a request, or with the one that
    `CreateOrGetRequest` returned; it goes on only when it created it. -/
theorem Process.open_cases (store : Store σ)
    (hashChat : ChatInput → Except GoError (List UInt8)) (p : Process) (env : Env) (s : σ) :
    (∃ err s', p.open store hashChat env s = (p.done (.error err), s'))
      ∨ ∃ params record created s',
          params.tenantID = p.tenantID ∧ params.idempotencyKey = p.job.idempotencyKey
          ∧ perform store (.createOrGetRequest params) env s = (.ok (record, created), s')
          ∧ (created = true ∧ p.open store hashChat env s
                = ({ p with opened := some (record, true) }.goto record .received, s')
            ∨ created = false ∧ ∃ outcome, p.open store hashChat env s
                = ({ p with opened := some (record, false) }.done (.ok outcome), s')) := by
  unfold Process.open
  split
  · exact Or.inl ⟨_, _, rfl⟩
  · split
    · exact Or.inl ⟨_, _, rfl⟩
    · split
      · exact Or.inl ⟨_, _, rfl⟩
      · split
        · exact Or.inl ⟨_, _, rfl⟩
        · next record created s' hrun =>
            refine Or.inr ⟨_, record, created, s', rfl, rfl, hrun, ?_⟩
            cases created with
            | true => exact Or.inl ⟨rfl, rfl⟩
            | false =>
                refine Or.inr ⟨rfl, ?_⟩
                simp only [Bool.false_eq_true, if_false]
                split
                · exact ⟨_, rfl⟩
                · exact ⟨_, rfl⟩

/-- `open` only sets the phase and the request: the process returns, or goes on
    with the request it created. -/
theorem Process.open_result (store : Store σ)
    (hashChat : ChatInput → Except GoError (List UInt8)) (p : Process) (env : Env) (s : σ) :
    ∃ phase opened, (p.open store hashChat env s).1 = { p with phase, opened }
      ∧ phase ≠ .submitted
      ∧ ∀ record stage, phase = .running record stage →
          opened = some (record, true) ∧ stage = .received := by
  rcases p.open_cases store hashChat env s with
    ⟨err, s', hopen⟩ | ⟨params, record, created, s', -, -, -, ⟨-, hopen⟩ | ⟨-, outcome, hopen⟩⟩
  · rw [hopen]
    exact ⟨_, _, rfl, Phase.noConfusion, fun _ _ h => (nomatch h)⟩
  · rw [hopen]
    refine ⟨_, _, rfl, Phase.noConfusion, ?_⟩
    intro record' stage hphase
    obtain ⟨rfl, rfl⟩ := Phase.running.inj hphase
    exact ⟨rfl, rfl⟩
  · rw [hopen]
    exact ⟨_, _, rfl, Phase.noConfusion, fun _ _ h => (nomatch h)⟩

/-- What a step does to its process, by its phase. -/
theorem Process.step_cases (store : Store σ)
    (hashChat : ChatInput → Except GoError (List UInt8)) (service : Service) (p : Process)
    (env : Env) (s : σ) (router : Router) :
    (p.phase = .submitted
        ∧ (p.step store hashChat service env s router).1 = (p.open store hashChat env s).1
        ∧ (p.step store hashChat service env s router).2.1 = (p.open store hashChat env s).2)
      ∨ (∃ record stage, p.phase = .running record stage
        ∧ Branch store service p record env s stage
            (p.step store hashChat service env s router).1
            (p.step store hashChat service env s router).2.1)
      ∨ (((∃ result, p.phase = .returned result) ∨ p.phase = .panicked)
        ∧ (p.step store hashChat service env s router).1 = p
        ∧ (p.step store hashChat service env s router).2.1 = s) := by
  unfold Process.step
  split
  · next hphase => exact Or.inl ⟨hphase, rfl, rfl⟩
  · next record stage hphase =>
      exact Or.inr (Or.inl ⟨record, stage, hphase,
        p.advance_branch store service record env s router stage⟩)
  · next result hphase => exact Or.inr (Or.inr ⟨Or.inl ⟨result, hphase⟩, rfl, rfl⟩)
  · next hphase => exact Or.inr (Or.inr ⟨Or.inr hphase, rfl, rfl⟩)

/-- A step keeps the job. -/
theorem Process.step_job (store : Store σ)
    (hashChat : ChatInput → Except GoError (List UInt8)) (service : Service) (p : Process)
    (env : Env) (s : σ) (router : Router) :
    (p.step store hashChat service env s router).1.job = p.job := by
  rcases p.step_cases store hashChat service env s router with
    ⟨-, hp', -⟩ | ⟨record, stage, -, hbranch⟩ | ⟨-, hp', -⟩
  · obtain ⟨phase, opened, hopen, -⟩ := p.open_result store hashChat env s
    rw [hp', hopen]
  · exact hbranch.kept.1
  · rw [hp']

/-- Nobody goes back to `submitted`. -/
theorem Process.step_ne_submitted (store : Store σ)
    (hashChat : ChatInput → Except GoError (List UInt8)) (service : Service) (p : Process)
    (env : Env) (s : σ) (router : Router) :
    (p.step store hashChat service env s router).1.phase ≠ .submitted := by
  rcases p.step_cases store hashChat service env s router with
    ⟨-, hp', -⟩ | ⟨record, stage, -, hbranch⟩ | ⟨hover, hp', -⟩
  · obtain ⟨phase, opened, hopen, hne, -⟩ := p.open_result store hashChat env s
    rw [hp', hopen]
    exact hne
  · exact hbranch.ne_submitted
  · rcases hover with ⟨result, hphase⟩ | hphase
    all_goals
      rw [hp', hphase]
      exact Phase.noConfusion

end Steps

/-! ## The processes after a step -/

section Processes

variable {σ : Type} {platform : Platform σ} {x : System σ}

/-- A process after a `submit`: the new one, or another as it was. -/
theorem procs_submit {pid pid' : Nat} {job : Job} {q : Process}
    (hq : (x.step platform (.submit pid job)).procs pid' = some q) :
    q = { job } ∨ x.procs pid' = some q := by
  simp only [System.step] at hq
  split at hq
  · exact Or.inr hq
  · dsimp only at hq
    by_cases hpid : pid' = pid
    · subst hpid
      rw [Function.update_self] at hq
      exact Or.inl (Option.some.inj hq).symm
    · rw [Function.update_of_ne hpid] at hq
      exact Or.inr hq

/-- A process that has opened a request was there before a `submit`. -/
theorem procs_submit_opened {pid pid' : Nat} {job : Job} {q : Process} {r : Record × Bool}
    (hq : (x.step platform (.submit pid job)).procs pid' = some q) (hopened : q.opened = some r) :
    x.procs pid' = some q := by
  rcases procs_submit hq with rfl | hold
  · cases hopened
  · exact hold

/-- So was one that runs. -/
theorem procs_submit_running {pid pid' : Nat} {job : Job} {q : Process} {record : Record}
    {stage : Stage} (hq : (x.step platform (.submit pid job)).procs pid' = some q)
    (hphase : q.phase = .running record stage) : x.procs pid' = some q := by
  rcases procs_submit hq with rfl | hold
  · cases hphase
  · exact hold

theorem store_submit {pid : Nat} {job : Job} :
    (x.step platform (.submit pid job)).store = x.store := by
  simp only [System.step]
  split <;> rfl

/-- A process after an `advance`: the one that moved, or another as it was. -/
theorem procs_advance {pid pid' : Nat} {env : Env} {p q : Process} (hp : x.procs pid = some p)
    (hq : (x.step platform (.advance pid env)).procs pid' = some q) :
    (pid' = pid ∧ q = (p.step platform.store platform.hashChat
        (platform.services p.job.replica) env x.store (x.routers p.job.replica)).1)
      ∨ (pid' ≠ pid ∧ x.procs pid' = some q) := by
  simp only [System.step, hp] at hq
  by_cases h : pid' = pid
  · subst h
    rw [Function.update_self] at hq
    exact Or.inl ⟨rfl, (Option.some.inj hq).symm⟩
  · rw [Function.update_of_ne h] at hq
    exact Or.inr ⟨h, hq⟩

theorem store_advance {pid : Nat} {env : Env} {p : Process} (hp : x.procs pid = some p) :
    (x.step platform (.advance pid env)).store = (p.step platform.store platform.hashChat
      (platform.services p.job.replica) env x.store (x.routers p.job.replica)).2.1 := by
  simp only [System.step, hp]

theorem step_advance_none {pid : Nat} {env : Env} (hp : x.procs pid = none) :
    x.step platform (.advance pid env) = x := by
  simp only [System.step, hp]

/-- The calls to the store that an action may make. -/
def Action.Calls (x : System σ) : Action → Call → Prop
  | .advance pid _, call => ∃ p, x.procs pid = some p ∧ Makes p call
  | .cancel tenantID requestID correlationID _, call =>
      call = .cancelRequest tenantID requestID correlationID
  | _, _ => False

/-- What the environment supplies to such a call. -/
def Action.info : Action → Option Info
  | .advance _ env => some env.info
  | .cancel _ _ _ env => some env.info
  | _ => none

/-- The store after a step: as before, or after one such call. -/
theorem System.step_store_call (platform : Platform σ) (x : System σ) (action : Action) :
    (x.step platform action).store = x.store
      ∨ ∃ call info, action.Calls x call
          ∧ (x.step platform action).store = (platform.store call info x.store).2
          ∧ action.info = some info := by
  cases action with
  | submit pid job => exact Or.inl store_submit
  | advance pid env =>
      cases hp : x.procs pid with
      | none => exact Or.inl (by rw [step_advance_none hp])
      | some p =>
          rw [store_advance hp]
          rcases p.step_store x.store (x.routers p.job.replica) with hsame | ⟨call, hmakes, hstore⟩
          · exact Or.inl hsame
          · rw [hstore]
            rcases perform_store platform.store env call x.store with hrefused | hdone
            · exact Or.inl hrefused
            · exact Or.inr ⟨call, env.info, ⟨p, hp, hmakes⟩, hdone, rfl⟩
  | cancel tenantID requestID correlationID env =>
      rcases perform_store platform.store env (.cancelRequest tenantID requestID correlationID)
        x.store with hrefused | hdone
      · exact Or.inl hrefused
      · exact Or.inr ⟨_, env.info, rfl, hdone, rfl⟩
  | interfere replica state => exact Or.inl rfl

/-- The step of a process that an action is, if it is one. -/
def Action.stepOf (pid : Nat) : Action → Option Env
  | .advance pid' env => if pid' = pid then some env else none
  | _ => none

/-- A process after a step: only its own steps change it. -/
theorem System.procs_step {pid : Nat} {p : Process} (hp : x.procs pid = some p)
    (action : Action) :
    (x.step platform action).procs pid = some (match action.stepOf pid with
      | none => p
      | some env => (p.step platform.store platform.hashChat (platform.services p.job.replica)
          env x.store (x.routers p.job.replica)).1) := by
  cases action with
  | submit pid' job =>
      simp only [System.step]
      split
      · exact hp
      · next hfree =>
          have hne : pid ≠ pid' := by
            rintro rfl
            exact absurd (hfree.symm.trans hp) (by simp)
          exact (Function.update_of_ne hne ..).trans hp
  | advance pid' env =>
      by_cases hpid : pid' = pid
      · subst hpid
        simp only [System.step, hp, Function.update_self, Action.stepOf, if_true]
      · simp only [Action.stepOf, if_neg hpid, System.step]
        split
        · exact hp
        · exact (Function.update_of_ne (Ne.symm hpid) ..).trans hp
  | cancel | interfere => exact hp

/-- A process that is there stays there, with its job. -/
theorem System.run_job (platform : Platform σ) {pid : Nat} {p : Process}
    (hp : x.procs pid = some p) (actions : List Action) :
    ∃ p', (Lib.run (System.step platform) x actions).procs pid = some p' ∧ p'.job = p.job := by
  induction actions generalizing x p with
  | nil => exact ⟨p, hp, rfl⟩
  | cons action actions ih =>
      obtain ⟨p', hp', hjob⟩ := ih (System.procs_step hp action)
      refine ⟨p', hp', hjob.trans ?_⟩
      split
      · rfl
      · exact Process.step_job _ _ _ _ _ _ _

/-- A process that is there stays as it is or takes its own step. -/
theorem System.step_proc {pid : Nat} {p p' : Process} {action : Action}
    (hp : x.procs pid = some p) (hp' : (x.step platform action).procs pid = some p') :
    p' = p ∨ ∃ env, action = .advance pid env
      ∧ p' = (p.step platform.store platform.hashChat (platform.services p.job.replica) env
          x.store (x.routers p.job.replica)).1 := by
  have hafter := hp'.symm.trans (System.procs_step hp action)
  cases action with
  | advance pid' env =>
      by_cases hpid : pid' = pid
      · subst hpid
        simp only [Action.stepOf, if_true] at hafter
        exact Or.inr ⟨env, rfl, Option.some.inj hafter⟩
      · simp only [Action.stepOf, if_neg hpid] at hafter
        exact Or.inl (Option.some.inj hafter)
  | submit | cancel | interfere => exact Or.inl (Option.some.inj hafter)

/-- A step begins a provider call only for a process at `attempted`. -/
theorem System.step_calls {pid : Nat} {p p' : Process} {action : Action}
    (hp : x.procs pid = some p) (hp' : (x.step platform action).procs pid = some p')
    (hphase : ∀ record loop lease, p.phase ≠ .running record (.attempted loop lease)) :
    p'.calls = p.calls := by
  rcases System.step_proc hp hp' with rfl | ⟨env, -, rfl⟩
  · rfl
  · rcases p.step_cases platform.store platform.hashChat (platform.services p.job.replica) env
      x.store (x.routers p.job.replica) with
      ⟨-, hopen, -⟩ | ⟨record, stage, hrunning, hbranch⟩ | ⟨-, hsame, -⟩
    · obtain ⟨phase, opened, hresult, -⟩ := p.open_result platform.store platform.hashChat env
        x.store
      rw [hopen, hresult]
    · refine hbranch.calls ?_
      rintro loop lease rfl
      exact hphase record loop lease hrunning
    · rw [hsame]

/-- A process that nobody submits is not there. -/
theorem System.trace_procs_none {pid : Nat} (hx : x.procs pid = none) {actions : List Action}
    (hactions : ∀ a ∈ actions, ∀ job, a ≠ .submit pid job) {t : System σ × Action × System σ}
    (ht : t ∈ Lib.trace (System.step platform) x actions) : t.1.procs pid = none := by
  refine (Lib.trace_invariant (I := fun x => x.procs pid = none)
    (C := fun _ a => ∀ job, a ≠ .submit pid job) ?_ hx ?_ ht).1
  · intro y action hy haction
    cases action with
    | submit pid' job =>
        simp only [System.step]
        split
        · exact hy
        · have hne : pid ≠ pid' := by
            rintro rfl
            exact haction job rfl
          dsimp only
          rw [Function.update_of_ne hne]
          exact hy
    | advance pid' env =>
        cases hq : y.procs pid' with
        | none =>
            rw [step_advance_none hq]
            exact hy
        | some q =>
            have hne : pid ≠ pid' := by
              rintro rfl
              exact absurd (hy.symm.trans hq) (by simp)
            simp only [System.step, hq]
            rw [Function.update_of_ne hne]
            exact hy
    | cancel | interfere => exact hy
  · intro u hu
    obtain ⟨pre, post, hsplit, -⟩ := Lib.mem_trace hu
    exact hactions u.2.1 (by rw [hsplit]; exact List.mem_append_right _ (List.mem_cons_self ..))

/-- A property of single processes that a process has at first and keeps in
    its own steps holds of all processes after every step. -/
theorem System.step_forall {Q : Process → Prop} (hnew : ∀ job, Q { job })
    (hstep : ∀ p env, Q p → Q (p.step platform.store platform.hashChat
      (platform.services p.job.replica) env x.store (x.routers p.job.replica)).1)
    (h : ∀ pid p, x.procs pid = some p → Q p) (action : Action) :
    ∀ pid p, (x.step platform action).procs pid = some p → Q p := by
  intro pid q hq
  cases action with
  | submit pid' job =>
      rcases procs_submit hq with rfl | hold
      · exact hnew job
      · exact h pid q hold
  | advance pid' env =>
      cases hp : x.procs pid' with
      | none =>
          rw [step_advance_none hp] at hq
          exact h pid q hq
      | some p =>
          rcases procs_advance hp hq with ⟨-, rfl⟩ | ⟨-, hold⟩
          · exact hstep p env (h pid' p hp)
          · exact h pid q hold
  | cancel tenantID requestID correlationID env => exact h pid q hq
  | interfere replica state => exact h pid q hq

/-- And so of all processes of every reachable state. -/
theorem System.run_forall (platform : Platform σ) {Q : Process → Prop} (hnew : ∀ job, Q { job })
    (hstep : ∀ p env s router, Q p → Q (p.step platform.store platform.hashChat
      (platform.services p.job.replica) env s router).1)
    (s : σ) (routers : Nat → Router) (actions : List Action) (pid : Nat) (p : Process)
    (hp : (Lib.run (System.step platform) (System.init s routers) actions).procs pid = some p) :
    Q p := by
  revert pid p
  refine Lib.run_invariant' (I := fun x : System σ => ∀ pid p, x.procs pid = some p → Q p)
    (fun x action h => System.step_forall hnew (fun p env => hstep p env _ _) h action) actions ?_
  exact fun _ _ h => nomatch h

/-- The same for a property that speaks of the process's service, which no step
    changes. -/
theorem System.step_forall_service {Q : Service → Process → Prop}
    (hnew : ∀ service job, Q service { job })
    (hstep : ∀ service p env s router, Q service p →
      Q service (p.step platform.store platform.hashChat service env s router).1)
    (h : ∀ pid p, x.procs pid = some p → Q (platform.services p.job.replica) p)
    (action : Action) :
    ∀ pid p, (x.step platform action).procs pid = some p →
      Q (platform.services p.job.replica) p := by
  refine System.step_forall (Q := fun p => Q (platform.services p.job.replica) p)
    (fun job => hnew _ job) ?_ h action
  intro p env hp
  rw [p.step_job]
  exact hstep _ p env _ _ hp

theorem System.run_forall_service (platform : Platform σ) {Q : Service → Process → Prop}
    (hnew : ∀ service job, Q service { job })
    (hstep : ∀ service p env s router, Q service p →
      Q service (p.step platform.store platform.hashChat service env s router).1)
    (s : σ) (routers : Nat → Router) (actions : List Action) (pid : Nat) (p : Process)
    (hp : (Lib.run (System.step platform) (System.init s routers) actions).procs pid = some p) :
    Q (platform.services p.job.replica) p := by
  refine System.run_forall platform (Q := fun p => Q (platform.services p.job.replica) p)
    (fun job => hnew _ job) ?_ s routers actions pid p hp
  intro p env s router hp
  rw [p.step_job]
  exact hstep _ p env s router hp

end Processes

/-! ## A small deployment, for concrete runs -/

/-- Providers `p` and `q` for the model `m`, one micro-dollar a token. -/
def sampleRouter : Router where
  configs := ["p", "q"].map fun name => Routing.ProviderConfig.withDefaults {
    provider := ⟨name, ["m"], ["public"]⟩, enabled := true
    inputCostPerMillionMicro := 1000000, outputCostPerMillionMicro := 1000000 }
  state := fun _ => {
    occupancy := 0, breaker := CircuitBreaker.Breaker.new {}, outstanding := 0
    healthy := true, ewmaMS := 0 }
  sequence := 0

/-- Tenant `t` asks the model `m`. -/
def sampleJob (key : String) (entry : Entry) : Job where
  replica := 0
  principal := ⟨"t", "k", ""⟩
  idempotencyKey := key
  correlationID := "c"
  input := { model := "m", messages := [⟨"user", "hello"⟩], maxTokens := 10 }
  entry := entry

/-- The policy of `t`, without restrictions. -/
def samplePolicies (tenantID : String) : Option Persistence.TenantPolicy :=
  if tenantID = "t" then some ⟨"public", none, 60, 1000, 10, 1000, 0⟩ else none

/-- The identifiers and the clocks of a step. -/
def sampleEnv (first second : String) (now : Time) : Env where
  info := ⟨now, now, fun slot => if slot = 0 then first else second⟩

def samplePlatform {σ : Type} (store : Store σ) : Platform σ where
  store := store
  hashChat := fun _ => .ok [1]
  services := fun _ => newService false {}

/-- Tenant `t` submits a request `r` and the execution takes some steps. -/
def submitAndAdvance (steps : Nat) : List Action :=
  .submit 0 (sampleJob "a" .submit) :: List.replicate steps (.advance 0 (sampleEnv "r" "e" 1))

/-- The database of the tenant with a monthly budget of 100. -/
def sampleStart : System Db :=
  System.init (Db.init (Catalog.sample 100 Catalog.hundred_fits)) fun _ => sampleRouter

/-- The steps of a request up to its provider call. -/
def upToCall : List Action :=
  submitAndAdvance 8 ++ [.advance 0 (sampleEnv "a" "f" 2), .advance 0 (sampleEnv "" "" 3)]

/-- The provider answers and the execution goes on. -/
def answerAndFinish : List Action :=
  [.advance 0 { sampleEnv "" "" 4 with complete := .ok {
      model := "m", content := "hi", finishReason := "stop", usage := ⟨2, 1, 3⟩ } },
    .advance 0 (sampleEnv "g" "h" 5), .advance 0 (sampleEnv "" "" 6)]

end Aegis.Gateway
