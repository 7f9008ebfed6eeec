/-
  Aegis.Gateway.Idempotency

  At most one execution per idempotency key.

  Two arguments meet here.  One is about the store: `KeyLaw` binds a tenant's
  key to the first request created under it, so that of any number of
  executions racing for the key one creates the request and the others load
  it.  The other is about the retry loop (`Attempts`): the execution that goes
  on numbers its provider calls from 1, never exceeds the configured attempts
  and never asks a provider twice, because `Select` leaves out the excluded
  ones.
-/

import Aegis.Gateway.System
import Aegis.Persistence.Keys

namespace Aegis.Gateway

open Aegis.Persistence (Call KeyLaw Memory Db Store TenantPolicy Catalog)
open Aegis.Request (ChatInput Record)
open Aegis.Routing (Router)

/-! ## The retry loop -/

/-- What the loop's variables say about the provider calls begun so far. -/
def Stage.Counted (service : Service) (calls : List (Nat × String)) : Stage → Prop
  | .selecting loop =>
      loop.attemptNumber = calls.length + 1 ∧ ∀ c ∈ calls, c.2 ∈ loop.excluded
  | .leased loop lease | .attempted loop lease =>
      loop.attemptNumber = calls.length + 1
        ∧ (loop.attemptNumber : Int) ≤ service.config.maxAttempts
        ∧ (∀ c ∈ calls, c.2 ≠ lease.provider.name)
        ∧ lease.provider.name ∈ loop.excluded ∧ ∀ c ∈ calls, c.2 ∈ loop.excluded
  | .calling loop _ _ | .failing loop _ _ _ _ | .backingOff loop _ =>
      loop.attemptNumber = calls.length ∧ ∀ c ∈ calls, c.2 ∈ loop.excluded
  | .completing _ _ _ _ _ _ | .settling _ _ | .closing _ | .releasing _ => True
  | _ => calls = []

/-- The provider calls of one process. -/
structure Attempts (service : Service) (p : Process) : Prop where
  numbers : p.calls.map Prod.fst = List.range' 1 p.calls.length
  distinct : (p.calls.map Prod.snd).Nodup
  bounded : (p.calls.length : Int) ≤ service.config.maxAttempts
  creator : p.calls ≠ [] → ∃ record, p.opened = some (record, true)
  submitted : p.phase = .submitted → p.calls = []
  running : ∀ record stage, p.phase = .running record stage →
    p.opened = some (record, true) ∧ stage.Counted service p.calls

section Steps

variable {σ : Type} {store : Store σ} {hashChat : ChatInput → Except GoError (List UInt8)}
  {service : Service} {p p' : Process} {record : Record} {env : Env} {s s' : σ} {stage : Stage}

/-- A step keeps the count. -/
theorem Branch.counted (h : Branch store service p record env s stage p' s')
    (hcounted : stage.Counted service p.calls) {record' : Record} {stage' : Stage}
    (hphase' : p'.phase = .running record' stage') : stage'.Counted service p'.calls := by
  cases h with
  | progress =>
      obtain ⟨-, rfl⟩ := Phase.running.inj hphase'
      have hnil : p.calls = [] := hcounted
      rw [show (p.goto _ _).calls = p.calls from rfl, hnil]
      exact ⟨rfl, fun _ h => absurd h List.not_mem_nil⟩
  | lease hmax hnew =>
      obtain ⟨-, rfl⟩ := Phase.running.inj hphase'
      obtain ⟨hnumber, hexcluded⟩ := hcounted
      refine ⟨hnumber, hmax, ?_, List.mem_cons_self .., ?_⟩
      · -- the providers called so far are all excluded, and the lease is not
        intro c hc hname
        exact hnew (hname ▸ hexcluded c hc)
      · intro c hc
        exact List.mem_cons_of_mem _ (hexcluded c hc)
  | start => obtain ⟨-, rfl⟩ := Phase.running.inj hphase'; exact hcounted
  | begin =>
      obtain ⟨-, rfl⟩ := Phase.running.inj hphase'
      obtain ⟨hnumber, -, -, hlease, hexcluded⟩ := hcounted
      refine ⟨by simpa [Process.goto] using hnumber, ?_⟩
      intro c hc
      rcases List.mem_append.mp hc with hc | hc
      · exact hexcluded c hc
      · rw [List.mem_singleton.mp hc]
        exact hlease
  | again =>
      obtain ⟨-, rfl⟩ := Phase.running.inj hphase'
      exact ⟨congrArg (· + 1) hcounted.1, hcounted.2⟩
  | fault | retry => obtain ⟨-, rfl⟩ := Phase.running.inj hphase'; exact hcounted
  | validate | policy | forbidden | refuse | quote | reserve | exceeded | route =>
      obtain ⟨-, rfl⟩ := Phase.running.inj hphase'; exact hcounted
  | exhausted | answer | complete | fail | interrupted | close =>
      obtain ⟨-, rfl⟩ := Phase.running.inj hphase'; exact trivial
  | unvalidated | abandon | unquoted | unreserved | reject | unrouted | stalled | unstarted
  | unpriced | uncompleted | settle | unfailed | release | panic => cases hphase'

/-- A running process keeps `Attempts`. -/
theorem Attempts.branch (h : Attempts service p) (hphase : p.phase = .running record stage)
    (hbranch : Branch store service p record env s stage p' s') : Attempts service p' := by
  obtain ⟨hopened, hcounted⟩ := h.running record stage hphase
  have hrunning : ∀ record' stage', p'.phase = .running record' stage' →
      p'.opened = some (record', true) ∧ stage'.Counted service p'.calls := by
    intro record' stage' hphase'
    rw [hbranch.record_eq hphase', hbranch.kept.2]
    exact ⟨hopened, hbranch.counted hcounted hphase'⟩
  have hsubmitted : p'.phase ≠ .submitted := hbranch.ne_submitted
  have hcreator : p'.calls ≠ [] → ∃ record, p'.opened = some (record, true) := by
    rw [hbranch.kept.2]
    exact fun _ => ⟨record, hopened⟩
  -- the calls change at `attempted` only
  by_cases hstage : ∃ loop lease, stage = .attempted loop lease
  · obtain ⟨loop, lease, rfl⟩ := hstage
    obtain ⟨hnumber, hmax, hname, -⟩ := hcounted
    have hcalls : p'.calls = p.calls ++ [(loop.attemptNumber, lease.provider.name)] := by
      cases hbranch
      rfl
    refine ⟨?_, ?_, ?_, hcreator, fun hsub => absurd hsub hsubmitted, hrunning⟩
    · rw [hcalls, List.map_append, h.numbers, List.length_append, List.map_singleton,
        List.length_singleton, List.range'_1_concat, hnumber, Nat.add_comm 1]
    · rw [hcalls, List.map_append, List.nodup_append]
      refine ⟨h.distinct, List.nodup_singleton _, ?_⟩
      intro a ha b hb
      obtain ⟨c, hc, rfl⟩ := List.mem_map.mp ha
      rw [List.mem_singleton.mp hb]
      exact hname c hc
    · rw [hcalls, List.length_append, List.length_singleton]
      omega
  · have hcalls := hbranch.calls fun loop lease heq => hstage ⟨loop, lease, heq⟩
    refine ⟨?_, ?_, ?_, hcreator, fun hsub => absurd hsub hsubmitted, hrunning⟩
    · rw [hcalls]
      exact h.numbers
    · rw [hcalls]
      exact h.distinct
    · rw [hcalls]
      exact h.bounded

/-- A new process has not called anyone. -/
theorem attempts_new (service : Service) (job : Job) : Attempts service { job } where
  numbers := rfl
  distinct := List.nodup_nil
  bounded := Int.le_of_lt service.maxAttempts_pos
  creator := fun h => absurd rfl h
  submitted := fun _ => rfl
  running := fun _ _ h => nomatch h

theorem Attempts.step (h : Attempts service p) (env : Env) (s : σ) (router : Router) :
    Attempts service (p.step store hashChat service env s router).1 := by
  rcases p.step_cases store hashChat service env s router with
    ⟨hphase, hp', -⟩ | ⟨record, stage, hphase, hbranch⟩ | ⟨-, hp', -⟩
  · -- `open` calls no provider
    obtain ⟨phase, opened, hopen, hsubmitted, hrunning⟩ := p.open_result store hashChat env s
    have hnone := h.submitted hphase
    rw [hp', hopen]
    refine ⟨h.numbers, h.distinct, h.bounded, fun hne => absurd hnone hne,
      fun hsub => absurd hsub hsubmitted, ?_⟩
    intro record stage hrun
    obtain ⟨hopened, rfl⟩ := hrunning record stage hrun
    exact ⟨hopened, hnone⟩
  · exact h.branch hphase hbranch
  · rw [hp']
    exact h

end Steps

/-! ## The keys -/

/-- What the answers of `CreateOrGetRequest` say about the store's bindings. -/
structure KeyBound {σ : Type} (binding : σ → String → String → Option String) (x : System σ) :
    Prop where
  bound : ∀ {pid p record created}, x.procs pid = some p → p.opened = some (record, created) →
    binding x.store p.tenantID p.job.idempotencyKey = some record.id
  once : ∀ {pid pid' p p' record record'}, x.procs pid = some p → x.procs pid' = some p' →
    p.opened = some (record, true) → p'.opened = some (record', true) →
    p.tenantID = p'.tenantID → p.job.idempotencyKey = p'.job.idempotencyKey → pid = pid'

section Keys

variable {σ : Type} {platform : Platform σ} {binding : σ → String → String → Option String}
  {Valid : σ → Prop} {x : System σ}

/-- A call keeps the bindings, whatever became of its answer. -/
theorem perform_bound (law : KeyLaw platform.store binding Valid) {s : σ}
    {tenantID key id : String} (env : Env) (call : Call) (h : binding s tenantID key = some id) :
    binding (perform platform.store call env s).2 tenantID key = some id := by
  rcases perform_store platform.store env call s with hsame | hdone
  · rw [hsame]
    exact h
  · rw [hdone]
    exact law.kept call env.info h

theorem perform_valid (law : KeyLaw platform.store binding Valid) {s : σ} (env : Env)
    (call : Call) (h : Valid s) : Valid (perform platform.store call env s).2 := by
  rcases perform_store platform.store env call s with hsame | hdone
  · rw [hsame]
    exact h
  · rw [hdone]
    exact law.valid call env.info h

/-- What a step adds: an answer that agrees with the bindings after it, and
    that says `created` only if there was no binding before. -/
theorem Process.step_opened (law : KeyLaw platform.store binding Valid) (service : Service)
    (p : Process) (env : Env) {s : σ} (router : Router) (hvalid : Valid s) :
    let p' := (p.step platform.store platform.hashChat service env s router).1
    let s' := (p.step platform.store platform.hashChat service env s router).2.1
    ∀ record created, p'.opened = some (record, created) →
      p.opened = some (record, created)
        ∨ binding s' p.tenantID p.job.idempotencyKey = some record.id
          ∧ (created = true → binding s p.tenantID p.job.idempotencyKey = none) := by
  dsimp only
  rcases p.step_cases platform.store platform.hashChat service env s router with
    ⟨hphase, hp', hs'⟩ | ⟨record, stage, hphase, hbranch⟩ | ⟨-, hp', -⟩
  · rw [hp', hs']
    rcases p.open_cases platform.store platform.hashChat env s with
      ⟨err, s', hopen⟩ | ⟨params, record, created, s', htenant, hkey, hrun, hcase⟩
    · rw [hopen]
      exact fun _ _ h => Or.inl h
    · rcases hcase with ⟨rfl, hopen⟩ | ⟨rfl, outcome, hopen⟩
      · -- the winner found no binding and made its own
        obtain ⟨hnone, hsome⟩ := law.created hvalid (perform_ok hrun)
        rw [htenant, hkey] at hnone hsome
        rw [hopen]
        refine fun record' created' hopened => Or.inr ?_
        obtain ⟨rfl, rfl⟩ := Prod.mk.inj (Option.some.inj hopened)
        exact ⟨hsome, fun _ => hnone⟩
      · -- the others load the request that is bound
        have hbefore := law.loaded hvalid (perform_ok hrun)
        have hafter := perform_bound law env (.createOrGetRequest params) hbefore
        rw [hrun, htenant, hkey] at hafter
        rw [hopen]
        refine fun record' created' hopened => Or.inr ?_
        obtain ⟨rfl, rfl⟩ := Prod.mk.inj (Option.some.inj hopened)
        exact ⟨hafter, fun h => absurd h (by simp)⟩
  · exact fun _ _ h => Or.inl (hbranch.kept.2 ▸ h)
  · rw [hp']
    exact fun _ _ h => Or.inl h

/-- A step of a process keeps the bindings and the store's invariant. -/
theorem Process.step_bound (law : KeyLaw platform.store binding Valid) {service : Service}
    {p : Process} {env : Env} {s : σ} {router : Router} {tenantID key id : String}
    (h : binding s tenantID key = some id) :
    binding (p.step platform.store platform.hashChat service env s router).2.1 tenantID key
      = some id := by
  rcases p.step_store s router with hsame | ⟨call, -, hstore⟩
  · rw [hsame]
    exact h
  · rw [hstore]
    exact perform_bound law env call h

theorem Process.step_valid (law : KeyLaw platform.store binding Valid) {service : Service}
    {p : Process} {env : Env} {s : σ} {router : Router} (h : Valid s) :
    Valid (p.step platform.store platform.hashChat service env s router).2.1 := by
  rcases p.step_store s router with hsame | ⟨call, -, hstore⟩
  · rw [hsame]
    exact h
  · rw [hstore]
    exact perform_valid law env call h

theorem keyBound_advance (law : KeyLaw platform.store binding Valid) (hvalid : Valid x.store)
    (h : KeyBound binding x) {pid : Nat} {env : Env} {p : Process} (hp : x.procs pid = some p) :
    KeyBound binding (x.step platform (.advance pid env)) := by
  have hjob := p.step_job platform.store platform.hashChat (platform.services p.job.replica) env
    x.store (x.routers p.job.replica)
  have hnew := Process.step_opened law (platform.services p.job.replica) p env
    (x.routers p.job.replica) hvalid
  -- nobody else created a request under the key of the one that moved
  have halone : ∀ {pid' q record record'}, pid' ≠ pid → x.procs pid' = some q →
      q.opened = some (record', true) →
      (p.step platform.store platform.hashChat (platform.services p.job.replica) env x.store
        (x.routers p.job.replica)).1.opened = some (record, true) →
      p.tenantID = q.tenantID → p.job.idempotencyKey = q.job.idempotencyKey → False := by
    intro pid' q record record' hne hq hopened hopened' htenant hkey
    rcases hnew record true hopened' with hold | ⟨-, hfree⟩
    · exact hne (h.once hq hp hopened hold htenant.symm hkey.symm)
    · have hbound := h.bound hq hopened
      rw [← htenant, ← hkey, hfree rfl] at hbound
      cases hbound
  refine ⟨?_, ?_⟩
  · intro pid' q record created hq hopened
    rw [store_advance hp]
    rcases procs_advance hp hq with ⟨-, rfl⟩ | ⟨-, hq⟩
    · rw [Process.tenantID, hjob]
      rcases hnew record created hopened with hold | ⟨hbound, -⟩
      · exact Process.step_bound law (h.bound hp hold)
      · exact hbound
    · exact Process.step_bound law (h.bound hq hopened)
  · intro pid₁ pid₂ q₁ q₂ record₁ record₂ hq₁ hq₂ hopened₁ hopened₂ htenant hkey
    rcases procs_advance hp hq₁ with ⟨rfl, rfl⟩ | ⟨hne₁, hold₁⟩
    · rcases procs_advance hp hq₂ with ⟨rfl, -⟩ | ⟨hne₂, hold₂⟩
      · rfl
      · rw [Process.tenantID, hjob] at htenant
        rw [hjob] at hkey
        exact (halone hne₂ hold₂ hopened₂ hopened₁ htenant hkey).elim
    · rcases procs_advance hp hq₂ with ⟨rfl, rfl⟩ | ⟨-, hold₂⟩
      · rw [Process.tenantID, Process.tenantID, hjob] at htenant
        rw [hjob] at hkey
        exact (halone hne₁ hold₁ hopened₁ hopened₂ htenant.symm hkey.symm).elim
      · exact h.once hold₁ hold₂ hopened₁ hopened₂ htenant hkey

/-- Every step keeps the agreement with the store's bindings. -/
theorem keyBound_step (law : KeyLaw platform.store binding Valid) (action : Action)
    (h : Valid x.store ∧ KeyBound binding x) :
    Valid (x.step platform action).store ∧ KeyBound binding (x.step platform action) := by
  obtain ⟨hvalid, hbound⟩ := h
  cases action with
  | submit pid job =>
      rw [store_submit]
      refine ⟨hvalid, ?_, ?_⟩
      · intro pid' q record created hq hopened
        rw [store_submit]
        exact hbound.bound (procs_submit_opened hq hopened) hopened
      · intro pid₁ pid₂ q₁ q₂ record₁ record₂ hq₁ hq₂ hopened₁ hopened₂ htenant hkey
        exact hbound.once (procs_submit_opened hq₁ hopened₁) (procs_submit_opened hq₂ hopened₂)
          hopened₁ hopened₂ htenant hkey
  | advance pid env =>
      cases hp : x.procs pid with
      | none =>
          rw [step_advance_none hp]
          exact ⟨hvalid, hbound⟩
      | some p =>
          rw [store_advance hp]
          exact ⟨Process.step_valid law hvalid, keyBound_advance law hvalid hbound hp⟩
  | cancel tenantID requestID correlationID env =>
      refine ⟨perform_valid law env _ hvalid, ?_, hbound.once⟩
      intro pid p record created hp hopened
      exact perform_bound law env _ (hbound.bound hp hopened)
  | interfere replica state => exact ⟨hvalid, hbound.bound, hbound.once⟩

end Keys

/-! ## At most one execution -/

/-- The idempotency contract, in a state of the system.  A process keeps what
    `CreateOrGetRequest` returned and the provider calls it began, so this is
    about all calls ever made. -/
structure Idempotent {σ : Type} (services : Nat → Service) (x : System σ) : Prop where
  /-- one `CreateOrGetRequest` per key returns `created` -/
  once : ∀ {pid pid' p p' record record'}, x.procs pid = some p → x.procs pid' = some p' →
    p.tenantID = p'.tenantID → p.job.idempotencyKey = p'.job.idempotencyKey →
    p.opened = some (record, true) → p'.opened = some (record', true) → pid = pid'
  /-- all that succeed return the same request -/
  same : ∀ {pid pid' p p' record record' created created'}, x.procs pid = some p →
    x.procs pid' = some p' → p.tenantID = p'.tenantID →
    p.job.idempotencyKey = p'.job.idempotencyKey → p.opened = some (record, created) →
    p'.opened = some (record', created') → record.id = record'.id
  /-- only the execution that created its request calls providers -/
  creator : ∀ {pid p}, x.procs pid = some p → p.calls ≠ [] →
    ∃ record, p.opened = some (record, true)
  /-- and no more often than configured -/
  bounded : ∀ {pid p}, x.procs pid = some p →
    (p.calls.length : Int) ≤ (services p.job.replica).config.maxAttempts
  /-- with attempt numbers 1 to k -/
  numbers : ∀ {pid p}, x.procs pid = some p →
    p.calls.map Prod.fst = List.range' 1 p.calls.length
  /-- at different providers -/
  distinct : ∀ {pid p}, x.procs pid = some p → (p.calls.map Prod.snd).Nodup

/-- The contract holds on every store that binds keys. -/
theorem idempotent_of_keyLaw {σ : Type} (platform : Platform σ)
    {binding : σ → String → String → Option String} {Valid : σ → Prop}
    (law : KeyLaw platform.store binding Valid) {s : σ} (hvalid : Valid s)
    (routers : Nat → Router) (actions : List Action) :
    Idempotent platform.services
      (Lib.run (System.step platform) (System.init s routers) actions) := by
  obtain ⟨-, hbound⟩ := Lib.run_invariant' (I := fun x => Valid x.store ∧ KeyBound binding x)
    (fun _ action h => keyBound_step law action h) actions
    (show Valid (System.init s routers).store ∧ KeyBound binding (System.init s routers) from
      ⟨hvalid, fun h => (nomatch h), fun h => (nomatch h)⟩)
  have hattempts := System.run_forall_service platform attempts_new
    (fun _ _ env s router h => h.step env s router) s routers actions
  refine ⟨?_, ?_, ?_, ?_, ?_, ?_⟩
  · intro pid pid' p p' record record' hp hp' htenant hkey hopened hopened'
    exact hbound.once hp hp' hopened hopened' htenant hkey
  · intro pid pid' p p' record record' created created' hp hp' htenant hkey hopened hopened'
    have hfirst := hbound.bound hp hopened
    rw [htenant, hkey] at hfirst
    exact Option.some.inj (hfirst.symm.trans (hbound.bound hp' hopened'))
  · exact fun hp => (hattempts _ _ hp).creator
  · exact fun hp => (hattempts _ _ hp).bounded
  · exact fun hp => (hattempts _ _ hp).numbers
  · exact fun hp => (hattempts _ _ hp).distinct

/-- **At most one execution per idempotency key.** For any replicas, any
    clients and any interleaving of their steps with cancellations and failing
    store calls: on PostgreSQL from any database, in memory from an empty
    store. -/
theorem idempotency_contract (hashChat : ChatInput → Except GoError (List UInt8))
    (services : Nat → Service) (routers : Nat → Router) (actions : List Action) :
    (∀ db : Db, Idempotent services (Lib.run
        (System.step { store := Persistence.Postgres.store, hashChat, services })
        (System.init db routers) actions))
      ∧ ∀ policies : String → Option TenantPolicy, Idempotent services (Lib.run
        (System.step { store := Memory.store, hashChat, services })
        (System.init (Memory.withPolicies policies) routers) actions) := by
  constructor
  · intro db
    exact idempotent_of_keyLaw { store := Persistence.Postgres.store, hashChat, services }
      Persistence.Postgres.keyLaw trivial routers actions
  · intro policies
    refine idempotent_of_keyLaw { store := Memory.store, hashChat, services } Memory.keyLaw ?_
      routers actions
    exact fun _ _ h => nomatch h

end Aegis.Gateway
