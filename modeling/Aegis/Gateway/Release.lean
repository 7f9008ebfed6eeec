/-
  Aegis.Gateway.Release

  When an execution that returns has released its budget and ended its attempt.

  After `ReserveBudget` the execution returns early from four guarded updates
  of its request: the transitions to ROUTING and IN_PROGRESS, `CompleteRequest`
  and a final `FailAttempt`.  None of these paths calls `ReconcileBudget`, and
  the last two roll back the update of the attempt.  A `Cancel` makes any of
  them fail: `cancelled_leaks` is a run that leaves a RESERVED reservation and
  a STARTED attempt behind.  If none of the four finds its request CANCELLED,
  everything is released (`released_on_return`).
-/

import Aegis.Gateway.Attempts

namespace Aegis.Gateway

open Aegis.Persistence (AttemptParams Call Catalog Db Info ReservationRow RequestRow Slice)
open Aegis.Persistence.Postgres (Serves Write)
open Aegis.Request (ChatInput Record State canTransition)
open Aegis.Routing (Router)

/-! ## Assumptions -/

namespace Process

/-- The call of a process that has reserved its budget, where its answer matters. -/
def pending (p : Process) : Option Call :=
  match p.phase with
  | .running record (.reserved _) =>
      some (.transitionRequest p.tenantID record.id .validated .routing)
  | .running record (.routed _) =>
      some (.transitionRequest p.tenantID record.id .routing .inProgress)
  | .running record (.leased loop lease) => some (.startAttempt {
      requestID := record.id, tenantID := p.tenantID, number := loop.attemptNumber
      providerName := lease.provider.name, model := p.job.input.model
      correlationID := p.job.correlationID })
  | .running record (.completing loop _ started providerRequestID response cost) =>
      some (.completeRequest {
        requestID := record.id, tenantID := p.tenantID, attemptNumber := loop.attemptNumber
        providerRequestID, response, costMicroUSD := cost, startedAt := started
        correlationID := p.job.correlationID })
  | .running record (.failing loop started err isPartial retryable) => some (.failAttempt {
      requestID := record.id, tenantID := p.tenantID, attemptNumber := loop.attemptNumber
      category := errorCategory err, retryable, isPartial, final := !retryable
      startedAt := started, correlationID := p.job.correlationID })
  | .running record (.settling _ cost) => some (.reconcileBudget record.id cost)
  | .running record (.releasing _) => some (.reconcileBudget record.id 0)
  | _ => none

/-- The request of a process that is about to make one of the four updates. -/
def exposed (p : Process) : Option Record :=
  match p.phase with
  | .running record (.reserved _) | .running record (.routed _)
  | .running record (.completing _ _ _ _ _ _) | .running record (.failing _ _ _ _ false) =>
      some record
  | _ => none

/-- The usage that the provider reports in this step can be priced. -/
def usable (service : Service) (p : Process) (env : Env) : Bool :=
  match p.phase with
  | .running _ (.calling _ lease _) =>
      match (p.called service env).completion with
      | .ok completion =>
          (Budget.costMicroUSD completion.usage.promptTokens completion.usage.completionTokens
            lease.inputCostPerMillionMicro lease.outputCostPerMillionMicro).isOk
      | .error _ => true
  | _ => true

def isReturned (p : Process) : Bool :=
  match p.phase with
  | .returned _ => true
  | _ => false

end Process

/-- The request is the tenant's and in a state. -/
def requestIs (db : Db) (tenantID requestID : String) (status : State) : Bool :=
  (db.request? requestID).any fun row => row.tenantID == tenantID && row.status == status

/-- The guards of these calls. -/
def guardHolds (db : Db) : Call → Bool
  | .transitionRequest tenantID requestID source target =>
      canTransition source target && requestIs db tenantID requestID source
  | .startAttempt params =>
      (db.request? params.requestID).isSome
        && (db.catalog.providers.rows.any fun p => p.name == params.providerName)
        && (db.catalog.models.rows.any fun m => m.publicName == params.model)
        && (db.attemptsOf params.requestID).all fun a => a.attemptNumber != params.number
  | .completeRequest params => requestIs db params.tenantID params.requestID .inProgress
  | .failAttempt params =>
      !params.final || requestIs db params.tenantID params.requestID .inProgress
  | .reconcileBudget requestID _ =>
      (db.reservation? requestID).any fun r => r.state == .reserved
  | _ => false

/-- No call to the store is lost, and those whose guard holds succeed. -/
def Reliable (x : System Db) : Action → Prop
  | .advance pid env => env.fault.isNone = true ∧ ∀ p ∈ x.procs pid, ∀ call ∈ p.pending,
      guardHolds x.store call = true →
        (Persistence.Postgres.store call env.info x.store).1.isOk = true
  | _ => True

/-- Providers report valid usage. -/
def ValidUsage (services : Nat → Service) (x : System Db) : Action → Prop
  | .advance pid env => ∀ p ∈ x.procs pid, p.usable (services p.job.replica) env = true
  | _ => True

/-- None of the four updates finds its request cancelled. -/
def Undisturbed (x : System Db) : Action → Prop
  | .advance pid _ => ∀ p ∈ x.procs pid, ∀ record ∈ p.exposed,
      ∀ row ∈ x.store.request? record.id, row.status ≠ .cancelled
  | _ => True

instance (x : System Db) (action : Action) : Decidable (Reliable x action) :=
  match action with
  | .advance pid env => inferInstanceAs (Decidable (env.fault.isNone = true
      ∧ ∀ p ∈ x.procs pid, ∀ call ∈ p.pending, guardHolds x.store call = true →
        (Persistence.Postgres.store call env.info x.store).1.isOk = true))
  | .submit _ _ | .cancel _ _ _ _ | .interfere _ _ => isTrue trivial

instance (services : Nat → Service) (x : System Db) (action : Action) :
    Decidable (ValidUsage services x action) :=
  match action with
  | .advance pid env => inferInstanceAs (Decidable (∀ p ∈ x.procs pid,
      p.usable (services p.job.replica) env = true))
  | .submit _ _ | .cancel _ _ _ _ | .interfere _ _ => isTrue trivial

instance (x : System Db) (action : Action) : Decidable (Undisturbed x action) :=
  match action with
  | .advance pid _ => inferInstanceAs (Decidable (∀ p ∈ x.procs pid, ∀ record ∈ p.exposed,
      ∀ row ∈ x.store.request? record.id, row.status ≠ .cancelled))
  | .submit _ _ | .cancel _ _ _ _ | .interfere _ _ => isTrue trivial

/-- Nothing is held for the request any more. -/
def Released (S : Slice) : Prop :=
  (∀ r ∈ S.reservation, r.state ≠ .reserved) ∧ ∀ a ∈ S.attempts, a.status ≠ .started

/-! ## What an execution holds -/

/-- Before `ReserveBudget` has succeeded there is no reservation. -/
def Stage.Unreserved (reservation : Option ReservationRow) : Stage → Prop
  | .received | .validated | .abandoning _ | .admitting _ | .reserving _ _ | .rejecting _ _ =>
      reservation = none
  | _ => True

/-- The catalog has the model and the providers that the execution may choose. -/
def Stage.Known (catalog : Catalog) (model : String) : Stage → Prop
  | .admitting policy => Serves catalog model policy.allowedProviders
  | .reserving selection _ | .reserved selection | .routed selection =>
      Serves catalog model selection.allowedProviders
  | .selecting loop | .attempted loop _ | .calling loop _ _ | .completing loop _ _ _ _ _
  | .failing loop _ _ _ _ | .backingOff loop _ =>
      Serves catalog model loop.selection.allowedProviders
  | .leased loop lease => Serves catalog model loop.selection.allowedProviders
      ∧ ∃ provider ∈ catalog.providers.rows, provider.name = lease.provider.name
  | _ => True

/-- An execution and the slice of its request. -/
def Holding (catalog : Catalog) (p : Process) (S : Slice) : Prop :=
  match p.phase with
  | .submitted | .panicked => True
  | .running record stage => (∃ row, S.row = some row ∧ row.tenantID = p.tenantID)
      ∧ stage.Attempted p.tenantID record.id S.attempts ∧ stage.Unreserved S.reservation
      ∧ stage.Known catalog p.job.input.model
  | .returned _ => Released S

theorem holding_local (catalog : Catalog) : Local (Holding catalog) where
  opened := by
    intro p record row S hphase hrow htenant hattempts hreservation
    rw [Holding, hphase]
    exact ⟨⟨row, hrow, htenant⟩, hattempts, hreservation, trivial⟩
  cancelled := by
    intro p row S now hrow h
    unfold Holding at h ⊢
    split
    · exact trivial
    · exact trivial
    · next record stage hphase =>
        simp only [hphase] at h
        obtain ⟨⟨row', hrow', htenant⟩, hrest⟩ := h
        obtain rfl := Option.some.inj (hrow.symm.trans hrow')
        exact ⟨⟨_, rfl, htenant⟩, hrest⟩
    · next hphase =>
        simp only [hphase] at h
        exact h

section Steps

variable {catalog : Catalog} {service : Service} {p p' : Process} {record : Record} {env : Env}
  {db db' : Db} {stage : Stage}

/-- The slice of the request after a step: as before, or after one of the calls. -/
theorem Branch.slice (h : Branch Persistence.Postgres.store service p record env db stage p' db')
    (hphase : p.phase = .running record stage) :
    db'.slice record.id = db.slice record.id
      ∨ ∃ call, Makes p call ∧ Write env.info call (db.slice record.id) (db'.slice record.id) := by
  rcases h.store_eq hphase with hsame | ⟨call, hmakes, hdb'⟩
  · exact Or.inl (by rw [hsame])
  · rcases perform_slice (Prod.mk.eta).symm record.id with hsame | ⟨-, hwrite⟩
    · exact Or.inl (by rw [hdb']; exact hsame)
    · exact Or.inr ⟨call, hmakes, by rw [hdb']; exact hwrite⟩

theorem Branch.known (h : Branch Persistence.Postgres.store service p record env db stage p' db')
    (hcatalog : db.catalog = catalog) (hknown : stage.Known catalog p.job.input.model)
    {record' : Record} {stage' : Stage} (hphase' : p'.phase = .running record' stage') :
    stage'.Known catalog p.job.input.model := by
  cases h with
  | policy h =>
      obtain ⟨rfl, rfl⟩ := Phase.running.inj hphase'
      rw [← hcatalog]
      exact Persistence.Postgres.tenantPolicy_serves
        (Persistence.transact_ok (perform_ok h))
  | quote hallowed =>
      obtain ⟨rfl, rfl⟩ := Phase.running.inj hphase'
      dsimp only [Stage.Known]
      rw [hallowed]
      exact hknown
  | lease hmax hnew hallowed =>
      -- the lease is on a provider that the tenant is allowed
      obtain ⟨rfl, rfl⟩ := Phase.running.inj hphase'
      obtain ⟨hmodel, names, hnames, hproviders⟩ := hknown
      exact ⟨⟨hmodel, names, hnames, hproviders⟩, hproviders _ (hallowed names hnames)⟩
  | start h =>
      obtain ⟨rfl, rfl⟩ := Phase.running.inj hphase'
      exact hknown.1
  | reserve | route | progress | begin | answer | fault | retry | again =>
      obtain ⟨rfl, rfl⟩ := Phase.running.inj hphase'
      exact hknown
  | validate | forbidden | refuse | exceeded | complete | fail | exhausted | interrupted
  | close =>
      obtain ⟨rfl, rfl⟩ := Phase.running.inj hphase'
      exact trivial
  | unvalidated | abandon | unquoted | unreserved | reject | unrouted | stalled | unstarted
  | unpriced | uncompleted | settle | unfailed | release | panic => cases hphase'

theorem Branch.noReservation
    (h : Branch Persistence.Postgres.store service p record env db stage p' db')
    (hfault : env.fault.isNone = true)
    (hnone : stage.Unreserved (db.slice record.id).reservation) {record' : Record}
    {stage' : Stage} (hphase' : p'.phase = .running record' stage') :
    stage'.Unreserved (db'.slice record.id).reservation := by
  cases h with
  | validate h =>
      obtain ⟨rfl, rfl⟩ := Phase.running.inj hphase'
      have hwrite := perform_write h rfl
      generalize db'.slice record.id = S' at hwrite ⊢
      cases hwrite with
      | move => exact hnone
  | policy h | forbidden h =>
      obtain ⟨rfl, rfl⟩ := Phase.running.inj hphase'
      rcases perform_slice h record.id with hsame | ⟨hsubject, -⟩
      · rw [hsame]
        exact hnone
      · cases hsubject
  | exceeded h =>
      -- a reservation that is refused is rolled back
      obtain ⟨rfl, rfl⟩ := Phase.running.inj hphase'
      rw [perform_of_none (Option.isNone_iff_eq_none.mp hfault)] at h
      rw [Persistence.Postgres.store_error h]
      exact hnone
  | refuse | quote =>
      obtain ⟨rfl, rfl⟩ := Phase.running.inj hphase'
      exact hnone
  | reserve | route | progress | lease | exhausted | start | begin | answer | fault | complete
  | retry | fail | interrupted | again | close =>
      obtain ⟨rfl, rfl⟩ := Phase.running.inj hphase'
      exact trivial
  | unvalidated | abandon | unquoted | unreserved | reject | unrouted | stalled | unstarted
  | unpriced | uncompleted | settle | unfailed | release | panic => cases hphase'

theorem released_of_empty {S : Slice} (hattempts : S.attempts = []) (hnone : S.reservation = none) :
    Released S := by
  constructor
  · rw [hnone]
    exact fun _ h => (nomatch h)
  · rw [hattempts]
    exact fun _ h => absurd h List.not_mem_nil

/-- A call that writes neither attempts nor reservations. -/
theorem released_of_kept {call : Call} {result : Except GoError call.Result}
    (h : perform Persistence.Postgres.store call env db = (result, db'))
    (hattempts : (db.slice record.id).attempts = [])
    (hnone : (db.slice record.id).reservation = none)
    (hkeeps : ∀ S S', Write env.info call S S' →
      S'.attempts = S.attempts ∧ S'.reservation = S.reservation) :
    Released (db'.slice record.id) := by
  rcases perform_slice h record.id with hsame | ⟨-, hwrite⟩
  · rw [hsame]
    exact released_of_empty hattempts hnone
  · obtain ⟨hattempts', hreservation'⟩ := hkeeps _ _ hwrite
    exact released_of_empty (hattempts'.trans hattempts) (hreservation'.trans hnone)

end Steps

section Return

variable {catalog : Catalog} {service : Service} {x : System Db} {pid : Nat} {p p' : Process}
  {record : Record} {env : Env} {db' : Db} {stage : Stage}

/-- A call whose guard holds does not fail. -/
theorem Reliable.answered {call : Call} {err : GoError} (h : Reliable x (.advance pid env))
    (hp : x.procs pid = some p) (hpending : p.pending = some call)
    (hguard : guardHolds x.store call = true) :
    perform Persistence.Postgres.store call env x.store ≠ (.error err, db') := by
  intro herr
  rw [perform_of_none (Option.isNone_iff_eq_none.mp h.1)] at herr
  have hok := h.2 p hp call hpending hguard
  rw [herr] at hok
  cases hok

/-- `ReconcileBudget` leaves no active reservation. -/
theorem released_of_reconcile (h : Reliable x (.advance pid env)) (hp : x.procs pid = some p)
    {amount : Int} (hpending : p.pending = some (.reconcileBudget record.id amount))
    (hattempts : ∀ a ∈ (x.store.slice record.id).attempts, a.status ≠ .started) :
    Released ((perform Persistence.Postgres.store (.reconcileBudget record.id amount) env
      x.store).2.slice record.id) := by
  generalize hrun : perform Persistence.Postgres.store _ env x.store = answer
  have hwritten : ∀ S', Write env.info (.reconcileBudget record.id amount)
      (x.store.slice record.id) S' → Released S' := by
    intro S' hwrite
    cases hwrite with
    | reconcile =>
        refine ⟨?_, hattempts⟩
        rintro r hr
        rw [← Option.some.inj hr]
        exact nofun
  obtain ⟨result, db'⟩ := answer
  rcases perform_slice hrun record.id with hsame | ⟨-, hwrite⟩
  · cases result with
    | ok r => exact hwritten _ (perform_write hrun rfl)
    | error err =>
        -- it failed, so there was no active reservation
        rw [hsame]
        refine ⟨?_, hattempts⟩
        intro r hr hreserved
        refine h.answered hp hpending ?_ hrun
        exact (Option.any_eq_true _ _).mpr ⟨r, hr, by simp [hreserved]⟩
  · exact hwritten _ hwrite

/-- Before one of the four updates the request is in the state it expects. -/
theorem Undisturbed.status (h : Undisturbed x (.advance pid env)) (hp : x.procs pid = some p)
    (hcustody : Custody Db.view x) (hphase : p.phase = .running record stage)
    (hexposed : p.exposed = some record) {row : RequestRow}
    (hrow : (x.store.slice record.id).row = some row) : row.status ∈ stage.states := by
  obtain ⟨v, hv, hfits⟩ := hcustody.fits hp hphase
  rw [Db.view_eq_slice, hrow] at hv
  obtain rfl := Option.some.inj hv
  rcases hfits with hcancelled | hmem
  · exact absurd hcancelled (h p hp record hexposed row hrow)
  · exact hmem

/-- **Return.** An execution that returns has released what it held. -/
theorem Branch.released
    (h : Branch Persistence.Postgres.store service p record env x.store stage p' db')
    (hp : x.procs pid = some p) (hphase : p.phase = .running record stage)
    (howned : Owned (Holding catalog) x) (hcatalog : x.store.catalog = catalog)
    (hreliable : Reliable x (.advance pid env)) (husable : p.usable service env = true)
    (hundisturbed : Undisturbed x (.advance pid env))
    {result : Except GoError Outcome} (hreturned : p'.phase = .returned result) :
    Released (db'.slice record.id) := by
  have hholding := howned.holds hp (howned.custody.opened hp hphase)
  rw [Holding, hphase] at hholding
  obtain ⟨⟨row, hrow, htenant⟩, hattempts, hnone, hknown⟩ := hholding
  -- the state that the stage expects, where the answer depends on it
  have hstate : p.exposed = some record → row.status ∈ stage.states := fun hexposed =>
    hundisturbed.status hp howned.custody hphase hexposed hrow
  have hfound : x.store.request? record.id = some row := hrow
  cases h with
  | unvalidated h =>
      refine released_of_kept h hattempts hnone ?_
      intro S S' hwrite
      cases hwrite
      exact ⟨rfl, rfl⟩
  | abandon | reject =>
      refine released_of_kept (Prod.mk.eta).symm hattempts hnone ?_
      intro S S' hwrite
      cases hwrite
      exact ⟨rfl, rfl⟩
  | unquoted => exact released_of_empty hattempts hnone
  | unreserved h =>
      -- `ReserveBudget` rolled back
      rw [perform_of_none (Option.isNone_iff_eq_none.mp hreliable.1)] at h
      rw [Persistence.Postgres.store_error h]
      exact released_of_empty hattempts hnone
  | unrouted h | stalled h =>
      -- the transition's guard holds, so it did not fail
      have hstatus := List.mem_singleton.mp (hstate (by rw [Process.exposed, hphase]))
      refine absurd h (hreliable.answered hp (by rw [Process.pending, hphase]) ?_)
      simp [guardHolds, requestIs, hfound, htenant, hstatus, canTransition,
        Request.allowedTransitions]
  | unstarted h =>
      -- the names are in the catalog and the number is above all those tried
      refine absurd h (hreliable.answered hp (by rw [Process.pending, hphase]) ?_)
      obtain ⟨⟨⟨m, hm, hmodel⟩, -⟩, provider, hprovider, hname⟩ := hknown
      rw [← hcatalog] at hm hprovider
      have hnew : ∀ a ∈ x.store.attemptsOf record.id, a.attemptNumber ≠ _ :=
        fun a ha => ne_of_lt (hattempts a ha).2
      simp only [guardHolds, hfound, Option.isSome_some, Bool.true_and, Bool.and_eq_true,
        List.any_eq_true, List.all_eq_true, beq_iff_eq, bne_iff_ne]
      exact ⟨⟨⟨provider, hprovider, hname⟩, m, hm, hmodel⟩, hnew⟩
  | unpriced hcall hcost =>
      rw [Process.usable, hphase] at husable
      simp only [hcall, hcost] at husable
      cases husable
  | uncompleted h =>
      have hstatus := List.mem_singleton.mp (hstate (by rw [Process.exposed, hphase]))
      refine absurd h (hreliable.answered hp (by rw [Process.pending, hphase]) ?_)
      simp [guardHolds, requestIs, hfound, htenant, hstatus]
  | @unfailed loop started err isPartial retryable failErr s' h =>
      refine absurd h (hreliable.answered hp (by rw [Process.pending, hphase]) ?_)
      cases retryable with
      | true => rfl
      | false =>
          have hstatus := List.mem_singleton.mp (hstate (by rw [Process.exposed, hphase]))
          simp [guardHolds, requestIs, hfound, htenant, hstatus]
  | settle | release =>
      exact released_of_reconcile hreliable hp (by rw [Process.pending, hphase]) hattempts
  | validate | policy | forbidden | refuse | quote | reserve | exceeded | route | progress | lease
  | exhausted | panic | start | begin | answer | fault | complete | retry | fail | interrupted
  | again | close => cases hreturned

/-- A step of the execution keeps what it holds in order. -/
theorem Branch.holding
    (h : Branch Persistence.Postgres.store service p record env x.store stage p' db')
    (hp : x.procs pid = some p) (hphase : p.phase = .running record stage)
    (howned : Owned (Holding catalog) x) (hcatalog : x.store.catalog = catalog)
    (hreliable : Reliable x (.advance pid env)) (husable : p.usable service env = true)
    (hundisturbed : Undisturbed x (.advance pid env)) :
    Holding catalog p' (db'.slice record.id) := by
  rcases h.phase with ⟨stage', hphase'⟩ | ⟨result, hreturned⟩ | hpanicked
  · have hholding := howned.holds hp (howned.custody.opened hp hphase)
    rw [Holding, hphase] at hholding
    obtain ⟨⟨row, hrow, htenant⟩, hattempts, hnone, hknown⟩ := hholding
    have hjob := h.kept.1
    have htenant' : ∃ row', (db'.slice record.id).row = some row'
        ∧ row'.tenantID = p.tenantID := by
      rcases h.slice hphase with hsame | ⟨call, -, hwrite⟩
      · rw [hsame]
        exact ⟨row, hrow, htenant⟩
      · obtain ⟨row', hrow', hkey⟩ := hwrite.key hrow
        exact ⟨row', hrow', (congrArg (fun key => key.2.1) hkey).trans htenant⟩
    rw [Holding, hphase']
    simp only [Process.tenantID, hjob]
    exact ⟨htenant', (h.attempted hattempts hphase').2,
      h.noReservation hreliable.1 hnone hphase', h.known hcatalog hknown hphase'⟩
  · rw [Holding, hreturned]
    exact h.released hp hphase howned hcatalog hreliable husable hundisturbed hreturned
  · rw [Holding, hpanicked]
    exact trivial

end Return

theorem holding_step {catalog : Catalog} (platform : Platform Db) {x : System Db}
    (hstore : platform.store = Persistence.Postgres.store)
    (h : Owned (Holding catalog) x ∧ x.store.catalog = catalog) (action : Action)
    (hreliable : Reliable x action) (husage : ValidUsage platform.services x action)
    (hundisturbed : Undisturbed x action) :
    Owned (Holding catalog) (x.step platform action)
      ∧ (x.step platform action).store.catalog = catalog := by
  constructor
  · refine owned_step (holding_local catalog) hstore h.1 action ?_
    rintro pid env p record stage p' db' rfl hp hphase - hbranch
    exact hbranch.holding hp hphase h.1 h.2 hreliable (husage p hp) hundisturbed
  · rcases System.step_store_call platform x action with
      hsame | ⟨call, info, -, hcalled, -⟩
    · rw [hsame]
      exact h.2
    · rw [hcalled, hstore]
      exact (Persistence.Postgres.store_frame call info x.store).catalog.trans h.2

/-- **Nothing is leaked.** In every run with a reliable store and valid usage
    in which none of the four updates finds its request cancelled: when an
    execution has returned, the request it created has no RESERVED reservation
    and no STARTED attempt. -/
theorem released_on_return (catalog : Catalog)
    (hashChat : ChatInput → Except GoError (List UInt8)) (services : Nat → Service)
    (routers : Nat → Router) (actions : List Action) :
    let platform : Platform Db := { store := Persistence.Postgres.store, hashChat, services }
    let start := System.init (Db.init catalog) routers
    (∀ t ∈ Lib.trace (System.step platform) start actions,
      Reliable t.1 t.2.1 ∧ ValidUsage services t.1 t.2.1 ∧ Undisturbed t.1 t.2.1) →
    let x := Lib.run (System.step platform) start actions
    ∀ pid p record result, x.procs pid = some p → p.opened = some (record, true) →
      p.phase = .returned result → Released (x.store.slice record.id) := by
  intro platform start hsteps x pid p record result hp hopened hreturned
  have howned := Lib.run_invariant
    (I := fun x => Owned (Holding catalog) x ∧ x.store.catalog = catalog)
    (C := fun x action => Reliable x action ∧ ValidUsage services x action ∧ Undisturbed x action)
    (fun x action h hC => holding_step platform rfl h action hC.1 hC.2.1 hC.2.2)
    actions ⟨owned_init catalog routers, rfl⟩ hsteps
  have hholding := howned.1.holds hp hopened
  rwa [Holding, hreturned] at hholding

/-! ## Concrete runs -/

/-- A process that has returned for the request it created, from its data. -/
theorem returned_of_map {x : System Db} {pid : Nat} {id : String}
    (h : (x.procs pid).map (fun p => (p.opened.map fun o => (o.1.id, o.2), p.isReturned))
      = some (some (id, true), true)) :
    ∃ p record result, x.procs pid = some p ∧ p.opened = some (record, true) ∧ record.id = id
      ∧ p.phase = .returned result := by
  obtain ⟨p, hp, hvalues⟩ := Option.map_eq_some_iff.mp h
  obtain ⟨hopened, hphase⟩ := Prod.mk.inj hvalues
  obtain ⟨⟨record, created⟩, hsome, hrecord⟩ := Option.map_eq_some_iff.mp hopened
  obtain ⟨hid, rfl⟩ := Prod.mk.inj hrecord
  unfold Process.isReturned at hphase
  split at hphase
  · next result hresult => exact ⟨p, record, result, hp, hsome, hid, hresult⟩
  · cases hphase

/-- The request is cancelled during the provider call.  `CompleteRequest` finds
    it CANCELLED and the execution returns, with the attempt STARTED and the
    budget RESERVED. -/
theorem cancelled_leaks :
    let platform := samplePlatform Persistence.Postgres.store
    let actions := upToCall ++ .cancel "t" "r" "c" (sampleEnv "" "" 4) :: answerAndFinish
    let x := Lib.run (System.step platform) sampleStart actions
    (∀ t ∈ Lib.trace (System.step platform) sampleStart actions,
        Reliable t.1 t.2.1 ∧ ValidUsage platform.services t.1 t.2.1)
      ∧ (x.procs 0).map (fun p => (p.opened.map fun o => (o.1.id, o.2), p.isReturned))
          = some (some ("r", true), true)
      ∧ (x.store.reservation? "r").map (·.state) = some .reserved
      ∧ (x.store.attemptsOf "r").map (·.status) = [.started]
      ∧ ¬ Released (x.store.slice "r") := by
  intro platform actions x
  have hreserved : (x.store.reservation? "r").map (·.state) = some .reserved := by decide +kernel
  refine ⟨by decide +kernel, by decide +kernel, hreserved, by decide +kernel, ?_⟩
  intro hreleased
  clear_value x
  obtain ⟨reservation, hsome, hstate⟩ := Option.map_eq_some_iff.mp hreserved
  exact hreleased.1 reservation hsome hstate

/-- Without the cancellation the reservation is reconciled. -/
theorem released_on_return_completed :
    let platform := samplePlatform Persistence.Postgres.store
    let x := Lib.run (System.step platform) sampleStart (upToCall ++ answerAndFinish)
    (x.store.reservation? "r").map (·.state) = some .reconciled
      ∧ Released (x.store.slice "r") := by
  refine ⟨by decide +kernel, ?_⟩
  have hreturned : ∃ p record result, (Lib.run (System.step
      (samplePlatform Persistence.Postgres.store)) sampleStart
        (upToCall ++ answerAndFinish)).procs 0 = some p
      ∧ p.opened = some (record, true) ∧ record.id = "r" ∧ p.phase = .returned result :=
    returned_of_map (by decide +kernel)
  obtain ⟨p, record, result, hp, hopened, hid, hresult⟩ := hreturned
  rw [← hid]
  exact released_on_return _ _ _ _ _ (by decide +kernel) 0 p record result hp hopened hresult

end Aegis.Gateway
