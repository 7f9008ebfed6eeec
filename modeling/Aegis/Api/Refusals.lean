/-
  Aegis.Api.Refusals

  A refusal costs nothing.

  The chat handler answers 402, 403, 409 or 429 from the error that `execute`
  returns, and for 429 from its text alone.  `execute` returns errors from every
  point, also after it has reserved a budget and called providers.  So that an
  answer of this kind is true, no error of a later point may look like one:
  `Unrefusing` says it of the errors that are carried, `Fails` of those that the
  database returns, and what comes from outside is an assumption (`Outside`).
-/

import Aegis.Api.Chat
import Aegis.Gateway.Charging

namespace Aegis.Api

open Aegis.Gateway
open Aegis.Lib (run run_invariant trace)
open Aegis.Persistence (Call Catalog Db Info Slice checkNonneg insertOutbox orViolation require
  transact violation wrapErr)
open Aegis.Persistence.Postgres (Write)
open Aegis.Request (ChatInput Record)
open Aegis.Routing (Router)

/-! ## Refusals -/

/-- The errors that the handler answers as refusals. -/
def Refuses (err : GoError) : Prop :=
  err.is .errConflict = true ∨ err.is .errModelForbidden = true ∨ err.is .errExceeded = true
    ∨ "rate limit rejected".toList <:+: (errorText err.chain).toList

instance (err : GoError) : Decidable (Refuses err) := inferInstanceAs (Decidable (_ ∨ _))

def ChatReply.isRefusal : ChatReply → Bool
  | .problem status code _ _ =>
      status == 402 || status == 403 || status == 429
        || status == 409 && code == "idempotency_conflict"
  | _ => false

theorem refuses_of_writeServiceError {err : GoError}
    (h : (writeServiceError err).isRefusal = true) : Refuses err := by
  unfold writeServiceError at h
  split at h
  · next hconflict => exact Or.inl hconflict
  split at h
  · cases h
  split at h
  · next hforbidden => exact Or.inr (Or.inl hforbidden)
  split at h
  · cases h
  split at h
  · next hexceeded => exact Or.inr (Or.inr (Or.inl hexceeded))
  split at h
  · next htext => exact Or.inr (Or.inr (Or.inr htext))
  split at h
  · cases h
  · cases h

/-- Only errors are answered with refusals. -/
theorem refuses_of_chatReply {format : JsonText.Format} {request : ChatRequest} {clock : Nat → Int}
    {p : Process} {reply : ChatReply} (hreply : chatReply format request clock p = some reply)
    (h : reply.isRefusal = true) : ∃ err, p.phase = .returned (.error err) ∧ Refuses err := by
  have hok : ∀ outcome, (writeOutcome outcome).isRefusal = false := by
    intro outcome
    unfold writeOutcome
    split <;> rfl
  unfold chatReply at hreply
  split at hreply
  · next result hphase =>
      obtain rfl := Option.some.inj hreply
      cases result with
      | ok outcome =>
          exfalso
          split at h
          · simp only [streamReply] at h
            split at h
            · rw [hok] at h
              cases h
            · cases h
          · rw [submitReply, hok] at h
            cases h
      | error err =>
          refine ⟨err, hphase, refuses_of_writeServiceError ?_⟩
          split at h
          · simp only [streamReply] at h
            split at h
            · cases h
            · exact h
          · exact h
  · cases hreply

/-! ## The errors of the database -/

/-- If the computation fails, it fails with an error of this kind. -/
def Fails {α : Type} (P : GoError → Prop) (x : Except GoError α) : Prop :=
  ∀ err, x = .error err → P err

section Fails

variable {α β : Type} {P : GoError → Prop}

theorem Fails.ok (a : α) : Fails P (.ok a : Except GoError α) := by
  intro err h
  cases h

theorem Fails.error {err : GoError} (h : P err) : Fails P (.error err : Except GoError α) := by
  intro err' herr
  cases herr
  exact h

theorem Fails.bind {x : Except GoError α} {f : α → Except GoError β} (hx : Fails P x)
    (hf : ∀ a, Fails P (f a)) : Fails P (x >>= f) := by
  intro err h
  cases x with
  | error =>
      cases h
      exact hx err rfl
  | ok a => exact hf a err h

theorem Fails.guard {p : Prop} [Decidable p] {err : GoError} {x : Except GoError α} (h : P err)
    (hx : Fails P x) :
    Fails P (if p then (throw err : Except GoError β) >>= (fun _ => x) else x) := by
  split
  · exact (Fails.error h).bind fun _ => hx
  · exact hx

theorem Fails.wrapErr {message : String} {x : Except GoError α}
    (h : Fails (fun err => P (.wrap message err)) x) : Fails P (wrapErr message x) := by
  intro err herr
  cases x with
  | ok a => cases herr
  | error err' =>
      cases herr
      exact h err' rfl

theorem fails_require {name : String} {holds : Bool} (h : P (violation name)) :
    Fails P (require name holds) := by
  unfold require
  split
  · exact .ok ()
  · exact .error h

theorem fails_checkNonneg {column : String} {value : Int} (h : P (violation column)) :
    Fails P (checkNonneg column value) := by
  unfold checkNonneg
  split
  · exact .ok _
  · exact .error h

theorem fails_orViolation {name : String} {x : Option α} (h : P (violation name)) :
    Fails P (orViolation name x) := by
  cases x with
  | none => exact .error h
  | some a => exact .ok a

end Fails

section Postgres

open Aegis.Persistence.Postgres (completeRequest failAttempt finalizeRequest recordFailure
  startAttempt succeedAttempt transitionRequest)

theorem insertOutbox_fails (row : Persistence.OutboxRow) (db : Db) :
    Fails (¬ Refuses ·) (insertOutbox row db) := by
  refine .wrapErr ?_
  refine (fails_require (by decide +kernel)).bind fun _ => ?_
  exact (fails_orViolation (by decide +kernel)).bind fun _ => .ok _

theorem startAttempt_fails (params : Persistence.AttemptParams) (info : Info) (db : Db) :
    Fails (¬ Refuses ·) (startAttempt params info db) := by
  unfold startAttempt
  split
  · refine Fails.bind (.wrapErr ?_) fun attempts => (insertOutbox_fails _ _).bind fun _ => .ok _
    refine (fails_require (by decide +kernel)).bind fun _ => ?_
    refine (fails_require (by decide +kernel)).bind fun _ => ?_
    refine (fails_require (by decide +kernel)).bind fun _ => ?_
    exact fails_orViolation (by decide +kernel)
  · exact .error (by decide +kernel)

theorem succeedAttempt_fails (params : Persistence.CompletionParams) (info : Info) (db : Db) :
    Fails (¬ Refuses ·) (succeedAttempt params info db) := by
  unfold succeedAttempt
  split
  · refine .wrapErr ?_
    refine (fails_checkNonneg (by decide +kernel)).bind fun _ => ?_
    refine (fails_checkNonneg (by decide +kernel)).bind fun _ => ?_
    refine (fails_checkNonneg (by decide +kernel)).bind fun _ => ?_
    exact (fails_checkNonneg (by decide +kernel)).bind fun _ => .ok _
  · exact .ok _

theorem finalizeRequest_fails (params : Persistence.CompletionParams) (info : Info) (db : Db) :
    Fails (¬ Refuses ·) (finalizeRequest params info db) := by
  refine .guard (by decide +kernel) (.wrapErr ?_)
  refine (fails_checkNonneg (by decide +kernel)).bind fun _ => ?_
  refine (fails_checkNonneg (by decide +kernel)).bind fun _ => ?_
  exact (fails_checkNonneg (by decide +kernel)).bind fun _ => .ok _

theorem completeRequest_fails (params : Persistence.CompletionParams) (info : Info) (db : Db) :
    Fails (¬ Refuses ·) (completeRequest params info db) := by
  refine (succeedAttempt_fails params info db).bind fun db => ?_
  refine (finalizeRequest_fails params info db).bind fun db => ?_
  refine (insertOutbox_fails _ db).bind fun db => ?_
  exact (insertOutbox_fails _ db).bind fun _ => .ok _

theorem failAttempt_fails (params : Persistence.FailureParams) (info : Info) (db : Db) :
    Fails (¬ Refuses ·) (failAttempt params info db) := by
  have hrecord : Fails (¬ Refuses ·) (recordFailure params info db) := by
    unfold recordFailure
    split
    · exact .wrapErr ((fails_checkNonneg (by decide +kernel)).bind fun _ => .ok _)
    · exact .ok _
  refine hrecord.bind fun db => ?_
  split
  · exact .guard (by decide +kernel) ((insertOutbox_fails _ _).bind fun _ => .ok _)
  · exact .ok _

theorem transitionRequest_fails {source target : Request.State}
    (hcan : Request.canTransition source target = true) (tenantID requestID : String) (info : Info)
    (db : Db) :
    Fails (¬ Refuses ·) (transitionRequest tenantID requestID source target info db) := by
  have htransition : Request.transition source target = .ok () := by
    unfold Request.transition
    simp [hcan]
  unfold transitionRequest
  rw [htransition]
  exact .guard (by decide +kernel) (.ok _)

end Postgres

/-- The calls after `ReserveBudget` whose errors are returned. -/
def isLater : Call → Bool
  | .transitionRequest _ _ source target =>
      Request.canTransition source target
  | .startAttempt _ | .completeRequest _ | .failAttempt _ => true
  | _ => false

theorem store_fails {call : Call} (hcall : isLater call = true) (info : Info) (db : Db) :
    Fails (¬ Refuses ·) (Persistence.Postgres.store call info db).1 := by
  have htransact : ∀ {α : Type} {tx : Persistence.Tx α}, Fails (¬ Refuses ·) (tx db) →
      Fails (¬ Refuses ·) (transact tx db).1 := by
    intro α tx htx err herr
    unfold transact at herr
    split at herr
    · cases herr
    · next err' htxerr =>
        cases herr
        exact htx err htxerr
  cases call with
  | transitionRequest => exact htransact (transitionRequest_fails hcall _ _ info db)
  | startAttempt params => exact htransact (startAttempt_fails params info db)
  | completeRequest params => exact htransact (completeRequest_fails params info db)
  | failAttempt params => exact htransact (failAttempt_fails params info db)
  | _ => cases hcall

/-! ## Executions -/

/-- The errors that come from outside in a step: a lost answer of the database,
    the provider's, the timer's. -/
structure Outside (service : Service) (p : Process) (env : Env) : Prop where
  refused : ∀ err, env.fault = some (.refused err) → ¬ Refuses err
  unacknowledged : ∀ err, env.fault = some (.unacknowledged err) → ¬ Refuses err
  called : ∀ err, (p.called service env).completion = .error err → ¬ Refuses err
  backoff : ∀ err, env.backoff = some err → ¬ Refuses err

/-- The errors that are carried from here on are no refusals. -/
def Unrefusing : Stage → Prop
  | .selecting loop | .leased loop _ | .attempted loop _ | .calling loop _ _ =>
      ∀ err, loop.lastErr = some err → ¬ Refuses err
  | .failing _ _ err _ _ | .backingOff _ err | .closing err | .releasing err => ¬ Refuses err
  | _ => True

/-- The stages up to `ReserveBudget`, and the rejection that may follow. -/
def EarlyStage : Stage → Prop
  | .received | .validated | .abandoning _ | .admitting _ | .reserving _ _ => True
  | .rejecting _ err => Refuses err
  | _ => False

/-- The execution has not got a budget, or was refused. -/
def Early (p : Process) : Prop :=
  match p.phase with
  | .submitted => True
  | .running _ stage => EarlyStage stage
  | .returned (.error err) => Refuses err
  | .returned (.ok _) | .panicked => False

section Steps

variable {service : Service} {p p' : Process} {record : Record} {env : Env} {db db' : Db}
  {stage : Stage}

theorem costMicroUSD_fails (promptTokens completionTokens inputPrice outputPrice : Int) :
    Fails (¬ Refuses ·)
      (Budget.costMicroUSD promptTokens completionTokens inputPrice outputPrice) := by
  refine .guard (by decide +kernel) ?_
  have hrange : ∀ rounded : Int, Fails (¬ Refuses ·) (do
      unless isInt64 rounded do throw (.new "calculated cost exceeds supported range")
      return rounded : Except GoError Int) := by
    intro rounded
    split
    · exact .ok _
    · exact Fails.bind (.error (by decide +kernel)) fun _ => .ok _
  exact hrange _

/-- A refusal comes from the database itself. -/
theorem Outside.of_refuses (h : Outside service p env) {call : Call} {err : GoError}
    (hrun : perform Persistence.Postgres.store call env db = (.error err, db'))
    (hrefuses : Refuses err) :
    Persistence.Postgres.store call env.info db = (.error err, db') := by
  unfold perform at hrun
  split at hrun
  · exact hrun
  · next err' hfault =>
      cases hrun
      exact absurd hrefuses (h.refused err hfault)
  · next err' hfault =>
      cases hrun
      exact absurd hrefuses (h.unacknowledged err hfault)

/-- An error of a later call is no refusal. -/
theorem Outside.not_refuses (h : Outside service p env) {call : Call} (hcall : isLater call = true)
    {err : GoError} (hrun : perform Persistence.Postgres.store call env db = (.error err, db')) :
    ¬ Refuses err := by
  intro hrefuses
  have hstore := h.of_refuses hrun hrefuses
  exact store_fails hcall env.info db err (congrArg Prod.fst hstore) hrefuses

/-- A call that was refused has done nothing. -/
theorem Outside.unchanged (h : Outside service p env) {call : Call} {err : GoError}
    (hrun : perform Persistence.Postgres.store call env db = (.error err, db'))
    (hrefuses : Refuses err) : db' = db :=
  Persistence.Postgres.store_error (h.of_refuses hrun hrefuses)

/-- The attempts and the budget of a request are untouched. -/
def Untouched (S : Slice) : Prop := S.attempts = [] ∧ S.reservation = none

/-- The calls that touch them first. -/
def spends : Call → Bool
  | .startAttempt _ | .reserveBudget _ _ _ _ => true
  | _ => false

theorem Untouched.perform {call : Call} {id : String} (h : Untouched (db.slice id))
    (hcall : spends call = false) :
    Untouched ((Gateway.perform Persistence.Postgres.store call env db).2.slice id) := by
  obtain ⟨hattempts, hreservation⟩ := h
  rcases perform_store Persistence.Postgres.store env call db with hsame | hdone
  · rw [hsame]
    exact ⟨hattempts, hreservation⟩
  rw [hdone]
  rcases Persistence.Postgres.store_slice call env.info db id with hsame | ⟨-, hwrite⟩
  · rw [hsame]
    exact ⟨hattempts, hreservation⟩
  generalize Db.slice (Persistence.Postgres.store call env.info db).2 id = S' at hwrite ⊢
  cases hwrite with
  | start | reserve => cases hcall
  | complete | retry | fail =>
      refine ⟨?_, hreservation⟩
      show List.map _ (db.slice id).attempts = []
      rw [hattempts]
      rfl
  | reconcile _ hsome =>
      rw [hreservation] at hsome
      cases hsome
  | create | load | move | cancel | keep | reject => exact ⟨hattempts, hreservation⟩

/-- **No way back.**  An execution that is early or refused after a step was early
    before it, and the step did not spend anything. -/
theorem early_of_branch
    (h : Branch Persistence.Postgres.store service p record env db stage p' db')
    (houtside : Outside service p env) (hstage : Unrefusing stage) (hearly : Early p') :
    EarlyStage stage ∧ p'.calls = p.calls ∧ p'.emitted = p.emitted
      ∧ (Untouched (db.slice record.id) → Untouched (db'.slice record.id)) := by
  have hkept : ∀ {call : Call} {result : Except GoError call.Result},
      perform Persistence.Postgres.store call env db = (result, db') → spends call = false →
      Untouched (db.slice record.id) → Untouched (db'.slice record.id) := by
    intro call result hrun hcall hslice
    have hafter : Untouched ((perform Persistence.Postgres.store call env db).2.slice record.id) :=
      hslice.perform hcall
    rw [hrun] at hafter
    exact hafter
  cases h with
  | validate hrun | unvalidated hrun | policy hrun | forbidden hrun =>
      exact ⟨trivial, rfl, rfl, hkept hrun rfl⟩
  | abandon => exact ⟨trivial, rfl, rfl, fun hslice => hslice.perform rfl⟩
  | refuse | unquoted | quote => exact ⟨trivial, rfl, rfl, id⟩
  | exceeded hrun | unreserved hrun =>
      -- the reservation was refused, so it was not made
      obtain rfl := houtside.unchanged hrun hearly
      exact ⟨trivial, rfl, rfl, id⟩
  | reject => exact ⟨hearly, rfl, rfl, fun hslice => hslice.perform rfl⟩
  | unrouted hrun | stalled hrun | unstarted hrun | uncompleted hrun | unfailed hrun =>
      exact absurd hearly (houtside.not_refuses rfl hrun)
  | unpriced hcall hcost => exact absurd hearly (costMicroUSD_fails _ _ _ _ _ hcost)
  | release => exact absurd hearly hstage
  | reserve | route | progress | lease | exhausted | panic | start | begin | answer | fault
  | complete | settle | retry | fail | interrupted | again | close => exact hearly.elim

/-- The loop ends with the error of `Select` or with the last attempt's. -/
theorem select_closing {loop : Loop} {router : Router} {err : GoError} {record' : Record}
    (h : (p.select service record loop env router).1.phase = .running record' (.closing err)) :
    err = .ofSentinel .errNoEligibleProvider ∨ loop.lastErr = some err := by
  unfold Process.select at h
  split at h
  · dsimp only at h
    split at h
    · next err' router' hselect =>
        split at h
        · cases h
        · next hpanic =>
            cases h
            exact Or.inl ((Router.selectFrom_error hselect).resolve_right fun h => hpanic h.1)
    · cases h
  · cases h
    cases hlast : loop.lastErr with
    | none => exact Or.inl rfl
    | some err => exact Or.inr rfl

theorem unrefusing_advance (houtside : Outside service p env) (hstage : Unrefusing stage)
    {router : Router} {record' : Record} {stage' : Stage}
    (h : (p.advance Persistence.Postgres.store service record env db router stage).1.phase
      = .running record' stage') : Unrefusing stage' := by
  have hbranch := p.advance_branch Persistence.Postgres.store service record env db router stage
  generalize hafter : p.advance Persistence.Postgres.store service record env db router stage
    = after at hbranch h
  obtain ⟨p', db', router'⟩ := after
  dsimp only at hbranch h
  cases hbranch with
  | @exhausted loop err =>
      obtain ⟨-, rfl⟩ := Phase.running.inj h
      have hselect : (p.select service record loop env router).1 = p.goto record (.closing err) :=
        congrArg Prod.fst hafter
      rcases select_closing (congrArg Process.phase hselect) with rfl | hlast
      · show ¬ Refuses _
        decide +kernel
      · exact hstage err hlast
  | @interrupted loop err waitErr =>
      obtain ⟨-, rfl⟩ := Phase.running.inj h
      have hwait : env.backoff = some waitErr := by
        simp only [Process.advance] at hafter
        split at hafter
        · next hbackoff =>
            cases hafter
            exact hbackoff
        · cases hafter
      exact houtside.backoff waitErr hwait
  | fault hcall =>
      obtain ⟨-, rfl⟩ := Phase.running.inj h
      exact houtside.called _ hcall
  | again =>
      obtain ⟨-, rfl⟩ := Phase.running.inj h
      intro err herr
      cases herr
      exact hstage
  | progress =>
      obtain ⟨-, rfl⟩ := Phase.running.inj h
      intro err herr
      cases herr
  | lease | start | begin | retry | fail | close =>
      obtain ⟨-, rfl⟩ := Phase.running.inj h
      exact hstage
  | validate | policy | forbidden | refuse | quote | reserve | exceeded | route | answer
  | complete =>
      obtain ⟨-, rfl⟩ := Phase.running.inj h
      exact trivial
  | unvalidated | abandon | unquoted | unreserved | reject | unrouted | stalled | panic | unstarted
  | unpriced | uncompleted | settle | unfailed | release => cases h

/-- What holds of each execution. -/
structure Frugal (p : Process) : Prop where
  carries : ∀ record stage, p.phase = .running record stage → Unrefusing stage
  idle : Early p → p.calls = [] ∧ p.emitted = []

theorem frugal_new (job : Job) : Frugal { job } := by
  constructor
  · intro record stage hphase
    cases hphase
  · exact fun _ => ⟨rfl, rfl⟩

theorem Frugal.step {hashChat : ChatInput → Except GoError (List UInt8)} (h : Frugal p)
    (houtside : Outside service p env) (router : Router) :
    Frugal (p.step Persistence.Postgres.store hashChat service env db router).1 := by
  cases hphase : p.phase with
  | submitted =>
      have hstep : (p.step Persistence.Postgres.store hashChat service env db router).1
          = (p.open Persistence.Postgres.store hashChat env db).1 := by
        simp only [Process.step, hphase]
      obtain ⟨phase, opened, hopen, -, hrunning⟩ :=
        p.open_result Persistence.Postgres.store hashChat env db
      rw [hstep, hopen]
      constructor
      · intro record stage hphase'
        rw [(hrunning record stage hphase').2]
        exact trivial
      · intro _
        exact h.idle (by rw [Early, hphase]; trivial)
  | running record stage =>
      have hstep : p.step Persistence.Postgres.store hashChat service env db router
          = p.advance Persistence.Postgres.store service record env db router stage := by
        simp only [Process.step, hphase]
      have hstage := h.carries record stage hphase
      rw [hstep]
      refine ⟨fun _ _ => unrefusing_advance houtside hstage, ?_⟩
      intro hearly
      have hbranch :=
        p.advance_branch Persistence.Postgres.store service record env db router stage
      obtain ⟨hbefore, hcalls, hemitted, -⟩ := early_of_branch hbranch houtside hstage hearly
      rw [hcalls, hemitted]
      exact h.idle (by rw [Early, hphase]; exact hbefore)
  | returned | panicked =>
      have hstep : (p.step Persistence.Postgres.store hashChat service env db router).1 = p := by
        simp only [Process.step, hphase]
      rw [hstep]
      exact h

end Steps

/-! ## The gateway -/

/-- An early execution has not touched its request. -/
def Spares (p : Process) (S : Slice) : Prop := Early p → Untouched S

theorem spares_local : Local Spares where
  opened := fun _ _ _ hattempts hreservation _ => ⟨hattempts, hreservation⟩
  cancelled := fun _ h => h

/-- What comes from outside in a step of an execution. -/
def OutsideStep (services : Nat → Service) (x : System Db) : Action → Prop
  | .advance pid env => ∀ p ∈ x.procs pid, Outside (services p.job.replica) p env
  | _ => True

structure Spared (x : System Db) : Prop where
  frugal : ∀ pid p, x.procs pid = some p → Frugal p
  spares : Owned Spares x
  tracking : Owned Tracking x
  charged : ∀ id, Charged id (x.store.slice id)

section Gateway

variable {platform : Platform Db} {x : System Db} {action : Action}

theorem Spared.step (hstore : platform.store = Persistence.Postgres.store) (h : Spared x)
    (houtside : OutsideStep platform.services x action) : Spared (x.step platform action) where
  frugal := by
    intro pid q hq
    cases action with
    | submit pid' job =>
        rcases procs_submit hq with rfl | hold
        · exact frugal_new job
        · exact h.frugal pid q hold
    | advance pid' env =>
        cases hp : x.procs pid' with
        | none =>
            rw [step_advance_none hp] at hq
            exact h.frugal pid q hq
        | some p =>
            rcases procs_advance hp hq with ⟨-, rfl⟩ | ⟨-, hold⟩
            · rw [hstore]
              exact (h.frugal pid' p hp).step (houtside p hp) _
            · exact h.frugal pid q hold
    | cancel | interfere => exact h.frugal pid q hq
  spares := by
    refine owned_step spares_local hstore h.spares action ?_
    rintro pid env p record stage p' db' rfl hp hphase hopened hbranch hearly
    obtain ⟨hbefore, -, -, hkept⟩ := early_of_branch hbranch (houtside p hp)
      ((h.frugal pid p hp).carries record stage hphase) hearly
    exact hkept (h.spares.holds hp hopened (by rw [Early, hphase]; exact hbefore))
  tracking := tracking_step hstore h.tracking action
  charged := charged_step hstore h.tracking h.charged action

theorem spared_init (catalog : Catalog) (routers : Nat → Router) :
    Spared (System.init (Db.init catalog) routers) where
  frugal := by
    intro pid p hp
    cases hp
  spares := owned_init catalog routers
  tracking := owned_init catalog routers
  charged := by
    intro id
    constructor
    · intro row hrow
      cases hrow
    · exact fun _ => ⟨rfl, fun _ _ => rfl⟩

/-- A request without attempts has not been completed, nor charged. -/
theorem uncharged_of_untouched {id : String} {S : Slice} (h : Charged id S)
    (hattempts : S.attempts = []) :
    S.inState .completed = false ∧ factsOfType S .usageRecorded = [] := by
  have hopen : S.inState .completed = false := by
    rw [Bool.eq_false_iff]
    intro hcompleted
    obtain ⟨row, hrow, hstatus⟩ := (Option.any_eq_true _ _).mp hcompleted
    obtain ⟨_, _, _, -, ⟨a, hsucceeded, -⟩, -⟩ := h.settled row hrow (eq_of_beq hstatus)
    rw [succeededOf, hattempts] at hsucceeded
    cases hsucceeded
  exact ⟨hopen, (h.uncharged hopen).2 _ (by decide)⟩

end Gateway

/-- **A refusal costs nothing.**  Where the errors of the database connection, of
    the providers and of the timer do not look like refusals: a chat request that
    is answered 402, 403, 429 or as an idempotency conflict has called no
    provider and streamed nothing, and the request it leaves behind, if any, has
    no attempt, no budget reservation, no completion and no usage to charge, then
    and ever after. -/
theorem refusals_free (format : JsonText.Format) (platform : Platform Db)
    (hstore : platform.store = Persistence.Postgres.store) (catalog : Catalog)
    (routers : Nat → Router) (actions : List Action)
    (houtside : ∀ t ∈ trace (System.step platform) (System.init (Db.init catalog) routers) actions,
      OutsideStep platform.services t.1 t.2.1)
    (request : ChatRequest) (clock : Nat → Int) (reply : ChatReply) (pid : Nat) (p : Process) :
    let x := run (System.step platform) (System.init (Db.init catalog) routers) actions
    x.procs pid = some p → chatReply format request clock p = some reply →
    reply.isRefusal = true →
    p.calls = [] ∧ p.emitted = []
      ∧ ∀ record, p.opened = some (record, true) →
        let S := x.store.slice record.id
        S.attempts = [] ∧ S.reservation = none ∧ S.inState .completed = false
          ∧ factsOfType S .usageRecorded = [] := by
  intro x hp hreply hrefusal
  have hspared : Spared x := run_invariant (fun x action h hstep => h.step hstore hstep) actions
    (spared_init catalog routers) houtside
  obtain ⟨err, hphase, hrefuses⟩ := refuses_of_chatReply hreply hrefusal
  have hearly : Early p := by
    rw [Early, hphase]
    exact hrefuses
  obtain ⟨hcalls, hemitted⟩ := (hspared.frugal pid p hp).idle hearly
  refine ⟨hcalls, hemitted, ?_⟩
  intro record hopened S
  obtain ⟨hattempts, hreservation⟩ := hspared.spares.holds hp hopened hearly
  exact ⟨hattempts, hreservation, uncharged_of_untouched (hspared.charged record.id) hattempts⟩

/-- In the sample steps the provider is cancelled and nothing else fails. -/
theorem outside_sampleEnv (service : Service) (p : Process) (first second : String) (now : Time) :
    Outside service p (sampleEnv first second now) where
  refused := by
    intro err hfault
    cases hfault
  unacknowledged := by
    intro err hfault
    cases hfault
  called := by
    intro err hcalled
    have hcanceled : err = .ofSentinel .canceled := by
      unfold Process.called call at hcalled
      split at hcalled
      · cases hcalled
        rfl
      · cases hcalled
        rfl
    rw [hcanceled]
    decide +kernel
  backoff := by
    intro err hbackoff
    cases hbackoff

/-- A request of the sample tenant for up to `maxTokens` tokens runs to its end. -/
def askFor (maxTokens : Nat) : List Action :=
  .submit 0 { sampleJob "a" .submit with
      input := { model := "m", messages := [⟨"user", "hello"⟩], maxTokens } }
    :: List.replicate 6 (.advance 0 (sampleEnv "r" "e" 1))

/-- A thousand tokens do not fit into a monthly budget of 100. -/
theorem refusals_free_exceeded :
    let x := run (System.step (samplePlatform Persistence.Postgres.store)) sampleStart (askFor 1000)
    ∃ p record reply, x.procs 0 = some p ∧ p.opened = some (record, true)
      ∧ chatReply JsonText.wholeFormat (streamRequest "b") (fun _ => 9) p = some reply
      ∧ reply.isRefusal = true ∧ p.calls = [] ∧ (x.store.slice record.id).reservation = none := by
  intro x
  have hrun : (x.procs 0).map (fun p =>
      ((chatReply JsonText.wholeFormat (streamRequest "b") (fun _ => 9) p).any
        (fun reply => reply.isRefusal), p.opened.any fun o => o.2)) = some (true, true) := by
    decide +kernel
  obtain ⟨p, hp, hends⟩ := Option.map_eq_some_iff.mp hrun
  obtain ⟨hreplies, hopens⟩ := Prod.mk.inj hends
  obtain ⟨reply, hreply, hrefusal⟩ := (Option.any_eq_true _ _).mp hreplies
  obtain ⟨⟨record, created⟩, hopened, hcreated⟩ := (Option.any_eq_true _ _).mp hopens
  obtain rfl : created = true := hcreated
  have houtside : ∀ t ∈ trace (System.step (samplePlatform Persistence.Postgres.store)) sampleStart
      (askFor 1000),
      OutsideStep (samplePlatform Persistence.Postgres.store).services t.1 t.2.1 := by
    intro t ht
    obtain ⟨before, after, hactions, -⟩ := Lib.mem_trace ht
    have haction : t.2.1 ∈ askFor 1000 := by
      rw [hactions]
      exact List.mem_append_right _ (List.mem_cons_self ..)
    rcases List.mem_cons.mp haction with hsubmit | hadvance
    · rw [hsubmit]
      trivial
    · rw [List.eq_of_mem_replicate hadvance]
      exact fun p _ => outside_sampleEnv _ p _ _ _
  obtain ⟨hcalls, -, hspared⟩ := refusals_free JsonText.wholeFormat
    (samplePlatform Persistence.Postgres.store) rfl (Catalog.sample 100 Catalog.hundred_fits)
    (fun _ => sampleRouter) (askFor 1000) houtside (streamRequest "b") (fun _ => 9) reply 0 p hp
    hreply hrefusal
  exact ⟨p, record, reply, hp, hopened, hreply, hrefusal, hcalls, (hspared record hopened).2.1⟩

end Aegis.Api
