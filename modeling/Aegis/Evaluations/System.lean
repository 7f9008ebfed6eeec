/-
  Aegis.Evaluations.System

  Evaluations as a whole: any number of `Submit` and `Retry` calls and of worker
  deliveries on one database and one broker, one call to the store or the
  broker at a time, in any order.

  A worker may die in any stage, its acknowledgement may be lost, and the broker
  may take a delivery back at any time, also while its handler goes on.  The
  gateway uses the same database.

  `Branch` lists what a handler's step can do and `ApiBranch` what a step of the
  API can do.  `Stored` says what a step of the system does to the database,
  `Relayed` what it does to the broker.
-/

import Aegis.EvaluationJob
import Aegis.Lib.Runs

namespace Aegis.Evaluations

open Aegis.EvaluationJob (Entry Hash Invocation Response)
open Aegis.Lib (Broker.Place)
open Aegis.Persistence (Info)
open Aegis.Persistence.Evaluations
open Aegis.RabbitMQ (Broker Env Handler Job Queue Stage Worker perform)
open Aegis.RabbitMQ.Broker (Published nack_eq published_of_eq)

/-- The workers' configuration and the canonical hash of the API. -/
structure Services where
  worker : Worker
  hash : Hash

structure System where
  db : Db
  broker : Broker := {}
  /-- the handlers of the deliveries, by tag -/
  handlers : Nat → Option Handler := fun _ => none
  calls : Nat → Option Invocation := fun _ => none

inductive Action where
  /-- a client calls `Submit` or `Retry` -/
  | call (cid : Nat) (entry : Entry)
  | advance (cid : Nat) (env : Env)
  /-- the broker delivers a message of the work queue to a worker -/
  | deliver (i : Nat)
  | work (tag : Nat) (env : Env)
  /-- the worker of a delivery dies -/
  | crash (tag : Nat)
  /-- the channel of a delivery closes and the broker takes it back -/
  | requeue (tag : Nat)
  | expire (i : Nat)
  | gateway (call : Persistence.Call) (info : Info)

/-- The handler that an action advances. -/
def Action.handler (x : System) : Action → Option Handler
  | .work tag _ => x.handlers tag
  | _ => none

namespace System

/-- No evaluations yet. -/
def init (platform : Persistence.Db) : System where
  db := .init platform

def step (services : Services) (x : System) : Action → System
  | .call cid entry =>
      -- `cid` names a call, so it is used once
      match x.calls cid with
      | some _ => x
      | none => { x with calls := Function.update x.calls cid (some { entry }) }
  | .advance cid env =>
      match x.calls cid with
      | none => x
      | some c =>
          let (stage, db, broker) := c.entry.step services.hash env x.db x.broker c.stage
          { x with
            db, broker
            calls := Function.update x.calls cid (some { c with stage }) }
  | .deliver i =>
      match x.broker.messages.get? (.queued .work i) with
      | none => x
      | some job =>
          { x with
            broker := { x.broker with messages := x.broker.messages.deliver .work i }
            handlers := Function.update x.handlers x.broker.messages.next (some { job }) }
  | .work tag env =>
      match x.handlers tag with
      | none => x
      | some h =>
          let (stage, db, broker) := services.worker.process env tag h.job x.db x.broker h.stage
          { x with
            db, broker
            handlers := Function.update x.handlers tag (some { h with stage }) }
  | .crash tag =>
      match x.handlers tag with
      | none => x
      | some h =>
          { x with handlers := Function.update x.handlers tag (some { h with stage := .finished }) }
  | .requeue tag => { x with broker := x.broker.nack tag true }
  | .expire i => { x with broker := x.broker.expire i }
  | .gateway call info => { x with db := gatewayCall call info x.db }

end System

/-! ## Calls to the store -/

/-- Whatever the fault, the database changes as the call's effect says. -/
theorem perform_effect (call : Call) (env : Env) (db : Db) :
    ∃ r, Effect db env.info call r (perform call env db).2 := by
  unfold perform
  split
  · exact ⟨_, store_effect call env.info db⟩
  · next err hfault => exact ⟨_, .error err⟩
  · exact ⟨_, store_effect call env.info db⟩

theorem perform_eq_effect {call : Call} {env : Env} {db db' : Db}
    {r : Except GoError call.Result} (h : perform call env db = (r, db')) :
    ∃ r, Effect db env.info call r db' := by
  have heffect := perform_effect call env db
  rw [h] at heffect
  exact heffect

/-- An answer that arrived is the store's. -/
theorem perform_ok {call : Call} {env : Env} {db db' : Db} {r : call.Result}
    (h : perform call env db = (.ok r, db')) : Effect db env.info call (.ok r) db' := by
  unfold perform at h
  split at h
  · have heffect := store_effect call env.info db
    rw [h] at heffect
    exact heffect
  · cases (Prod.mk.inj h).1
  · cases (Prod.mk.inj h).1

/-- An error without effect, or a call that took effect and whose answer was
    lost. -/
theorem perform_error {call : Call} {env : Env} {db db' : Db} {err : GoError}
    (h : perform call env db = (.error err, db')) :
    db' = db ∨ ∃ lost, env.fault = some (.unacknowledged lost) := by
  unfold perform at h
  split at h
  · have heffect := store_effect call env.info db
    rw [h] at heffect
    cases heffect with
    | error => exact Or.inl rfl
  · exact Or.inl (Prod.mk.inj h).2.symm
  · next lost hfault => exact Or.inr ⟨lost, hfault⟩

/-! ## The handler of a delivery -/

section Handlers

variable (worker : Worker) (env : Env) (tag : Nat) (job : Job) (db : Db) (broker : Broker)

/-- What a step of a handler can do. -/
inductive Branch : Stage → Stage → Db → Broker → Prop
  | malformed (h : job.jobID = "" ∨ job.tenantID = "" ∨ job.executionID = "") :
      Branch .received .rejecting db broker
  | start {u db'} (h : perform (.markEvaluationRunning job.tenantID job.jobID) env db
        = (.ok u, db')) :
      Branch .received .loading db' broker
  | unstarted {err db'} (h : perform (.markEvaluationRunning job.tenantID job.jobID) env db
        = (.error err, db')) :
      Branch .received (worker.retry job "database_transient") db' broker
  | load {input db'} (h : perform (.loadInput job.tenantID job.jobID) env db
        = (.ok input, db')) :
      Branch .loading (.completing (worker.evaluate input env.durations)) db' broker
  | unloaded {err db'} (h : perform (.loadInput job.tenantID job.jobID) env db
        = (.error err, db')) :
      Branch .loading (worker.retry job "evaluation_source") db' broker
  | complete {results u db'}
      (h : perform (.completeEvaluation job.tenantID job.jobID job.executionID results) env db
        = (.ok u, db')) :
      Branch (.completing results) .acknowledging db' broker
  | uncompleted {results err db'}
      (h : perform (.completeEvaluation job.tenantID job.jobID job.executionID results) env db
        = (.error err, db')) :
      Branch (.completing results) (worker.retry job "database_transient") db' broker
  | acknowledge : Branch .acknowledging .finished db (broker.ack tag)
  | bury {category} :
      Branch (.burying category) .rejecting
        (perform (.failEvaluation job.tenantID job.jobID category true) env db).2 broker
  | reject : Branch .rejecting .finished db (broker.nack tag false)
  | republish {category u broker'}
      (h : broker.publish env.publication job.next true = (.ok u, broker')) :
      Branch (.republishing category) (.recording category) db broker'
  | unpublished {category err broker'}
      (h : broker.publish env.publication job.next true = (.error err, broker')) :
      Branch (.republishing category) .requeueing db broker'
  | requeue : Branch .requeueing .finished db (broker.nack tag true)
  | record {category} :
      Branch (.recording category) .acknowledging
        (perform (.failEvaluation job.tenantID job.jobID category false) env db).2 broker
  /-- the acknowledgement does not reach the broker -/
  | lost {stage} (h : stage = .acknowledging ∨ stage = .rejecting ∨ stage = .requeueing) :
      Branch stage .finished db broker
  | finished : Branch .finished .finished db broker

theorem process_branch (stage : Stage) :
    Branch worker env tag job db broker stage
      (worker.process env tag job db broker stage).1
      (worker.process env tag job db broker stage).2.1
      (worker.process env tag job db broker stage).2.2 := by
  cases stage with
  | received =>
      simp only [Worker.process]
      split
      · next h => exact .malformed h
      · split
        · next h => exact .start h
        · next h => exact .unstarted h
  | loading =>
      simp only [Worker.process]
      split
      · next h => exact .load h
      · next h => exact .unloaded h
  | completing results =>
      simp only [Worker.process]
      split
      · next h => exact .complete h
      · next h => exact .uncompleted h
  | acknowledging =>
      simp only [Worker.process]
      split
      · exact .acknowledge
      · exact .lost (Or.inl rfl)
  | burying category => exact .bury
  | rejecting =>
      simp only [Worker.process]
      split
      · exact .reject
      · exact .lost (Or.inr (Or.inl rfl))
  | republishing category =>
      simp only [Worker.process]
      split
      · next h => exact .republish h
      · next h => exact .unpublished h
  | requeueing =>
      simp only [Worker.process]
      split
      · exact .requeue
      · exact .lost (Or.inr (Or.inr rfl))
  | recording category => exact .record
  | finished => exact .finished

/-- The call to the store that a handler makes in a stage. -/
def handlerCall : Stage → Option Call
  | .received => some (.markEvaluationRunning job.tenantID job.jobID)
  | .loading => some (.loadInput job.tenantID job.jobID)
  | .completing results =>
      some (.completeEvaluation job.tenantID job.jobID job.executionID results)
  | .burying category => some (.failEvaluation job.tenantID job.jobID category true)
  | .recording category => some (.failEvaluation job.tenantID job.jobID category false)
  | _ => none

/-- The stages before `FailEvaluation`. -/
def isFailing : Stage → Bool
  | .burying _ | .recording _ => true
  | _ => false

/-- The stage before `CompleteEvaluation`. -/
def isCompleting : Stage → Bool
  | .completing _ => true
  | _ => false

end Handlers

/-- A handler fails its own job. -/
theorem handlerCall_fail {job : Job} {stage : Stage} {tenantID jobID category : String}
    {permanent : Bool}
    (h : handlerCall job stage = some (.failEvaluation tenantID jobID category permanent)) :
    isFailing stage = true ∧ tenantID = job.tenantID ∧ jobID = job.jobID := by
  cases stage with
  | burying | recording =>
      cases h
      exact ⟨rfl, rfl, rfl⟩
  | _ => cases h

/-- A handler completes its own job. -/
theorem handlerCall_complete {job : Job} {stage : Stage} {tenantID jobID executionID : String}
    {results : List Evaluation.Result}
    (h : handlerCall job stage
      = some (.completeEvaluation tenantID jobID executionID results)) :
    isCompleting stage = true ∧ tenantID = job.tenantID ∧ jobID = job.jobID := by
  cases stage with
  | completing =>
      cases h
      exact ⟨rfl, rfl, rfl⟩
  | _ => cases h

/-- Handlers create no jobs. -/
theorem handlerCall_ne_insert (job : Job) (stage : Stage) (params : CreateEvaluationParams) :
    handlerCall job stage ≠ some (.insertEvaluation params) := by
  cases stage <;> exact nofun

/-- A handler's step makes at most one call. -/
theorem Branch.stored {worker : Worker} {env : Env} {tag : Nat} {job : Job} {db db' : Db}
    {broker broker' : Broker} {stage stage' : Stage}
    (h : Branch worker env tag job db broker stage stage' db' broker') :
    db' = db ∨ ∃ call r, handlerCall job stage = some call ∧ Effect db env.info call r db' := by
  cases h with
  | start h | unstarted h | load h | unloaded h | complete h | uncompleted h =>
      obtain ⟨r, heffect⟩ := perform_eq_effect h
      exact Or.inr ⟨_, r, rfl, heffect⟩
  | bury | record =>
      obtain ⟨r, heffect⟩ := perform_effect _ env db
      exact Or.inr ⟨_, r, rfl, heffect⟩
  | _ => exact Or.inl rfl

/-! ## A call of the API -/

section Api

variable (env : Env) (entry : Entry) (db : Db) (broker : Broker)

/-- What a step of `Submit` or `Retry` can do. -/
inductive ApiBranch : EvaluationJob.Stage → EvaluationJob.Stage → Db → Broker → Prop
  | invalid {err} : ApiBranch .opened (.returned ⟨none, false, some err⟩) db broker
  | create {params canonical id db'} (hsubmit : entry.isSubmit = true)
      (htenant : params.tenantID = entry.tenantID)
      (h : perform (.insertEvaluation params) env db = (.ok (some id), db')) :
      ApiBranch .opened (.reading canonical id true) db' broker
  | conflict {params canonical db'} (hsubmit : entry.isSubmit = true)
      (htenant : params.tenantID = entry.tenantID)
      (h : perform (.insertEvaluation params) env db = (.ok none, db')) :
      ApiBranch .opened (.finding canonical) db' broker
  | uncreated {params err db'} (hsubmit : entry.isSubmit = true)
      (htenant : params.tenantID = entry.tenantID)
      (h : perform (.insertEvaluation params) env db = (.error err, db')) :
      ApiBranch .opened (.returned ⟨none, false, some err⟩) db' broker
  | retry {id job db'} (hretry : entry.isSubmit = false)
      (h : perform (.getEvaluation entry.tenantID id) env db = (.ok job, db')) :
      ApiBranch .opened (.publishing job) db' broker
  | unretryable {id r err db'}
      (h : perform (.getEvaluation entry.tenantID id) env db = (r, db')) :
      ApiBranch .opened (.returned ⟨none, false, some err⟩) db' broker
  | find {key canonical id db'} (hsubmit : entry.isSubmit = true)
      (h : perform (.findEvaluation entry.tenantID key) env db = (.ok id, db')) :
      ApiBranch (.finding canonical) (.reading canonical id false) db' broker
  | unfound {key canonical err db'}
      (h : perform (.findEvaluation entry.tenantID key) env db = (.error err, db')) :
      ApiBranch (.finding canonical) (.returned ⟨none, false, some err⟩) db' broker
  | idle {canonical} : ApiBranch (.finding canonical) (.finding canonical) db broker
  | read {canonical id job db'}
      (h : perform (.getEvaluation entry.tenantID id) env db = (.ok job, db')) :
      ApiBranch (.reading canonical id true) (.publishing job) db' broker
  | replay {canonical id job db'}
      (h : perform (.getEvaluation entry.tenantID id) env db = (.ok job, db')) :
      ApiBranch (.reading canonical id false) (.returned ⟨some job, false, none⟩) db' broker
  | mismatch {canonical id job db'}
      (h : perform (.getEvaluation entry.tenantID id) env db = (.ok job, db')) :
      ApiBranch (.reading canonical id false)
        (.returned ⟨none, false, some (.ofSentinel .errConflict)⟩) db' broker
  | unread {canonical id created err db'}
      (h : perform (.getEvaluation entry.tenantID id) env db = (.error err, db')) :
      ApiBranch (.reading canonical id created) (.returned ⟨none, false, some err⟩) db' broker
  | publish {job u broker'}
      (h : broker.publish env.publication (entry.command job env) false = (.ok u, broker')) :
      ApiBranch (.publishing job) (.queueing job) db broker'
  | unpublished {job err broker'}
      (h : broker.publish env.publication (entry.command job env) false
        = (.error err, broker')) :
      ApiBranch (.publishing job)
        (.returned (entry.failure job "publish evaluation command" err)) db broker'
  | queue {job u db'}
      (h : perform (.markEvaluationQueued entry.tenantID job.id) env db = (.ok u, db')) :
      ApiBranch (.queueing job)
        (.returned ⟨some { job with status := .queued }, entry.isSubmit, none⟩) db' broker
  | unqueued {job err db'}
      (h : perform (.markEvaluationQueued entry.tenantID job.id) env db = (.error err, db')) :
      ApiBranch (.queueing job) (.returned (entry.failure job "mark evaluation queued" err)) db'
        broker
  | returned {response} : ApiBranch (.returned response) (.returned response) db broker

theorem api_branch (hash : Hash) (stage : EvaluationJob.Stage) :
    ApiBranch env entry db broker stage
      (entry.step hash env db broker stage).1
      (entry.step hash env db broker stage).2.1
      (entry.step hash env db broker stage).2.2 := by
  cases stage with
  | opened =>
      cases entry with
      | submit tenantID key correlationID input =>
          simp only [EvaluationJob.Entry.step]
          split
          · exact .invalid
          · split
            · exact .invalid
            · split
              · next h => exact .create rfl rfl h
              · next h => exact .conflict rfl rfl h
              · next h => exact .uncreated rfl rfl h
      | retry tenantID id correlationID =>
          simp only [EvaluationJob.Entry.step]
          split
          · next h => exact .unretryable h
          · next h =>
              split
              · exact .retry rfl h
              · exact .unretryable h
  | finding canonical =>
      cases entry with
      | retry tenantID id correlationID => exact .idle
      | submit tenantID key correlationID input =>
          simp only [EvaluationJob.Entry.step]
          split
          · next h => exact .find rfl h
          · next h => exact .unfound h
  | reading canonical id created =>
      simp only [EvaluationJob.Entry.step]
      split
      · next h => exact .unread h
      · next h =>
          cases created with
          | true => exact .read h
          | false =>
              simp only [Bool.false_eq_true, if_false]
              split
              · exact .mismatch h
              · exact .replay h
  | publishing job =>
      simp only [EvaluationJob.Entry.step]
      split
      · next h => exact .unpublished h
      · next h => exact .publish h
  | queueing job =>
      simp only [EvaluationJob.Entry.step]
      split
      · next h => exact .unqueued h
      · next h => exact .queue h
  | returned response => exact .returned

end Api

/-- The calls to the store that `Submit` and `Retry` make in a stage. -/
inductive ApiCall (entry : Entry) : EvaluationJob.Stage → Call → Prop
  | insert {params} (htenant : params.tenantID = entry.tenantID) :
      ApiCall entry .opened (.insertEvaluation params)
  | retry {id} : ApiCall entry .opened (.getEvaluation entry.tenantID id)
  | find {canonical key} :
      ApiCall entry (.finding canonical) (.findEvaluation entry.tenantID key)
  | read {canonical id created} :
      ApiCall entry (.reading canonical id created) (.getEvaluation entry.tenantID id)
  | queue {job} :
      ApiCall entry (.queueing job) (.markEvaluationQueued entry.tenantID job.id)

/-- The API neither completes nor fails jobs. -/
theorem ApiCall.not_outcome {entry : Entry} {stage : EvaluationJob.Stage} {call : Call}
    (h : ApiCall entry stage call) :
    (∀ tenantID jobID category permanent,
        call ≠ .failEvaluation tenantID jobID category permanent)
      ∧ ∀ tenantID jobID executionID results,
        call ≠ .completeEvaluation tenantID jobID executionID results := by
  cases h <;> exact ⟨nofun, nofun⟩

/-- A step of the API makes at most one call. -/
theorem ApiBranch.stored {env : Env} {entry : Entry} {db db' : Db} {broker broker' : Broker}
    {stage stage' : EvaluationJob.Stage}
    (h : ApiBranch env entry db broker stage stage' db' broker') :
    db' = db ∨ ∃ call r, ApiCall entry stage call ∧ Effect db env.info call r db' := by
  cases h with
  | create _ htenant h | conflict _ htenant h | uncreated _ htenant h =>
      obtain ⟨r, heffect⟩ := perform_eq_effect h
      exact Or.inr ⟨_, r, .insert htenant, heffect⟩
  | retry _ h | unretryable h =>
      obtain ⟨r, heffect⟩ := perform_eq_effect h
      exact Or.inr ⟨_, r, .retry, heffect⟩
  | find _ h | unfound h =>
      obtain ⟨r, heffect⟩ := perform_eq_effect h
      exact Or.inr ⟨_, r, .find, heffect⟩
  | read h | replay h | mismatch h | unread h =>
      obtain ⟨r, heffect⟩ := perform_eq_effect h
      exact Or.inr ⟨_, r, .read, heffect⟩
  | queue h | unqueued h =>
      obtain ⟨r, heffect⟩ := perform_eq_effect h
      exact Or.inr ⟨_, r, .queue, heffect⟩
  | _ => exact Or.inl rfl

/-! ## Steps of the system -/

/-- What a step of the system can do. -/
inductive Step (services : Services) (x : System) : Action → System → Prop
  | idle {action} : Step services x action x
  | call {cid entry} (hfree : x.calls cid = none) :
      Step services x (.call cid entry)
        { x with calls := Function.update x.calls cid (some { entry }) }
  | advance {cid env c stage db broker} (hc : x.calls cid = some c)
      (hbranch : ApiBranch env c.entry x.db x.broker c.stage stage db broker) :
      Step services x (.advance cid env)
        { x with db, broker, calls := Function.update x.calls cid (some { c with stage }) }
  | deliver {i job} (hslot : x.broker.messages.get? (.queued .work i) = some job) :
      Step services x (.deliver i) { x with
        broker := { x.broker with messages := x.broker.messages.deliver .work i }
        handlers := Function.update x.handlers x.broker.messages.next (some { job }) }
  | work {tag env h stage db broker} (hh : x.handlers tag = some h)
      (hbranch : Branch services.worker env tag h.job x.db x.broker h.stage stage db broker) :
      Step services x (.work tag env)
        { x with db, broker, handlers := Function.update x.handlers tag (some { h with stage }) }
  | crash {tag h} (hh : x.handlers tag = some h) :
      Step services x (.crash tag)
        { x with handlers := Function.update x.handlers tag (some { h with stage := .finished }) }
  | requeue {tag} :
      Step services x (.requeue tag) { x with broker := x.broker.nack tag true }
  | expire {i} : Step services x (.expire i) { x with broker := x.broker.expire i }
  | gateway {call info} :
      Step services x (.gateway call info) { x with db := gatewayCall call info x.db }

theorem step_cases (services : Services) (x : System) (action : Action) :
    Step services x action (x.step services action) := by
  cases action with
  | call cid entry =>
      simp only [System.step]
      split
      · exact .idle
      · next hfree => exact .call hfree
  | advance cid env =>
      simp only [System.step]
      split
      · exact .idle
      · next c hc => exact .advance hc (api_branch env c.entry x.db x.broker services.hash c.stage)
  | deliver i =>
      simp only [System.step]
      split
      · exact .idle
      · next job hslot => exact .deliver hslot
  | work tag env =>
      simp only [System.step]
      split
      · exact .idle
      · next h hh =>
          exact .work hh (process_branch services.worker env tag h.job x.db x.broker h.stage)
  | crash tag =>
      simp only [System.step]
      split
      · exact .idle
      · next h hh => exact .crash hh
  | requeue tag => exact .requeue
  | expire i => exact .expire
  | gateway call info => exact .gateway

/-- What a step does to the database. -/
inductive Stored (x : System) : Action → Db → Prop
  | same {action} : Stored x action x.db
  | handler {tag env h call r db} (hh : x.handlers tag = some h)
      (hcall : handlerCall h.job h.stage = some call)
      (heffect : Effect x.db env.info call r db) : Stored x (.work tag env) db
  | api {cid env c call r db} (hc : x.calls cid = some c)
      (hcall : ApiCall c.entry c.stage call) (heffect : Effect x.db env.info call r db) :
      Stored x (.advance cid env) db
  | gateway {call info} : Stored x (.gateway call info) (gatewayCall call info x.db)

theorem Step.stored {services : Services} {x x' : System} {action : Action}
    (h : Step services x action x') : Stored x action x'.db := by
  cases h with
  | advance hc hbranch =>
      rcases hbranch.stored with rfl | ⟨call, r, hcall, heffect⟩
      · exact .same
      · exact .api hc hcall heffect
  | work hh hbranch =>
      rcases hbranch.stored with rfl | ⟨call, r, hcall, heffect⟩
      · exact .same
      · exact .handler hh hcall heffect
  | gateway => exact .gateway
  | _ => exact .same

/-- What a step does to the broker. -/
inductive Relayed (x : System) : Action → Broker → Prop
  | same {action} : Relayed x action x.broker
  | submitted {cid env c job r b} (hc : x.calls cid = some c) (hstage : c.stage = .publishing job)
      (hpublished : Published x.broker (c.entry.command job env) false r b) :
      Relayed x (.advance cid env) b
  | retried {tag env h category r b} (hh : x.handlers tag = some h)
      (hstage : h.stage = .republishing category)
      (hpublished : Published x.broker h.job.next true r b) : Relayed x (.work tag env) b
  | delivered {i} :
      Relayed x (.deliver i) { x.broker with messages := x.broker.messages.deliver .work i }
  | acknowledged {tag env h} (hh : x.handlers tag = some h) (hstage : h.stage = .acknowledging) :
      Relayed x (.work tag env)
        { x.broker with messages := x.broker.messages.remove (.delivered tag) }
  | rejected {tag env h} (hh : x.handlers tag = some h) (hstage : h.stage = .rejecting) :
      Relayed x (.work tag env)
        { x.broker with messages := x.broker.messages.move (.delivered tag) .dead }
  /-- requeued or expired -/
  | returned {action slot} :
      Relayed x action { x.broker with messages := x.broker.messages.move slot .work }

theorem Step.relayed {services : Services} {x x' : System} {action : Action}
    (h : Step services x action x') : Relayed x action x'.broker := by
  cases h with
  | @advance cid env c stage db broker hc hbranch =>
      generalize hstage : c.stage = before at hbranch
      cases hbranch with
      | publish hrun | unpublished hrun => exact .submitted hc hstage (published_of_eq hrun)
      | _ => exact .same
  | @work tag env h stage db broker hh hbranch =>
      generalize hstage : h.stage = before at hbranch
      cases hbranch with
      | acknowledge => exact .acknowledged hh hstage
      | reject =>
          rw [nack_eq]
          exact .rejected hh hstage
      | republish hrun | unpublished hrun => exact .retried hh hstage (published_of_eq hrun)
      | requeue =>
          rw [nack_eq]
          exact .returned
      | _ => exact .same
  | deliver => exact .delivered
  | requeue =>
      rw [nack_eq]
      exact .returned
  | expire => exact .returned
  | _ => exact .same

/-! ## A small deployment, for concrete runs -/

/-- Tenant `t` has a completed request `r`. -/
def samplePlatform : Persistence.Db :=
  { Persistence.Db.init (Persistence.Catalog.sample 100 Persistence.Catalog.hundred_fits) with
    requests := ⟨[{
      id := "r", tenantID := "t", apiKeyID := "k", userID := none, idempotencyKey := "a"
      canonicalRequestHash := [1], modelID := "m", status := .completed
      streamRequested := false, correlationID := "c", createdAt := 0, updatedAt := 1
      completedAt := some 1
      responseBody := some {
        id := "r", object := "chat.completion", created := 0, model := "m"
        choices := [⟨0, ⟨"assistant", "hi"⟩, "stop"⟩], usage := ⟨2, 1, 3⟩
        aegis := ⟨"r", .completed⟩ } }], List.pairwise_singleton _ _⟩ }

/-- Workers with the default number of attempts, three. -/
def sampleServices : Services where
  worker := RabbitMQ.newWorker [Evaluation.performance] 0
  hash := fun _ => .ok [1]

/-- The identifiers of a step. -/
def sampleEnv (first second : String) : Env where
  info := ⟨0, 0, fun slot => if slot = 0 then first else second⟩

/-- A step whose call to the store fails without effect. -/
def refusedEnv : Env :=
  { sampleEnv "" "" with fault := some (.refused (.ofSentinel .deadlineExceeded)) }

/-- Tenant `t` submits an evaluation of `r`. -/
def sampleSubmit : Entry := .submit "t" "e" "c" ⟨"r", "suite", .null⟩

/-- The job `j` is created, its command published and its status set. -/
def submitAndQueue : List Action :=
  .call 0 sampleSubmit :: List.replicate 4 (.advance 0 (sampleEnv "j" ""))

/-- A delivery is handled up to `CompleteEvaluation`. -/
def deliverAndComplete (tag : Nat) (resultID factID : String) : List Action :=
  .deliver 0 :: List.replicate 3 (.work tag (sampleEnv resultID factID))

end Aegis.Evaluations
