/-
  Aegis.RabbitMQ

  Evaluation commands, retries and dead-letter routing
  (internal/rabbitmq/rabbitmq.go).

  The topology is that of `Manager.declare`.  `Worker.process` is cut at its
  calls: a delivery is handled in stages, and each step makes one call to the
  store or to the broker.  The delivery keeps the command as it was published;
  `retry` counts the attempt on a copy.

  `accepted` and `confirmed` do not exist in the broker.  They record which
  commands it has taken from publishers, and which of those publications it has
  acknowledged.
-/

import Aegis.Gateway.Service
import Aegis.Lib.Broker
import Aegis.Persistence.EvaluationEffects

namespace Aegis.RabbitMQ

open Aegis.Evaluation (Evaluator Input Result)
open Aegis.Gateway (Fault)
open Aegis.Persistence (Info)
open Aegis.Persistence.Evaluations (Call Db Effect store store_effect)

/-! ## Topology -/

inductive Exchange where
  | main
  | retry
  | dead
deriving DecidableEq, Repr

inductive Queue where
  | work
  | retry
  | dead
deriving DecidableEq, Repr

/-- The queue bindings of `declare`. -/
def bindings : List (Queue × String × Exchange) :=
  [(.work, "evaluate", .main), (.retry, "retry", .retry), (.dead, "dead", .dead)]

/-- `x-dead-letter-exchange` and `x-dead-letter-routing-key` of a queue. -/
def deadLetterArgs : Queue → Option (Exchange × String)
  | .work => some (.dead, "dead")
  | .retry => some (.main, "evaluate")
  | .dead => none

/-- The queue that a direct exchange sends a routing key to. -/
def route (exchange : Exchange) (key : String) : Option Queue :=
  (bindings.find? fun binding => binding.2.1 == key && binding.2.2 == exchange).map Prod.fst

/-- Where a queue's rejected and expired messages go. -/
def deadLetterQueue (q : Queue) : Option Queue :=
  (deadLetterArgs q).bind fun args => route args.1 args.2

-- every message that is published, rejected or expires has a queue to go to
example : route .main "evaluate" = some .work ∧ route .retry "retry" = some .retry
    ∧ deadLetterQueue .work = some .dead ∧ deadLetterQueue .retry = some .work := by
  decide

/-! ## Commands and the broker -/

/-- The executable command. -/
structure Job where
  jobID : String
  tenantID : String
  executionID : String
  jobType : String
  correlationID : String
  attempt : Int := 0
deriving DecidableEq, Repr

/-- `job.Attempt++` on the worker's copy. -/
def Job.next (job : Job) : Job := { job with attempt := job.attempt + 1 }

structure Broker where
  messages : Lib.Broker Queue Job := .empty
  accepted : List Job := []
  confirmed : List Job := []

/-- How a publication ends. -/
inductive Publication where
  | confirmed
  /-- the broker has the message, the publisher gets an error -/
  | unconfirmed (err : GoError)
  | refused (err : GoError)

namespace Broker

/-- The broker takes a message from a publisher. -/
def accept (b : Broker) (exchange : Exchange) (key : String) (job : Job) : Broker :=
  match route exchange key with
  | none => b
  | some q => { b with
      messages := b.messages.publish q job
      accepted := b.accepted ++ [job] }

/-- `Manager.Publish`, when it receives the confirmation of its own message. -/
def publish (b : Broker) (publication : Publication) (job : Job) (retry : Bool) :
    Except GoError Unit × Broker :=
  let accepted := if retry then b.accept .retry "retry" job else b.accept .main "evaluate" job
  match publication with
  | .refused err => (.error err, b)
  | .unconfirmed err => (.error err, accepted)
  | .confirmed => (.ok (), { accepted with confirmed := accepted.confirmed ++ [job] })

/-- `delivery.Ack(false)`. -/
def ack (b : Broker) (tag : Nat) : Broker :=
  { b with messages := b.messages.remove (.delivered tag) }

/-- `delivery.Nack(false, requeue)`. -/
def nack (b : Broker) (tag : Nat) (requeue : Bool) : Broker :=
  if requeue then { b with messages := b.messages.move (.delivered tag) .work }
  else
    match deadLetterQueue .work with
    | none => b.ack tag
    | some q => { b with messages := b.messages.move (.delivered tag) q }

/-- A message of the retry queue reaches its time to live. -/
def expire (b : Broker) (i : Nat) : Broker :=
  match deadLetterQueue .retry with
  | none => { b with messages := b.messages.remove (.queued .retry i) }
  | some q => { b with messages := b.messages.move (.queued .retry i) q }

/-- The queue of new commands and of retries. -/
def target (retry : Bool) : Queue := if retry then .retry else .work

/-- How a publication changes the broker. -/
inductive Published (b : Broker) (job : Job) (retry : Bool) : Except GoError Unit → Broker → Prop
  | refused (err : GoError) : Published b job retry (.error err) b
  | unconfirmed (err : GoError) : Published b job retry (.error err) { b with
      messages := b.messages.publish (target retry) job
      accepted := b.accepted ++ [job] }
  | confirmed : Published b job retry (.ok ()) {
      messages := b.messages.publish (target retry) job
      accepted := b.accepted ++ [job]
      confirmed := b.confirmed ++ [job] }

theorem publish_published (b : Broker) (publication : Publication) (job : Job) (retry : Bool) :
    Published b job retry (b.publish publication job retry).1
      (b.publish publication job retry).2 := by
  have haccept : (if retry then b.accept .retry "retry" job else b.accept .main "evaluate" job)
      = { b with
          messages := b.messages.publish (target retry) job
          accepted := b.accepted ++ [job] } := by
    cases retry <;> rfl
  unfold publish
  rw [haccept]
  cases publication with
  | confirmed => exact .confirmed
  | unconfirmed err => exact .unconfirmed err
  | refused err => exact .refused err

theorem published_of_eq {b b' : Broker} {publication : Publication} {job : Job} {retry : Bool}
    {r : Except GoError Unit} (h : b.publish publication job retry = (r, b')) :
    Published b job retry r b' := by
  have hpublished := b.publish_published publication job retry
  rw [h] at hpublished
  exact hpublished

theorem nack_eq (b : Broker) (tag : Nat) (requeue : Bool) :
    b.nack tag requeue = { b with
      messages := b.messages.move (.delivered tag) (if requeue then .work else .dead) } := by
  cases requeue <;> rfl

end Broker

/-! ## Workers -/

structure Worker where
  evaluators : List Evaluator
  maxAttempts : Int

def newWorker (evaluators : List Evaluator) (maxAttempts : Int) : Worker where
  evaluators := evaluators
  maxAttempts := if maxAttempts ≤ 0 then 3 else maxAttempts

theorem newWorker_maxAttempts_pos (evaluators : List Evaluator) (maxAttempts : Int) :
    0 < (newWorker evaluators maxAttempts).maxAttempts := by
  unfold newWorker
  dsimp only
  split <;> omega

/-- What a step reads from outside. -/
structure Env where
  info : Info
  fault : Option Fault := none
  publication : Publication := .confirmed
  /-- whether the broker gets the acknowledgement -/
  settles : Bool := true
  /-- what `time.Since` measures in each evaluator -/
  durations : Nat → Int := fun _ => 0
  /-- the bytes that `rand.Read` returns -/
  random : Fin 16 → UInt8 := fun _ => 0

/-- A call to the store, as its caller sees it. -/
def perform (call : Call) (env : Env) (db : Db) : Except GoError call.Result × Db :=
  match env.fault with
  | none => store call env.info db
  | some (.refused err) => (.error err, db)
  | some (.unacknowledged err) => (.error err, (store call env.info db).2)

/-- What `process` does next. -/
inductive Stage where
  /-- `MarkEvaluationRunning` -/
  | received
  /-- `LoadInput` -/
  | loading
  /-- `CompleteEvaluation` -/
  | completing (results : List Result)
  /-- `Ack` -/
  | acknowledging
  /-- `FailEvaluation`, permanently -/
  | burying (category : String)
  /-- `Nack` without requeue -/
  | rejecting
  /-- `Publish` to the retry queue -/
  | republishing (category : String)
  /-- `Nack` with requeue -/
  | requeueing
  /-- `FailEvaluation`, for now -/
  | recording (category : String)
  /-- `process` has returned, or its worker has died -/
  | finished

/-- A delivery and how far `process` is with it. -/
structure Handler where
  job : Job
  stage : Stage := .received

namespace Worker

/-- `retry`, up to its first call. -/
def retry (worker : Worker) (job : Job) (category : String) : Stage :=
  if worker.maxAttempts ≤ job.next.attempt then .burying category else .republishing category

/-- The loop over the evaluators. -/
def evaluate (worker : Worker) (input : Input) (durations : Nat → Int) : List Result :=
  worker.evaluators.zipIdx.map fun entry => entry.1 input (durations entry.2)

/-- `process` and `retry` up to the next call. -/
def process (worker : Worker) (env : Env) (tag : Nat) (job : Job) (db : Db) (broker : Broker) :
    Stage → Stage × Db × Broker
  | .received =>
      -- a command without one of its identifiers is not retried
      if job.jobID = "" ∨ job.tenantID = "" ∨ job.executionID = "" then (.rejecting, db, broker)
      else
        match perform (.markEvaluationRunning job.tenantID job.jobID) env db with
        | (.ok _, db) => (.loading, db, broker)
        | (.error _, db) => (worker.retry job "database_transient", db, broker)
  | .loading =>
      match perform (.loadInput job.tenantID job.jobID) env db with
      | (.ok input, db) => (.completing (worker.evaluate input env.durations), db, broker)
      | (.error _, db) => (worker.retry job "evaluation_source", db, broker)
  | .completing results =>
      match perform (.completeEvaluation job.tenantID job.jobID job.executionID results) env
          db with
      | (.ok _, db) => (.acknowledging, db, broker)
      | (.error _, db) => (worker.retry job "database_transient", db, broker)
  | .acknowledging => (.finished, db, if env.settles then broker.ack tag else broker)
  | .burying category =>
      -- the command is rejected whether or not the failure was stored
      (.rejecting, (perform (.failEvaluation job.tenantID job.jobID category true) env db).2,
        broker)
  | .rejecting => (.finished, db, if env.settles then broker.nack tag false else broker)
  | .republishing category =>
      match broker.publish env.publication job.next true with
      | (.ok _, broker) => (.recording category, db, broker)
      | (.error _, broker) => (.requeueing, db, broker)
  | .requeueing => (.finished, db, if env.settles then broker.nack tag true else broker)
  | .recording category =>
      -- here too the error of `FailEvaluation` is dropped
      (.acknowledging, (perform (.failEvaluation job.tenantID job.jobID category false) env db).2,
        broker)
  | .finished => (.finished, db, broker)

end Worker

end Aegis.RabbitMQ
