/-
  Aegis.EvaluationJob

  Job records and their publication (internal/evaluationjob/service.go).

  `Submit` and `Retry` are cut at their calls to the store and the broker, like
  the worker.  `CreateOrGetEvaluation` takes two or three steps: the insert, the
  lookup of the key when nothing was inserted, and the read of the job.
-/

import Aegis.RabbitMQ

namespace Aegis.EvaluationJob

open Aegis.Persistence.Evaluations (Call CreateEvaluationParams Db EvaluationJob Status)
open Aegis.RabbitMQ (Broker Env Job perform)
open Aegis.Request (Json)

/-! ## Execution identifiers -/

def hexDigit (n : UInt8) : Char := (Nat.digitChar n.toNat)

/-- `hex.EncodeToString`. -/
def hexEncode (bytes : List UInt8) : String :=
  String.ofList (bytes.flatMap fun b => [hexDigit (b / 16), hexDigit (b % 16)])

def executionID (random : Fin 16 → UInt8) : String := hexEncode (List.ofFn random)

theorem executionID_ne_empty (random : Fin 16 → UInt8) : executionID random ≠ "" := by
  simp [executionID, hexEncode, List.ofFn_succ]

/-! ## Calls of the API -/

/-- The supported evaluation request.  A nil map of parameters is null. -/
structure SubmitInput where
  requestID : String
  jobType : String
  parameters : Json

def errNotRetryable : GoError := .new "evaluation job is not retryable"

inductive Entry where
  | submit (tenantID idempotencyKey correlationID : String) (input : SubmitInput)
  | retry (tenantID id correlationID : String)

def Entry.tenantID : Entry → String
  | .submit tenantID _ _ _ => tenantID
  | .retry tenantID _ _ => tenantID

def Entry.correlationID : Entry → String
  | .submit _ _ correlationID _ => correlationID
  | .retry _ _ correlationID => correlationID

def Entry.isSubmit : Entry → Bool
  | .submit .. => true
  | .retry .. => false

/-- What `Submit` and `Retry` return; a `none` job is the zero value, and
    `Retry` has no `created`. -/
structure Response where
  job : Option EvaluationJob
  created : Bool
  err : Option GoError

/-- What the call does next. -/
inductive Stage where
  /-- the insert of `Submit`, the `GetEvaluation` of `Retry` -/
  | opened
  /-- the lookup of the key -/
  | finding (hash : List UInt8)
  /-- `GetEvaluation` -/
  | reading (hash : List UInt8) (id : String) (created : Bool)
  /-- `Publish` -/
  | publishing (job : EvaluationJob)
  /-- `MarkEvaluationQueued` -/
  | queueing (job : EvaluationJob)
  | returned (response : Response)

/-- A call of `Submit` or `Retry` and how far it is. -/
structure Invocation where
  entry : Entry
  stage : Stage := .opened

/-- The SHA-256 of the encoded input. -/
abbrev Hash := SubmitInput → Except GoError (List UInt8)

namespace Entry

/-- The command that is published for a job. -/
def command (entry : Entry) (job : EvaluationJob) (env : Env) : Job where
  jobID := job.id
  tenantID := entry.tenantID
  executionID := executionID env.random
  jobType := job.jobType
  correlationID := entry.correlationID

/-- The response when `Publish` or `MarkEvaluationQueued` fails. -/
def failure (entry : Entry) (job : EvaluationJob) (message : String) (err : GoError) : Response :=
  match entry with
  | .submit .. => ⟨some job, true, some (.wrap message err)⟩
  | .retry .. => ⟨none, false, some err⟩

/-- The parameters of the insert, with the canonical hash. -/
def createParams (tenantID idempotencyKey correlationID : String) (input : SubmitInput)
    (hash : List UInt8) : CreateEvaluationParams where
  tenantID := tenantID
  requestID := input.requestID
  idempotencyKey := idempotencyKey
  canonicalHash := hash
  jobType := input.jobType
  correlationID := correlationID
  parameters := input.parameters

/-- `Submit` and `Retry` up to the next call. -/
def step (hash : Hash) (env : Env) (entry : Entry) (db : Db) (broker : Broker) :
    Stage → Stage × Db × Broker
  | .opened =>
      match entry with
      | .submit tenantID idempotencyKey correlationID input =>
          if input.requestID = "" ∨ input.jobType = "" then
            (.returned ⟨none, false, some (.new "request_id and job_type are required")⟩,
              db, broker)
          else
            match hash input with
            | .error err => (.returned ⟨none, false, some err⟩, db, broker)
            | .ok canonical =>
                match perform (.insertEvaluation (createParams tenantID idempotencyKey
                    correlationID input canonical)) env db with
                | (.ok (some id), db) => (.reading canonical id true, db, broker)
                | (.ok none, db) => (.finding canonical, db, broker)
                | (.error err, db) => (.returned ⟨none, false, some err⟩, db, broker)
      | .retry tenantID id _ =>
          match perform (.getEvaluation tenantID id) env db with
          | (.error err, db) => (.returned ⟨none, false, some err⟩, db, broker)
          | (.ok job, db) =>
              -- the status may change before the command is published
              if [Status.failed, .deadLettered, .pending].contains job.status then
                (.publishing job, db, broker)
              else (.returned ⟨none, false, some errNotRetryable⟩, db, broker)
  | .finding canonical =>
      match entry with
      | .retry .. => (.finding canonical, db, broker)
      | .submit tenantID idempotencyKey _ _ =>
          match perform (.findEvaluation tenantID idempotencyKey) env db with
          | (.ok id, db) => (.reading canonical id false, db, broker)
          | (.error err, db) => (.returned ⟨none, false, some err⟩, db, broker)
  | .reading canonical id created =>
      match perform (.getEvaluation entry.tenantID id) env db with
      | (.error err, db) => (.returned ⟨none, false, some err⟩, db, broker)
      | (.ok job, db) =>
          if created then (.publishing job, db, broker)
          -- a repeat returns the job as it is; nothing is published for it
          else if job.canonicalHash ≠ canonical then
            (.returned ⟨none, false, some (.ofSentinel .errConflict)⟩, db, broker)
          else (.returned ⟨some job, false, none⟩, db, broker)
  | .publishing job =>
      match broker.publish env.publication (entry.command job env) false with
      | (.error err, broker) =>
          (.returned (entry.failure job "publish evaluation command" err), db, broker)
      | (.ok _, broker) => (.queueing job, db, broker)
  | .queueing job =>
      match perform (.markEvaluationQueued entry.tenantID job.id) env db with
      | (.error err, db) =>
          (.returned (entry.failure job "mark evaluation queued" err), db, broker)
      | (.ok _, db) =>
          (.returned ⟨some { job with status := .queued }, entry.isSubmit, none⟩, db, broker)
  | .returned response => (.returned response, db, broker)

end Entry

end Aegis.EvaluationJob
