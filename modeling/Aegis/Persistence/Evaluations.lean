/-
  Aegis.Persistence.Evaluations

  Evaluation jobs and results in PostgreSQL (internal/persistence/evaluation.go,
  migrations/).

  The evaluation tables stand next to those of Aegis.Persistence.Schema.  The
  foreign key from results to jobs is a field of the database, so a result
  without a job cannot be stored.  An operation is a `Call`, as in
  Aegis.Persistence.Store; `CreateOrGetEvaluation` is not one transaction but
  three statements, and each of them is a call of its own.

  `MarkEvaluationQueued` and `MarkEvaluationRunning` name the statuses they
  accept.  `CompleteEvaluation` and `FailEvaluation` name none.
-/

import Aegis.Evaluation
import Aegis.Persistence.Postgres

namespace Aegis.Persistence.Evaluations

open Aegis.Evaluation (Input Outcome Result millisecond milliseconds)
open Aegis.Lib (Table)
open Aegis.Request (Json)

/-! ## Tables -/

/-- `evaluation_status`. -/
inductive Status where
  | pending
  | queued
  | running
  | completed
  | failed
  | deadLettered
deriving DecidableEq, Repr

/-- A row of `evaluation_jobs`. -/
structure JobRow where
  id : String
  tenantID : String
  requestID : String
  idempotencyKey : String
  canonicalRequestHash : List UInt8
  jobType : String
  status : Status := .pending
  attemptCount : Nat := 0
  correlationID : String
  parameters : Json
  requestedAt : Time
  startedAt : Option Time := none
  completedAt : Option Time := none
  lastErrorCategory : Option String := none

/-- The primary key or the unique constraint of `evaluation_jobs`. -/
def JobRow.Clash (a b : String × String × String) : Prop :=
  a.1 = b.1 ∨ a.2 = b.2

instance : DecidableRel JobRow.Clash := fun _ _ => inferInstanceAs (Decidable (_ ∨ _))

def JobRow.key (j : JobRow) : String × String × String := (j.id, j.tenantID, j.idempotencyKey)

/-- A row of `evaluation_results`. -/
structure ResultRow where
  id : String
  jobID : String
  tenantID : String
  executionID : String
  evaluatorVersion : String
  scoreMilli : Nat
  outcome : Outcome
  durationMS : Nat
  resultPayload : List Result
  createdAt : Time

/-- The unique constraints of `evaluation_results`: the row, the job and the
    execution. -/
def ResultRow.Clash (a b : String × String × String) : Prop :=
  a.1 = b.1 ∨ a.2.1 = b.2.1 ∨ a.2.2 = b.2.2

instance : DecidableRel ResultRow.Clash := fun _ _ => inferInstanceAs (Decidable (_ ∨ _ ∨ _))

def ResultRow.key (r : ResultRow) : String × String × String := (r.id, r.jobID, r.executionID)

structure Db where
  platform : Persistence.Db
  jobs : Table JobRow.key JobRow.Clash
  results : Table ResultRow.key ResultRow.Clash
  jobs_of_results : ∀ r ∈ results.rows, ∃ j ∈ jobs.rows, j.id = r.jobID

namespace Db

/-- The platform's database before the first evaluation. -/
def init (platform : Persistence.Db) : Db where
  platform
  jobs := Table.empty
  results := Table.empty
  jobs_of_results := fun _ h => (nomatch h)

def job? (db : Db) (id : String) : Option JobRow := db.jobs.rows.find? fun j => j.id == id

def result? (db : Db) (jobID : String) : Option ResultRow :=
  db.results.rows.find? fun r => r.jobID == jobID

/-- `UPDATE evaluation_jobs SET set WHERE tenant_id=$1 AND id=$2 AND status`. -/
def jobGuard (tenantID jobID : String) (status : Status → Bool) (j : JobRow) : Bool :=
  j.tenantID == tenantID && j.id == jobID && status j.status

def updateJob (db : Db) (tenantID jobID : String) (status : Status → Bool)
    (set : JobRow → JobRow) (hset : ∀ j, (set j).key = j.key) : Db :=
  { db with
    jobs := db.jobs.updateWhere (jobGuard tenantID jobID status) set hset
    jobs_of_results := by
      intro r hr
      obtain ⟨j, hj, hid⟩ := db.jobs_of_results r hr
      refine ⟨_, List.mem_map_of_mem hj, ?_⟩
      split
      · exact (congrArg Prod.fst (hset j)).trans hid
      · exact hid }

/-- `INSERT INTO evaluation_jobs`. -/
def insertJob (db : Db) (row : JobRow) : Except GoError Db :=
  match h : db.jobs.insert? row with
  | none => .error (violation "evaluation_jobs_pkey")
  | some jobs =>
      .ok { db with
        jobs
        jobs_of_results := by
          intro r hr
          obtain ⟨j, hj, hid⟩ := db.jobs_of_results r hr
          refine ⟨j, ?_, hid⟩
          rw [(Table.insert?_eq_some h).2]
          exact List.mem_append_left _ hj }

/-- `INSERT INTO evaluation_results`. -/
def insertResult (db : Db) (row : ResultRow) : Except GoError Db :=
  match h : db.results.insert? row with
  | none => .error (violation "evaluation_results_execution_id_key")
  | some results =>
      if hjob : ∃ j ∈ db.jobs.rows, j.id = row.jobID then
        .ok { db with
          results
          jobs_of_results := by
            intro r hr
            rw [(Table.insert?_eq_some h).2] at hr
            rcases List.mem_append.mp hr with hr | hr
            · exact db.jobs_of_results r hr
            · rw [List.mem_singleton.mp hr]
              exact hjob }
      else .error (violation "evaluation_results_evaluation_job_id_fkey")

end Db

/-! ## The assignments of the updates -/

namespace JobRow

def queued (j : JobRow) : JobRow := { j with status := .queued }

def running (now : Time) (j : JobRow) : JobRow :=
  { j with
    status := .running, startedAt := some (j.startedAt.getD now)
    attemptCount := j.attemptCount + 1 }

def completed (now : Time) (j : JobRow) : JobRow :=
  { j with status := .completed, completedAt := some now, lastErrorCategory := none }

def failed (category : String) (permanent : Bool) (now : Time) (j : JobRow) : JobRow :=
  { j with
    status := if permanent then .deadLettered else .failed
    lastErrorCategory := some category
    completedAt := if permanent then some now else j.completedAt }

end JobRow

/-! ## Operations -/

/-- A tenant-owned executable evaluation request. -/
structure EvaluationJob where
  id : String
  tenantID : String
  requestID : String
  idempotencyKey : String
  canonicalHash : List UInt8
  jobType : String
  status : Status
  attemptCount : Nat
  correlationID : String
  parameters : Json
  requestedAt : Time
  startedAt : Option Time
  completedAt : Option Time
  lastErrorCategory : String
  /-- `none` for the `'{}'` of a job without result -/
  result : Option (List Result)

/-- Establishes tenant idempotency before broker publication. -/
structure CreateEvaluationParams where
  tenantID : String
  requestID : String
  idempotencyKey : String
  canonicalHash : List UInt8
  jobType : String
  correlationID : String
  parameters : Json

def JobRow.toJob (j : JobRow) (result : Option ResultRow) : EvaluationJob where
  id := j.id
  tenantID := j.tenantID
  requestID := j.requestID
  idempotencyKey := j.idempotencyKey
  canonicalHash := j.canonicalRequestHash
  jobType := j.jobType
  status := j.status
  attemptCount := j.attemptCount
  correlationID := j.correlationID
  parameters := j.parameters
  requestedAt := j.requestedAt
  startedAt := j.startedAt
  completedAt := j.completedAt
  lastErrorCategory := j.lastErrorCategory.getD ""
  result := result.map ResultRow.resultPayload

abbrev Tx (α : Type) := Db → Except GoError (α × Db)

/-- Commit a transaction that succeeds, roll back one that fails. -/
def transact {α : Type} (tx : Tx α) (db : Db) : Except GoError α × Db :=
  match tx db with
  | .ok (result, db') => (.ok result, db')
  | .error err => (.error err, db)

def newJob (params : CreateEvaluationParams) (info : Info) : JobRow where
  id := info.ids 0
  tenantID := params.tenantID
  requestID := params.requestID
  idempotencyKey := params.idempotencyKey
  canonicalRequestHash := params.canonicalHash
  jobType := params.jobType
  correlationID := params.correlationID
  parameters := params.parameters
  requestedAt := info.dbNow

/-- The first statement of `CreateOrGetEvaluation`: `INSERT ... SELECT ... ON
    CONFLICT DO NOTHING RETURNING id`.  It returns no row when the tenant has no
    such completed request or has used the key. -/
def insertEvaluation (params : CreateEvaluationParams) (info : Info) : Tx (Option String) :=
  fun db =>
    if db.platform.requests.rows.any fun r =>
        r.id == params.requestID && r.tenantID == params.tenantID && r.status == .completed then
      if db.jobs.rows.any fun j =>
          j.tenantID == params.tenantID && j.idempotencyKey == params.idempotencyKey then
        .ok (none, db)
      else
        wrapErr "create evaluation job" do
          require "evaluation_jobs_tenant_id_fkey" (db.platform.hasTenant params.tenantID)
          let db ← db.insertJob (newJob params info)
          return (some (info.ids 0), db)
    else .ok (none, db)

/-- Its second statement, after an insert without a row. -/
def findEvaluation (tenantID idempotencyKey : String) : Tx String :=
  fun db =>
    match db.jobs.rows.find? fun j =>
        j.tenantID == tenantID && j.idempotencyKey == idempotencyKey with
    | none => .error (.ofSentinel .errNotFound)
    | some j => .ok (j.id, db)

def getEvaluation (tenantID evaluationID : String) : Tx EvaluationJob :=
  fun db =>
    match db.jobs.rows.find? fun j => j.tenantID == tenantID && j.id == evaluationID with
    | none => .error (.ofSentinel .errNotFound)
    | some j => .ok (j.toJob (db.result? j.id), db)

def markEvaluationQueued (tenantID jobID : String) : Tx Unit :=
  fun db => .ok ((), db.updateJob tenantID jobID
    (fun s => [Status.pending, .failed].contains s) .queued (fun _ => rfl))

/-- The statuses that `MarkEvaluationRunning` names. -/
def startable (status : Status) : Bool :=
  [Status.pending, .queued, .running, .failed].contains status

/-- `attempt_count` is an `INTEGER`. -/
def markEvaluationRunning (tenantID jobID : String) (info : Info) : Tx Unit :=
  fun db => do
    require "integer out of range" (!db.jobs.rows.any fun j =>
      Db.jobGuard tenantID jobID startable j && decide (2 ^ 31 ≤ j.attemptCount + 1))
    return ((), db.updateJob tenantID jobID startable (.running info.dbNow) (fun _ => rfl))

/-! ## Loading the input -/

/-- The fields that `LoadEvaluationInput` decodes from a job's parameters. -/
structure Parameters where
  requestedFormat : String := ""
  blockedTerms : List String := []
  maxProviderMS : Int := 0
  maxTotalMS : Int := 0
  maxTokens : Int := 0
  maxCostMicroUSD : Int := 0
deriving DecidableEq, Repr

/-- `json.Unmarshal` matches names up to case; besides the ASCII letters, `ſ` and
    the Kelvin sign fold to one. -/
def foldName (name : String) : List Char :=
  name.toList.map fun c =>
    if c = 'ſ' then 's' else if c = 'K' then 'k' else c.toLower

/-- Decode into an `int64` field.  A null, a fraction or a value of another type
    leaves it as it is; the error is ignored. -/
def decodeInt (old : Int) (value : Json) : Int :=
  match value, Events.decodeInt64 (some value) with
  | .null, _ => old
  | _, .ok decoded => decoded
  | _, .error _ => old

def Parameters.decodeMember (p : Parameters) (entry : String × Json) : Parameters :=
  let named (field : String) : Bool := foldName entry.1 == foldName field
  if named "requested_format" then
    match entry.2 with
    | .str format => { p with requestedFormat := format }
    | _ => p
  else if named "blocked_terms" then
    match entry.2 with
    | .null => { p with blockedTerms := [] }
    | .arr items =>
        { p with blockedTerms := items.map fun
          | .str term => term
          | _ => "" }
    | _ => p
  else if named "max_provider_latency_ms" then
    { p with maxProviderMS := decodeInt p.maxProviderMS entry.2 }
  else if named "max_total_latency_ms" then
    { p with maxTotalMS := decodeInt p.maxTotalMS entry.2 }
  else if named "max_tokens" then { p with maxTokens := decodeInt p.maxTokens entry.2 }
  else if named "max_cost_micro_usd" then
    { p with maxCostMicroUSD := decodeInt p.maxCostMicroUSD entry.2 }
  else p

def decodeParameters : Json → Parameters
  | .obj members => members.foldl Parameters.decodeMember {}
  | _ => {}

/-- `(EXTRACT(EPOCH FROM interval)*1000)::bigint`: milliseconds, rounded half
    away from zero. -/
def epochMillis (micros : Int) : Int :=
  if 0 ≤ micros then (micros + 500) / 1000 else -((-micros + 500) / 1000)

/-- `MAX(latency_ms)` over the succeeded attempts. -/
def providerLatencyMS (db : Persistence.Db) (requestID : String) : Nat :=
  ((db.attemptsOf requestID).filter fun a => a.status == .succeeded).foldl
    (fun latency a => max latency (a.latencyMS.getD 0)) 0

/-- The error of a query that finds no row. -/
def errNoRows : GoError := .new "no rows in result set"

/-- The second statement of `LoadEvaluationInput`. -/
def loadSource (db : Persistence.Db) (tenantID requestID : String) : Except GoError Input :=
  match db.requests.rows.find? fun r =>
      r.tenantID == tenantID && r.id == requestID && r.status == .completed with
  | none => .error (.wrap "load evaluation source" errNoRows)
  | some row =>
      match row.completedAt, row.responseBody.bind fun response => response.choices.head? with
      | none, _ => .error (.wrap "load evaluation source" (.new "cannot scan NULL into *int64"))
      | some _, none => .error (.new "stored response is malformed")
      | some completedAt, some choice => .ok {
          response := choice.message.content
          promptTokens := row.promptTokens.getD 0
          completionTokens := row.completionTokens.getD 0
          costMicroUSD := row.actualCostMicroUSD.getD 0
          totalLatency := milliseconds (epochMillis (completedAt - row.createdAt))
          providerLatency := milliseconds (providerLatencyMS db row.id) }

/-- `LoadEvaluationInput`.  Both statements read rows that no longer change. -/
def loadInput (tenantID jobID : String) : Tx Input :=
  fun db => do
    let (job, db) ← getEvaluation tenantID jobID db
    let input ← loadSource db.platform tenantID job.requestID
    let parameters := decodeParameters job.parameters
    return ({ input with
      requestedFormat := parameters.requestedFormat
      blockedTerms := parameters.blockedTerms
      maxProviderLatency := milliseconds parameters.maxProviderMS
      maxTotalLatency := milliseconds parameters.maxTotalMS
      maxTokens := parameters.maxTokens
      maxCostMicroUSD := parameters.maxCostMicroUSD }, db)

/-! ## Recording the outcome -/

/-- The totals that `CompleteEvaluation` stores. -/
structure Summary where
  score : Int
  duration : Int
  status : Outcome
deriving DecidableEq, Repr

/-- Its loop over the results. -/
def Summary.add (summary : Summary) (result : Result) : Summary where
  score := wrap64 (summary.score + result.scoreMilli)
  -- `Duration.Milliseconds`
  duration := wrap64 (summary.duration + result.duration.tdiv millisecond)
  status := if result.status = .fail then .fail else summary.status

def summarize (results : List Result) : Summary :=
  let total := results.foldl Summary.add ⟨0, 0, .pass⟩
  if 0 < results.length then { total with score := total.score.tdiv results.length } else total

/-- `CHECK (score_milli BETWEEN 0 AND 1000)`. -/
def checkScore (score : Int) : Except GoError Nat := do
  require "evaluation_results_score_milli_check" (decide (0 ≤ score ∧ score ≤ 1000))
  return score.toNat

/-- `INSERT INTO evaluation_results ... ON CONFLICT (evaluation_job_id) DO NOTHING`.
    The checks come before the conflict. -/
def persistResult (tenantID jobID executionID : String) (results : List Result) (info : Info)
    (db : Db) : Except GoError Db :=
  wrapErr "persist evaluation result" do
    let summary := summarize results
    let scoreMilli ← checkScore summary.score
    let durationMS ← checkNonneg "evaluation_results_duration_ms_check" summary.duration
    -- `ON CONFLICT (evaluation_job_id) DO NOTHING`, after the CHECK constraints
    if (db.result? jobID).isSome then return db
    require "evaluation_results_tenant_id_fkey" (db.platform.hasTenant tenantID)
    db.insertResult {
      id := info.ids 0, jobID, tenantID, executionID, evaluatorVersion := "suite-1.0.0"
      scoreMilli, outcome := summary.status, durationMS, resultPayload := results
      createdAt := info.dbNow }

/-- `insertOutbox` in a transaction on the evaluation tables. -/
def recordFact (row : OutboxRow) (db : Db) : Except GoError Db := do
  let platform ← insertOutbox row db.platform
  return { db with platform }

/-- The payload of EvaluationComplete. -/
def completePayload (jobID : String) (status : Outcome) (score : Int) : Json :=
  .obj [("evaluation_id", .str jobID), ("status", .str status.text), ("score_milli", .num score)]

def completeEvaluation (tenantID jobID executionID : String) (results : List Result)
    (info : Info) : Tx Unit :=
  fun db => do
    let summary := summarize results
    let db ← persistResult tenantID jobID executionID results info db
    let db := db.updateJob tenantID jobID (fun _ => true) (.completed info.dbNow) (fun _ => rfl)
    -- also when the result was there already
    let db ← recordFact (outboxRow info 1 .evaluationComplete jobID tenantID jobID
      (completePayload jobID summary.status summary.score)) db
    return ((), db)

def failEvaluation (tenantID jobID category : String) (permanent : Bool) (info : Info) :
    Tx Unit :=
  fun db =>
    match db.jobs.rows.find? fun j => j.id == jobID && j.tenantID == tenantID with
    | none => .error errNoRows
    | some job => do
        -- the update does not ask for the status
        let db := db.updateJob tenantID jobID (fun _ => true)
          (.failed category permanent info.dbNow) (fun _ => rfl)
        if permanent then
          let db ← recordFact (outboxRow info 0 .evaluationFailed jobID tenantID
            job.correlationID (.obj [("evaluation_id", .str jobID),
              ("error_category", .str category)])) db
          return ((), db)
        else return ((), db)

/-! ## The store -/

/-- A call of one of the operations. -/
inductive Call where
  | insertEvaluation (params : CreateEvaluationParams)
  | findEvaluation (tenantID idempotencyKey : String)
  | getEvaluation (tenantID evaluationID : String)
  | markEvaluationQueued (tenantID jobID : String)
  | markEvaluationRunning (tenantID jobID : String)
  | loadInput (tenantID jobID : String)
  | completeEvaluation (tenantID jobID executionID : String) (results : List Result)
  | failEvaluation (tenantID jobID category : String) (permanent : Bool)

/-- What a successful call returns besides a nil error. -/
abbrev Call.Result : Call → Type
  | .insertEvaluation _ => Option String
  | .findEvaluation _ _ => String
  | .getEvaluation _ _ => EvaluationJob
  | .loadInput _ _ => Input
  | _ => Unit

/-- The evaluation operations of the production store. -/
def store : (call : Call) → Info → Db → Except GoError call.Result × Db
  | .insertEvaluation params, info => transact (insertEvaluation params info)
  | .findEvaluation tenantID idempotencyKey, _ =>
      transact (findEvaluation tenantID idempotencyKey)
  | .getEvaluation tenantID evaluationID, _ => transact (getEvaluation tenantID evaluationID)
  | .markEvaluationQueued tenantID jobID, _ => transact (markEvaluationQueued tenantID jobID)
  | .markEvaluationRunning tenantID jobID, info =>
      transact (markEvaluationRunning tenantID jobID info)
  | .loadInput tenantID jobID, _ => transact (loadInput tenantID jobID)
  | .completeEvaluation tenantID jobID executionID results, info =>
      transact (completeEvaluation tenantID jobID executionID results info)
  | .failEvaluation tenantID jobID category permanent, info =>
      transact (failEvaluation tenantID jobID category permanent info)

end Aegis.Persistence.Evaluations
