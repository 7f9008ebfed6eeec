/-
  Aegis.Persistence.Postgres

  The production store (internal/persistence/postgres.go, audit.go).  A
  transaction is a function from the database to a result and the database to
  commit; when it fails there is nothing to commit.  Single statements run as
  transactions of their own.

  The row locks and unique indexes of PostgreSQL make each of these
  transactions one step: `CreateOrGetRequest` waits for a concurrent insert of
  its key, `ReserveBudget` for the tenant's row of `tenant_limits`, and every
  guarded `UPDATE` for the row it tests.

  The transactions are written for texts that PostgreSQL can hold; `server`
  refuses the others.
-/

import Aegis.Budget
import Aegis.Persistence.Schema
import Aegis.Persistence.Store

namespace Aegis.Persistence

open Aegis.Events (Envelope EventType completionPayload decodeUsage)
open Aegis.Request (ChatResponse Json Record State transition)

/-! ## Transactions and statements -/

abbrev Tx (α : Type) := Db → Except GoError (α × Db)

/-- Commit a transaction that succeeds, roll back one that fails. -/
def transact {α : Type} (tx : Tx α) (db : Db) : Except GoError α × Db :=
  match tx db with
  | .ok (result, db') => (.ok result, db')
  | .error err => (.error err, db)

/-- The error of a statement that breaks a constraint. -/
def violation (name : String) : GoError := .new ("violates constraint " ++ name)

def require (name : String) (holds : Bool) : Except GoError Unit :=
  if holds then .ok () else .error (violation name)

/-- A value for a column with `CHECK (column >= 0)`. -/
def checkNonneg (column : String) (value : Int) : Except GoError Nat :=
  if 0 ≤ value then .ok value.toNat else .error (violation column)

/-- An `INSERT` that must not break a unique constraint. -/
def orViolation {α : Type} (name : String) : Option α → Except GoError α
  | some a => .ok a
  | none => .error (violation name)

/-- `fmt.Errorf("message: %w", err)` around a failing statement. -/
def wrapErr {α : Type} (message : String) : Except GoError α → Except GoError α
  | .ok a => .ok a
  | .error err => .error (.wrap message err)

namespace Db

def hasTenant (db : Db) (id : String) : Bool := db.catalog.tenants.rows.any fun t => t.id == id

def hasRequest (db : Db) (id : String) : Bool := db.requests.rows.any fun r => r.id == id

/-- The condition of the guarded updates of `ai_requests`. -/
def requestGuard (tenantID requestID : String) (status : State → Bool) (r : RequestRow) : Bool :=
  r.id == requestID && r.tenantID == tenantID && status r.status

/-- `RowsAffected` of a guarded update of `ai_requests`. -/
def requestsHit (db : Db) (tenantID requestID : String) (status : State → Bool) : Nat :=
  db.requests.rows.countP (requestGuard tenantID requestID status)

/-- A guarded update of `ai_requests`. -/
def updateRequest (db : Db) (tenantID requestID : String) (status : State → Bool)
    (set : RequestRow → RequestRow) (hset : ∀ r, (set r).key = r.key) : Db :=
  { db with requests :=
      db.requests.updateWhere (requestGuard tenantID requestID status) set hset }

/-- The condition of the updates of `provider_attempts`. -/
def attemptGuard (tenantID requestID : String) (number : Int) (a : AttemptRow) : Bool :=
  a.requestID == requestID && a.tenantID == tenantID && a.attemptNumber == number
    && a.status == .started

/-- An update of the started attempt `number`. -/
def updateAttempt (db : Db) (tenantID requestID : String) (number : Int)
    (set : AttemptRow → AttemptRow) (hset : ∀ a, (set a).key = a.key) : Db :=
  { db with attempts := db.attempts.updateWhere (attemptGuard tenantID requestID number) set hset }

end Db

/-- The row `insertOutbox` writes; `slot` numbers the identifiers generated in
    one call. -/
def outboxRow (info : Info) (slot : Nat) (eventType : EventType)
    (aggregateID tenantID correlationID : String) (payload : Json) : OutboxRow where
  fact := {
    id := info.ids slot, eventType, eventVersion := 1, aggregateID, tenantID, correlationID
    causationID := none, payload, occurredAt := info.dbNow, createdAt := info.dbNow }
  availableAt := info.dbNow

/-- `insertOutbox`. -/
def insertOutbox (row : OutboxRow) (db : Db) : Except GoError Db :=
  wrapErr "insert outbox event" do
    require "outbox_events_tenant_id_fkey" (db.hasTenant row.fact.tenantID)
    let outbox ← orViolation "outbox_events_pkey" (db.outbox.insert? row)
    return { db with outbox }

/-! ## The assignments of the updates -/

namespace RequestRow

def moved (target : State) (now : Time) (r : RequestRow) : RequestRow :=
  { r with status := target, updatedAt := now }

def completed (response : ChatResponse) (prompt completion cost : Nat) (now : Time)
    (r : RequestRow) : RequestRow :=
  { r with
    status := .completed, responseBody := some response, promptTokens := some prompt
    completionTokens := some completion, actualCostMicroUSD := some cost
    completedAt := some now, updatedAt := now }

def failed (category : String) (isPartial : Bool) (now : Time) (r : RequestRow) : RequestRow :=
  { r with
    status := .failed, failureCategory := some category, partialResponseStreamed := isPartial
    completedAt := some now, updatedAt := now }

def cancelled (now : Time) (r : RequestRow) : RequestRow :=
  { r with status := .cancelled, completedAt := some now, updatedAt := now }

def budgetRejected (now : Time) (r : RequestRow) : RequestRow :=
  { r with
    status := .budgetRejected, failureCategory := some "budget_exceeded"
    completedAt := some now, updatedAt := now }

end RequestRow

namespace AttemptRow

def succeeded (providerRequestID : String) (prompt completion cost latency : Nat) (now : Time)
    (a : AttemptRow) : AttemptRow :=
  { a with
    status := .succeeded, finishedAt := some now, providerRequestID := some providerRequestID
    promptTokens := some prompt, completionTokens := some completion
    costMicroUSD := some cost, latencyMS := some latency, retryable := some false }

def failed (category : String) (retryable : Bool) (latency : Nat) (now : Time)
    (a : AttemptRow) : AttemptRow :=
  { a with
    status := .failed, finishedAt := some now, errorCategory := some category
    retryable := some retryable, latencyMS := some latency }

end AttemptRow

/-- `released_micro_usd=GREATEST(reserved_micro_usd-$1,0)` is natural subtraction. -/
def ReservationRow.reconciled (actual : Nat) (now : Time) (r : ReservationRow) : ReservationRow :=
  { r with
    actualMicroUSD := some actual, releasedMicroUSD := some (r.reservedMicroUSD - actual)
    state := .reconciled, updatedAt := now }

/-! ## Creating and reading requests -/

/-- The model, when it is enabled and enabled for the tenant. -/
def authorizeModel (catalog : Catalog) (tenantID model : String) : Option Model :=
  catalog.models.rows.find? fun m =>
    m.publicName == model && m.enabled
      && catalog.modelPolicies.rows.any fun p =>
          p.modelID == m.id && p.tenantID == tenantID && p.enabled

/-- The record that a row of `ai_requests` joined with its model reads as. -/
def RequestRow.toRecord (r : RequestRow) (model : Model) : Record where
  id := r.id
  tenantID := r.tenantID
  apiKeyID := r.apiKeyID
  idempotencyKey := r.idempotencyKey
  canonicalHash := r.canonicalRequestHash
  model := model.publicName
  state := r.status
  stream := r.streamRequested
  partialStreamed := r.partialResponseStreamed
  response := r.responseBody
  failureCategory := r.failureCategory.getD ""
  correlationID := r.correlationID
  createdAt := r.createdAt
  updatedAt := r.updatedAt
  completedAt := r.completedAt
  promptTokens := r.promptTokens.getD 0
  completionTokens := r.completionTokens.getD 0
  costMicroUSD := r.actualCostMicroUSD.getD 0

/-- `queryRequest`. -/
def queryRequest (db : Db) (tenantID requestID : String) : Except GoError Record :=
  match db.requests.rows.find? fun r => r.tenantID == tenantID && r.id == requestID with
  | none => .error (.ofSentinel .errNotFound)
  | some row =>
      match db.catalog.models.rows.find? fun m => m.id == row.modelID with
      | none => .error (.ofSentinel .errNotFound)
      | some model => .ok (row.toRecord model)

namespace Postgres

/-- The row that `CreateOrGetRequest` inserts. -/
def newRequest (params : CreateRequestParams) (modelID : String) (info : Info) : RequestRow where
  id := info.ids 0
  tenantID := params.tenantID
  apiKeyID := params.apiKeyID
  userID := if params.userID = "" then none else some params.userID
  idempotencyKey := params.idempotencyKey
  canonicalRequestHash := params.canonicalHash
  modelID := modelID
  streamRequested := params.input.stream
  correlationID := params.correlationID
  createdAt := info.dbNow
  updatedAt := info.dbNow

/-- `INSERT INTO ai_requests`, once no row holds the tenant's key. -/
def insertRequest (params : CreateRequestParams) (modelID : String) (info : Info) (db : Db) :
    Except GoError Db :=
  wrapErr "insert logical request" do
    require "ai_requests_tenant_id_fkey" (db.hasTenant params.tenantID)
    require "ai_requests_api_key_id_fkey" (db.catalog.apiKeys.contains params.apiKeyID)
    require "ai_requests_user_id_fkey"
      (params.userID == "" || db.catalog.users.contains params.userID)
    let requests ← orViolation "ai_requests_pkey"
      (db.requests.insert? (newRequest params modelID info))
    return { db with requests }

def createOrGetRequest (params : CreateRequestParams) (info : Info) : Tx (Record × Bool) :=
  fun db =>
    match authorizeModel db.catalog params.tenantID params.input.model with
    | none => .error (.ofSentinel .errModelForbidden)
    | some model =>
        -- ON CONFLICT (tenant_id, idempotency_key) DO NOTHING
        match db.requests.rows.find? fun r =>
            r.tenantID == params.tenantID && r.idempotencyKey == params.idempotencyKey with
        | none => do
            let db ← insertRequest params model.id info db
            let record ← queryRequest db params.tenantID (info.ids 0)
            let db ← insertOutbox (outboxRow info 1 .requestAccepted record.id params.tenantID
              params.correlationID (.obj [("request_id", .str record.id),
                ("model", .str params.input.model), ("stream", .bool params.input.stream)])) db
            return ((record, true), db)
        | some existing => do
            let record ← queryRequest db params.tenantID existing.id
            if record.canonicalHash ≠ params.canonicalHash then
              throw (.ofSentinel .errConflict)
            return ((record, false), db)

def getRequest (tenantID requestID : String) : Tx Record :=
  fun db => do
    let record ← queryRequest db tenantID requestID
    return (record, db)

/-! ## Lifecycle -/

def transitionRequest (tenantID requestID : String) (source target : State) (info : Info) :
    Tx Unit :=
  fun db => do
    transition source target
    if db.requestsHit tenantID requestID (· == source) ≠ 1 then
      throw (.ofSentinel .errAlreadyFinal)
    return ((), db.updateRequest tenantID requestID (· == source)
      (.moved target info.dbNow) (fun _ => rfl))

def startAttempt (params : AttemptParams) (info : Info) : Tx Unit :=
  fun db =>
    -- the cross join has a row when both names are known, whatever their state
    match db.catalog.providers.rows.find? fun p => p.name == params.providerName,
        db.catalog.models.rows.find? fun m => m.publicName == params.model with
    | some provider, some model => do
        let attempts ← wrapErr "start provider attempt" do
          require "provider_attempts_request_id_fkey" (db.hasRequest params.requestID)
          require "provider_attempts_tenant_id_fkey" (db.hasTenant params.tenantID)
          require "provider_attempts_attempt_number_check"
            (decide (0 < params.number ∧ params.number < 2 ^ 31))
          orViolation "provider_attempts_request_id_attempt_number_key" (db.attempts.insert? {
            id := info.ids 0, requestID := params.requestID, tenantID := params.tenantID
            attemptNumber := params.number, providerID := provider.id, modelID := model.id
            startedAt := info.dbNow })
        let db ← insertOutbox (outboxRow info 1 .providerSelected params.requestID params.tenantID
          params.correlationID (.obj [("request_id", .str params.requestID),
            ("provider", .str params.providerName), ("model", .str params.model),
            ("attempt_number", .num params.number)])) { db with attempts }
        return ((), db)
    | _, _ => .error (.ofSentinel .errNotFound)

/-- The attempt's update in `CompleteRequest`; the checks apply to a row that
    is there. -/
def succeedAttempt (params : CompletionParams) (info : Info) (db : Db) : Except GoError Db :=
  if db.attempts.rows.any
      (Db.attemptGuard params.tenantID params.requestID params.attemptNumber) then
    wrapErr "complete provider attempt" do
      let prompt ← checkNonneg "prompt_tokens" params.response.usage.promptTokens
      let completion ← checkNonneg "completion_tokens" params.response.usage.completionTokens
      let cost ← checkNonneg "cost_micro_usd" params.costMicroUSD
      let latency ← checkNonneg "latency_ms" (Time.sinceMillis params.startedAt info.now)
      return db.updateAttempt params.tenantID params.requestID params.attemptNumber
        (.succeeded params.providerRequestID prompt completion cost latency info.dbNow)
        (fun _ => rfl)
  else .ok db

/-- The request's update in `CompleteRequest`. -/
def finalizeRequest (params : CompletionParams) (info : Info) (db : Db) : Except GoError Db := do
  if db.requestsHit params.tenantID params.requestID (· == .inProgress) ≠ 1 then
    throw (.ofSentinel .errAlreadyFinal)
  wrapErr "finalize logical request" do
    let prompt ← checkNonneg "prompt_tokens" params.response.usage.promptTokens
    let completion ← checkNonneg "completion_tokens" params.response.usage.completionTokens
    let cost ← checkNonneg "actual_cost_micro_usd" params.costMicroUSD
    return db.updateRequest params.tenantID params.requestID (· == .inProgress)
      (.completed params.response prompt completion cost info.dbNow) (fun _ => rfl)

def completeRequest (params : CompletionParams) (info : Info) : Tx Unit :=
  fun db => do
    let payload := completionPayload params.requestID params.response.model
      params.response.usage.promptTokens params.response.usage.completionTokens
      params.costMicroUSD (Time.sinceMillis params.startedAt info.now)
    let db ← succeedAttempt params info db
    let db ← finalizeRequest params info db
    let db ← insertOutbox (outboxRow info 0 .requestCompleted params.requestID params.tenantID
      params.correlationID payload) db
    let db ← insertOutbox (outboxRow info 1 .usageRecorded params.requestID params.tenantID
      params.correlationID payload) db
    return ((), db)

/-- The attempt's update in `FailAttempt`. -/
def recordFailure (params : FailureParams) (info : Info) (db : Db) : Except GoError Db :=
  if 0 < params.attemptNumber ∧ db.attempts.rows.any
      (Db.attemptGuard params.tenantID params.requestID params.attemptNumber) = true then
    wrapErr "fail provider attempt" do
      let latency ← checkNonneg "latency_ms" (Time.sinceMillis params.startedAt info.now)
      return db.updateAttempt params.tenantID params.requestID params.attemptNumber
        (.failed params.category params.retryable latency info.dbNow) (fun _ => rfl)
  else .ok db

def failAttempt (params : FailureParams) (info : Info) : Tx Unit :=
  fun db => do
    let db ← recordFailure params info db
    if params.final then
      if db.requestsHit params.tenantID params.requestID (· == .inProgress) ≠ 1 then
        throw (.ofSentinel .errAlreadyFinal)
      let db := db.updateRequest params.tenantID params.requestID (· == .inProgress)
        (.failed params.category params.isPartial info.dbNow) (fun _ => rfl)
      let db ← insertOutbox (outboxRow info 0 .requestFailed params.requestID params.tenantID
        params.correlationID (.obj [("request_id", .str params.requestID),
          ("error_category", .str params.category),
          ("partial_streamed", .bool params.isPartial)])) db
      return ((), db)
    else return ((), db)

/-- The states `CancelRequest` names. -/
def cancellable (status : State) : Bool :=
  [State.received, .validated, .routing, .inProgress].contains status

def cancelRequest (tenantID requestID : String) (info : Info) : Tx Unit :=
  fun db => do
    if db.requestsHit tenantID requestID cancellable ≠ 1 then
      throw (.ofSentinel .errAlreadyFinal)
    return ((), db.updateRequest tenantID requestID cancellable
      (.cancelled info.dbNow) (fun _ => rfl))

/-! ## Policy and budget -/

def tenantPolicy (tenantID model : String) : Tx TenantPolicy :=
  fun db =>
    match db.catalog.tenants.rows.find? fun t => t.id == tenantID && t.status == .active,
        db.catalog.limits.rows.find? fun l => l.tenantID == tenantID,
        authorizeModel db.catalog tenantID model with
    | some tenant, some limits, some _ =>
        .ok ({
          dataClassification := tenant.dataClassification
          allowedProviders := some <|
            (db.catalog.providers.rows.filter fun p =>
              p.enabled && db.catalog.providerPolicies.rows.any fun tp =>
                tp.providerID == p.id && tp.tenantID == tenantID && tp.enabled).map
              ProviderRow.name
          requestsPerMinute := limits.requestsPerMinute
          tokensPerMinute := limits.tokensPerMinute
          maxConcurrent := limits.maxConcurrentRequests
          monthlyBudget := limits.monthlyBudget
          dailyBudget := limits.dailyBudget.getD 0 }, db)
    | _, _, _ => .error (.ofSentinel .errModelForbidden)

/-- Ledger cost of a tenant since an instant. -/
def ledgerSince (db : Db) (tenantID : String) (since : Time) : Int :=
  Lib.sumOf (fun l => (l.costMicroUSD : Int))
    (db.ledger.rows.filter fun l => l.tenantID == tenantID && decide (since ≤ l.occurredAt))

/-- Active reservations of a tenant in a month. -/
def reservedInMonth (db : Db) (tenantID : String) (month : Time) : Int :=
  Lib.sumOf (fun r => (r.reservedMicroUSD : Int))
    (db.reservations.rows.filter fun r =>
      r.tenantID == tenantID && r.periodMonth == month && r.state == .reserved)

/-- Active reservations of a tenant on a day. -/
def reservedOnDay (db : Db) (tenantID : String) (day : Time) : Int :=
  Lib.sumOf (fun r => (r.reservedMicroUSD : Int))
    (db.reservations.rows.filter fun r =>
      r.tenantID == tenantID && r.periodDay == day && r.state == .reserved)

/-- `INSERT INTO budget_reservations ... ON CONFLICT (request_id) DO NOTHING`. -/
def insertReservation (tenantID requestID : String) (amount : Int) (now : Time) (info : Info)
    (db : Db) : Except GoError Db :=
  if (db.reservation? requestID).isSome then .ok db
  else
    wrapErr "insert budget reservation" do
      require "budget_reservations_tenant_id_fkey" (db.hasTenant tenantID)
      require "budget_reservations_request_id_fkey" (db.hasRequest requestID)
      let reserved ← checkNonneg "reserved_micro_usd" amount
      let reservations ← orViolation "budget_reservations_pkey" (db.reservations.insert? {
        id := info.ids 0, tenantID, requestID, periodMonth := Time.startOfMonth now
        periodDay := Time.startOfDay now, reservedMicroUSD := reserved, state := .reserved
        createdAt := info.dbNow, updatedAt := info.dbNow })
      return { db with reservations }

def reserveBudget (tenantID requestID : String) (amount : Int) (now : Time) (info : Info) :
    Tx Unit :=
  fun db =>
    match db.catalog.limits.rows.find? fun l => l.tenantID == tenantID with
    | none => .error (.ofSentinel .errNotFound)
    | some limits => do
        let month := Time.startOfMonth now
        let day := Time.startOfDay now
        let monthUsed := ledgerSince db tenantID month
        let monthReserved := reservedInMonth db tenantID month
        let dayUsed := ledgerSince db tenantID day
        let dayReserved := reservedOnDay db tenantID day
        -- `SUM` is numeric and must fit the `int64` it is scanned into
        unless [monthUsed, monthReserved, dayUsed, dayReserved].all isInt64 do
          throw (.wrap "calculate available budget" (.new "value is out of range of int64"))
        Budget.canReserve limits.monthlyBudget monthUsed monthReserved amount
        Budget.canReserve (limits.dailyBudget.getD 0 : Nat) dayUsed dayReserved amount
        let db ← insertReservation tenantID requestID amount now info db
        return ((), db)

def rejectBudget (tenantID requestID correlationID : String) (requested : Int) (info : Info) :
    Tx Unit :=
  fun db => do
    if db.requestsHit tenantID requestID (· == .validated) ≠ 1 then
      throw (.ofSentinel .errAlreadyFinal)
    let db := db.updateRequest tenantID requestID (· == .validated)
      (.budgetRejected info.dbNow) (fun _ => rfl)
    let db ← insertOutbox (outboxRow info 0 .budgetExceeded requestID tenantID correlationID
      (.obj [("request_id", .str requestID), ("requested_micro_usd", .num requested)])) db
    return ((), db)

/-- The condition of `ReconcileBudget`'s update. -/
def reservationGuard (requestID : String) (r : ReservationRow) : Bool :=
  r.requestID == requestID && r.state == .reserved

def reconcileBudget (requestID : String) (actual : Int) (info : Info) : Tx Unit :=
  fun db => do
    if db.reservations.rows.countP (reservationGuard requestID) ≠ 1 then
      throw (.ofSentinel .errNotFound)
    let actual ← wrapErr "reconcile budget" (checkNonneg "actual_micro_usd" actual)
    return ((), { db with
      reservations := db.reservations.updateWhere (reservationGuard requestID)
        (.reconciled actual info.dbNow) (fun _ => rfl) })

/-- The PostgreSQL `Store`. -/
def store : Store Db
  | .createOrGetRequest params, info, db => transact (createOrGetRequest params info) db
  | .getRequest tenantID requestID, _, db => transact (getRequest tenantID requestID) db
  | .transitionRequest tenantID requestID source target, info, db =>
      transact (transitionRequest tenantID requestID source target info) db
  | .startAttempt params, info, db => transact (startAttempt params info) db
  | .completeRequest params, info, db => transact (completeRequest params info) db
  | .failAttempt params, info, db => transact (failAttempt params info) db
  | .cancelRequest tenantID requestID _, info, db =>
      transact (cancelRequest tenantID requestID info) db
  | .tenantPolicy tenantID model, _, db => transact (tenantPolicy tenantID model) db
  | .reserveBudget tenantID requestID amount now, info, db =>
      transact (reserveBudget tenantID requestID amount now info) db
  | .rejectBudget tenantID requestID correlationID requested, info, db =>
      transact (rejectBudget tenantID requestID correlationID requested info) db
  | .reconcileBudget requestID actual, info, db =>
      transact (reconcileBudget requestID actual info) db

/-! ## Texts

A `text` and the strings of a `jsonb` cannot hold U+0000.  A statement with such
a parameter fails (22021, 22P05) and its transaction is rolled back. -/

mutual

/-- The texts of a JSON value, with the names of its members. -/
def jsonTexts : Json → List String
  | .str s => [s]
  | .arr items => itemTexts items
  | .obj members => memberTexts members
  | .null | .bool _ | .num _ => []

def itemTexts : List Json → List String
  | [] => []
  | item :: items => jsonTexts item ++ itemTexts items

def memberTexts : List (String × Json) → List String
  | [] => []
  | (name, value) :: members => name :: jsonTexts value ++ memberTexts members

end

/-- The texts of a `response_body`. -/
def responseTexts (response : ChatResponse) : List String :=
  [response.id, response.object, response.model, response.aegis.requestID]
    ++ response.choices.flatMap fun choice =>
      [choice.message.role, choice.message.content, choice.finishReason]

/-- The texts among the parameters of a call's statements.  Identifiers are
    UUIDs. -/
def texts : Call → List String
  | .createOrGetRequest params =>
      [params.input.model, params.idempotencyKey, params.correlationID]
        ++ memberTexts params.input.metadata
  | .startAttempt params => [params.providerName, params.model, params.correlationID]
  | .completeRequest params =>
      [params.providerRequestID, params.correlationID] ++ responseTexts params.response
  | .failAttempt params =>
      (if 0 < params.attemptNumber ∨ params.final then [params.category] else [])
        ++ if params.final then [params.correlationID] else []
  | .tenantPolicy _ model => [model]
  | .rejectBudget _ _ correlationID _ => [correlationID]
  | _ => []

/-- PostgreSQL can hold the texts of the call. -/
def holdsTexts (call : Call) : Bool := (texts call).all fun text => !text.toList.contains '\x00'

/-- The store with the refusal of texts that no column can hold.  Of several
    errors of a call it returns this one. -/
def server : Store Db :=
  fun call info db =>
    if holdsTexts call then store call info db
    else (.error (.new "unsupported Unicode escape sequence"), db)

theorem server_of_holdsTexts {call : Call} (h : holdsTexts call = true) (info : Info) (db : Db) :
    server call info db = store call info db := if_pos h

theorem holdsTexts_of_ok {call : Call} {info : Info} {db : Db} {r : call.Result}
    (h : (server call info db).1 = .ok r) : holdsTexts call = true := by
  by_contra htexts
  rw [server, if_neg htexts] at h
  cases h

/-! ## The event consumer -/

/-- The row of `audit_events` for an event. -/
def auditRow (event : Envelope) (info : Info) : AuditRow where
  id := event.eventID
  tenantID := event.tenantID
  eventType := event.eventType
  eventVersion := event.version
  aggregateID := event.aggregateID
  correlationID := event.correlationID
  causationID := if event.causationID = "" then none else some event.causationID
  payload := event.payload
  occurredAt := event.timestamp
  recordedAt := info.dbNow

/-- `INSERT INTO audit_events ... ON CONFLICT (id) DO NOTHING`. -/
def insertAudit (event : Envelope) (info : Info) (db : Db) : Except GoError Db :=
  if db.audit.rows.any fun a => a.id == event.eventID then .ok db
  else
    wrapErr "insert immutable audit event" do
      require "audit_events_tenant_id_fkey" (db.hasTenant event.tenantID)
      let audit ← orViolation "audit_events_pkey" (db.audit.insert? (auditRow event info))
      return { db with audit }

/-- `INSERT INTO usage_ledger ... ON CONFLICT (tenant_id, event_id) DO NOTHING`. -/
def insertUsage (event : Envelope) (info : Info) (db : Db) : Except GoError Db := do
  let usage ← wrapErr "decode usage event" (decodeUsage event.payload)
  if db.ledger.rows.any fun l => l.tenantID == event.tenantID && l.eventID == event.eventID then
    return db
  wrapErr "insert usage ledger entry" do
    require "usage_ledger_tenant_id_fkey" (db.hasTenant event.tenantID)
    require "usage_ledger_request_id_fkey" (db.hasRequest usage.requestID)
    let prompt ← checkNonneg "prompt_tokens" usage.promptTokens
    let completion ← checkNonneg "completion_tokens" usage.completionTokens
    let cost ← checkNonneg "cost_micro_usd" usage.costMicroUSD
    let ledger ← orViolation "usage_ledger_pkey" (db.ledger.insert? {
      id := info.ids 0, tenantID := event.tenantID, requestID := usage.requestID
      eventID := event.eventID, promptTokens := prompt, completionTokens := completion
      costMicroUSD := cost, occurredAt := event.timestamp, recordedAt := info.dbNow })
    return { db with ledger }

/-- `ProcessKafkaEvent` applies an event and its deduplication marker in one
    transaction; `false` when the consumer has committed the event before. -/
def processKafkaEvent (consumerName : String) (event : Envelope) (info : Info) : Tx Bool :=
  fun db => do
    event.validate
    match db.processed.insert? {
        consumerName, eventID := event.eventID, eventType := event.eventType
        eventVersion := event.version, processedAt := info.dbNow } with
    | none => return (false, db)
    | some processed =>
        let db ← insertAudit event info { db with processed }
        let db ← if event.eventType = .usageRecorded then insertUsage event info db else .ok db
        return (true, db)

end Postgres

end Aegis.Persistence
