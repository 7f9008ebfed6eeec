/-
  Aegis.Persistence.Schema

  The PostgreSQL schema (migrations/): the rows of the tables that the gateway,
  the outbox relay and the event consumer read and write, and the database as
  a record of tables.

  Constraints are part of the types.  A `UNIQUE` or `PRIMARY KEY` constraint is
  the clash relation of a `Table`; a column with `CHECK (c >= 0)` is a `Nat`.
  Foreign keys and the remaining checks are tested by the statements that
  could violate them.  Identifiers are the canonical text of a UUID.

  The catalog holds the tables that no modelled operation writes.
-/

import Aegis.Events
import Aegis.Lib.Table

namespace Aegis.Persistence

open Aegis.Events (EventType)
open Aegis.Lib (Table)
open Aegis.Request (ChatResponse Json State)

/-! ## Catalog -/

inductive TenantStatus where
  | active
  | suspended
  | closed
deriving DecidableEq, Repr

structure Tenant where
  id : String
  status : TenantStatus
  dataClassification : String
deriving DecidableEq, Repr

structure Model where
  id : String
  publicName : String
  enabled : Bool
deriving DecidableEq, Repr

structure ProviderRow where
  id : String
  name : String
  enabled : Bool
deriving DecidableEq, Repr

structure TenantModelPolicy where
  tenantID : String
  modelID : String
  enabled : Bool
deriving DecidableEq, Repr

structure TenantProviderPolicy where
  tenantID : String
  providerID : String
  enabled : Bool
deriving DecidableEq, Repr

/-- A row of `tenant_limits`; budgets are `BIGINT` columns. -/
structure TenantLimits where
  tenantID : String
  requestsPerMinute : Nat
  tokensPerMinute : Nat
  maxConcurrentRequests : Nat
  monthlyBudget : Nat
  monthlyBudget_le : (monthlyBudget : Int) ≤ maxInt64
  dailyBudget : Option Nat

structure Catalog where
  tenants : Table Tenant.id Eq
  users : List String
  apiKeys : List String
  models : Table (fun m : Model => (m.id, m.publicName)) fun a b => a.1 = b.1 ∨ a.2 = b.2
  providers : Table (fun p : ProviderRow => (p.id, p.name)) fun a b => a.1 = b.1 ∨ a.2 = b.2
  modelPolicies : Table (fun p : TenantModelPolicy => (p.tenantID, p.modelID)) Eq
  providerPolicies : Table (fun p : TenantProviderPolicy => (p.tenantID, p.providerID)) Eq
  limits : Table TenantLimits.tenantID Eq

/-- An active tenant `t` with API key `k`, the model `m` and the providers `p`
    and `q`, for concrete runs. -/
def Catalog.sample (monthlyBudget : Nat) (h : (monthlyBudget : Int) ≤ maxInt64) : Catalog where
  tenants := ⟨[⟨"t", .active, "public"⟩], by decide⟩
  users := []
  apiKeys := ["k"]
  models := ⟨[⟨"m", "m", true⟩], by decide⟩
  providers := ⟨[⟨"p", "p", true⟩, ⟨"q", "q", true⟩], by decide⟩
  modelPolicies := ⟨[⟨"t", "m", true⟩], by decide⟩
  providerPolicies := ⟨[⟨"t", "p", true⟩, ⟨"t", "q", true⟩], by decide⟩
  limits := ⟨[⟨"t", 60, 1000, 10, monthlyBudget, h, none⟩], List.pairwise_singleton _ _⟩

theorem Catalog.hundred_fits : ((100 : Nat) : Int) ≤ maxInt64 := by decide

/-! ## Rows -/

/-- A row of `ai_requests`. -/
structure RequestRow where
  id : String
  tenantID : String
  apiKeyID : String
  userID : Option String
  idempotencyKey : String
  canonicalRequestHash : List UInt8
  modelID : String
  status : State := .received
  streamRequested : Bool
  partialResponseStreamed : Bool := false
  responseBody : Option ChatResponse := none
  promptTokens : Option Nat := none
  completionTokens : Option Nat := none
  actualCostMicroUSD : Option Nat := none
  failureCategory : Option String := none
  correlationID : String
  createdAt : Time
  updatedAt : Time
  completedAt : Option Time := none
deriving DecidableEq, Repr

/-- Either unique constraint of `ai_requests`. -/
def RequestRow.Clash (a b : String × String × String) : Prop :=
  a.1 = b.1 ∨ a.2 = b.2

instance : DecidableRel RequestRow.Clash := fun _ _ => inferInstanceAs (Decidable (_ ∨ _))

def RequestRow.key (r : RequestRow) : String × String × String :=
  (r.id, r.tenantID, r.idempotencyKey)

inductive AttemptStatus where
  | started
  | succeeded
  | failed
  | cancelled
deriving DecidableEq, Repr

/-- A row of `provider_attempts`. -/
structure AttemptRow where
  id : String
  requestID : String
  tenantID : String
  attemptNumber : Int
  providerID : String
  modelID : String
  status : AttemptStatus := .started
  providerRequestID : Option String := none
  startedAt : Time
  finishedAt : Option Time := none
  promptTokens : Option Nat := none
  completionTokens : Option Nat := none
  costMicroUSD : Option Nat := none
  errorCategory : Option String := none
  retryable : Option Bool := none
  latencyMS : Option Nat := none
deriving DecidableEq, Repr

/-- The primary key or the unique constraint of `provider_attempts`. -/
def AttemptRow.Clash (a b : String × String × Int) : Prop :=
  a.1 = b.1 ∨ a.2 = b.2

instance : DecidableRel AttemptRow.Clash := fun _ _ => inferInstanceAs (Decidable (_ ∨ _))

def AttemptRow.key (a : AttemptRow) : String × String × Int :=
  (a.id, a.requestID, a.attemptNumber)

inductive ReservationState where
  | reserved
  | reconciled
  | released
deriving DecidableEq, Repr

/-- A row of `budget_reservations`. -/
structure ReservationRow where
  id : String
  tenantID : String
  requestID : String
  periodMonth : Time
  periodDay : Time
  reservedMicroUSD : Nat
  actualMicroUSD : Option Nat := none
  releasedMicroUSD : Option Nat := none
  state : ReservationState
  createdAt : Time
  updatedAt : Time
deriving DecidableEq, Repr

/-- The primary key or the unique constraint of `budget_reservations`. -/
def ReservationRow.Clash (a b : String × String) : Prop :=
  a.1 = b.1 ∨ a.2 = b.2

instance : DecidableRel ReservationRow.Clash := fun _ _ => inferInstanceAs (Decidable (_ ∨ _))

def ReservationRow.key (r : ReservationRow) : String × String := (r.id, r.requestID)

/-- A row of `usage_ledger`. -/
structure LedgerRow where
  id : String
  tenantID : String
  requestID : String
  eventID : String
  promptTokens : Nat
  completionTokens : Nat
  costMicroUSD : Nat
  occurredAt : Time
  recordedAt : Time
deriving DecidableEq, Repr

/-- The primary key or the unique constraint of `usage_ledger`. -/
def LedgerRow.Clash (a b : String × String × String) : Prop :=
  a.1 = b.1 ∨ a.2 = b.2

instance : DecidableRel LedgerRow.Clash := fun _ _ => inferInstanceAs (Decidable (_ ∨ _))

def LedgerRow.key (r : LedgerRow) : String × String × String := (r.id, r.tenantID, r.eventID)

/-- The columns of `outbox_events` that no statement updates. -/
structure OutboxFact where
  id : String
  eventType : EventType
  eventVersion : Nat
  aggregateID : String
  tenantID : String
  correlationID : String
  causationID : Option String
  payload : Json
  occurredAt : Time
  createdAt : Time

/-- A row of `outbox_events`: the fact and the relay's bookkeeping. -/
structure OutboxRow where
  fact : OutboxFact
  availableAt : Time
  claimedAt : Option Time := none
  claimedBy : Option String := none
  publishAttempts : Nat := 0
  publishedAt : Option Time := none
  lastError : Option String := none

def OutboxRow.key (r : OutboxRow) : String := r.fact.id

/-- A row of `processed_kafka_events`. -/
structure ProcessedRow where
  consumerName : String
  eventID : String
  eventType : EventType
  eventVersion : Int
  processedAt : Time
deriving DecidableEq, Repr

def ProcessedRow.key (r : ProcessedRow) : String × String := (r.consumerName, r.eventID)

/-- A row of `audit_events`. -/
structure AuditRow where
  id : String
  tenantID : String
  eventType : EventType
  eventVersion : Int
  aggregateID : String
  correlationID : String
  causationID : Option String
  payload : Json
  occurredAt : Time
  recordedAt : Time

/-! ## The database -/

structure Db where
  catalog : Catalog
  requests : Table RequestRow.key RequestRow.Clash
  attempts : Table AttemptRow.key AttemptRow.Clash
  reservations : Table ReservationRow.key ReservationRow.Clash
  ledger : Table LedgerRow.key LedgerRow.Clash
  outbox : Table OutboxRow.key Eq
  processed : Table ProcessedRow.key Eq
  audit : Table AuditRow.id Eq

namespace Db

/-- The database after the migrations, with a configured catalog. -/
def init (catalog : Catalog) : Db where
  catalog
  requests := Table.empty
  attempts := Table.empty
  reservations := Table.empty
  ledger := Table.empty
  outbox := Table.empty
  processed := Table.empty
  audit := Table.empty

/-- The request with a given identifier. -/
def request? (db : Db) (id : String) : Option RequestRow :=
  db.requests.rows.find? fun r => r.id == id

/-- The attempts of a request. -/
def attemptsOf (db : Db) (id : String) : List AttemptRow :=
  db.attempts.rows.filter fun a => a.requestID == id

/-- The reservation of a request. -/
def reservation? (db : Db) (id : String) : Option ReservationRow :=
  db.reservations.rows.find? fun r => r.requestID == id

/-- The facts of the outbox, in the order of their insertion. -/
def facts (db : Db) : List OutboxFact := db.outbox.rows.map OutboxRow.fact

/-- The facts about a request. -/
def factsOf (db : Db) (id : String) : List OutboxFact :=
  db.facts.filter fun f => f.aggregateID == id

theorem requests_unique (db : Db) (id : String) :
    Lib.Unique db.requests.rows fun r => r.id == id := by
  refine db.requests.unique.imp ?_
  intro a b hclash hboth
  refine hclash (Or.inl ?_)
  have ha : a.id = id := by simpa using hboth.1
  have hb : b.id = id := by simpa using hboth.2
  exact ha.trans hb.symm

theorem reservations_unique (db : Db) (id : String) :
    Lib.Unique db.reservations.rows fun r => r.requestID == id := by
  refine db.reservations.unique.imp ?_
  intro a b hclash hboth
  refine hclash (Or.inr ?_)
  have ha : a.requestID = id := by simpa using hboth.1
  have hb : b.requestID = id := by simpa using hboth.2
  exact ha.trans hb.symm

/-- The identifier determines the request. -/
theorem request?_eq_some_iff (db : Db) {id : String} {row : RequestRow} :
    db.request? id = some row ↔ row ∈ db.requests.rows ∧ row.id = id := by
  rw [request?, (db.requests_unique id).find?_eq_some_iff, beq_iff_eq]

/-- A request has at most one reservation. -/
theorem reservation?_eq_some_iff (db : Db) {id : String} {row : ReservationRow} :
    db.reservation? id = some row ↔ row ∈ db.reservations.rows ∧ row.requestID = id := by
  rw [reservation?, (db.reservations_unique id).find?_eq_some_iff, beq_iff_eq]

end Db

end Aegis.Persistence
