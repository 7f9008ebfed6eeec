/-
  Aegis.Outbox

  The transactional outbox (internal/outbox/outbox.go): claiming a batch,
  marking rows, and the relay loop around them.

  `Claim` is one statement whose outcome the database does not determine: rows
  that other transactions hold locked are skipped, rows created at the same
  instant may come in any order, and `RETURNING` does not promise the order of
  the candidates.  The rows it returned are therefore part of a `ClaimResult`,
  and `validClaim` says which results the statement allows.
-/

import Aegis.Persistence.Postgres

namespace Aegis.Outbox

open Aegis.Events (Envelope)
open Aegis.Persistence (Db OutboxFact OutboxRow)

/-- The envelope that `runBatch` builds from a claimed row. -/
def envelope (fact : OutboxFact) : Envelope where
  eventID := fact.id
  eventType := fact.eventType
  version := fact.eventVersion
  aggregateID := fact.aggregateID
  tenantID := fact.tenantID
  timestamp := fact.occurredAt
  correlationID := fact.correlationID
  causationID := fact.causationID.getD ""
  payload := fact.payload

/-! ## Statements -/

/-- `runBatch` claims for one minute. -/
def claimTTL : Int := Time.seconds 60

/-- The `WHERE` of `Claim`. -/
def claimable (now : Time) (row : OutboxRow) : Bool :=
  row.publishedAt.isNone && decide (row.availableAt ≤ now)
    && (match row.claimedAt with
        | none => true
        | some claimedAt => decide (claimedAt < now - claimTTL))

/-- One execution of `Claim`: the rows returned, in order, and the rows that
    were locked by others meanwhile. -/
structure ClaimResult where
  picked : List String
  locked : List String
  now : Time

/-- What `ORDER BY created_at FOR UPDATE SKIP LOCKED LIMIT n` allows: claimable
    rows that are not locked, at most `n`, and a row is left out only when `n`
    rows created no later were found. -/
def validClaim (db : Db) (limit : Nat) (claim : ClaimResult) : Bool :=
  decide (claim.picked.Nodup ∧ claim.picked.length ≤ limit)
    && claim.picked.all (fun id => !claim.locked.contains id
        && db.outbox.rows.any fun row => row.fact.id == id && claimable claim.now row)
    && db.outbox.rows.all fun row =>
        !claimable claim.now row || claim.picked.contains row.fact.id
          || claim.locked.contains row.fact.id
          || (claim.picked.length == limit && db.outbox.rows.all fun other =>
                !claim.picked.contains other.fact.id
                  || decide (other.fact.createdAt ≤ row.fact.createdAt))

/-- The facts with the given identifiers, in that order. -/
def factsNamed (db : Db) (ids : List String) : List OutboxFact :=
  ids.filterMap fun id => db.facts.find? fun fact => fact.id == id

/-- The `UPDATE` of `Claim`. -/
def claimRows (db : Db) (workerID : String) (claim : ClaimResult) : Db :=
  { db with
    outbox := db.outbox.updateWhere (fun row => claim.picked.contains row.fact.id)
      (fun row => { row with
        claimedAt := some claim.now, claimedBy := some workerID
        publishAttempts := row.publishAttempts + 1 }) (fun _ => rfl) }

/-- The condition of `MarkPublished` and `MarkFailed`. -/
def heldBy (eventID workerID : String) (row : OutboxRow) : Bool :=
  row.fact.id == eventID && row.claimedBy == some workerID && row.publishedAt.isNone

def markPublished (db : Db) (eventID workerID : String) (now : Time) : Db :=
  { db with
    outbox := db.outbox.updateWhere (heldBy eventID workerID)
      (fun row => { row with
        publishedAt := some now, claimedAt := none, claimedBy := none, lastError := none })
      (fun _ => rfl) }

/-- `MarkFailed` with the category and delay of `runBatch`. -/
def markFailed (db : Db) (eventID workerID : String) (now : Time) : Db :=
  { db with
    outbox := db.outbox.updateWhere (heldBy eventID workerID)
      (fun row => { row with
        claimedAt := none, claimedBy := none, lastError := some "kafka_publish"
        availableAt := now + Time.seconds 1 }) (fun _ => rfl) }

/-! ## Relay -/

/-- Where a relay is in `runBatch`. -/
inductive Phase where
  /-- about to publish the first of the rows left, or done with the batch -/
  | publishing (batch : List OutboxFact)
  /-- `Publish` returned nil for `fact` -/
  | marking (fact : OutboxFact) (rest : List OutboxFact)
  /-- `Publish` returned an error for `fact` -/
  | failing (fact : OutboxFact) (rest : List OutboxFact)

structure Relay where
  workerID : String
  batchSize : Nat
  phase : Phase

/-- `NewRelay`. -/
def Relay.new (workerID : String) (batchSize : Int) : Relay where
  workerID
  batchSize := if batchSize ≤ 0 then 100 else batchSize.toNat
  phase := .publishing []

/-- The facts a relay still has in hand. -/
def Phase.facts : Phase → List OutboxFact
  | .publishing batch => batch
  | .marking fact rest => fact :: rest
  | .failing fact rest => fact :: rest

end Aegis.Outbox
