/-
  Aegis.Pipeline

  From the outbox to the projections: any number of relays
  (internal/outbox/outbox.go), the Kafka topic (internal/kafka/kafka.go) and
  the members of the consumer group (internal/kafka/consumer.go), acting on
  the database in any order.

  The topic is one list of envelopes in the order they were appended; a
  partition is the sublist of its keys, so messages of one key keep their
  order.  One `Publish` may append its message more than once, and may append
  it and still return an error.  A relay or consumer that stops at any point
  starts over; a consumer is assigned a partition at any offset up to the
  committed one, so messages are delivered in order and possibly repeatedly.
-/

import Aegis.Lib.Runs
import Aegis.Outbox

namespace Aegis.Pipeline

open Aegis.Events (Envelope)
open Aegis.Outbox
open Aegis.Persistence

/-- What the broker did with a `Publish`. -/
inductive Outcome where
  /-- acknowledged, after `extra` unacknowledged copies -/
  | acked (extra : Nat)
  /-- an error, although `copies` were appended -/
  | failed (copies : Nat)
deriving DecidableEq, Repr

/-- Where a consumer is in `Run`.  `position` is the next offset of each
    partition assigned to it. -/
inductive Session where
  | polling (position : Nat → Option Nat)
  | fetched (position : Nat → Option Nat) (part offset : Nat) (event : Envelope)
  | processed (position : Nat → Option Nat) (part offset : Nat)

/-- The positions of a session. -/
def Session.position : Session → Nat → Option Nat
  | .polling position => position
  | .fetched position _ _ _ => position
  | .processed position _ _ => position

structure State where
  relays : Nat → Relay
  /-- the topic, in append order -/
  log : List Envelope
  /-- the envelopes whose publication was acknowledged -/
  acked : List Envelope
  /-- committed offset of each partition -/
  committed : Nat → Nat
  consumers : Nat → Session

inductive Action where
  | claim (relay : Nat) (result : ClaimResult)
  | publish (relay : Nat) (outcome : Outcome)
  | markPublished (relay : Nat) (now : Time)
  /-- `ok` is false when the statement fails, which `runBatch` ignores -/
  | markFailed (relay : Nat) (now : Time) (ok : Bool)
  | stopRelay (relay : Nat)
  | assign (consumer part start : Nat)
  | fetch (consumer part : Nat)
  | process (consumer : Nat) (info : Info)
  | commit (consumer : Nat)
  | stopConsumer (consumer : Nat)

/-- The Kafka configuration: the partition of a key and the consumer's name. -/
structure Config where
  partitionOf : String → Nat
  consumerName : String

section Step

variable (config : Config)

/-- The messages of a partition. -/
def partition (log : List Envelope) (part : Nat) : List Envelope :=
  log.filter fun event => config.partitionOf event.tenantID == part

def State.setPhase (s : State) (relay : Nat) (phase : Phase) : State :=
  { s with relays := Function.update s.relays relay { s.relays relay with phase } }

def State.setSession (s : State) (consumer : Nat) (session : Session) : State :=
  { s with consumers := Function.update s.consumers consumer session }

/-- `Publisher.Publish` of the first row of a batch. -/
def publish (s : State) (relay : Nat) (fact : OutboxFact) (rest : List OutboxFact)
    (outcome : Outcome) : State :=
  let event := envelope fact
  match event.validate with
  | .error _ => s.setPhase relay (.failing fact rest)
  | .ok () =>
      match outcome with
      | .acked extra =>
          { s with
            log := s.log ++ List.replicate (extra + 1) event
            acked := s.acked ++ [event] }.setPhase relay (.marking fact rest)
      | .failed copies =>
          { s with log := s.log ++ List.replicate copies event }.setPhase relay
            (.failing fact rest)

/-- One step of the pipeline.  An action that does not fit the phase of its
    relay or consumer changes nothing. -/
def step (x : State × Db) : Action → State × Db
  | .claim i result =>
      let relay := x.1.relays i
      match relay.phase with
      | .publishing [] =>
          if validClaim x.2 relay.batchSize result then
            (x.1.setPhase i (.publishing (factsNamed x.2 result.picked)),
              claimRows x.2 relay.workerID result)
          else x
      | _ => x
  | .publish i outcome =>
      match (x.1.relays i).phase with
      | .publishing (fact :: rest) => (publish x.1 i fact rest outcome, x.2)
      | _ => x
  | .markPublished i now =>
      match (x.1.relays i).phase with
      | .marking fact rest =>
          (x.1.setPhase i (.publishing rest),
            markPublished x.2 fact.id (x.1.relays i).workerID now)
      | _ => x
  | .markFailed i now ok =>
      match (x.1.relays i).phase with
      | .failing fact rest =>
          (x.1.setPhase i (.publishing rest),
            if ok then markFailed x.2 fact.id (x.1.relays i).workerID now else x.2)
      | _ => x
  | .stopRelay i => (x.1.setPhase i (.publishing []), x.2)
  | .assign j part start =>
      match x.1.consumers j with
      | .polling position =>
          if start ≤ x.1.committed part then
            (x.1.setSession j (.polling (Function.update position part (some start))), x.2)
          else x
      | _ => x
  | .fetch j part =>
      match x.1.consumers j with
      | .polling position =>
          match position part with
          | none => x
          | some offset =>
              match (partition config x.1.log part)[offset]? with
              | none => x
              | some event => (x.1.setSession j (.fetched position part offset event), x.2)
      | _ => x
  | .process j info =>
      match x.1.consumers j with
      | .fetched position part offset event =>
          match transact (Postgres.processKafkaEvent config.consumerName event info) x.2 with
          | (.ok _, db) => (x.1.setSession j (.processed position part offset), db)
          -- `Run` returns the error; the process starts over unassigned
          | (.error _, db) => (x.1.setSession j (.polling fun _ => none), db)
      | _ => x
  | .commit j =>
      match x.1.consumers j with
      | .processed position part offset =>
          ({ x.1 with committed := Function.update x.1.committed part (offset + 1) }.setSession j
            (.polling (Function.update position part (some (offset + 1)))), x.2)
      | _ => x
  | .stopConsumer j => (x.1.setSession j (.polling fun _ => none), x.2)

end Step

/-- No relay has a batch, the topic is empty and nothing is assigned. -/
def State.init (relays : Nat → Relay) : State where
  relays := fun i => { relays i with phase := .publishing [] }
  log := []
  acked := []
  committed := fun _ => 0
  consumers := fun _ => .polling fun _ => none

end Aegis.Pipeline
