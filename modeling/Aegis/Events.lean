/-
  Aegis.Events

  The versioned broker contract (internal/events/event.go): event types, the
  envelope that travels through Kafka, and the validation that precedes every
  side effect.  Payloads are JSON values, built from and decoded into the
  fields that the code names.
-/

import Aegis.Request

namespace Aegis

namespace Events

open Aegis.Request (Json)

/-- The event types the code names; `unknown` is any other text. -/
inductive EventType where
  | requestAccepted
  | providerSelected
  | requestCompleted
  | requestFailed
  | usageRecorded
  | budgetExceeded
  | securityViolation
  | evaluationComplete
  | evaluationFailed
  | unknown (text : String)
deriving DecidableEq, Repr

namespace EventType

/-- The text stored and sent for an event type. -/
def text : EventType → String
  | requestAccepted => "ai.request.accepted.v1"
  | providerSelected => "ai.provider.selected.v1"
  | requestCompleted => "ai.request.completed.v1"
  | requestFailed => "ai.request.failed.v1"
  | usageRecorded => "ai.usage.recorded.v1"
  | budgetExceeded => "ai.budget.exceeded.v1"
  | securityViolation => "ai.security.violation.v1"
  | evaluationComplete => "evaluation.completed.v1"
  | evaluationFailed => "evaluation.failed.v1"
  | unknown text => text

/-- `supported`. -/
def supported : EventType → Bool
  | unknown _ => false
  | _ => true

end EventType

/-- The stable Kafka event contract.  `payload` is a JSON value, so
    `json.Valid` holds of it. -/
structure Envelope where
  eventID : String
  eventType : EventType
  version : Int
  aggregateID : String
  tenantID : String
  timestamp : Time
  correlationID : String
  causationID : String
  payload : Json

/-- `Validate` rejects malformed or unknown events before side effects. -/
def Envelope.validate (event : Envelope) : Except GoError Unit := do
  if event.eventID = "" ∨ event.aggregateID = "" ∨ event.tenantID = ""
      ∨ event.correlationID = "" then
    throw (.new "event identifiers are required")
  unless event.eventType.supported do
    throw (.new ("unsupported event type " ++ event.eventType.text.quote))
  if event.version ≠ 1 then
    throw (.new ("unsupported event version " ++ toString event.version))
  if event.timestamp = Time.zero then
    throw (.new "event timestamp and valid payload are required")

/-! ## Payloads -/

/-- The fields `ProcessKafkaEvent` decodes from a usage event. -/
structure UsagePayload where
  requestID : String
  promptTokens : Int
  completionTokens : Int
  costMicroUSD : Int
deriving DecidableEq, Repr

/-- The value of the last member called `name`, which is the one
    `json.Unmarshal` keeps. -/
def member (name : String) (members : List (String × Json)) : Option Json :=
  (members.reverse.find? fun entry => entry.1 == name).map Prod.snd

/-- `json.Unmarshal` into a `string` field; an absent or null member leaves "". -/
def decodeString : Option Json → Except GoError String
  | none => .ok ""
  | some .null => .ok ""
  | some (.str s) => .ok s
  | some _ => .error (.new "json: cannot unmarshal into Go value of type string")

/-- `json.Unmarshal` into an `int64` field; an absent or null member leaves 0. -/
def decodeInt64 : Option Json → Except GoError Int
  | none => .ok 0
  | some .null => .ok 0
  | some (.num x) =>
      if x.value.den = 1 ∧ isInt64 x.value.num = true then .ok x.value.num
      else .error (.new "json: cannot unmarshal number into Go value of type int64")
  | some _ => .error (.new "json: cannot unmarshal into Go value of type int64")

/-- The decoding of a usage event's payload. -/
def decodeUsage : Json → Except GoError UsagePayload
  | .obj members => do
      let requestID ← decodeString (member "request_id" members)
      let promptTokens ← decodeInt64 (member "prompt_tokens" members)
      let completionTokens ← decodeInt64 (member "completion_tokens" members)
      let costMicroUSD ← decodeInt64 (member "cost_micro_usd" members)
      return { requestID, promptTokens, completionTokens, costMicroUSD }
  | .null => .ok ⟨"", 0, 0, 0⟩
  | _ => .error (.new "json: cannot unmarshal into Go value of type struct")

/-- The payload `CompleteRequest` writes for both of its events. -/
def completionPayload (requestID model : String)
    (promptTokens completionTokens costMicroUSD latencyMS : Int) : Json :=
  .obj [("request_id", .str requestID), ("model", .str model),
    ("prompt_tokens", .num promptTokens), ("completion_tokens", .num completionTokens),
    ("cost_micro_usd", .num costMicroUSD), ("latency_ms", .num latencyMS)]

theorem decodeInt64_num {n m : Int} (h : decodeInt64 (some (.num n)) = .ok m) : m = n := by
  have hvalue : ((n : Int) : Float64).value = (n : ℚ) := rfl
  simp only [decodeInt64, hvalue, Rat.den_intCast, Rat.num_intCast, true_and] at h
  split at h
  · exact (Except.ok.inj h).symm
  · exact absurd h (by simp)

/-- Decoding a completion payload yields the numbers it was built from. -/
theorem decodeUsage_completionPayload {requestID model : String} {p c cost latency : Int}
    {usage : UsagePayload}
    (h : decodeUsage (completionPayload requestID model p c cost latency) = .ok usage) :
    usage = ⟨requestID, p, c, cost⟩ := by
  have hr : decodeString (some (Json.str requestID)) = .ok requestID := rfl
  simp only [decodeUsage, completionPayload, member, List.reverse_cons, List.reverse_nil,
    List.nil_append, List.cons_append, List.find?, String.reduceBEq, Option.map_some, hr,
    bind, Except.bind, pure, Except.pure] at h
  split at h
  · exact absurd h (by simp)
  · next p' hp =>
      split at h
      · exact absurd h (by simp)
      · next c' hc =>
          split at h
          · exact absurd h (by simp)
          · next cost' hcost =>
              rw [← Except.ok.inj h, decodeInt64_num hp, decodeInt64_num hc,
                decodeInt64_num hcost]

end Events

end Aegis
