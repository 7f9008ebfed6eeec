/-
  Aegis.Request

  The logical request domain model (internal/request/request.go): the durable
  request states with their transition table, chat input with its validation,
  and the record that persistence returns.
-/

import Aegis.Go
import Mathlib.Algebra.Order.Ring.Rat
import Mathlib.Data.List.Basic

namespace Aegis.Request

/-! ## States -/

/-- The durable state of one logical request. -/
inductive State where
  | received
  | validated
  | routing
  | inProgress
  | completed
  | failed
  | cancelled
  | budgetRejected
deriving DecidableEq, Repr

namespace State

/-- The text stored for a state. -/
def text : State → String
  | received => "RECEIVED"
  | validated => "VALIDATED"
  | routing => "ROUTING"
  | inProgress => "IN_PROGRESS"
  | completed => "COMPLETED"
  | failed => "FAILED"
  | cancelled => "CANCELLED"
  | budgetRejected => "BUDGET_REJECTED"

/-- The states without successors. -/
def terminal : State → Bool
  | completed | failed | cancelled | budgetRejected => true
  | received | validated | routing | inProgress => false

end State

/-- `allowedTransitions`. -/
def allowedTransitions : State → List State
  | .received => [.validated, .failed, .cancelled]
  | .validated => [.routing, .budgetRejected, .failed, .cancelled]
  | .routing => [.inProgress, .failed, .cancelled]
  | .inProgress => [.completed, .failed, .cancelled]
  | .completed | .failed | .cancelled | .budgetRejected => []

def canTransition (current next : State) : Bool :=
  (allowedTransitions current).contains next

def transition (current next : State) : Except GoError Unit :=
  if canTransition current next then .ok ()
  else .error (.new ("invalid request transition " ++ current.text ++ " -> " ++ next.text))

/-- A terminal state is exactly one that no transition leaves. -/
theorem terminal_iff_no_transition (s : State) :
    s.terminal = true ↔ ∀ next, canTransition s next = false := by
  constructor
  · intro h next
    cases s <;> first | rfl | exact absurd h (by decide)
  · intro h
    cases s
    case received => exact absurd (h .validated) (by decide)
    case validated => exact absurd (h .routing) (by decide)
    case routing => exact absurd (h .inProgress) (by decide)
    case inProgress => exact absurd (h .completed) (by decide)
    all_goals rfl

theorem not_terminal_of_canTransition {s t : State} (h : canTransition s t = true) :
    s.terminal = false := by
  cases hs : s.terminal with
  | false => rfl
  | true =>
      have hnone := (terminal_iff_no_transition s).mp hs t
      exact absurd h (by rw [hnone]; decide)

/-- Every state that is not terminal may be cancelled. -/
theorem canTransition_cancelled {s : State} (h : s.terminal = false) :
    canTransition s .cancelled = true := by
  cases s <;> first | rfl | exact absurd h (by decide)

/-! ## Chat input -/

structure Message where
  role : String
  content : String
deriving DecidableEq, Repr

/-- A decoded JSON value, as `map[string]any` holds it. -/
inductive Json where
  | null
  | bool (b : Bool)
  | num (x : Float64)
  | str (s : String)
  | arr (items : List Json)
  | obj (members : List (String × Json))

/-- The semantic input of the gateway and of the idempotency hash. -/
structure ChatInput where
  model : String
  messages : List Message
  temperature : Option Float64 := none
  maxTokens : Int := 0
  stream : Bool := false
  metadata : List (String × Json) := []

/-- The checks on `messages[index]`. -/
def Message.validate (index : Nat) (message : Message) : Except GoError Unit := do
  unless ["system", "user", "assistant", "tool"].contains message.role do
    throw (.new ("messages[" ++ toString index ++ "].role is unsupported"))
  if isBlank message.content then
    throw (.new ("messages[" ++ toString index ++ "].content is required"))
  if message.content.utf8ByteSize > 65536 then
    throw (.new ("messages[" ++ toString index ++ "].content is too long"))

def ChatInput.validate (input : ChatInput) : Except GoError Unit := do
  if isBlank input.model then throw (.new "model is required")
  if input.model.utf8ByteSize > 128 then throw (.new "model is too long")
  if input.messages.length = 0 ∨ input.messages.length > 100 then
    throw (.new "messages must contain between 1 and 100 items")
  for (message, index) in input.messages.zipIdx do
    message.validate index
  if let some temperature := input.temperature then
    if temperature.value < 0 ∨ temperature.value > 2 then
      throw (.new "temperature must be between 0 and 2")
  if input.maxTokens < 0 ∨ input.maxTokens > 32768 then
    throw (.new "max_tokens must be between 0 and 32768")

/-- What `Validate` asks of a message. -/
structure Message.Valid (message : Message) : Prop where
  role : message.role ∈ ["system", "user", "assistant", "tool"]
  content : isBlank message.content = false
  short : message.content.utf8ByteSize ≤ 65536

theorem Message.validate_eq_ok_iff (index : Nat) (message : Message) :
    message.validate index = .ok () ↔ message.Valid := by
  unfold Message.validate
  simp only [bind, Except.bind, pure, Except.pure, throw, throwThe, MonadExceptOf.throw]
  constructor
  · intro h
    split_ifs at h with hrole hblank hlong
    exact ⟨by simpa using hrole, by simpa using hblank, Nat.le_of_not_lt hlong⟩
  · intro h
    have hrole : ["system", "user", "assistant", "tool"].contains message.role = true := by
      simpa using h.role
    rw [if_pos hrole, if_neg (by simp [h.content]), if_neg (Nat.not_lt.mpr h.short)]

/-- What `Validate` asks of an input. -/
structure ChatInput.Valid (input : ChatInput) : Prop where
  model : isBlank input.model = false
  modelShort : input.model.utf8ByteSize ≤ 128
  messages_ne : input.messages ≠ []
  messagesFew : input.messages.length ≤ 100
  messages : ∀ message ∈ input.messages, message.Valid
  temperature : ∀ temperature ∈ input.temperature, 0 ≤ temperature.value ∧ temperature.value ≤ 2
  maxTokens : 0 ≤ input.maxTokens ∧ input.maxTokens ≤ 32768

theorem ChatInput.validate_eq_ok_iff (input : ChatInput) :
    input.validate = .ok () ↔ input.Valid := by
  have hmessages : (∀ x ∈ input.messages.zipIdx, Message.validate x.2 x.1 = .ok ())
      ↔ ∀ message ∈ input.messages, message.Valid := by
    simp only [Message.validate_eq_ok_iff]
    constructor
    · intro h message hmem
      obtain ⟨index, hindex⟩ := List.mem_iff_getElem?.mp hmem
      exact h (message, index) (List.mk_mem_zipIdx_iff_getElem?.mpr hindex)
    · intro h x hx
      exact h x.1 (List.fst_mem_of_mem_zipIdx hx)
  have htokens : ¬(input.maxTokens < 0 ∨ input.maxTokens > 32768)
      ↔ 0 ≤ input.maxTokens ∧ input.maxTokens ≤ 32768 := by
    omega
  simp only [ChatInput.validate, guard_eq_ok, bind_eq_ok, forIn_eq_ok, hmessages, exists_and_left,
    exists_const]
  constructor
  · rintro ⟨hmodel, hlong, hcount, hall, hrest⟩
    have hlast : (∀ t ∈ input.temperature, 0 ≤ t.value ∧ t.value ≤ 2)
        ∧ 0 ≤ input.maxTokens ∧ input.maxTokens ≤ 32768 := by
      cases htemperature : input.temperature with
      | none =>
          simp only [htemperature, guard_end_eq_ok, htokens] at hrest
          exact ⟨by simp, hrest⟩
      | some t =>
          simp only [htemperature, guard_eq_ok, guard_end_eq_ok, htokens, not_or, not_lt] at hrest
          exact ⟨by simpa using hrest.1, hrest.2⟩
    refine ⟨Bool.eq_false_of_not_eq_true hmodel, Nat.le_of_not_lt hlong, ?_, by omega, hall,
      hlast.1, hlast.2⟩
    intro hnil
    exact hcount (Or.inl (by rw [hnil, List.length_nil]))
  · intro h
    have hne : input.messages.length ≠ 0 := fun hlength =>
      h.messages_ne (List.length_eq_zero_iff.mp hlength)
    have hfew := h.messagesFew
    refine ⟨by simp [h.model], Nat.not_lt.mpr h.modelShort, by omega, h.messages, ?_⟩
    cases htemperature : input.temperature with
    | none =>
        simp only [guard_end_eq_ok, htokens]
        exact h.maxTokens
    | some t =>
        simp only [guard_eq_ok, guard_end_eq_ok, htokens, not_or, not_lt]
        exact ⟨h.temperature t htemperature, h.maxTokens⟩

/-! ## Responses and records -/

/-- Provider-reported token usage. -/
structure Usage where
  promptTokens : Int
  completionTokens : Int
  totalTokens : Int
deriving DecidableEq, Repr

structure Choice where
  index : Int
  message : Message
  finishReason : String
deriving DecidableEq, Repr

structure ResponseMeta where
  requestID : String
  status : State
deriving DecidableEq, Repr

structure ChatResponse where
  id : String
  object : String
  created : Int
  model : String
  choices : List Choice
  usage : Usage
  aegis : ResponseMeta
deriving DecidableEq, Repr

/-- A logical request returned by persistence. -/
structure Record where
  id : String
  tenantID : String
  apiKeyID : String
  idempotencyKey : String
  canonicalHash : List UInt8
  model : String
  state : State
  stream : Bool
  partialStreamed : Bool := false
  response : Option ChatResponse := none
  failureCategory : String := ""
  correlationID : String
  createdAt : Time
  updatedAt : Time
  completedAt : Option Time := none
  promptTokens : Int := 0
  completionTokens : Int := 0
  costMicroUSD : Int := 0
deriving DecidableEq, Repr

end Aegis.Request
