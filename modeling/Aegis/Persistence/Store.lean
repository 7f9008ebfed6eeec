/-
  Aegis.Persistence.Store

  The repository interface (internal/persistence/store.go).  An operation with
  its arguments is a `Call`; a store answers a call with a result or an error
  and a new state, in one atomic step.  What an implementation reads from
  outside, the two clocks and freshly generated identifiers, is its `Info`.
-/

import Aegis.Request

namespace Aegis.Persistence

open Aegis.Request (ChatInput ChatResponse Record State)

/-- The tenant's gateway admission configuration.  `allowedProviders` is
    `none` for a nil map. -/
structure TenantPolicy where
  dataClassification : String
  allowedProviders : Option (List String)
  requestsPerMinute : Int
  tokensPerMinute : Int
  maxConcurrent : Int
  monthlyBudget : Int
  dailyBudget : Int
deriving DecidableEq, Repr

/-- Client-owned data needed to establish idempotency. -/
structure CreateRequestParams where
  tenantID : String
  apiKeyID : String
  userID : String
  idempotencyKey : String
  canonicalHash : List UInt8
  input : ChatInput
  correlationID : String

/-- Starts one physical provider attempt. -/
structure AttemptParams where
  requestID : String
  tenantID : String
  number : Int
  providerName : String
  model : String
  correlationID : String
deriving DecidableEq, Repr

/-- Accepts one final result. -/
structure CompletionParams where
  requestID : String
  tenantID : String
  attemptNumber : Int
  providerRequestID : String
  response : ChatResponse
  costMicroUSD : Int
  startedAt : Time
  correlationID : String
deriving DecidableEq, Repr

/-- Records one failed attempt and, when `final`, finalizes the request. -/
structure FailureParams where
  requestID : String
  tenantID : String
  attemptNumber : Int := 0
  category : String
  retryable : Bool := false
  isPartial : Bool := false
  final : Bool
  startedAt : Time
  correlationID : String
deriving DecidableEq, Repr

/-- A call of one of the store's operations. -/
inductive Call where
  | createOrGetRequest (params : CreateRequestParams)
  | getRequest (tenantID requestID : String)
  | transitionRequest (tenantID requestID : String) (source target : State)
  | startAttempt (params : AttemptParams)
  | completeRequest (params : CompletionParams)
  | failAttempt (params : FailureParams)
  | cancelRequest (tenantID requestID correlationID : String)
  | tenantPolicy (tenantID model : String)
  | reserveBudget (tenantID requestID : String) (amount : Int) (now : Time)
  | rejectBudget (tenantID requestID correlationID : String) (requested : Int)
  | reconcileBudget (requestID : String) (actual : Int)

/-- What a successful call returns besides a nil error. -/
abbrev Call.Result : Call → Type
  | .createOrGetRequest _ => Record × Bool
  | .getRequest _ _ => Record
  | .tenantPolicy _ _ => TenantPolicy
  | _ => Unit

/-- What a call reads from outside the store: the gateway's clock, the
    database's clock, and the identifiers generated during the call. -/
structure Info where
  now : Time
  dbNow : Time
  ids : Nat → String

/-- A store over states `σ`. -/
abbrev Store (σ : Type) := (call : Call) → Info → σ → Except GoError call.Result × σ

end Aegis.Persistence
