/-
  Aegis.Provider

  The provider contract (internal/provider/provider.go): what a provider is
  asked for, what it answers, and which failures may be retried.

  The behaviour of a provider is not fixed by the contract.  A completion is
  any result; a stream is any `StreamScript`, the tree of what a provider may
  do next given what its emit callback has returned so far.
-/

import Aegis.Request

namespace Aegis

/-- `Name()` and `Capabilities()` of a registered provider. -/
structure Provider where
  name : String
  models : List String
  dataClassifications : List String
deriving DecidableEq, Repr

namespace Provider

open Aegis.Request (ChatInput Message Usage)

/-- Provider-neutral input.  It is made from validated input, which has a
    message. -/
structure CompletionRequest where
  requestID : String
  model : String
  messages : List Message
  temperature : Option Float64
  maxTokens : Int
  messages_ne : messages ≠ []

/-- The request for a validated input. -/
def CompletionRequest.ofInput (requestID : String) (input : ChatInput) (h : input.Valid) :
    CompletionRequest where
  requestID := requestID
  model := input.model
  messages := input.messages
  temperature := input.temperature
  maxTokens := input.maxTokens
  messages_ne := h.messages_ne

/-- One final provider result. -/
structure Completion where
  providerRequestID : String := ""
  model : String
  content : String
  finishReason : String
  usage : Usage
deriving DecidableEq, Repr

/-- One bounded streaming unit. -/
structure Chunk where
  content : String := ""
  finishReason : String := ""
deriving DecidableEq, Repr

/-- `IsRetryable` classifies normalized and common transport failures. -/
def isRetryable (err : GoError) : Bool :=
  match err.asProvider with
  | some providerErr => providerErr.retryable && !providerErr.isPartial
  | none =>
      if err.is .canceled || err.is .deadlineExceeded then false
      else
        match err.asNet with
        | some timeout => timeout
        | none => false

def estimateTokens (messages : List Message) (content : String) : Usage :=
  let promptCharacters := (messages.map fun message => message.content.utf8ByteSize).sum
  let prompt : Nat := (promptCharacters + 3) / 4
  let completion : Nat := (content.utf8ByteSize + 3) / 4
  { promptTokens := prompt, completionTokens := completion, totalTokens := prompt + completion }

def normalizeModel (value : String) : String := trimmed value

/-- What a provider does inside `Stream(ctx, input, emit)`: return, or pass a
    chunk to `emit` and go on depending on the callback's error. -/
inductive StreamScript where
  | done (usage : Usage)
  | fail (err : GoError)
  | emit (chunk : Chunk) (next : Option GoError → StreamScript)

namespace StreamScript

/-- The script that emits the chunks of a list, stops at the first callback
    error and then returns `last`. -/
def ofChunks (last : Except GoError Usage) : List Chunk → StreamScript
  | [] =>
      match last with
      | .ok usage => done usage
      | .error err => fail err
  | chunk :: rest =>
      emit chunk fun
        | none => ofChunks last rest
        | some err => fail err

/-- What is emitted and returned when the callback never fails. -/
def accepted : StreamScript → List Chunk × Except GoError Usage
  | done usage => ([], .ok usage)
  | fail err => ([], .error err)
  | emit chunk next => (chunk :: (next none).accepted.1, (next none).accepted.2)

end StreamScript

end Provider

end Aegis
