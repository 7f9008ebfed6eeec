/-
  Aegis.Provider.Mock

  The deterministic provider of local development (internal/provider/mock.go).

  What its context does to a call is an input: `interrupted` is the context's
  error if it ends the wait, and `ended` the one found before each word of a
  stream.  The counter of calls is the provider's state.
-/

import Aegis.Provider

namespace Aegis.Provider

open Aegis.Request (Usage)

/-- `strings.Fields`. -/
def fields (s : String) : List String :=
  ((s.toList.splitOnP isSpace).filter fun word => word ≠ []).map String.ofList

structure MockConfig where
  name : String
  models : List String
  latency : Int
  failFirst : Int
  failureCategory : String

structure Mock where
  config : MockConfig
  calls : Int

def newMock (config : MockConfig) : Mock where
  config := { config with
    name := if config.name = "" then "mock-primary" else config.name
    models := if config.models.length = 0 then ["aegis-small", "aegis-medium"] else config.models }
  calls := 0

namespace Mock

variable (mock : Mock)

/-- `wait`. -/
def wait (interrupted : Option GoError) : Option GoError :=
  if mock.config.latency ≤ 0 then none else interrupted

theorem wait_none : mock.wait none = none := by
  unfold wait
  split <;> rfl

/-- `injectFailure`. -/
def injectFailure : Option GoError × Mock :=
  let mock := { mock with calls := mock.calls + 1 }
  if mock.calls ≤ mock.config.failFirst then
    let category :=
      if mock.config.failureCategory = "" then "injected_transient"
      else mock.config.failureCategory
    (some ⟨[.provider { provider := mock.config.name, category, retryable := true },
      .text "deterministic failure injection"]⟩, mock)
  else (none, mock)

def content (input : CompletionRequest) : String :=
  "Deterministic response to: " ++ (input.messages.getLast input.messages_ne).content

/-- The result of `Complete`, by the calls counted so far. -/
def completion (input : CompletionRequest) : Completion where
  providerRequestID := "mock-" ++ toString mock.calls
  model := input.model
  content := content input
  finishReason := "stop"
  usage := estimateTokens input.messages (content input)

def complete (input : CompletionRequest) (interrupted : Option GoError) :
    Except GoError Completion × Mock :=
  match mock.wait interrupted with
  | some err => (.error err, mock)
  | none =>
      match mock.injectFailure with
      | (some err, mock) => (.error err, mock)
      | (none, mock) => (.ok (mock.completion input), mock)

/-- The words from `index` on, and the end of the stream. -/
def emitWords (usage : Usage) (ended : Nat → Option GoError) : Nat → List String → StreamScript
  | _, [] =>
      .emit { finishReason := "stop" } fun
        | some err => .fail ⟨.provider { provider := mock.config.name, category := "stream_write"
                                         isPartial := true } :: err.chain⟩
        | none => .done usage
  | index, word :: rest =>
      match ended index with
      | some err => .fail err
      | none =>
          .emit { content := if rest ≠ [] then word ++ " " else word } fun
            | some err => .fail ⟨.provider { provider := mock.config.name
                                             category := "stream_write"
                                             isPartial := decide (index > 0) } :: err.chain⟩
            | none => emitWords usage ended (index + 1) rest

def stream (input : CompletionRequest) (interrupted : Option GoError)
    (ended : Nat → Option GoError) : StreamScript × Mock :=
  match mock.wait interrupted with
  | some err => (.fail err, mock)
  | none =>
      match mock.injectFailure with
      | (some err, mock) => (.fail err, mock)
      | (none, mock) =>
          (mock.emitWords (estimateTokens input.messages (content input)) ended 0
            (fields (content input)), mock)

/-- The chunks of a word list: all but the last word are followed by a blank. -/
def wordChunks : List String → List Chunk
  | [] => [{ finishReason := "stop" }]
  | word :: rest => { content := if rest ≠ [] then word ++ " " else word } :: wordChunks rest

theorem emitWords_accepted (usage : Usage) {ended : Nat → Option GoError}
    (hended : ∀ index, ended index = none) (index : Nat) (words : List String) :
    (mock.emitWords usage ended index words).accepted = (wordChunks words, .ok usage) := by
  induction words generalizing index with
  | nil => rfl
  | cons word rest ih =>
      rw [emitWords, hended]
      show (_ :: (mock.emitWords usage ended (index + 1) rest).accepted.1,
        (mock.emitWords usage ended (index + 1) rest).accepted.2) = _
      rw [ih, wordChunks]

end Mock

end Aegis.Provider
