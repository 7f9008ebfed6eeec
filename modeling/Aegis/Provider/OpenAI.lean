/-
  Aegis.Provider.OpenAI

  The adapter for providers that speak the OpenAI HTTP protocol
  (internal/provider/openai.go).

  An `Exchange` is what the network made of one HTTP request: it could not be
  sent, `client.Do` failed, or there was a response with a status and a body,
  of which some bytes can be read before the end or a read error.  `Complete`
  decodes the body.  `Stream` scans its lines for server-sent events and hands
  each chunk to the callback, so its behaviour is a `StreamScript`.
-/

import Aegis.JsonText
import Aegis.Lib.Lines
import Aegis.Provider

namespace Aegis.Provider

open Aegis.JsonText (bytes)
open Aegis.Request (ChatInput Message Usage)

/-! ## Blanks -/

/-- `unicode.IsSpace`. -/
def spaceCodes : List Nat :=
  [0x09, 0x0a, 0x0b, 0x0c, 0x0d, 0x20, 0x85, 0xa0, 0x1680] ++ List.range' 0x2000 11
    ++ [0x2028, 0x2029, 0x202f, 0x205f, 0x3000]

def blanks : List (List UInt8) := spaceCodes.map fun n => String.utf8EncodeChar (Char.ofNat n)

/-- `strings.TrimSpace` on the bytes of a string. -/
def trimSpace (bs : List UInt8) : List UInt8 := Lib.trim blanks bs

/-! ## The adapter -/

/-- The part of the configuration that the adapter's answers depend on. -/
structure OpenAIConfig where
  name : String
  endpoint : String
  maxResponseBytes : Int

/-- A configured adapter. -/
structure OpenAICompatible where
  name : String
  maxResponseBytes : Nat
  named : name ≠ ""
  bounded : 0 < maxResponseBytes

def newOpenAICompatible (config : OpenAIConfig) : Except GoError OpenAICompatible :=
  if h : config.name = "" ∨ config.endpoint = "" then
    .error (.new "provider name and endpoint are required")
  else if hmax : config.maxResponseBytes ≤ 0 then
    .ok ⟨config.name, 8 * 2 ^ 20, fun heq => h (Or.inl heq), Nat.two_pow_pos 23⟩
  else
    .ok ⟨config.name, config.maxResponseBytes.toNat, fun heq => h (Or.inl heq),
      Int.pos_iff_toNat_pos.mp (Int.not_le.mp hmax)⟩

/-- The adapter for a provider `p` with the default limit, for concrete runs. -/
def sampleAdapter : OpenAICompatible :=
  (newOpenAICompatible ⟨"p", "http://p", 0⟩).toOption.get rfl

/-- What became of an HTTP request. -/
inductive Exchange where
  | unsent (err : GoError)
  /-- `client.Do` failed, when `remaining` nanoseconds were left of the deadline -/
  | failed (err : GoError) (remaining : Int)
  /-- the bytes of the body that arrive, and the read error after them if any -/
  | answered (status : Int) (body : List UInt8) (ending : Option GoError)

/-- The error of a provider, with its cause. -/
def ProviderError.caused (e : ProviderError) (cause : Option GoError) : GoError :=
  ⟨.provider e :: (cause.map GoError.chain).getD []⟩

def httpError (providerName : String) (status : Int) : GoError :=
  let retryable := status = 408 ∨ status = 429 ∨ status ≥ 500
  let category :=
    if status = 429 then "rate_limited"
    else if status = 401 ∨ status = 403 then "provider_authentication"
    else if status ≥ 400 ∧ status < 500 then "invalid_provider_request"
    else "upstream_error"
  ⟨[.provider { provider := providerName, category, status, retryable }]⟩

/-- One choice of a streamed event. -/
structure Delta where
  content : String
  finishReason : String
deriving DecidableEq, Repr

/-- An event as `Stream` decodes it. -/
structure Event where
  choices : List Delta
  usage : Option Usage
deriving DecidableEq, Repr

/-- A body as `Complete` decodes it. -/
structure Body where
  id : String
  model : String
  choices : List (Message × String)
  usage : Usage
deriving DecidableEq, Repr

/-- How encoding/json decodes what the provider sends. -/
structure Codec where
  body : List UInt8 → Option GoError → Except GoError Body
  event : List UInt8 → Except GoError Event

namespace OpenAICompatible

variable (adapter : OpenAICompatible) (codec : Codec)

/-- What a server decodes the payload of `call` to. -/
def payload (input : CompletionRequest) (stream : Bool) : ChatInput where
  model := normalizeModel input.model
  messages := input.messages
  temperature := input.temperature
  maxTokens := input.maxTokens
  stream := stream

/-- `call`: the body of a successful response. -/
def call : Exchange → Except GoError (List UInt8 × Option GoError)
  | .unsent err => .error (.wrap "create provider request" err)
  | .failed err remaining =>
      .error (ProviderError.caused
        { provider := adapter.name, category := "transport", retryable := decide (remaining > 0) }
        (some err))
  | .answered status body ending =>
      if status ≥ 400 then .error (httpError adapter.name status) else .ok (body, ending)

/-- `io.LimitReader(body, MaxResponseBytes)`: it ends without an error at the
    limit. -/
def limited (body : List UInt8) (ending : Option GoError) : List UInt8 × Option GoError :=
  if body.length < adapter.maxResponseBytes then (body, ending)
  else (body.take adapter.maxResponseBytes, none)

/-- What `Complete` makes of the decoded body. -/
def completionOf : Except GoError Body → Except GoError Completion
  | .error err => .error (ProviderError.caused
      { provider := adapter.name, category := "malformed_response" } (some err))
  | .ok body =>
      match body.choices with
      | [] => .error (ProviderError.caused
          { provider := adapter.name, category := "empty_response" } none)
      | (message, finishReason) :: _ =>
          .ok { providerRequestID := body.id, model := body.model, content := message.content
                finishReason, usage := body.usage }

def complete (exchange : Exchange) : Except GoError Completion := do
  let (body, ending) ← adapter.call exchange
  let (body, ending) := adapter.limited body ending
  adapter.completionOf (codec.body body ending)

theorem complete_answered {status : Int} (h : status < 400) (body : List UInt8)
    (ending : Option GoError) :
    adapter.complete codec (.answered status body ending)
      = adapter.completionOf
          (codec.body (adapter.limited body ending).1 (adapter.limited body ending).2) := by
  rw [complete, call, if_neg (not_le.mpr h)]
  rfl

/-! ## Scanning a stream -/

/-- `bufio.MaxScanTokenSize` as the adapter sets it. -/
def maxLine : Nat := 2 ^ 20

def dropCR (line : List UInt8) : List UInt8 :=
  if line.getLast? = some 0x0d then line.dropLast else line

/-- The lines that the scanner returns: those before one that is too long. -/
def tokens (body : List UInt8) : List (List UInt8) :=
  ((Lib.lines 0x0a body).takeWhile fun line => line.length < maxLine).map dropCR

/-- `scanner.Err()`. -/
def scannerErr (body : List UInt8) (ending : Option GoError) : Option GoError :=
  if (Lib.lines 0x0a body).all fun line => line.length < maxLine then ending
  else some (.new "bufio.Scanner: token too long")

/-- The data of a line, if it has the field name. -/
def data? (line : List UInt8) : Option (List UInt8) :=
  let line := trimSpace line
  if (bytes "data:").isPrefixOf line then some (trimSpace (line.drop 5)) else none

/-- The loop of `Stream` over the scanned lines; `last` is the scanner's error. -/
def scan (last : Option GoError) : Bool → Usage → List (List UInt8) → StreamScript
  | isPartial, _, [] =>
      match last with
      | some err => .fail (ProviderError.caused
          { provider := adapter.name, category := "stream_read", retryable := !isPartial
            isPartial } (some err))
      | none => .fail (ProviderError.caused
          { provider := adapter.name, category := "stream_ended_without_done"
            retryable := !isPartial, isPartial } none)
  | isPartial, usage, line :: rest =>
      match data? line with
      | none => scan last isPartial usage rest
      | some data =>
          if data = bytes "[DONE]" then .done usage
          else
            match codec.event data with
            | .error err => .fail (ProviderError.caused
                { provider := adapter.name, category := "malformed_stream", isPartial }
                (some err))
            | .ok event =>
                let usage := event.usage.getD usage
                match event.choices with
                | [] => scan last isPartial usage rest
                | choice :: _ =>
                    let isPartial := isPartial || choice.content != ""
                    .emit ⟨choice.content, choice.finishReason⟩ fun
                      | some err => .fail (ProviderError.caused
                          { provider := adapter.name, category := "stream_write", isPartial }
                          (some err))
                      | none => scan last isPartial usage rest

def noUsage : Usage := ⟨0, 0, 0⟩

def stream (exchange : Exchange) : StreamScript :=
  match adapter.call exchange with
  | .error err => .fail err
  | .ok (body, ending) =>
      let (body, ending) := adapter.limited body ending
      adapter.scan codec (scannerErr body ending) false noUsage (tokens body)

end OpenAICompatible

end Aegis.Provider
