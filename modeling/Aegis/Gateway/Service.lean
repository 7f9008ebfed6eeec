/-
  Aegis.Gateway.Service

  The gateway service (internal/gateway/service.go).

  `execute` calls the store, the rate limiter, the router and a provider, and
  other executions and cancellations run between any two of these calls.  It is
  therefore a machine.  A `Stage` is the point before one of the calls, with
  the local variables that are still needed; `Process.step` makes the call and
  goes on to the next point.  All that comes from outside is the `Env` of the
  step: clocks and identifiers, the limiter's decisions, what the router's
  filter saw, the provider's behaviour, and whether the store's answer was lost.
-/

import Aegis.Budget
import Aegis.Persistence.Store
import Aegis.Routing

namespace Aegis.Gateway

open Aegis.Persistence (AttemptParams Call CompletionParams CreateRequestParams FailureParams Info
  Store TenantPolicy)
open Aegis.Provider (Chunk Completion StreamScript isRetryable)
open Aegis.Request (ChatInput ChatResponse Message Record State Usage)
open Aegis.Routing (Lease Managed Router Selection Strategy highestPrices)

/-! ## Configuration -/

/-- `Config`; `strategy` is `none` for the empty string. -/
structure Config where
  strategy : Option Strategy := none
  maxAttempts : Int := 0
  /-- nanoseconds, as in package `time` -/
  initialBackoff : Int64 := 0
  maximumBackoff : Int64 := 0
  defaultMaxTokens : Int := 0
  maximumStreamBytes : Int := 0

def Config.withDefaults (config : Config) : Config where
  strategy := some (config.strategy.getD .weightedRoundRobin)
  maxAttempts := if config.maxAttempts ≤ 0 then 3 else config.maxAttempts
  initialBackoff := if config.initialBackoff ≤ 0 then 50000000 else config.initialBackoff
  maximumBackoff := if config.maximumBackoff ≤ 0 then 1000000000 else config.maximumBackoff
  defaultMaxTokens := if config.defaultMaxTokens ≤ 0 then 1024 else config.defaultMaxTokens
  maximumStreamBytes := if config.maximumStreamBytes ≤ 0 then 2 ^ 20 else config.maximumStreamBytes

theorem orDefault_pos {given standard : Int64} (h : 0 < standard) :
    0 < if given ≤ 0 then standard else given := by
  split
  · exact h
  · next hpos => exact Int64.not_le.mp hpos

/-- A service with its bounds in place. -/
structure Service where
  config : Config
  /-- a limiter is configured -/
  limited : Bool
  maxAttempts_pos : 0 < config.maxAttempts
  initialBackoff_pos : 0 < config.initialBackoff
  maximumBackoff_pos : 0 < config.maximumBackoff
  maximumStreamBytes_pos : 0 < config.maximumStreamBytes

/-- `NewService`; the store and the router are passed to each step. -/
def newService (limited : Bool) (config : Config) : Service where
  config := config.withDefaults
  limited := limited
  maxAttempts_pos := by
    simp only [Config.withDefaults]
    split <;> omega
  initialBackoff_pos := orDefault_pos rfl
  maximumBackoff_pos := orDefault_pos rfl
  maximumStreamBytes_pos := by
    simp only [Config.withDefaults]
    split <;> omega

/-! ## Requests and outcomes -/

/-- The authenticated caller. -/
structure Principal where
  tenantID : String
  apiKeyID : String
  userID : String
deriving DecidableEq, Repr

/-- The client's `emit`: what it returns for the last of the chunks passed to it. -/
abbrev Client := List Chunk → Option GoError

/-- `Submit`, or `Stream` with its emitter. -/
inductive Entry where
  | submit
  | stream (emit : Option Client)

/-- The arguments of a `Submit` or `Stream`, and the replica that runs it. -/
structure Job where
  replica : Nat
  principal : Principal
  idempotencyKey : String
  correlationID : String
  input : ChatInput
  entry : Entry

/-- The `emit` that `execute` is called with. -/
def Job.emit (job : Job) : Option Client :=
  match job.entry with
  | .submit => none
  | .stream emit => emit

structure Outcome where
  record : Record
  response : Option ChatResponse := none
  replayed : Bool := false
  pending : Bool := false
deriving DecidableEq, Repr

/-! ## Helpers -/

def buildResponse (requestID model : String) (completion : Completion) (now : Time) :
    ChatResponse where
  id := "chatcmpl-" ++ requestID
  object := "chat.completion"
  created := now / Time.seconds 1
  model := model
  choices := [{
    index := 0, message := { role := "assistant", content := completion.content }
    finishReason := completion.finishReason }]
  usage := completion.usage
  aegis := { requestID, status := .completed }

def estimatePromptTokens (messages : List Message) : Int :=
  ((messages.map fun message => message.content.utf8ByteSize).sum + 3) / 4

def errorCategory (err : GoError) : String :=
  match err.asProvider with
  | some providerErr => providerErr.category
  | none =>
      if err.is .canceled then "cancelled"
      else if err.is .deadlineExceeded then "deadline_exceeded"
      else "provider_unavailable"

/-- The `delay` of `waitBackoff`.  The cap comes after the shift, which keeps the
    low 64 bits. -/
def backoffDelay (initial maximum : Int64) (attempt : Nat) : Int :=
  let delay := wrap64 (initial.toInt * 2 ^ (attempt - 1))
  if delay > maximum.toInt then maximum.toInt else delay

/-- How long `waitBackoff` waits, given the eight random bytes, when its context
    lives on.  A timer that is not positive fires at once. -/
def waitBackoff (initial maximum : Int64) (attempt : Nat) (random : UInt64) : Int :=
  let delay := backoffDelay initial maximum attempt
  let jitter := (random.toNat : Int) % max 1 (delay.tdiv 2)
  max 0 (wrap64 (delay.tdiv 2 + jitter))

/-- `ratelimit.Limits`. -/
structure Limits where
  requestsPerMinute : Int
  tokensPerMinute : Int
  maxConcurrent : Int

/-- `ratelimit.Decision`. -/
structure Decision where
  allowed : Bool
  reason : String

/-- `admit`, given the limiter's answers; the permits are released in the end. -/
def admission (service : Service) (principal : Principal) (policy : TenantPolicy)
    (estimatedTokens : Int) (allow : String → Limits → Int → Except GoError Decision) :
    Except GoError Unit := do
  unless service.limited do return ()
  let limits : Limits := ⟨policy.requestsPerMinute, policy.tokensPerMinute, policy.maxConcurrent⟩
  for bucket in ["tenant:" ++ principal.tenantID, "key:" ++ principal.apiKeyID] do
    let decision ← allow bucket limits estimatedTokens
    unless decision.allowed do
      throw (.new ("rate limit rejected: " ++ decision.reason))

/-! ## Calling a provider -/

/-- The variables that the callback of `call` closes over, and the chunks it
    has passed to `emit`. -/
structure StreamState where
  content : String := ""
  isPartial : Bool := false
  passed : List Chunk := []

/-- The callback given to `Stream`; `before` are the chunks of earlier attempts. -/
def callback (service : Service) (emit : Client) (before : List Chunk) (st : StreamState)
    (chunk : Chunk) : Option GoError × StreamState :=
  if (st.content.utf8ByteSize + chunk.content.utf8ByteSize : Nat)
      > service.config.maximumStreamBytes then
    (some (.new "stream exceeded bounded response size"), st)
  else
    let st := { st with passed := st.passed ++ [chunk] }
    let st := if chunk.content ≠ "" then
      { st with content := st.content ++ chunk.content, isPartial := true } else st
    (emit (before ++ st.passed), st)

/-- A provider's `Stream` with that callback. -/
def runStream (service : Service) (emit : Client) (before : List Chunk) :
    StreamScript → StreamState → Except GoError Usage × StreamState
  | .done usage, st => (.ok usage, st)
  | .fail err, st => (.error err, st)
  | .emit chunk next, st =>
      let (result, st) := callback service emit before st chunk
      runStream service emit before (next result) st

/-- What `call` returns, and the chunks passed to the client meanwhile. -/
structure CallResult where
  completion : Except GoError Completion
  isPartial : Bool
  passed : List Chunk

/-- `call`: `Complete` without an emitter, `Stream` with one. -/
def call (service : Service) (job : Job) (before : List Chunk)
    (complete : Except GoError Completion) (stream : StreamScript) : CallResult :=
  match job.emit with
  | none => ⟨complete, false, []⟩
  | some emit =>
      match runStream service emit before stream {} with
      | (.error err, st) => ⟨.error err, st.isPartial, st.passed⟩
      | (.ok usage, st) =>
          ⟨.ok { model := job.input.model, content := st.content, finishReason := "stop", usage },
            st.isPartial, st.passed⟩

/-! ## The machine -/

/-- The variables of the retry loop. -/
structure Loop where
  attemptNumber : Nat := 1
  excluded : List String := []
  lastErr : Option GoError := none
  selection : Selection

/-- Where `execute` is, once it has created its request. -/
inductive Stage where
  /-- before the transition to VALIDATED -/
  | received
  /-- before `TenantPolicy` -/
  | validated
  /-- before the transition to FAILED that precedes `return err` -/
  | abandoning (err : GoError)
  /-- before `admit` -/
  | admitting (policy : TenantPolicy)
  /-- before `ReserveBudget` -/
  | reserving (selection : Selection) (reservation : Int)
  /-- before `RejectBudget` -/
  | rejecting (reservation : Int) (err : GoError)
  /-- before the transition to ROUTING -/
  | reserved (selection : Selection)
  /-- before the transition to IN_PROGRESS -/
  | routed (selection : Selection)
  /-- at the head of the loop -/
  | selecting (loop : Loop)
  /-- before `StartAttempt` -/
  | leased (loop : Loop) (lease : Lease)
  /-- before the provider call -/
  | attempted (loop : Loop) (lease : Lease)
  /-- during the provider call -/
  | calling (loop : Loop) (lease : Lease) (started : Time)
  /-- before `CompleteRequest` -/
  | completing (loop : Loop) (lease : Lease) (started : Time) (providerRequestID : String)
      (response : ChatResponse) (cost : Int)
  /-- before `ReconcileBudget` of a completed request -/
  | settling (response : ChatResponse) (cost : Int)
  /-- before `FailAttempt` -/
  | failing (loop : Loop) (started : Time) (err : GoError) (isPartial retryable : Bool)
  /-- in `waitBackoff` -/
  | backingOff (loop : Loop) (err : GoError)
  /-- before the `FailAttempt` after the loop -/
  | closing (err : GoError)
  /-- before the `ReconcileBudget` after the loop -/
  | releasing (err : GoError)

inductive Phase where
  | submitted
  | running (record : Record) (stage : Stage)
  | returned (result : Except GoError Outcome)
  /-- a division by zero in `Select` has ended the goroutine -/
  | panicked

/-- One `Submit` or `Stream`. -/
structure Process where
  job : Job
  phase : Phase := .submitted
  /-- what `CreateOrGetRequest` returned -/
  opened : Option (Record × Bool) := none
  /-- the provider calls begun: attempt number and provider -/
  calls : List (Nat × String) := []
  /-- the chunks passed to the client's `emit`, with the attempt they belong to -/
  emitted : List (Nat × Chunk) := []

namespace Process

def tenantID (p : Process) : String := p.job.principal.tenantID

/-- Go on at a stage. -/
def goto (p : Process) (record : Record) (stage : Stage) : Process :=
  { p with phase := .running record stage }

def isSubmitted (p : Process) : Bool :=
  match p.phase with
  | .submitted => true
  | _ => false

def done (p : Process) (result : Except GoError Outcome) : Process :=
  { p with phase := .returned result }

end Process

/-- A call to the store that returns an error for a reason outside of it. -/
inductive Fault where
  /-- the call has no effect -/
  | refused (err : GoError)
  /-- the call has its effect and the answer is lost -/
  | unacknowledged (err : GoError)

structure Env where
  info : Info
  fault : Option Fault := none
  allow : String → Limits → Int → Except GoError Decision := fun _ _ _ => .ok ⟨true, ""⟩
  /-- what the router's filter saw, when not the current state -/
  seen : Option (Nat → Managed) := none
  complete : Except GoError Completion := .error (.ofSentinel .canceled)
  stream : StreamScript := .fail (.ofSentinel .canceled)
  /-- the error of `waitBackoff` -/
  backoff : Option GoError := none

/-- A call to the store, as `execute` sees it. -/
def perform {σ : Type} (store : Store σ) (call : Call) (env : Env) (s : σ) :
    Except GoError call.Result × σ :=
  match env.fault with
  | none => store call env.info s
  | some (.refused err) => (.error err, s)
  | some (.unacknowledged err) => (.error err, (store call env.info s).2)

section Execute

variable {σ : Type} (store : Store σ) (hashChat : ChatInput → Except GoError (List UInt8))
  (service : Service)

/-- `execute` up to `CreateOrGetRequest` and its outcome. -/
def Process.open (p : Process) (env : Env) (s : σ) : Process × σ :=
  match p.job.entry with
  | .stream none => (p.done (.error (.new "stream emitter is required")), s)
  | _ =>
      match p.job.input.validate with
      | .error err => (p.done (.error err), s)
      | .ok () =>
          match hashChat p.job.input with
          | .error err => (p.done (.error err), s)
          | .ok hash =>
              match perform store (.createOrGetRequest {
                  tenantID := p.tenantID, apiKeyID := p.job.principal.apiKeyID
                  userID := p.job.principal.userID, idempotencyKey := p.job.idempotencyKey
                  canonicalHash := hash, input := p.job.input
                  correlationID := p.job.correlationID }) env s with
              | (.error err, s) => (p.done (.error err), s)
              | (.ok (record, created), s) =>
                  let p := { p with opened := some (record, created) }
                  if created then (p.goto record .received, s)
                  -- a repeated key is answered from the record and runs nothing
                  else if record.response.isSome && record.state == .completed then
                    (p.done (.ok { record, response := record.response, replayed := true }), s)
                  else (p.done (.ok { record, replayed := true, pending := true }), s)

/-- `execute` from `admit` to before `ReserveBudget`. -/
def Process.quote (p : Process) (record : Record) (policy : TenantPolicy) (env : Env)
    (router : Router) : Process :=
  let input := p.job.input
  let estimatedPrompt := estimatePromptTokens input.messages
  let maxCompletion :=
    if input.maxTokens = 0 then service.config.defaultMaxTokens else input.maxTokens
  match admission service p.job.principal policy (estimatedPrompt + maxCompletion) env.allow with
  | .error err => p.goto record (.abandoning err)
  | .ok () =>
      let selection : Selection := {
        model := input.model, dataClassification := policy.dataClassification
        allowedProviders := policy.allowedProviders
        strategy := service.config.strategy.getD .weightedRoundRobin }
      match highestPrices router.configs selection with
      | .error err => p.goto record (.abandoning err)
      | .ok (maxInputPrice, maxOutputPrice) =>
          match Budget.costMicroUSD estimatedPrompt maxCompletion maxInputPrice
              maxOutputPrice with
          -- unlike the errors above, this one leaves the request VALIDATED
          | .error err => p.done (.error err)
          | .ok reservation => p.goto record (.reserving selection reservation)

/-- The head of the loop: `Select`, unless the attempts are used up. -/
def Process.select (p : Process) (record : Record) (loop : Loop) (env : Env) (router : Router) :
    Process × Router :=
  if (loop.attemptNumber : Int) ≤ service.config.maxAttempts then
    let selection := { loop.selection with
      excludedProviders := loop.excluded, now := env.info.now }
    let seen := { router with state := env.seen.getD router.state }
    match Router.selectFrom seen router selection with
    | (.error err, router) =>
        if err = Router.divideByZero then ({ p with phase := .panicked }, router)
        else (p.goto record (.closing err), router)
    | (.ok lease, router) =>
        (p.goto record (.leased
          { loop with excluded := lease.provider.name :: loop.excluded } lease), router)
  else
    (p.goto record (.closing (loop.lastErr.getD (.ofSentinel .errNoEligibleProvider))), router)

/-- What follows a provider call. -/
def Process.answered (p : Process) (record : Record) (loop : Loop) (lease : Lease)
    (started : Time) (result : CallResult) (env : Env) (router : Router) : Process × Router :=
  let p := { p with
    emitted := p.emitted ++ result.passed.map fun chunk => (loop.attemptNumber, chunk) }
  match result.completion with
  | .ok completion =>
      match Budget.costMicroUSD completion.usage.promptTokens completion.usage.completionTokens
          lease.inputCostPerMillionMicro lease.outputCostPerMillionMicro with
      -- usage that has no price: neither the attempt nor the reservation is closed
      | .error costErr => (p.done (.error costErr), (router.failure lease false env.info.now).2)
      | .ok cost =>
          (p.goto record (.completing loop lease started completion.providerRequestID
            (buildResponse record.id p.job.input.model completion env.info.now) cost), router)
  | .error callErr =>
      let retryable := isRetryable callErr && !result.isPartial
        && decide ((loop.attemptNumber : Int) < service.config.maxAttempts)
      (p.goto record (.failing loop started callErr result.isPartial retryable),
        (router.failure lease retryable env.info.now).2)

/-- `execute` from a stage to the next. -/
def Process.advance (p : Process) (record : Record) (env : Env) (s : σ) (router : Router) :
    Stage → Process × σ × Router
  | .received =>
      match perform store (.transitionRequest p.tenantID record.id .received .validated) env s with
      | (.error err, s) => (p.done (.error err), s, router)
      | (.ok _, s) => (p.goto record .validated, s, router)
  | .validated =>
      match perform store (.tenantPolicy p.tenantID p.job.input.model) env s with
      | (.error err, s) => (p.goto record (.abandoning err), s, router)
      | (.ok policy, s) => (p.goto record (.admitting policy), s, router)
  | .abandoning err =>
      -- the error of this transition is dropped
      let (_, s) :=
        perform store (.transitionRequest p.tenantID record.id .validated .failed) env s
      (p.done (.error err), s, router)
  | .admitting policy => (p.quote service record policy env router, s, router)
  | .reserving selection reservation =>
      match perform store (.reserveBudget p.tenantID record.id reservation env.info.now) env s with
      | (.error err, s) =>
          if err.is .errExceeded then (p.goto record (.rejecting reservation err), s, router)
          else (p.done (.error err), s, router)
      | (.ok _, s) => (p.goto record (.reserved selection), s, router)
  | .rejecting reservation err =>
      let (_, s) := perform store
        (.rejectBudget p.tenantID record.id p.job.correlationID reservation) env s
      (p.done (.error err), s, router)
  | .reserved selection =>
      match perform store (.transitionRequest p.tenantID record.id .validated .routing) env s with
      | (.error err, s) => (p.done (.error err), s, router)
      | (.ok _, s) => (p.goto record (.routed selection), s, router)
  | .routed selection =>
      match perform store (.transitionRequest p.tenantID record.id .routing .inProgress) env s with
      | (.error err, s) => (p.done (.error err), s, router)
      | (.ok _, s) => (p.goto record (.selecting { selection }), s, router)
  | .selecting loop =>
      let (p, router) := p.select service record loop env router
      (p, s, router)
  | .leased loop lease =>
      match perform store (.startAttempt {
          requestID := record.id, tenantID := p.tenantID, number := loop.attemptNumber
          providerName := lease.provider.name, model := p.job.input.model
          correlationID := p.job.correlationID }) env s with
      | (.error err, s) =>
          (p.done (.error err), s, (router.failure lease false env.info.now).2)
      | (.ok _, s) => (p.goto record (.attempted loop lease), s, router)
  | .attempted loop lease =>
      -- nothing is asked of the store between `StartAttempt` and the provider
      let p := { p with calls := p.calls ++ [(loop.attemptNumber, lease.provider.name)] }
      (p.goto record (.calling loop lease env.info.now), s, router)
  | .calling loop lease started =>
      let result := call service p.job (p.emitted.map Prod.snd) env.complete env.stream
      let (p, router) := p.answered service record loop lease started result env router
      (p, s, router)
  | .completing loop lease started providerRequestID response cost =>
      match perform store (.completeRequest {
          requestID := record.id, tenantID := p.tenantID, attemptNumber := loop.attemptNumber
          providerRequestID, response, costMicroUSD := cost, startedAt := started
          correlationID := p.job.correlationID }) env s with
      -- a request finalized by another leaves the attempt and the reservation as they are
      | (.error err, s) =>
          (p.done (.error err), s, (router.failure lease false env.info.now).2)
      | (.ok _, s) =>
          (p.goto record (.settling response cost), s,
            (router.success lease (Time.sinceMillis started env.info.now)).2)
  | .settling response cost =>
      let (_, s) := perform store (.reconcileBudget record.id cost) env s
      let record := { record with
        state := .completed, response := some response, costMicroUSD := cost }
      (p.done (.ok { record, response := some response }), s, router)
  | .failing loop started err isPartial retryable =>
      match perform store (.failAttempt {
          requestID := record.id, tenantID := p.tenantID, attemptNumber := loop.attemptNumber
          category := errorCategory err, retryable, isPartial, final := !retryable
          startedAt := started, correlationID := p.job.correlationID }) env s with
      | (.error failErr, s) => (p.done (.error failErr), s, router)
      | (.ok _, s) =>
          -- a final failure has finalized the request: the loop is left past `closing`
          if retryable then (p.goto record (.backingOff loop err), s, router)
          else (p.goto record (.releasing err), s, router)
  | .backingOff loop err =>
      match env.backoff with
      | some waitErr => (p.goto record (.closing waitErr), s, router)
      | none =>
          (p.goto record (.selecting { loop with
            attemptNumber := loop.attemptNumber + 1, lastErr := some err }), s, router)
  | .closing err =>
      let (_, s) := perform store (.failAttempt {
        requestID := record.id, tenantID := p.tenantID, category := errorCategory err
        final := true, startedAt := env.info.now, correlationID := p.job.correlationID }) env s
      (p.goto record (.releasing err), s, router)
  | .releasing err =>
      let (_, s) := perform store (.reconcileBudget record.id 0) env s
      (p.done (.error err), s, router)

/-- `execute` to its next point. -/
def Process.step (p : Process) (env : Env) (s : σ) (router : Router) : Process × σ × Router :=
  match p.phase with
  | .submitted =>
      let (p, s) := p.open store hashChat env s
      (p, s, router)
  | .running record stage => p.advance store service record env s router stage
  | .returned _ | .panicked => (p, s, router)

end Execute

end Aegis.Gateway
