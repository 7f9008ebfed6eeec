/-
  Aegis.Api.Chat

  The chat handler (`Gateway.chat` in internal/api/gateway.go).

  `chatJob` is the handler up to the call of the service: it refuses a request
  or submits a job.  `chatReply` is the rest of it, from what the execution
  emitted and returned.  A stream is written while it is emitted, and the
  handler ends it with `[DONE]`.

  A repeated request loads the stored response, but nothing emits it.  The
  handler finds that the stream has not started, starts it and ends it: the
  client of a repeated stream gets no content.

  The body of a request arrives decoded, and writes to the client succeed
  unless the handler looks at their error.
-/

import Aegis.Api.Sse
import Aegis.Gateway.Replay

namespace Aegis.Api

open Aegis.Gateway (Action Client FreshStep Job Outcome Platform Principal
  Process Replayable Service Submission System UnusedID contents contents_nil replayOf)
open Aegis.JsonText (Format bytes text)
open Aegis.Persistence (Call Catalog Db Info LoadLaw Memory RequestView ReuseLaw StoreLaw
  TenantPolicy)
open Aegis.Provider (Chunk)
open Aegis.Request (ChatInput ChatResponse Record State)
open Aegis.Routing (Router)

/-! ## Errors -/

/-- The texts of the sentinels. -/
def sentinelText : Sentinel → String
  | .errNotFound => "record not found"
  | .errConflict => "idempotency key payload conflict"
  | .errAlreadyFinal => "request already finalized"
  | .errModelForbidden => "model is not enabled for tenant"
  | .errExceeded => "tenant budget exceeded"
  | .errNoEligibleProvider => "no eligible provider"
  | .canceled => "context canceled"
  | .deadlineExceeded => "context deadline exceeded"

/-- `err.Error()`.  A `provider.Error` leaves its cause out; the text of a network
    error is not modelled. -/
def errorText : List Layer → String
  | [] => ""
  | .provider e :: _ => "provider " ++ e.provider ++ ": " ++ e.category
  | .sentinel s :: _ => sentinelText s
  | .net _ :: _ => ""
  | [.text message] => message
  | .text message :: cause => message ++ ": " ++ errorText cause

def errorCode (err : GoError) : String :=
  match err.asProvider with
  | some providerErr => providerErr.category
  | none => "provider_unavailable"

/-! ## The handler -/

/-- What `chat` reads of a request, and the replica that serves it. -/
structure ChatRequest where
  replica : Nat
  principal : Principal
  /-- the header `Idempotency-Key` -/
  idempotencyKey : String
  /-- what the decoder makes of the body -/
  body : Option ChatInput
  correlationID : String
  requestID : String

/-- What `chat` writes. -/
inductive ChatReply where
  /-- `writeProblem`, with the header `Retry-After` -/
  | problem (status : Nat) (code detail : String) (retryAfter : Option String)
  /-- a response, with the header `Idempotency-Replayed` -/
  | completion (response : ChatResponse) (replayed : Bool)
  /-- the view of a request that is not completed -/
  | accepted (record : Record)
  | events (body : List UInt8)
deriving DecidableEq

/-- `chat` up to the call of the service; `writes` tells which writes of the
    stream fail. -/
def chatJob (writes : Client) (request : ChatRequest) : Except ChatReply Job :=
  let idempotencyKey := trimmed request.idempotencyKey
  if idempotencyKey.utf8ByteSize < 8 ∨ idempotencyKey.utf8ByteSize > 128 then
    .error (.problem 400 "invalid_idempotency_key"
      "Idempotency-Key must contain between 8 and 128 characters" none)
  else
    match request.body with
    | none =>
        .error (.problem 400 "invalid_request"
          "The request body is not a valid supported chat-completions request" none)
    | some input =>
        match input.validate with
        | .error err => .error (.problem 400 "invalid_request" (errorText err.chain) none)
        | .ok () =>
            .ok {
              replica := request.replica, principal := request.principal, idempotencyKey
              correlationID := request.correlationID, input
              entry := if input.stream then .stream (some writes) else .submit }

def writeServiceError (err : GoError) : ChatReply :=
  if err.is .errConflict then
    .problem 409 "idempotency_conflict" "The idempotency key was already used with different input"
      none
  else if err.is .errNotFound then
    .problem 404 "not_found" "The requested resource was not found" none
  else if err.is .errModelForbidden then
    .problem 403 "model_forbidden" "The requested model is not enabled for this tenant" none
  else if err.is .errAlreadyFinal then
    .problem 409 "invalid_request_state"
      "The logical request is already final or changed concurrently" none
  else if err.is .errExceeded then
    .problem 402 "budget_exceeded" "The tenant budget cannot reserve this request" none
  else if "rate limit rejected".toList <:+: (errorText err.chain).toList then
    .problem 429 "rate_limit_exceeded" "The distributed tenant or API-key limit was exceeded"
      (some "60")
  else if err.is .errNoEligibleProvider then
    .problem 503 "provider_unavailable" "No eligible AI provider is currently available" none
  else .problem 502 (errorCode err) "The completion could not be produced" none

def writeOutcome (outcome : Outcome) : ChatReply :=
  match outcome.response with
  | some response => .completion response outcome.replayed
  | none => .accepted outcome.record

section Stream

variable (format : Format)

/-- The frames that `Emit` has written, at the times of `clock`. -/
def SseWriter.frames (writer : SseWriter) (clock : Nat → Int) (chunks : List Chunk) :
    List UInt8 :=
  chunks.zipIdx.flatMap fun (chunk, index) => writer.emit format (clock index) chunk

/-- `sseWriter.Error`. -/
def errorFrame (code : String) : List UInt8 :=
  bytes "event: error\n" ++ frame (text format (.obj [("code", .str code),
    ("message", .str "stream terminated before completion")]))

/-- `chat` after `Stream`, which called `Emit` for the chunks. -/
def streamReply (writer : SseWriter) (clock : Nat → Int) (chunks : List Chunk) :
    Except GoError Outcome → ChatReply
  | .error err =>
      if chunks ≠ [] then .events (writer.frames format clock chunks
        ++ errorFrame format (errorCode err))
      else writeServiceError err
  | .ok outcome =>
      if outcome.pending then writeOutcome outcome
      else .events (writer.frames format clock chunks ++ done)

/-- `chat` after `Submit`. -/
def submitReply : Except GoError Outcome → ChatReply
  | .error err => writeServiceError err
  | .ok outcome => writeOutcome outcome

/-- The reply to a request whose execution has returned. -/
def chatReply (request : ChatRequest) (clock : Nat → Int) (p : Process) : Option ChatReply :=
  match p.phase with
  | .returned result =>
      some (if p.job.input.stream then
        streamReply format ⟨request.requestID, p.job.input.model⟩ clock (p.emitted.map Prod.snd)
          result
      else submitReply result)
  | _ => none

end Stream

/-! ## What a stream delivers -/

/-- The body is a stream of deltas that concatenate to `content`, and the end. -/
def Delivers (format : Format) (body : List UInt8) (content : String) : Prop :=
  ∃ (writer : SseWriter) (posts : List (Int × Chunk)),
    body = posts.flatMap (fun post => writer.emit format post.1 post.2) ++ done
      ∧ contents (posts.map Prod.snd) = content

section Delivers

variable {format : Format}

theorem frames_delivers (writer : SseWriter) (clock : Nat → Int) (chunks : List Chunk) :
    Delivers format (writer.frames format clock chunks ++ done) (contents chunks) := by
  refine ⟨writer, chunks.zipIdx.map fun x => (clock x.2, x.1), ?_, ?_⟩
  · rw [SseWriter.frames, List.flatMap_map]
  · rw [List.map_map, show Prod.snd ∘ (fun x : Chunk × Nat => (clock x.2, x.1)) = Prod.fst from rfl,
      List.zipIdx_map_fst]

/-- The end alone delivers nothing. -/
theorem done_delivers_iff (content : String) : Delivers format done content ↔ content = "" := by
  constructor
  · rintro ⟨writer, posts, hbody, rfl⟩
    have hframes : posts.flatMap (fun post => writer.emit format post.1 post.2) = [] :=
      List.self_eq_append_left.mp hbody
    cases posts with
    | nil => rfl
    | cons post rest =>
        -- a frame is not empty
        rw [List.flatMap_cons] at hframes
        have hname := (List.append_eq_nil_iff.mp hframes).1
        simp [SseWriter.emit, frame] at hname
  · rintro rfl
    exact ⟨⟨"", ""⟩, [], rfl, rfl⟩

end Delivers

/-! ## A repeated request -/

/-- The same tenant, key and input. -/
structure ChatRequest.Repeats (again first : ChatRequest) : Prop where
  tenant : again.principal.tenantID = first.principal.tenantID
  key : trimmed again.idempotencyKey = trimmed first.idempotencyKey
  body : again.body = first.body

/-- A request that is not refused is submitted as it is. -/
theorem chatJob_eq_ok {writes : Client} {request : ChatRequest} {job : Job}
    (h : chatJob writes request = .ok job) :
    job.principal = request.principal ∧ job.idempotencyKey = trimmed request.idempotencyKey
      ∧ request.body = some job.input
      ∧ job.entry = if job.input.stream then .stream (some writes) else .submit := by
  unfold chatJob at h
  dsimp only at h
  split at h
  · cases h
  · split at h
    · cases h
    · next input hbody =>
        split at h
        · cases h
        · cases h
          exact ⟨rfl, rfl, hbody, rfl⟩

theorem ChatRequest.Repeats.job {again first : ChatRequest} (h : again.Repeats first)
    {writes writes' : Client} {job job' : Job} (hfirst : chatJob writes first = .ok job)
    (hagain : chatJob writes' again = .ok job') : Gateway.Repeats job' job := by
  obtain ⟨hprincipal, hkey, hbody, -⟩ := chatJob_eq_ok hfirst
  obtain ⟨hprincipal', hkey', hbody', -⟩ := chatJob_eq_ok hagain
  refine ⟨?_, ?_, ?_⟩
  · rw [hprincipal', hprincipal]
    exact h.tenant
  · rw [hkey', hkey]
    exact h.key
  · exact Option.some.inj (hbody'.symm.trans (h.body.trans hbody))

/-- The stream that answered first and the reply to the request that repeats it,
    in the step that answers it.  The first delivers what is stored, and the second
    does if and only if that is nothing. -/
def ReplaysOnlyEmpty {σ : Type} (format : Format) (platform : Platform σ)
    (view : σ → String → Option RequestView) (x : System σ) (id : String) (writes : Client)
    (first again : ChatRequest) (clock clock' : Nat → Int) (p : Process) (pid : Nat)
    (env : Gateway.Env) : Prop :=
  ∃ v response content q body,
    view x.store id = some v ∧ v.state = .completed ∧ v.response = some response
      ∧ response.content? = some content
      ∧ ((∀ chunks, writes chunks = none) →
        ∃ body, chatReply format first clock p = some (.events body)
          ∧ Delivers format body content)
      ∧ (x.step platform (.advance pid env)).procs pid = some q
      ∧ chatReply format again clock' q = some (.events body)
      ∧ (Delivers format body content ↔ content = "")

section Replay

variable {σ : Type} {platform : Platform σ} {view : σ → String → Option RequestView}
  {Fresh : σ → Call × Info → Prop}
  {holding : σ → String → String → Option (String × List UInt8)} {Valid : σ → Prop}
  {Enabled : σ → String → String → Prop}

/-- The reply to a job that streams. -/
theorem chatReply_stream {format : Format} {request : ChatRequest} {clock : Nat → Int}
    {p : Process} {outcome : Outcome} (hphase : p.phase = .returned (.ok outcome))
    (hstream : p.job.input.stream = true) (hpending : outcome.pending = false) :
    chatReply format request clock p = some (.events
      (SseWriter.frames format ⟨request.requestID, p.job.input.model⟩ clock
        (p.emitted.map Prod.snd) ++ done)) := by
  simp only [chatReply, hphase, hstream, if_true, streamReply, hpending, Bool.false_eq_true,
    if_false]

/-- **Repeated streams**, on every store that keeps its keys. -/
theorem replaysOnlyEmpty_of_laws (format : Format) (law : StoreLaw platform.store view Fresh)
    (reuse : ReuseLaw platform.store holding Valid Fresh Enabled)
    (load : LoadLaw platform.store view Valid Enabled) {s : σ} (hempty : ∀ id, view s id = none)
    (hstart : Valid s) (routers : Nat → Router) (actions : List Action)
    (hfresh : ∀ t ∈ Lib.trace (System.step platform) (System.init s routers) actions,
      FreshStep Fresh t.1 t.2.1)
    {first again : ChatRequest} (hrepeats : again.Repeats first) {writes writes' : Client}
    {pid pid' : Nat} {p : Process} {record : Record} {outcome : Outcome} {job : Job}
    {env : Gateway.Env}
    (hp : (Lib.run (System.step platform) (System.init s routers) actions).procs pid = some p)
    (hfirst : chatJob writes first = .ok p.job) (hstream : p.job.input.stream = true)
    (hopened : p.opened = some (record, true)) (hreturned : p.phase = .returned (.ok outcome))
    (hq : (Lib.run (System.step platform) (System.init s routers) actions).procs pid'
      = some { job })
    (hagain : chatJob writes' again = .ok job) (hfault : env.fault = none)
    (clock clock' : Nat → Int) :
    ReplaysOnlyEmpty format platform view
      (Lib.run (System.step platform) (System.init s routers) actions) record.id writes first again
      clock clock' p pid' env := by
  have hsame : Gateway.Repeats job p.job := hrepeats.job hfirst hagain
  have hentry : p.job.entry = .stream (some writes) := by
    rw [(chatJob_eq_ok hfirst).2.2.2, hstream]
    rfl
  have hstream' : job.input.stream = true := by
    rw [hsame.input]
    exact hstream
  have hentry' : job.entry ≠ .stream none := by
    rw [(chatJob_eq_ok hagain).2.2.2, hstream']
    simp
  -- the execution that created the request has stored its response
  have hreplayable := Gateway.replayable_run law s routers actions hfresh hempty
  have hcontract := Gateway.streamContract_of_storeLaw platform law s routers actions hfresh
  have hanswer : p.answer? = some (record.id, outcome.response) := by
    rw [Process.answer?, hreturned, hopened]
  obtain ⟨v, hv, hcompleted, -⟩ := hreplayable.answers hp hanswer
  have hemit : p.job.emit.isSome = true := by
    rw [Job.emit, hentry]
    rfl
  obtain ⟨response, hresponse, hcontent⟩ := hcontract.stored hp hopened hemit hv hcompleted
  have hconcludes : p.Concludes := by
    refine System.run_forall platform (Q := Process.Concludes) ?_ ?_ s routers actions pid p hp
    · rintro job record outcome ⟨⟩
    · exact fun p env s router h => h.step _ env s router
  have hpending : outcome.pending = false := hconcludes hopened hreturned
  -- the repeated request loads it
  obtain ⟨t, ht, hsubmission⟩ := Gateway.opened_submission s routers actions hp hopened
  obtain ⟨record', w, hid, hw, hstate, hloaded, hnext⟩ := Gateway.answered_of_laws reuse load
    hstart routers actions hfresh ht (hsubmission.of_repeats hsame) hq rfl hentry' hfault
  obtain rfl := Option.some.inj (hv.symm.trans hw)
  have hreplay : replayOf record'
      = { record := record', response := some response, replayed := true } := by
    rw [replayOf, ← hloaded, hresponse, ← hstate, hcompleted]
    rfl
  have hreply : chatReply format again clock' (Process.opens { job } record' false)
      = some (.events done) := by
    have hphase : (Process.opens { job } record' false).phase
        = .returned (.ok (replayOf record')) := rfl
    rw [hreplay] at hphase
    exact chatReply_stream hphase hstream' rfl
  refine ⟨v, response, p.streamed, _, done, hv, hcompleted, hresponse, hcontent, ?_, hnext, hreply,
    done_delivers_iff _⟩
  intro _
  exact ⟨_, chatReply_stream hreturned hstream hpending, frames_delivers _ _ _⟩

end Replay

/-- **A repeated stream is delivered exactly if it is empty.**  After any
    interleaving of executions and cancellations in which a streaming request was
    completed by its first call, a request with the same tenant, key and input that
    the store answers is replied to with `[DONE]` alone. -/
theorem stream_replay_iff (format : Format) (hashChat : ChatInput → Except GoError (List UInt8))
    (services : Nat → Service) (routers : Nat → Router) (actions : List Action)
    {first again : ChatRequest} (hrepeats : again.Repeats first) {writes writes' : Client}
    {pid pid' : Nat} {p : Process} {record : Record} {outcome : Outcome} {job : Job}
    {env : Gateway.Env}
    (hfirst : chatJob writes first = .ok p.job) (hstream : p.job.input.stream = true)
    (hopened : p.opened = some (record, true)) (hreturned : p.phase = .returned (.ok outcome))
    (hagain : chatJob writes' again = .ok job) (hfault : env.fault = none)
    (clock clock' : Nat → Int) :
    (∀ catalog : Catalog,
        let platform : Platform Db := { store := Persistence.Postgres.store, hashChat, services }
        let x := Lib.run (System.step platform) (System.init (Db.init catalog) routers) actions
        x.procs pid = some p → x.procs pid' = some { job } →
        ReplaysOnlyEmpty format platform Db.view x record.id writes first again clock clock' p pid'
          env)
      ∧ ∀ policies : String → Option TenantPolicy,
        let platform : Platform Memory := { store := Memory.store, hashChat, services }
        let start := System.init (Memory.withPolicies policies) routers
        let x := Lib.run (System.step platform) start actions
        (∀ t ∈ Lib.trace (System.step platform) start actions, UnusedID t.1 t.2.1) →
        x.procs pid = some p → x.procs pid' = some { job } →
        ReplaysOnlyEmpty format platform Memory.view x record.id writes first again clock clock' p
          pid' env := by
  constructor
  · intro catalog platform x hp hq
    exact replaysOnlyEmpty_of_laws format Persistence.Postgres.storeLaw
      Persistence.Postgres.reuseLaw Persistence.Postgres.loadLaw (fun _ => rfl)
      (Persistence.Db.modelled_init catalog) routers actions
      (fun t _ => Gateway.freshStep_of_true t.2.1) hrepeats hp hfirst hstream hopened hreturned hq
      hagain hfault clock clock'
  · intro policies platform start x hunused hp hq
    exact replaysOnlyEmpty_of_laws format Memory.storeLaw Memory.reuseLaw Memory.loadLaw
      (fun _ => rfl) (Memory.bound_withPolicies policies) routers actions
      (fun t ht => Gateway.freshStep_of_unusedID (hunused t ht)) hrepeats hp hfirst hstream hopened
      hreturned hq hagain hfault clock clock'

/-! ## Concrete runs -/

/-- Tenant `t` asks for a stream under the key `stream-1`. -/
def streamRequest (requestID : String) : ChatRequest where
  replica := 0
  principal := ⟨"t", "k", ""⟩
  idempotencyKey := " stream-1"
  body := some {
    model := "m", messages := [⟨"user", "hello"⟩], maxTokens := 10, stream := true }
  correlationID := "c"
  requestID := requestID

/-- The job of the request, with a client that takes everything. -/
def streamedJob : Job where
  replica := 0
  principal := ⟨"t", "k", ""⟩
  idempotencyKey := "stream-1"
  correlationID := "c"
  input := { model := "m", messages := [⟨"user", "hello"⟩], maxTokens := 10, stream := true }
  entry := .stream (some fun _ => none)

theorem streamedJob_valid : streamedJob.input.validate = .ok () := by
  rw [ChatInput.validate_eq_ok_iff]
  refine ⟨by decide, by decide, List.cons_ne_nil _ _, by decide, ?_, ?_, by decide⟩
  · intro message hmem
    rw [List.mem_singleton.mp hmem]
    exact ⟨by decide, by decide, by decide⟩
  · intro temperature hmem
    cases hmem

theorem chatJob_streamRequest (requestID : String) :
    chatJob (fun _ => none) (streamRequest requestID) = .ok streamedJob := by
  have hkey : trimmed " stream-1" = "stream-1" := by decide
  have hsize : ¬ ("stream-1".utf8ByteSize < 8 ∨ "stream-1".utf8ByteSize > 128) := by decide
  have hvalid := streamedJob_valid
  unfold streamedJob at hvalid
  unfold chatJob streamRequest streamedJob
  simp only [hkey, if_neg hsize, hvalid, if_true]

/-- The stream ends after the chunks, and the request is repeated as process 1. -/
def repeatedStream (chunks : List Chunk) : List Action :=
  .submit 0 streamedJob :: (List.replicate 8 (.advance 0 (Gateway.sampleEnv "r" "e" 1))
    ++ [.advance 0 (Gateway.sampleEnv "a" "f" 2), .advance 0 (Gateway.sampleEnv "" "" 3),
      .advance 0 { Gateway.sampleEnv "" "" 4 with stream := .ofChunks (.ok ⟨2, 1, 3⟩) chunks },
      .advance 0 (Gateway.sampleEnv "g" "h" 5), .advance 0 (Gateway.sampleEnv "" "" 6),
      .submit 1 streamedJob])

/-- The state before the step of process 1. -/
def afterStream (chunks : List Chunk) : System Db :=
  Lib.run (System.step Gateway.hashedPlatform) Gateway.sampleStart (repeatedStream chunks)

/-- The text that is stored of the request `r`. -/
def storedContent (x : System Db) : Option String :=
  ((x.store.view "r").bind RequestView.response).bind ChatResponse.content?

/-- The reply of process 1, after its step. -/
def secondReply (x : System Db) : Option ChatReply :=
  ((x.step Gateway.hashedPlatform (.advance 1 (Gateway.sampleEnv "s" "f" 9))).procs 1).bind
    (chatReply JsonText.wholeFormat (streamRequest "b") fun _ => 9)

/-- Process 0 has completed the request `r`, and process 1 waits for its step. -/
theorem afterStream_procs (chunks : List Chunk)
    (h : ((afterStream chunks).procs 0).map (fun p => (p.opened.map fun o => (o.1.id, o.2),
        match p.phase with
        | .returned (.ok _) => true
        | _ => false)) = some (some ("r", true), true))
    (hfree : ((Lib.run (System.step Gateway.hashedPlatform) Gateway.sampleStart
      (repeatedStream chunks).dropLast).procs 1).isNone = true) :
    (∃ p record outcome, (afterStream chunks).procs 0 = some p ∧ p.job = streamedJob
        ∧ p.opened = some (record, true) ∧ record.id = "r" ∧ p.phase = .returned (.ok outcome))
      ∧ (afterStream chunks).procs 1 = some { job := streamedJob } := by
  constructor
  · have hsubmitted : (Gateway.sampleStart.step Gateway.hashedPlatform
        (.submit 0 streamedJob)).procs 0 = some { job := streamedJob } := rfl
    obtain ⟨p, hp, hjob⟩ := System.run_job Gateway.hashedPlatform hsubmitted
      (repeatedStream chunks).tail
    rw [← Lib.run_cons] at hp
    have hp : (afterStream chunks).procs 0 = some p := hp
    rw [hp] at h
    obtain ⟨hopened, hreturned⟩ := Prod.mk.inj (Option.some.inj h)
    obtain ⟨⟨record, created⟩, hopened, hid⟩ := Option.map_eq_some_iff.mp hopened
    obtain ⟨hid, rfl⟩ := Prod.mk.inj hid
    split at hreturned
    · next outcome hphase => exact ⟨p, record, outcome, hp, hjob, hopened, hid, hphase⟩
    · cases hreturned
  · have hlast : repeatedStream chunks
        = (repeatedStream chunks).dropLast ++ [.submit 1 streamedJob] := rfl
    rw [afterStream, hlast, Lib.run_append]
    generalize Lib.run (System.step Gateway.hashedPlatform) Gateway.sampleStart
      (repeatedStream chunks).dropLast = x at hfree
    rw [Lib.run_cons, Lib.run_nil]
    simp only [System.step, Option.isNone_iff_eq_none.mp hfree, Function.update_self]

/-- A stream without content is repeated as it was. -/
theorem empty_stream_replayed :
    storedContent (afterStream []) = some ""
      ∧ ∃ body, secondReply (afterStream []) = some (.events body)
        ∧ Delivers JsonText.wholeFormat body "" := by
  have hstored : storedContent (afterStream []) = some "" := by decide +kernel
  refine ⟨hstored, ?_⟩
  obtain ⟨⟨p, record, outcome, hp, hjob, hopened, hid, hphase⟩, hq⟩ :=
    afterStream_procs [] (by decide +kernel) (by decide +kernel)
  have hrepeats : (streamRequest "b").Repeats (streamRequest "a") := ⟨rfl, rfl, rfl⟩
  have hfirst : chatJob (fun _ => none) (streamRequest "a") = .ok p.job := by
    rw [hjob]
    exact chatJob_streamRequest "a"
  have hstream : p.job.input.stream = true := by
    rw [hjob]
    rfl
  have hfault : (Gateway.sampleEnv "s" "f" 9).fault = none := rfl
  have hreplay : ReplaysOnlyEmpty JsonText.wholeFormat Gateway.hashedPlatform Db.view
      (afterStream []) record.id (fun _ => none) (streamRequest "a") (streamRequest "b")
      (fun _ => 4) (fun _ => 9) p 1 (Gateway.sampleEnv "s" "f" 9) :=
    (stream_replay_iff JsonText.wholeFormat (Idempotency.hashChat JsonText.wholeFormat)
      Gateway.hashedPlatform.services (fun _ => Gateway.sampleRouter) (repeatedStream []) hrepeats
      hfirst hstream hopened hphase (chatJob_streamRequest "b") hfault (fun _ => 4) (fun _ => 9)).1
      (Catalog.sample 100 Catalog.hundred_fits) hp hq
  rw [hid] at hreplay
  unfold storedContent at hstored
  unfold secondReply
  generalize afterStream [] = x at hreplay hstored
  obtain ⟨v, response, content, q, body, hv, -, hresponse, hcontent, -, hq', hreply, hiff⟩ :=
    hreplay
  have hv : x.store.view "r" = some v := hv
  rw [hv, Option.bind_some, hresponse, Option.bind_some, hcontent] at hstored
  obtain rfl := Option.some.inj hstored
  rw [hq', Option.bind_some]
  exact ⟨body, hreply, hiff.mpr rfl⟩

/-- The provider's answer in two chunks. -/
def hello : List Chunk := [{ content := "hel" }, { content := "lo" }]

/-- The first client gets it, and the client of the repeated stream nothing. -/
theorem hello_not_replayed :
    chatJob (fun _ => none) (streamRequest "b") = .ok streamedJob
      ∧ ((afterStream hello).procs 0).map (fun p => (p.streamed, match p.phase with
          | .returned (.ok outcome) => some outcome.record.id
          | _ => none)) = some ("hello", some "r")
      ∧ ((afterStream hello).procs 1).map Process.isSubmitted = some true
      ∧ storedContent (afterStream hello) = some "hello"
      ∧ secondReply (afterStream hello) = some (.events done)
      ∧ ¬ Delivers JsonText.wholeFormat done "hello" := by
  refine ⟨chatJob_streamRequest "b", by decide +kernel, by decide +kernel, by decide +kernel,
    by decide +kernel, ?_⟩
  rw [done_delivers_iff]
  decide

end Aegis.Api
