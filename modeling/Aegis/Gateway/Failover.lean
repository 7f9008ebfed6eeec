/-
  Aegis.Gateway.Failover

  What follows a provider call that ran into its own deadline.

  The adapters report the deadline of an attempt like one of the caller: the
  mock provider returns the context's error, and the OpenAI adapter asks how
  much of the attempt's deadline is left, which is nothing.  Neither error is
  retryable.  Only a streamed body that stops short is read as a fault of the
  provider (`runStream_quiet`), and then the loop goes on to another provider
  (`timeout_fails_over`).
-/

import Aegis.Gateway.Leases
import Aegis.Provider.Mock
import Aegis.Provider.OpenAI

namespace Aegis.Gateway

open Aegis.JsonText (bytes)
open Aegis.Persistence (Call Db Store)
open Aegis.Provider (Chunk Codec Completion CompletionRequest Exchange Mock OpenAICompatible
  StreamScript isRetryable newMock sampleAdapter)
open Aegis.Provider.OpenAICompatible (data? maxLine noUsage scannerErr tokens)
open Aegis.Request (ChatInput Record Usage)
open Aegis.Routing (Lease Router)

/-! ## A stream that stops short -/

/-- A line that gives no content to the client: it has no data, or an event
    without content. -/
def Silent (codec : Codec) (line : List UInt8) : Prop :=
  ∀ data, data? line = some data → data ≠ bytes "[DONE]"
    ∧ ∃ event, codec.event data = .ok event ∧ ∀ choice ∈ event.choices.head?, choice.content = ""

/-- What arrived of a body, the unfinished last line included, is readable and
    gives no content. -/
structure Quiet (adapter : OpenAICompatible) (codec : Codec) (body : List UInt8) : Prop where
  within : body.length < adapter.maxResponseBytes
  short : ∀ line ∈ Lib.lines 0x0a body, line.length < maxLine
  silent : ∀ line ∈ tokens body, Silent codec line

/-- The error of `Stream` for a body that could not be read on. -/
def readError (adapter : OpenAICompatible) (err : GoError) : GoError :=
  Aegis.Provider.ProviderError.caused
    { provider := adapter.name, category := "stream_read", retryable := true } (some err)

section Read

variable {service : Service} {emit : Client} {adapter : OpenAICompatible} {codec : Codec}

/-- An event without content is passed on, and the client has seen nothing yet. -/
theorem callback_silent (hemit : ∀ chunks, emit chunks = none) (before : List Chunk)
    {st : StreamState} (hst : st.content = "" ∧ st.isPartial = false) (chunk : Chunk)
    (hchunk : chunk.content = "") :
    ∃ st', callback service emit before st chunk = (none, st') ∧ st'.content = ""
      ∧ st'.isPartial = false := by
  have hpos := service.maximumStreamBytes_pos
  have hfits : ¬ ((st.content.utf8ByteSize + chunk.content.utf8ByteSize : Nat) : Int)
      > service.config.maximumStreamBytes := by
    rw [hst.1, hchunk]
    show ¬ ((0 : Nat) : Int) > _
    omega
  unfold callback
  rw [if_neg hfits]
  dsimp only
  rw [if_neg (not_not.mpr hchunk), hemit]
  exact ⟨_, rfl, hst⟩

/-- The lines are read to the end, where the read error is found. -/
theorem runStream_silent (hemit : ∀ chunks, emit chunks = none) (before : List Chunk)
    (err : GoError) {lines : List (List UInt8)} (hlines : ∀ line ∈ lines, Silent codec line)
    (usage : Usage) {st : StreamState} (hst : st.content = "" ∧ st.isPartial = false) :
    ∃ st', runStream service emit before (adapter.scan codec (some err) false usage lines) st
        = (.error (readError adapter err), st') ∧ st'.isPartial = false := by
  induction lines generalizing usage st with
  | nil => exact ⟨st, rfl, hst.2⟩
  | cons line lines ih =>
      have hrest := fun line hline => hlines line (List.mem_cons_of_mem _ hline)
      rw [OpenAICompatible.scan]
      cases hdata : data? line with
      | none => exact ih hrest usage hst
      | some data =>
          obtain ⟨hne, event, hevent, hchoice⟩ := hlines line (List.mem_cons_self ..) data hdata
          dsimp only
          rw [if_neg hne, hevent]
          dsimp only
          cases hchoices : event.choices with
          | nil => exact ih hrest _ hst
          | cons choice rest =>
              have hcontent : choice.content = "" := by
                apply hchoice
                rw [hchoices]
                rfl
              obtain ⟨st', hcallback, hst'⟩ := callback_silent hemit before hst
                ⟨choice.content, choice.finishReason⟩ hcontent
              obtain ⟨st'', hrun, hflag⟩ := ih hrest (event.usage.getD usage) hst'
              refine ⟨st'', ?_, hflag⟩
              dsimp only [runStream]
              rw [hcallback, hcontent]
              exact hrun

/-- **A body that stops short is the provider's fault.** -/
theorem runStream_quiet (service : Service) (hemit : ∀ chunks, emit chunks = none)
    (before : List Chunk) {status : Int} (hstatus : status < 400) {body : List UInt8}
    (hquiet : Quiet adapter codec body) (err : GoError) :
    ∃ st, runStream service emit before (adapter.stream codec (.answered status body (some err))) {}
        = (.error (readError adapter err), st) ∧ st.isPartial = false := by
  have hlimited : adapter.limited body (some err) = (body, some err) := if_pos hquiet.within
  have hscanner : scannerErr body (some err) = some err := by
    apply if_pos
    rw [List.all_eq_true]
    intro line hline
    exact decide_eq_true (hquiet.short line hline)
  rw [OpenAICompatible.stream, OpenAICompatible.call, if_neg (not_le.mpr hstatus)]
  dsimp only
  rw [hlimited]
  dsimp only
  rw [hscanner]
  exact runStream_silent hemit before err hquiet.silent noUsage ⟨rfl, rfl⟩

end Read

/-! ## The loop goes on -/

/-- The provider of a lease is excluded from the next selection. -/
def Stage.Excludes : Stage → Prop
  | .leased loop lease | .attempted loop lease | .calling loop lease _ =>
      lease.provider.name ∈ loop.excluded
  | _ => True

/-- The stages on the way from a failed call to the next one, in their order. -/
inductive Stage.Retries (loop : Loop) : Nat → Stage → Prop
  | failing {started err isPartial} :
      Stage.Retries loop 0 (.failing loop started err isPartial true)
  | backingOff {err} : Stage.Retries loop 1 (.backingOff loop err)
  | selecting {err} : Stage.Retries loop 2 (.selecting { loop with
      attemptNumber := loop.attemptNumber + 1, lastErr := some err })
  | leased {next lease} (hnumber : next.attemptNumber = loop.attemptNumber + 1)
      (hnew : lease.provider.name ∉ loop.excluded) : Stage.Retries loop 3 (.leased next lease)
  | attempted {next lease} (hnumber : next.attemptNumber = loop.attemptNumber + 1)
      (hnew : lease.provider.name ∉ loop.excluded) : Stage.Retries loop 4 (.attempted next lease)

/-- A process is `k` steps past a failed call, or has begun the next one with
    another provider. -/
def FailsOver (job : Job) (calls : List (Nat × String)) (loop : Loop) (k : Nat) (p : Process) :
    Prop :=
  (p.job = job ∧ p.calls = calls
      ∧ ∃ record stage, p.phase = .running record stage ∧ stage.Retries loop k)
    ∨ ∃ name, name ∉ loop.excluded ∧ (loop.attemptNumber + 1, name) ∈ p.calls

section Loop

variable {σ : Type}

/-- Nothing else goes wrong in a step of the process: the store does what it is
    asked, the caller waits, and `Select` finds a provider. -/
structure Smooth (platform : Platform σ) (x : System σ) (p : Process) (env : Env) : Prop where
  answered : ∀ call, Makes p call → ∃ r, (perform platform.store call env x.store).1 = .ok r
  live : env.backoff = none
  selects : ∀ record loop, p.phase = .running record (.selecting loop) →
    ∃ lease, (Router.selectFrom
      { x.routers p.job.replica with
        state := env.seen.getD (x.routers p.job.replica).state }
      (x.routers p.job.replica) (loop.request env.info.now)).1 = .ok lease

variable {store : Store σ} {hashChat : ChatInput → Except GoError (List UInt8)}
  {service : Service} {platform : Platform σ} {x : System σ} {p : Process} {env : Env}

/-- Only `Select` hands out a lease, and it excludes the provider. -/
theorem Branch.excludes {record record' : Record} {stage stage' : Stage} {s s' : σ} {p' : Process}
    (h : Branch store service p record env s stage p' s') (hexcludes : stage.Excludes)
    (hphase' : p'.phase = .running record' stage') : stage'.Excludes := by
  cases h with
  | lease =>
      obtain ⟨-, rfl⟩ := Phase.running.inj hphase'
      exact List.mem_cons_self ..
  | start | begin =>
      obtain ⟨-, rfl⟩ := Phase.running.inj hphase'
      exact hexcludes
  | validate | policy | forbidden | refuse | quote | reserve | exceeded | route | progress
  | exhausted | answer | fault | complete | retry | fail | interrupted | again | close =>
      obtain ⟨-, rfl⟩ := Phase.running.inj hphase'
      exact trivial
  | unvalidated | abandon | unquoted | unreserved | reject | unrouted | stalled | unstarted
  | unpriced | uncompleted | settle | unfailed | release | panic => cases hphase'

theorem Process.step_excludes (s : σ) (router : Router)
    (h : ∀ record stage, p.phase = .running record stage → stage.Excludes) (record : Record)
    (stage : Stage)
    (hphase' : (p.step store hashChat service env s router).1.phase = .running record stage) :
    stage.Excludes := by
  rcases p.step_cases store hashChat service env s router with
    ⟨-, hopen, -⟩ | ⟨record', stage', hphase, hbranch⟩ | ⟨-, hsame, -⟩
  · obtain ⟨phase, opened, hresult, -, hreceived⟩ := p.open_result store hashChat env s
    rw [hopen, hresult] at hphase'
    rw [(hreceived record stage hphase').2]
    exact trivial
  · exact hbranch.excludes (h record' stage' hphase) hphase'
  · rw [hsame] at hphase'
    exact h record stage hphase'

/-- A provider call that has begun stays on record. -/
theorem Process.step_calls_mem (s : σ) (router : Router) {c : Nat × String} (h : c ∈ p.calls) :
    c ∈ (p.step store hashChat service env s router).1.calls := by
  rcases p.step_cases store hashChat service env s router with
    ⟨-, hopen, -⟩ | ⟨record, stage, -, hbranch⟩ | ⟨-, hsame, -⟩
  · obtain ⟨phase, opened, hresult, -⟩ := p.open_result store hashChat env s
    rw [hopen, hresult]
    exact h
  · by_cases hstage : ∃ loop lease, stage = .attempted loop lease
    · obtain ⟨loop, lease, rfl⟩ := hstage
      generalize p.step store hashChat service env s router = result at hbranch ⊢
      obtain ⟨p', s', router'⟩ := result
      cases hbranch
      exact List.mem_append_left _ h
    · rw [hbranch.calls fun loop lease heq => hstage ⟨loop, lease, heq⟩]
      exact h
  · rw [hsame]
    exact h

/-- **One step on.** -/
theorem FailsOver.step {job : Job} {calls : List (Nat × String)} {loop : Loop} {k : Nat}
    (h : FailsOver job calls loop k p)
    (hleft : (loop.attemptNumber : Int) < (platform.services job.replica).config.maxAttempts)
    (hsmooth : p.job = job → p.calls = calls → Smooth platform x p env) :
    FailsOver job calls loop (k + 1) (p.step platform.store platform.hashChat
      (platform.services p.job.replica) env x.store (x.routers p.job.replica)).1 := by
  rcases h with ⟨hjob, hcalls, record, stage, hphase, hretries⟩ | ⟨name, hnew, hmem⟩
  · have hsmooth := hsmooth hjob hcalls
    unfold Process.step
    rw [hphase]
    dsimp only
    cases hretries with
    | failing =>
        obtain ⟨r, hr⟩ := hsmooth.answered _ (Makes.fail hphase)
        simp only [Process.advance]
        split
        · next herror =>
            rw [herror] at hr
            cases hr
        · exact Or.inl ⟨hjob, hcalls, record, _, rfl, .backingOff⟩
    | backingOff =>
        simp only [Process.advance, hsmooth.live]
        exact Or.inl ⟨hjob, hcalls, record, _, rfl, .selecting⟩
    | selecting =>
        obtain ⟨lease, hlease⟩ := hsmooth.selects record _ hphase
        rw [hjob] at hlease
        simp only [Process.advance, hjob]
        rw [Process.select_eq _ _ _ _ _ _ (by push_cast; omega)]
        dsimp only
        rw [hlease]
        have hnew : lease.provider.name ∉ loop.excluded := by
          have hconfigs : (x.routers job.replica).configs
              = ({ x.routers job.replica with
                  state := env.seen.getD (x.routers job.replica).state } : Router).configs := rfl
          obtain ⟨config, -, hof, -, hnew⟩ := Router.selectFrom_ok hconfigs (Prod.ext hlease rfl)
          rw [hof]
          exact hnew
        exact Or.inl ⟨hjob, hcalls, record, _, rfl, .leased rfl hnew⟩
    | leased hnumber hnew =>
        obtain ⟨r, hr⟩ := hsmooth.answered _ (Makes.start hphase)
        simp only [Process.advance]
        split
        · next herror =>
            rw [herror] at hr
            cases hr
        · exact Or.inl ⟨hjob, hcalls, record, _, rfl, .attempted hnumber hnew⟩
    | @attempted next lease hnumber hnew =>
        refine Or.inr ⟨lease.provider.name, hnew, ?_⟩
        rw [← hnumber]
        exact List.mem_append_right _ (List.mem_singleton_self _)
  · exact Or.inr ⟨name, hnew, p.step_calls_mem x.store _ hmem⟩

/-- **A whole run.** Five steps of the process, whatever happens in between,
    lead to the next call. -/
theorem FailsOver.run {job : Job} {calls : List (Nat × String)} {loop : Loop} {k pid : Nat}
    (h : FailsOver job calls loop k p) (hp : x.procs pid = some p)
    (hleft : (loop.attemptNumber : Int) < (platform.services job.replica).config.maxAttempts)
    {actions : List Action}
    (hsmooth : ∀ step ∈ Lib.trace (System.step platform) x actions,
      ∀ env ∈ step.2.1.stepOf pid, ∀ q, step.1.procs pid = some q → q.job = job →
        q.calls = calls → Smooth platform step.1 q env) :
    ∃ p', (Lib.run (System.step platform) x actions).procs pid = some p'
      ∧ FailsOver job calls loop
          (k + actions.countP fun action => (action.stepOf pid).isSome) p' := by
  induction actions generalizing x p k with
  | nil => exact ⟨p, hp, h⟩
  | cons action actions ih =>
      have hafter : (x.step platform action).procs pid = _ := System.procs_step hp action
      have hrest : ∀ step ∈ Lib.trace (System.step platform) (x.step platform action) actions, _ :=
        fun step hstep => hsmooth step (List.mem_cons_of_mem _ hstep)
      rw [Lib.run_cons, List.countP_cons]
      cases hstepOf : action.stepOf pid with
      | none =>
          rw [hstepOf] at hafter
          simpa using ih h hafter hrest
      | some env =>
          rw [hstepOf] at hafter
          have hnext := h.step hleft
            (hsmooth (x, action, _) (List.mem_cons_self ..) env hstepOf p hp)
          have hdone := ih hnext hafter hrest
          rw [Option.isSome_some, if_pos rfl]
          rwa [Nat.add_assoc, Nat.add_comm 1] at hdone

end Loop

/-- No stage is five steps past the failed call. -/
theorem FailsOver.started {job : Job} {calls : List (Nat × String)} {loop : Loop} {k : Nat}
    {p : Process} (h : FailsOver job calls loop k p) (hk : 5 ≤ k) :
    ∃ name, name ∉ loop.excluded ∧ (loop.attemptNumber + 1, name) ∈ p.calls := by
  rcases h with ⟨-, -, record, stage, -, hretries⟩ | hstarted
  · cases hretries <;> omega
  · exact hstarted

variable {σ : Type}

/-- **A timeout fails over, if it cuts off a stream.**  In every run, at every
    step in which a streaming call to the OpenAI adapter ends because the body
    could not be read on, after nothing but readable lines without content:
    if attempts remain, then five more steps of the process, in which nothing
    else goes wrong, begin an attempt with another provider. -/
theorem timeout_fails_over (platform : Platform σ) (s : σ) (routers : Nat → Router)
    (actions : List Action) {x x' : System σ} {pid : Nat} {env : Env} {p : Process}
    {record : Record} {loop : Loop} {lease : Lease} {started : Time} {emit : Client}
    (hstep : (x, Action.advance pid env, x')
      ∈ Lib.trace (System.step platform) (System.init s routers) actions)
    (hp : x.procs pid = some p) (hphase : p.phase = .running record (.calling loop lease started))
    (hemit : p.job.emit = some emit) (htakes : ∀ chunks, emit chunks = none)
    {adapter : OpenAICompatible} {codec : Codec} {status : Int} {body : List UInt8} {err : GoError}
    (hstream : env.stream = adapter.stream codec (.answered status body (some err)))
    (hstatus : status < 400) (hquiet : Quiet adapter codec body)
    (hleft : (loop.attemptNumber : Int)
      < (platform.services p.job.replica).config.maxAttempts)
    {later : List Action}
    (hsmooth : ∀ step ∈ Lib.trace (System.step platform) x' later,
      ∀ env ∈ step.2.1.stepOf pid, ∀ q, step.1.procs pid = some q → q.job = p.job →
        q.calls = p.calls → Smooth platform step.1 q env)
    (hsteps : 5 ≤ later.countP fun action => (action.stepOf pid).isSome) :
    ∃ p' name, (Lib.run (System.step platform) x' later).procs pid = some p'
      ∧ (loop.attemptNumber + 1, name) ∈ p'.calls ∧ name ≠ lease.provider.name := by
  obtain ⟨pre, post, -, hpre⟩ := Lib.mem_trace hstep
  have hexcluded : lease.provider.name ∈ loop.excluded :=
    System.run_forall platform (Q := fun p => ∀ record stage,
        p.phase = .running record stage → stage.Excludes) (fun _ _ _ h => by cases h)
      (fun q env s router hq => q.step_excludes s router hq) s routers pre pid p
      (by rw [← hpre]; exact hp) record _ hphase
  -- the step of the call leads to a retryable failure
  have hx' : x' = x.step platform (.advance pid env) := Lib.trace_step hstep
  have hafter : (x.step platform (.advance pid env)).procs pid = _ := System.procs_step hp _
  rw [← hx'] at hafter
  simp only [Action.stepOf, if_true] at hafter
  obtain ⟨st, hrun, hflag⟩ := runStream_quiet (platform.services p.job.replica) htakes
    (p.emitted.map Prod.snd) hstatus hquiet err
  have hcall : call (platform.services p.job.replica) p.job (p.emitted.map Prod.snd) env.complete
      env.stream = ⟨.error (readError adapter err), false, st.passed⟩ := by
    unfold call
    rw [hemit, hstream]
    dsimp only
    rw [hrun, ← hflag]
  have hfails : FailsOver p.job p.calls loop 0 (p.step platform.store platform.hashChat
      (platform.services p.job.replica) env x.store (x.routers p.job.replica)).1 := by
    have hretryable : (isRetryable (readError adapter err) && !false
        && decide ((loop.attemptNumber : Int)
          < (platform.services p.job.replica).config.maxAttempts)) = true := by
      rw [decide_eq_true hleft]
      rfl
    unfold Process.step
    rw [hphase]
    simp only [Process.advance, hcall, Process.answered]
    refine Or.inl ⟨rfl, rfl, record, _, rfl, ?_⟩
    rw [hretryable]
    exact .failing
  obtain ⟨p', hp', hover⟩ := hfails.run hafter hleft hsmooth
  obtain ⟨name, hnew, hmem⟩ := hover.started (by omega)
  exact ⟨p', name, hp', hmem, fun heq => hnew (heq ▸ hexcluded)⟩

/-! ## Concrete runs -/

def deadline : GoError := .ofSentinel .deadlineExceeded

/-- A decoder that has nothing to decode. -/
def emptyCodec : Codec where
  body := fun _ ending => .error (ending.getD (.new "EOF"))
  event := fun _ => .error (.new "unexpected end of JSON input")

/-- A mock provider that takes longer than an attempt may. -/
def slowMock : Mock := newMock ⟨"p", ["m"], Time.seconds 60, 0, ""⟩

def helloRequest : CompletionRequest where
  requestID := "r"
  model := "m"
  messages := [⟨"user", "hello"⟩]
  temperature := none
  maxTokens := 10
  messages_ne := List.cons_ne_nil _ _

/-- The deadline passes in the mock provider, before the OpenAI adapter has a
    response, and while it reads the body. -/
def timedOut : List (Except GoError Completion) :=
  [(slowMock.complete helloRequest (some deadline)).1,
    sampleAdapter.complete emptyCodec (.failed deadline 0),
    sampleAdapter.complete emptyCodec (.answered 200 [] (some deadline))]

/-- The execution goes on after its call. -/
def afterCall : List Action :=
  [.advance 0 (sampleEnv "g" "h" 5), .advance 0 (sampleEnv "i" "j" 6),
    .advance 0 (sampleEnv "k" "l" 7), .advance 0 (sampleEnv "m" "n" 8),
    .advance 0 (sampleEnv "o" "p" 9)]

/-- Two attempts and the provider `q` are left, but the request fails. -/
theorem timeouts_fail_request :
    let platform := samplePlatform Persistence.Postgres.store
    let x := Lib.run (System.step platform) sampleStart upToCall
    (x.procs 0).map (fun p => match p.phase with
        | .running _ (.calling loop lease _) => some (loop.attemptNumber, lease.provider.name,
            ((Router.selectFrom (x.routers 0) (x.routers 0) (loop.request 5)).1.toOption.map
              fun lease => lease.provider.name))
        | _ => none) = some (some (1, "p", some "q"))
      ∧ (platform.services 0).config.maxAttempts = 3
      ∧ ∀ result ∈ timedOut,
        ((Lib.run (System.step platform) x
            (.advance 0 { sampleEnv "" "" 4 with complete := result } :: afterCall)).procs 0).map
          (fun p => (p.calls, match p.phase with
            | .returned (.error err) => err.is .deadlineExceeded
            | _ => false)) = some ([(1, "p")], true) := by
  decide +kernel

section Check

variable {σ : Type} (platform : Platform σ) (x : System σ) (p : Process) (env : Env)

/-- `Smooth` can be evaluated at the stages before the next call. -/
def isSmooth : Bool :=
  env.backoff.isNone && match p.phase with
    | .running record (.failing loop started err isPartial retryable) =>
        (perform platform.store (.failAttempt {
          requestID := record.id, tenantID := p.tenantID, attemptNumber := loop.attemptNumber
          category := errorCategory err, retryable, isPartial, final := !retryable
          startedAt := started, correlationID := p.job.correlationID }) env x.store).1.isOk
    | .running record (.leased loop lease) =>
        (perform platform.store (.startAttempt {
          requestID := record.id, tenantID := p.tenantID, number := loop.attemptNumber
          providerName := lease.provider.name, model := p.job.input.model
          correlationID := p.job.correlationID }) env x.store).1.isOk
    | .running _ (.selecting loop) =>
        (Router.selectFrom
          { x.routers p.job.replica with
            state := env.seen.getD (x.routers p.job.replica).state }
          (x.routers p.job.replica) (loop.request env.info.now)).1.isOk
    | .running _ (.backingOff _ _) | .running _ (.attempted _ _) => true
    | _ => false

/-- The same for the step of process `pid` in a run, if it takes one. -/
def isSmoothStep (pid : Nat) (step : System σ × Action × System σ) : Bool :=
  ((step.2.1.stepOf pid).bind fun env =>
    (step.1.procs pid).map fun q => isSmooth platform step.1 q env).getD true

/-- The attempt number and the provider of a process in its call. -/
def calling? : Option (Nat × String) :=
  match p.phase with
  | .running _ (.calling loop lease _) => some (loop.attemptNumber, lease.provider.name)
  | _ => none

variable {platform x p env}

theorem calling?_eq_some {number : Nat} {name : String} (h : calling? p = some (number, name)) :
    ∃ record loop lease started, p.phase = .running record (.calling loop lease started)
      ∧ loop.attemptNumber = number ∧ lease.provider.name = name := by
  unfold calling? at h
  split at h
  · next record loop lease started hphase =>
      obtain ⟨hnumber, hname⟩ := Prod.mk.inj (Option.some.inj h)
      exact ⟨record, loop, lease, started, hphase, hnumber, hname⟩
  · cases h

theorem smooth_of_isSmooth (h : isSmooth platform x p env = true) : Smooth platform x p env := by
  have hok : ∀ {α : Type} {r : Except GoError α}, r.isOk = true → ∃ a, r = .ok a := by
    intro α r hr
    cases r with
    | error => cases hr
    | ok a => exact ⟨a, rfl⟩
  obtain ⟨hlive, hstage⟩ := Bool.and_eq_true_iff.mp h
  refine ⟨?_, Option.isNone_iff_eq_none.mp hlive, ?_⟩
  · intro call hmakes
    cases hmakes with
    | fail hphase | start hphase =>
        rw [hphase] at hstage
        exact hok hstage
    | create hphase | validate hphase | policy hphase | abandon hphase | reserve hphase
    | reject hphase | route hphase | progress hphase | complete hphase | settle hphase
    | close hphase | release hphase =>
        rw [hphase] at hstage
        cases hstage
  · intro record loop hphase
    rw [hphase] at hstage
    exact hok hstage

end Check

def streamJob : Job := sampleJob "a" (.stream (some fun _ => none))

/-- A streaming request up to its provider call. -/
def streamUpToCall : List Action :=
  .submit 0 streamJob :: (List.replicate 8 (.advance 0 (sampleEnv "r" "e" 1))
    ++ [.advance 0 (sampleEnv "a" "f" 2), .advance 0 (sampleEnv "" "" 3)])

def streamAtCall : System Db :=
  Lib.run (System.step (samplePlatform Persistence.Postgres.store)) sampleStart streamUpToCall

theorem streamAtCall_job : ∃ p, streamAtCall.procs 0 = some p ∧ p.job = streamJob := by
  have hsubmitted : (sampleStart.step (samplePlatform Persistence.Postgres.store)
      (.submit 0 streamJob)).procs 0 = some { job := streamJob } := rfl
  unfold streamAtCall streamUpToCall
  rw [Lib.run_cons]
  exact System.run_job _ hsubmitted _

/-- The response begins, and nothing follows until the deadline. -/
def stalledEnv : Env :=
  { sampleEnv "" "" 4 with
    stream := sampleAdapter.stream emptyCodec (.answered 200 [] (some deadline)) }

/-- The stalled stream is tried again with another provider. -/
theorem stalledStream_fails_over :
    let platform := samplePlatform Persistence.Postgres.store
    let x' := streamAtCall.step platform (.advance 0 stalledEnv)
    ∃ p' name, (Lib.run (System.step platform) x' afterCall).procs 0 = some p'
      ∧ (2, name) ∈ p'.calls ∧ name ≠ "p" := by
  intro platform x'
  obtain ⟨p, hp, hjob⟩ := streamAtCall_job
  have hview : (streamAtCall.procs 0).map calling? = some (some (1, "p")) := by
    decide +kernel
  rw [hp, Option.map_some] at hview
  obtain ⟨record, loop, lease, started, hphase, hnumber, hname⟩ :=
    calling?_eq_some (Option.some.inj hview)
  have hemit : p.job.emit = some fun _ => none := by
    rw [hjob]
    rfl
  have hstep : (streamAtCall, Action.advance 0 stalledEnv, x')
      ∈ Lib.trace (System.step platform) sampleStart
        (streamUpToCall ++ [.advance 0 stalledEnv]) := by
    rw [Lib.trace_append]
    exact List.mem_append_right _ (List.mem_cons_self ..)
  have hquiet : Quiet sampleAdapter emptyCodec [] :=
    ⟨sampleAdapter.bounded, by decide, fun line hline => absurd hline List.not_mem_nil⟩
  have hleft : (loop.attemptNumber : Int)
      < (platform.services p.job.replica).config.maxAttempts := by
    rw [hnumber, hjob]
    decide
  have hchecked : (Lib.trace (System.step platform) x' afterCall).all (isSmoothStep platform 0)
      = true := by
    decide +kernel
  have hsmooth : ∀ step ∈ Lib.trace (System.step platform) x' afterCall,
      ∀ env ∈ step.2.1.stepOf 0, ∀ q, step.1.procs 0 = some q → q.job = p.job →
        q.calls = p.calls → Smooth platform step.1 q env := by
    intro step hmem env henv q hq _ _
    have hone := List.all_eq_true.mp hchecked step hmem
    rw [isSmoothStep, Option.mem_def.mp henv, Option.bind_some, hq] at hone
    exact smooth_of_isSmooth hone
  have hstream : stalledEnv.stream
      = sampleAdapter.stream emptyCodec (.answered 200 [] (some deadline)) := rfl
  have hover := timeout_fails_over platform _ _ _ hstep hp hphase hemit (fun _ => rfl) hstream
    (by decide) hquiet hleft hsmooth (by decide)
  rwa [hnumber, hname] at hover

end Aegis.Gateway
