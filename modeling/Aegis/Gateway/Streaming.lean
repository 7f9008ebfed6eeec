/-
  Aegis.Gateway.Streaming

  A stream never mixes providers.

  `call` hands a provider's chunks to the client while it keeps their contents
  and a partial flag.  However the provider behaves, the kept content is the
  concatenation of what was passed on, within the configured size, and the flag
  is set when anything was (`StreamState.Faithful`).  `execute` retries only
  without the flag, so an attempt that follows another finds the client still
  without content (`Stage.Streams`), and the response stored on completion is
  what the client received.
-/

import Aegis.Gateway.Custody

/-- The text of the answer in a response. -/
def Aegis.Request.ChatResponse.content? (response : Aegis.Request.ChatResponse) : Option String :=
  response.choices.head?.map fun choice => choice.message.content

namespace Aegis.Gateway

open Aegis.Persistence (Call Db Info Memory RequestView Store StoreLaw TenantPolicy)
open Aegis.Provider (Chunk Completion StreamScript isRetryable)
open Aegis.Request (ChatInput ChatResponse Record State)
open Aegis.Routing (Router)

/-! ## One provider call -/

/-- The contents of chunks, in order. -/
def contents (chunks : List Chunk) : String := String.join (chunks.map Chunk.content)

@[simp] theorem contents_nil : contents [] = "" := rfl

theorem contents_append (l₁ l₂ : List Chunk) :
    contents (l₁ ++ l₂) = contents l₁ ++ contents l₂ := by
  simp [contents]

theorem contents_eq_empty {chunks : List Chunk} (h : ∀ chunk ∈ chunks, chunk.content = "") :
    contents chunks = "" := by
  induction chunks with
  | nil => rfl
  | cons chunk chunks ih =>
      have hrest := ih fun c hc => h c (List.mem_cons_of_mem _ hc)
      rw [← List.singleton_append, contents_append, hrest]
      simp [contents, h chunk (List.mem_cons_self ..)]

/-- The callback's variables describe the chunks it has passed on. -/
structure StreamState.Faithful (service : Service) (st : StreamState) : Prop where
  content : st.content = contents st.passed
  size : (st.content.utf8ByteSize : Int) ≤ service.config.maximumStreamBytes
  silent : st.isPartial = false → ∀ chunk ∈ st.passed, chunk.content = ""

section Call

variable {service : Service}

theorem faithful_start (service : Service) : StreamState.Faithful service {} where
  content := rfl
  size := Int.le_of_lt service.maximumStreamBytes_pos
  silent := fun _ _ h => absurd h List.not_mem_nil

/-- The callback checks the size before it passes the chunk on. -/
theorem StreamState.Faithful.callback {st : StreamState} (h : st.Faithful service)
    (emit : Client) (before : List Chunk) (chunk : Chunk) :
    (callback service emit before st chunk).2.Faithful service := by
  unfold Gateway.callback
  split
  · exact h
  · next hsize =>
      by_cases hempty : chunk.content = ""
      · -- an empty chunk is passed on and leaves the flag
        simp only [hempty, ne_eq, not_true_eq_false, if_false]
        refine ⟨?_, h.size, ?_⟩
        · rw [h.content, contents_append]
          simp [contents, hempty]
        · intro hclean c hc
          rcases List.mem_append.mp hc with hc | hc
          · exact h.silent hclean c hc
          · rw [List.mem_singleton.mp hc]
            exact hempty
      · simp only [ne_eq, hempty, not_false_eq_true, if_true]
        refine ⟨?_, ?_, fun hclean => absurd hclean (by simp)⟩
        · rw [contents_append, ← h.content]
          simp [contents]
        · rw [String.utf8ByteSize_append]
          omega

/-- By induction on what the provider does. -/
theorem StreamState.Faithful.runStream (emit : Client) (before : List Chunk)
    (script : StreamScript) {st : StreamState} (h : st.Faithful service) :
    (runStream service emit before script st).2.Faithful service := by
  induction script generalizing st with
  | done usage => exact h
  | fail err => exact h
  | emit chunk next ih => exact ih _ (h.callback emit before chunk)

/-- What a provider call hands to the client. -/
structure CallResult.Faithful (service : Service) (job : Job) (result : CallResult) : Prop where
  size : ((contents result.passed).utf8ByteSize : Int) ≤ service.config.maximumStreamBytes
  silent : result.isPartial = false → ∀ chunk ∈ result.passed, chunk.content = ""
  content : job.emit.isSome = true → ∀ completion, result.completion = .ok completion →
    completion.content = contents result.passed

theorem call_faithful (service : Service) (job : Job) (before : List Chunk)
    (complete : Except GoError Completion) (stream : StreamScript) :
    (call service job before complete stream).Faithful service job := by
  unfold call
  cases hemit : job.emit with
  | none =>
      refine ⟨Int.le_of_lt service.maximumStreamBytes_pos,
        fun _ _ h => absurd h List.not_mem_nil, ?_⟩
      intro hsome
      rw [hemit] at hsome
      exact absurd hsome (by simp)
  | some emit =>
      have hst := StreamState.Faithful.runStream emit before stream (faithful_start service)
      dsimp only
      split
      · next err st hrun =>
          rw [hrun] at hst
          exact ⟨hst.content ▸ hst.size, hst.silent, fun _ _ h => absurd h (by simp)⟩
      · next usage st hrun =>
          rw [hrun] at hst
          refine ⟨hst.content ▸ hst.size, hst.silent, ?_⟩
          intro _ completion hok
          rw [← Except.ok.inj hok]
          exact hst.content

end Call

/-! ## One execution -/

namespace Process

/-- The text emitted to the client. -/
def streamed (p : Process) : String := contents (p.emitted.map Prod.snd)

/-- No chunk with content was emitted. -/
def Silent (p : Process) : Prop := ∀ e ∈ p.emitted, e.2.content = ""

theorem Silent.streamed {p : Process} (h : p.Silent) : p.streamed = "" := by
  refine contents_eq_empty ?_
  intro chunk hchunk
  obtain ⟨e, he, rfl⟩ := List.mem_map.mp hchunk
  exact h e he

end Process

/-- What was emitted so far, at a stage. -/
def Stage.Streams (p : Process) : Stage → Prop
  | .completing _ _ _ _ response _ | .settling response _ =>
      p.job.emit.isSome = true → response.content? = some p.streamed
  | .failing _ _ _ _ retryable => retryable = true → p.Silent
  | .releasing _ => True
  | _ => p.Silent

/-- The emissions of one process. -/
structure Streamed (service : Service) (p : Process) : Prop where
  bounded : (p.streamed.utf8ByteSize : Int) ≤ service.config.maximumStreamBytes
  single : ∀ e ∈ p.emitted, ∀ e' ∈ p.emitted, e.2.content ≠ "" → e'.2.content ≠ "" → e.1 = e'.1
  submitted : p.phase = .submitted → p.emitted = []
  running : ∀ record stage, p.phase = .running record stage → stage.Streams p

section Steps

variable {σ : Type} {store : Store σ} {hashChat : ChatInput → Except GoError (List UInt8)}
  {service : Service} {p p' : Process} {record : Record} {env : Env} {s s' : σ} {stage : Stage}

theorem streamed_new (service : Service) (job : Job) : Streamed service { job } where
  bounded := Int.le_of_lt service.maximumStreamBytes_pos
  single := fun _ h => absurd h List.not_mem_nil
  submitted := fun _ => rfl
  running := fun _ _ h => nomatch h

/-- Chunks are emitted only during a provider call. -/
theorem Branch.emitted (h : Branch store service p record env s stage p' s') :
    p'.emitted = p.emitted
      ∨ ∃ loop lease started, stage = .calling loop lease started
          ∧ p'.emitted = (p.heard service loop env).emitted := by
  cases h with
  | answer | unpriced | fault => exact Or.inr ⟨_, _, _, rfl, rfl⟩
  | _ => exact Or.inl rfl

/-- A client without content has received what the call passed on. -/
theorem Process.Silent.heard_streamed (h : p.Silent) (loop : Loop) :
    (p.heard service loop env).streamed = contents (p.called service env).passed := by
  have hbefore : contents (p.emitted.map Prod.snd) = "" := h.streamed
  rw [Process.streamed, Process.heard, List.map_append, contents_append, hbefore, List.map_map]
  simp [Function.comp_def]

theorem Process.Silent.heard_silent (h : p.Silent) (loop : Loop)
    (hclean : (p.called service env).isPartial = false) : (p.heard service loop env).Silent := by
  intro e he
  rcases List.mem_append.mp he with he | he
  · exact h e he
  · obtain ⟨chunk, hchunk, rfl⟩ := List.mem_map.mp he
    exact (call_faithful service p.job _ env.complete env.stream).silent hclean chunk hchunk

/-- A step keeps what the stages say about the emissions. -/
theorem Branch.streams (h : Branch store service p record env s stage p' s')
    (hstreams : stage.Streams p) {record' : Record} {stage' : Stage}
    (hphase' : p'.phase = .running record' stage') : stage'.Streams p' := by
  cases h with
  | answer hcall hcost =>
      obtain ⟨-, rfl⟩ := Phase.running.inj hphase'
      intro hemit
      have hcontent := (call_faithful service p.job _ env.complete env.stream).content hemit _ hcall
      have hsilent : p.Silent := hstreams
      show some _ = some ((p.heard service _ env).streamed)
      rw [hsilent.heard_streamed, hcontent]
      rfl
  | fault hcall =>
      obtain ⟨-, rfl⟩ := Phase.running.inj hphase'
      intro hretry
      have hsilent : p.Silent := hstreams
      -- `retryable` includes that the call was not partial
      refine hsilent.heard_silent _ ?_
      simp only [Bool.and_eq_true, Bool.not_eq_true'] at hretry
      exact hretry.1.2
  | retry =>
      obtain ⟨-, rfl⟩ := Phase.running.inj hphase'
      exact hstreams rfl
  | fail | close =>
      obtain ⟨-, rfl⟩ := Phase.running.inj hphase'
      exact trivial
  | validate | policy | forbidden | refuse | quote | reserve | exceeded | route | progress
  | lease | exhausted | start | begin | complete | interrupted | again =>
      obtain ⟨-, rfl⟩ := Phase.running.inj hphase'
      exact hstreams
  | unvalidated | abandon | unquoted | unreserved | reject | unrouted | stalled | unstarted
  | unpriced | uncompleted | settle | unfailed | release | panic => cases hphase'

/-- A running process keeps `Streamed`. -/
theorem Streamed.branch (h : Streamed service p) (hphase : p.phase = .running record stage)
    (hbranch : Branch store service p record env s stage p' s') : Streamed service p' := by
  have hstreams := h.running record stage hphase
  have hrunning : ∀ record' stage', p'.phase = .running record' stage' → stage'.Streams p' :=
    fun _ _ hphase' => hbranch.streams hstreams hphase'
  have hsubmitted : p'.phase = .submitted → p'.emitted = [] :=
    fun hsub => absurd hsub hbranch.ne_submitted
  rcases hbranch.emitted with hsame | ⟨loop, lease, started, rfl, hheard⟩
  · refine ⟨?_, ?_, hsubmitted, hrunning⟩
    · rw [Process.streamed, hsame]
      exact h.bounded
    · rw [hsame]
      exact h.single
  · -- the first call that emits content finds a client without any
    have hsilent : p.Silent := hstreams
    refine ⟨?_, ?_, hsubmitted, hrunning⟩
    · rw [Process.streamed, hheard]
      have hbound := (call_faithful service p.job (p.emitted.map Prod.snd) env.complete
        env.stream).size
      rw [show contents ((p.heard service loop env).emitted.map Prod.snd)
        = contents (p.called service env).passed from hsilent.heard_streamed loop]
      exact hbound
    · have hnumber : ∀ e ∈ (p.heard service loop env).emitted, e.2.content ≠ "" →
          e.1 = loop.attemptNumber := by
        intro e he hcontent
        rcases List.mem_append.mp he with he | he
        · exact absurd (hsilent e he) hcontent
        · obtain ⟨chunk, -, rfl⟩ := List.mem_map.mp he
          rfl
      rw [hheard]
      intro e he e' he' hcontent hcontent'
      rw [hnumber e he hcontent, hnumber e' he' hcontent']

theorem Streamed.step (h : Streamed service p) (env : Env) (s : σ) (router : Router) :
    Streamed service (p.step store hashChat service env s router).1 := by
  rcases p.step_cases store hashChat service env s router with
    ⟨hphase, hp', -⟩ | ⟨record, stage, hphase, hbranch⟩ | ⟨-, hp', -⟩
  · -- `open` emits nothing
    obtain ⟨phase, opened, hopen, hsubmitted, hrunning⟩ := p.open_result store hashChat env s
    have hnone := h.submitted hphase
    rw [hp', hopen]
    refine ⟨h.bounded, h.single, fun _ => hnone, ?_⟩
    intro record stage hrun
    obtain ⟨-, rfl⟩ := hrunning record stage hrun
    intro e he
    have hmem : e ∈ p.emitted := he
    rw [hnone] at hmem
    exact absurd hmem List.not_mem_nil
  · exact h.branch hphase hbranch
  · rw [hp']
    exact h

/-- Once content was emitted no attempt is started. -/
theorem Streamed.no_attempt (h : Streamed service p) (hcontent : ∃ e ∈ p.emitted, e.2.content ≠ "")
    (record : Record) (loop : Loop) (lease : Routing.Lease) :
    p.phase ≠ .running record (.leased loop lease)
      ∧ p.phase ≠ .running record (.attempted loop lease) := by
  obtain ⟨e, he, hne⟩ := hcontent
  -- both stages come after a loop that was silent so far
  have hloud : ¬ p.Silent := fun hsilent => hne (hsilent e he)
  constructor
  · intro hphase
    exact hloud (h.running record _ hphase)
  · intro hphase
    exact hloud (h.running record _ hphase)

end Steps

/-! ## The stored response -/

/-- The only call to COMPLETED is the `CompleteRequest` of a process that has
    its answer. -/
theorem Makes.completed {p : Process} {call : Call} (h : Makes p call) {id : String}
    {accepts : State → Bool} (hedge : call.edge = some (id, accepts, .completed)) :
    ∃ record loop lease started providerRequestID response cost params,
      p.phase = .running record
          (.completing loop lease started providerRequestID response cost)
        ∧ call = .completeRequest params ∧ params.response = response := by
  cases h with
  | complete hphase => exact ⟨_, _, _, _, _, _, _, _, hphase, rfl, rfl⟩
  | validate | abandon | route | progress | reject | close => simp [Call.edge] at hedge
  | fail =>
      simp only [Call.edge] at hedge
      split at hedge <;> simp at hedge
  | create | policy | reserve | start | settle | release => cases hedge

/-- A COMPLETED request of a streaming execution holds what was emitted. -/
def Recorded {σ : Type} (view : σ → String → Option RequestView) (x : System σ) : Prop :=
  ∀ {pid p record v}, x.procs pid = some p → p.opened = some (record, true) →
    p.job.emit.isSome = true → view x.store record.id = some v → v.state = .completed →
    ∃ response, v.response = some response ∧ response.content? = some p.streamed

section System

variable {σ : Type} {platform : Platform σ} {view : σ → String → Option RequestView}
  {Fresh : σ → Call × Info → Prop} {x : System σ}

/-- The step of the execution that owns the request. -/
theorem Branch.recorded (law : StoreLaw platform.store view Fresh) {service : Service}
    {p p' : Process} {record : Record} {env : Env} {s s' : σ} {stage : Stage}
    (h : Branch platform.store service p record env s stage p' s')
    (hphase : p.phase = .running record stage)
    (hfresh : ∀ call, Makes p call → Fresh s (call, env.info)) (hstreams : stage.Streams p)
    {v w : RequestView} (hv : view s record.id = some v) (hfits : stage.Fits v.state)
    (hold : v.state = .completed →
      ∃ response, v.response = some response ∧ response.content? = some p.streamed)
    (hw : view s' record.id = some w) (hcompleted : w.state = .completed)
    (hemit : p.job.emit.isSome = true) :
    ∃ response, w.response = some response
      ∧ response.content? = some p'.streamed := by
  -- nothing is emitted in a step that finds or leaves the request COMPLETED
  have hsame : (∀ loop lease started, stage ≠ .calling loop lease started) →
      p'.streamed = p.streamed := by
    intro hnot
    rcases h.emitted with hsame | ⟨loop, lease, started, heq, -⟩
    · rw [Process.streamed, hsame, Process.streamed]
    · exact absurd heq (hnot loop lease started)
  have hkept : view s' record.id = some v →
      ∃ response, w.response = some response
        ∧ response.content? = some p'.streamed := by
    intro hsame'
    obtain rfl := Option.some.inj (hsame'.symm.trans hw)
    obtain ⟨response, hresponse, hcontent⟩ := hold hcompleted
    refine ⟨response, hresponse, ?_⟩
    rw [hsame]
    · exact hcontent
    · rintro loop lease started rfl
      simp [Stage.Fits, Stage.states, hcompleted] at hfits
  rcases h.store_eq hphase with hstore | ⟨call, hmakes, hstore⟩
  · exact hkept (by rw [hstore]; exact hv)
  · rcases perform_view law (hfresh call hmakes) hv with
      hleft | ⟨accepts, target, u, hedge, -, -, hu, htarget, hresponse⟩
    · exact hkept (by rw [hstore]; exact hleft)
    · -- the request became COMPLETED: it has the response of the call
      rw [hstore, hu] at hw
      obtain rfl := Option.some.inj hw
      rw [htarget.symm.trans hcompleted] at hedge
      obtain ⟨record', loop, lease, started, providerRequestID, response, cost, params, hphase',
        rfl, rfl⟩ := hmakes.completed hedge
      obtain ⟨-, rfl⟩ := Phase.running.inj (hphase.symm.trans hphase')
      refine ⟨params.response, hresponse params rfl, ?_⟩
      rw [hsame (by rintro _ _ _ ⟨⟩)]
      exact hstreams hemit

theorem recorded_advance (law : StoreLaw platform.store view Fresh) (hcustody : Custody view x)
    (hstreamed : ∀ pid p, x.procs pid = some p → Streamed (platform.services p.job.replica) p)
    (h : Recorded view x) {pid : Nat} {env : Env} {p : Process} (hp : x.procs pid = some p)
    (hfresh : ∀ call, Makes p call → Fresh x.store (call, env.info)) :
    Recorded view (x.step platform (.advance pid env)) := by
  intro pid' q record w hq hopened hemit hw hcompleted
  rw [store_advance hp] at hw
  rcases procs_advance hp hq with ⟨-, rfl⟩ | ⟨hne, hq⟩
  · obtain ⟨-, hnew⟩ := Process.step_own (platform.services p.job.replica)
      (x.routers p.job.replica) law hfresh (fun _ _ hphase => hcustody.opened hp hphase)
      (fun _ _ hphase => hcustody.fits hp hphase)
    rw [p.step_job] at hemit
    rcases hnew record hopened with hold | ⟨hnone, -⟩
    · obtain ⟨v, hv⟩ := hcustody.stored hp hold
      have hcontent := fun hstate => h hp hold hemit hv hstate
      rcases p.step_cases platform.store platform.hashChat (platform.services p.job.replica) env
        x.store (x.routers p.job.replica) with
        ⟨hphase, hp', -⟩ | ⟨record', stage, hphase, hbranch⟩ | ⟨-, hp', hs'⟩
      · -- a process that has not opened its request yet touches none that is there
        have hkept := Process.step_view_of_ne law (platform.services p.job.replica)
          (x.routers p.job.replica) hfresh hv
          fun _ _ hrunning => absurd (hphase.symm.trans hrunning) (by simp)
        obtain rfl := Option.some.inj (hkept.symm.trans hw)
        obtain ⟨phase, opened, hopen, -⟩ := p.open_result platform.store platform.hashChat env
          x.store
        rw [hp', hopen]
        exact hcontent hcompleted
      · have hsame := hcustody.opened hp hphase
        obtain rfl : record' = record :=
          congrArg Prod.fst (Option.some.inj (hsame.symm.trans hold))
        obtain ⟨v', hv', hfits⟩ := hcustody.fits hp hphase
        obtain rfl := Option.some.inj (hv.symm.trans hv')
        exact hbranch.recorded law hphase hfresh ((hstreamed pid p hp).running _ _ hphase) hv hfits
          hcontent hw hcompleted hemit
      · rw [hs', hv] at hw
        obtain rfl := Option.some.inj hw
        rw [hp']
        exact hcontent hcompleted
    · rw [Process.step_view_created law hfresh hnone hw] at hcompleted
      cases hcompleted
  · obtain ⟨v, hv⟩ := hcustody.stored hq hopened
    have hkept := hcustody.view_other law hp hfresh hne hq hopened hv
    obtain rfl := Option.some.inj (hkept.symm.trans hw)
    exact h hq hopened hemit hv hcompleted

theorem recorded_step (law : StoreLaw platform.store view Fresh) (hcustody : Custody view x)
    (hstreamed : ∀ pid p, x.procs pid = some p → Streamed (platform.services p.job.replica) p)
    (h : Recorded view x) (action : Action) (hfresh : FreshStep Fresh x action) :
    Recorded view (x.step platform action) := by
  cases action with
  | submit pid job =>
      intro pid' q record v hq hopened hemit hv hcompleted
      rw [store_submit] at hv
      exact h (procs_submit_opened hq hopened) hopened hemit hv hcompleted
  | advance pid env =>
      cases hp : x.procs pid with
      | none =>
          rw [step_advance_none hp]
          exact h
      | some p => exact recorded_advance law hcustody hstreamed h hp (hfresh p hp)
  | cancel tenantID requestID correlationID env =>
      intro pid p record w hp hopened hemit hw hcompleted
      obtain ⟨v, hv⟩ := hcustody.stored hp hopened
      rcases perform_view law hfresh hv with hkept | ⟨_, target, u, hedge, -, -, hu, htarget, -⟩
      · obtain rfl := Option.some.inj (hkept.symm.trans hw)
        exact h hp hopened hemit hv hcompleted
      · obtain rfl := Option.some.inj (hu.symm.trans hw)
        have hcancelled : State.cancelled = target :=
          congrArg (fun e => e.2.2) (Option.some.inj hedge)
        rw [htarget, ← hcancelled] at hcompleted
        cases hcompleted
  | interfere replica state => exact h

end System

/-! ## The contract -/

/-- A stream never mixes providers, in a state of the system. -/
structure StreamContract {σ : Type} (platform : Platform σ)
    (view : σ → String → Option RequestView) (x : System σ) : Prop where
  /-- content comes from one attempt -/
  single : ∀ {pid p}, x.procs pid = some p → ∀ e ∈ p.emitted, ∀ e' ∈ p.emitted,
    e.2.content ≠ "" → e'.2.content ≠ "" → e.1 = e'.1
  /-- after content no attempt is started and no provider called -/
  quiet : ∀ {pid p p'} action, x.procs pid = some p →
    (x.step platform action).procs pid = some p' → (∃ e ∈ p.emitted, e.2.content ≠ "") →
    p'.calls = p.calls ∧ ∀ params, ¬ Makes p (.startAttempt params)
  /-- the content is bounded -/
  bounded : ∀ {pid p}, x.procs pid = some p →
    (p.streamed.utf8ByteSize : Int)
      ≤ (platform.services p.job.replica).config.maximumStreamBytes
  /-- a COMPLETED request holds the content as its response -/
  stored : ∀ {pid p record v}, x.procs pid = some p → p.opened = some (record, true) →
    p.job.emit.isSome = true → view x.store record.id = some v → v.state = .completed →
    ∃ response, v.response = some response ∧ response.content? = some p.streamed

/-- After content, a step begins no provider call. -/
theorem Streamed.step_calls {σ : Type} {platform : Platform σ} {x : System σ} {pid : Nat}
    {p p' : Process} {service : Service} (h : Streamed service p) {action : Action}
    (hp : x.procs pid = some p) (hp' : (x.step platform action).procs pid = some p')
    (hcontent : ∃ e ∈ p.emitted, e.2.content ≠ "") : p'.calls = p.calls := by
  refine System.step_calls hp hp' ?_
  intro record loop lease hphase
  exact (h.no_attempt hcontent record loop lease).2 hphase

/-- The invariant behind the contract. -/
structure StreamInv {σ : Type} (platform : Platform σ) (view : σ → String → Option RequestView)
    (x : System σ) : Prop where
  custody : Custody view x
  streamed : ∀ pid p, x.procs pid = some p → Streamed (platform.services p.job.replica) p
  recorded : Recorded view x

section Contract

variable {σ : Type} {platform : Platform σ} {view : σ → String → Option RequestView}
  {Fresh : σ → Call × Info → Prop} {x : System σ}

theorem streamInv_step (law : StoreLaw platform.store view Fresh) (action : Action)
    (h : StreamInv platform view x) (hfresh : FreshStep Fresh x action) :
    StreamInv platform view (x.step platform action) where
  custody := custody_step law h.custody action hfresh
  streamed := System.step_forall_service streamed_new
    (fun _ _ env s router hp => hp.step env s router) h.streamed action
  recorded := recorded_step law h.custody h.streamed h.recorded action hfresh

theorem StreamInv.contract (h : StreamInv platform view x) : StreamContract platform view x where
  single := fun hp => (h.streamed _ _ hp).single
  quiet := by
    intro pid p p' action hp hp' hcontent
    refine ⟨(h.streamed pid p hp).step_calls hp hp' hcontent, ?_⟩
    intro params hmakes
    cases hmakes with
    | start hphase => exact ((h.streamed pid p hp).no_attempt hcontent _ _ _).1 hphase
  bounded := fun hp => (h.streamed _ _ hp).bounded
  stored := h.recorded

/-- The contract holds on every store that meets `StoreLaw`. -/
theorem streamContract_of_storeLaw (platform : Platform σ)
    (law : StoreLaw platform.store view Fresh) (s : σ) (routers : Nat → Router)
    (actions : List Action)
    (hfresh : ∀ t ∈ Lib.trace (System.step platform) (System.init s routers) actions,
      FreshStep Fresh t.1 t.2.1) :
    StreamContract platform view
      (Lib.run (System.step platform) (System.init s routers) actions) := by
  refine StreamInv.contract (Lib.run_invariant (I := StreamInv platform view)
    (C := FreshStep Fresh) (fun _ action h hfresh => streamInv_step law action h hfresh)
    actions ?_ hfresh)
  exact ⟨custody_init s routers, fun _ _ h => (nomatch h), fun h => (nomatch h)⟩

end Contract

/-- **A stream never mixes providers.** For any providers, clients and
    interleavings: on PostgreSQL from any database, in memory as long as new
    requests get unused identifiers. -/
theorem stream_contract (hashChat : ChatInput → Except GoError (List UInt8))
    (services : Nat → Service) (routers : Nat → Router) (actions : List Action) :
    (∀ db : Db,
        let platform : Platform Db := { store := Persistence.Postgres.store, hashChat, services }
        StreamContract platform Db.view
          (Lib.run (System.step platform) (System.init db routers) actions))
      ∧ ∀ policies : String → Option TenantPolicy,
        let platform : Platform Memory := { store := Memory.store, hashChat, services }
        let start := System.init (Memory.withPolicies policies) routers
        (∀ t ∈ Lib.trace (System.step platform) start actions, UnusedID t.1 t.2.1) →
        StreamContract platform Memory.view (Lib.run (System.step platform) start actions) := by
  constructor
  · intro db platform
    exact streamContract_of_storeLaw platform Persistence.Postgres.storeLaw db routers actions
      fun t _ => freshStep_of_true t.2.1
  · intro policies platform start hunused
    exact streamContract_of_storeLaw platform Memory.storeLaw _ routers actions
      fun t ht => freshStep_of_unusedID (hunused t ht)

/-- A stream whose first provider fails before any content and whose second
    answers in two chunks. -/
def streamedRun : List Action :=
  .submit 0 (sampleJob "a" (.stream (some fun _ => none)))
    :: List.replicate 10 (.advance 0 (sampleEnv "r" "e" 1))
    ++ .advance 0 { sampleEnv "r" "e" 1 with
        stream := .ofChunks (.error ⟨[.provider ⟨"p", "rate_limited", 429, true, false⟩]⟩) [{}] }
    :: List.replicate 5 (.advance 0 (sampleEnv "r" "e" 1))
    ++ .advance 0 { sampleEnv "r" "e" 1 with
        stream := .ofChunks (.ok ⟨2, 1, 3⟩) [{ content := "hel" }, { content := "lo" }] }
    :: List.replicate 2 (.advance 0 (sampleEnv "r" "e" 1))

theorem stream_contract_streamedRun :
    let platform := samplePlatform Memory.store
    let start := System.init (Memory.withPolicies samplePolicies) fun _ => sampleRouter
    let x := Lib.run (System.step platform) start streamedRun
    (x.procs 0).map (fun p => (p.calls, p.streamed)) = some ([(1, "p"), (2, "q")], "hello")
      ∧ (x.store.view "r").map RequestView.state = some .completed
      ∧ StreamContract platform Memory.view x := by
  refine ⟨by decide +kernel, by decide +kernel, ?_⟩
  exact (stream_contract _ _ _ streamedRun).2 samplePolicies (by decide +kernel)

end Aegis.Gateway
