/-
  Aegis.Gateway.Replay

  Submissions that are repeated with the same key and input.

  In every run a COMPLETED request has a response, and it is the one that the
  execution which created the request returns (`Replayable`).  A repeated
  submission loads the request as it is stored.  Its outcome carries the
  response exactly for a COMPLETED request, but everything else is reported as
  pending, also a request that has failed, was cancelled or was rejected.
-/

import Aegis.Gateway.Streaming
import Aegis.Persistence.Reuse

/-- A COMPLETED request holds a response. -/
def Aegis.Persistence.RequestView.Holds (v : Aegis.Persistence.RequestView)
    (response : Option Aegis.Request.ChatResponse) : Prop :=
  v.state = .completed ∧ v.response = response

namespace Aegis.Gateway

open Aegis.Persistence (Call Catalog CreateRequestParams Db Effect Info LoadLaw Memory RequestView
  ReuseLaw Store StoreLaw TenantPolicy)
open Aegis.Request (ChatInput ChatResponse Record State)
open Aegis.Routing (Router)

/-! ## What a COMPLETED request holds -/

/-- The response with which an execution returns, for the request it created. -/
def Process.answer? (p : Process) : Option (String × Option ChatResponse) :=
  match p.phase, p.opened with
  | .running record (.settling response _), _ => some (record.id, some response)
  | .returned (.ok outcome), some (record, true) => some (record.id, outcome.response)
  | _, _ => none

/-- COMPLETED requests hold a response, the one of their execution. -/
structure Replayable {σ : Type} (view : σ → String → Option RequestView) (x : System σ) : Prop where
  custody : Custody view x
  completed : ∀ {id v}, view x.store id = some v → v.state = .completed →
    v.response.isSome = true
  answers : ∀ {pid p id response}, x.procs pid = some p → p.answer? = some (id, response) →
    ∃ v, view x.store id = some v ∧ v.Holds response

section Steps

variable {σ : Type} {platform : Platform σ} {view : σ → String → Option RequestView}
  {Fresh : σ → Call × Info → Prop} {x : System σ}

/-- Only `CompleteRequest` leads to COMPLETED. -/
theorem Action.Calls.completed {action : Action} {call : Call} {id : String}
    {accepts : State → Bool} (h : action.Calls x call)
    (hedge : call.edge = some (id, accepts, .completed)) :
    ∃ params, call = .completeRequest params := by
  cases action with
  | advance pid env =>
      obtain ⟨p, -, hmakes⟩ := h
      obtain ⟨_, _, _, _, _, _, _, params, -, hcall, -⟩ := hmakes.completed hedge
      exact ⟨params, hcall⟩
  | cancel tenantID requestID correlationID env =>
      subst h
      cases hedge
  | submit | interfere => exact h.elim

theorem Replayable.step_completed (law : StoreLaw platform.store view Fresh)
    (h : Replayable view x) (action : Action) (hfresh : FreshStep Fresh x action) {id : String}
    {w : RequestView} (hw : view (x.step platform action).store id = some w)
    (hcompleted : w.state = .completed) : w.response.isSome = true := by
  rcases System.step_effect law action hfresh id with hsame | ⟨call, info, hcalls, heffect⟩
  · exact h.completed (hsame.symm.trans hw) hcompleted
  · rw [hw] at heffect
    generalize hv : view x.store id = before at heffect
    cases heffect with
    | stay => exact h.completed hv hcompleted
    | create params hcall hid hstate =>
        rw [hstate] at hcompleted
        cases hcompleted
    | move hedge haccepts hcan htarget hresponse =>
        rw [← htarget, hcompleted] at hedge
        obtain ⟨params, hcall⟩ := hcalls.completed hedge
        rw [hresponse params hcall]
        rfl

/-- The call that gives an execution its response has stored it. -/
theorem Branch.step_answer (law : StoreLaw platform.store view Fresh) {service : Service}
    {p p' : Process} {record : Record} {env : Env} {s s' : σ} {stage : Stage}
    (h : Branch platform.store service p record env s stage p' s')
    (hphase : p.phase = .running record stage) (hopened : p.opened = some (record, true))
    (hfresh : ∀ call, Makes p call → Fresh s (call, env.info)) {id : String}
    {response : Option ChatResponse} (hanswer : p'.answer? = some (id, response)) :
    p.answer? = some (id, response)
      ∨ ∃ w, view s' id = some w ∧ w.Holds response := by
  cases h with
  | complete hrun =>
      obtain ⟨rfl, rfl⟩ := Prod.mk.inj (Option.some.inj hanswer)
      obtain ⟨v, w, hv, haccepts, hw, hstate⟩ := law.accepted rfl (perform_ok hrun)
      have heffect := law.effect s _ env.info (hfresh _ (.complete hphase)) record.id
      rw [perform_ok hrun, hv, hw] at heffect
      refine Or.inr ⟨w, hw, hstate, ?_⟩
      cases heffect with
      | stay =>
          rw [hstate] at haccepts
          cases haccepts
      | move _ _ _ _ hresponse => exact hresponse _ rfl
  | settle =>
      refine Or.inl ?_
      simp only [Process.answer?, Process.done, hopened] at hanswer
      simp only [Process.answer?, hphase]
      exact hanswer
  | validate | policy | forbidden | refuse | quote | reserve | exceeded | route | progress | lease
  | exhausted | start | begin | answer | fault | retry | fail | interrupted | again | close
  | unvalidated | abandon | unquoted | unreserved | reject | unrouted | stalled | unstarted
  | panic | unpriced | uncompleted | unfailed | release => cases hanswer

/-- A process that has its response had it before, or has just stored it. -/
theorem Process.step_answer (law : StoreLaw platform.store view Fresh) {p : Process} {env : Env}
    {s : σ} {service : Service} {router : Router}
    (hfresh : ∀ call, Makes p call → Fresh s (call, env.info))
    (hopened : ∀ record stage, p.phase = .running record stage → p.opened = some (record, true))
    {id : String} {response : Option ChatResponse}
    (h : (p.step platform.store platform.hashChat service env s router).1.answer?
      = some (id, response)) :
    p.answer? = some (id, response)
      ∨ ∃ w, view (p.step platform.store platform.hashChat service env s router).2.1 id = some w
          ∧ w.Holds response := by
  rcases p.step_cases platform.store platform.hashChat service env s router with
    ⟨-, hp', -⟩ | ⟨record, stage, hphase, hbranch⟩ | ⟨-, hp', -⟩
  · rw [hp'] at h
    rcases p.open_cases platform.store platform.hashChat env s with
      ⟨err, s', hopen⟩ | ⟨params, record, created, s', -, -, -, ⟨-, hopen⟩ | ⟨-, outcome, hopen⟩⟩
    · rw [hopen] at h
      cases h
    · rw [hopen] at h
      cases h
    · -- a replay created nothing
      rw [hopen] at h
      cases h
  · exact hbranch.step_answer law hphase (hopened record stage hphase) hfresh h
  · rw [hp'] at h
    exact Or.inl h

theorem Replayable.step (law : StoreLaw platform.store view Fresh) (h : Replayable view x)
    (action : Action) (hfresh : FreshStep Fresh x action) :
    Replayable view (x.step platform action) where
  custody := custody_step law h.custody action hfresh
  completed := fun hw => h.step_completed law action hfresh hw
  answers := by
    -- what was answered stays, because COMPLETED is terminal
    have hkept : ∀ {pid p id response}, x.procs pid = some p → p.answer? = some (id, response) →
        ∃ v, view (x.step platform action).store id = some v ∧ v.Holds response := by
      intro pid p id response hp hanswer
      obtain ⟨v, hv, hholds⟩ := h.answers hp hanswer
      have hterminal : v.state.terminal = true := by
        rw [hholds.1]
        rfl
      exact ⟨v, System.step_terminal law hv hterminal action hfresh, hholds⟩
    intro pid q id response hq hanswer
    cases action with
    | submit pid' job =>
        rcases procs_submit hq with rfl | hold
        · cases hanswer
        · exact hkept hold hanswer
    | advance pid' env =>
        cases hp : x.procs pid' with
        | none =>
            rw [step_advance_none hp] at hq
            exact hkept hq hanswer
        | some p =>
            rcases procs_advance hp hq with ⟨-, rfl⟩ | ⟨-, hold⟩
            · rcases p.step_answer law (hfresh p hp)
                (fun _ _ hphase => h.custody.opened hp hphase) hanswer with hold | hstored
              · exact hkept hp hold
              · rw [store_advance hp]
                exact hstored
            · exact hkept hold hanswer
    | cancel | interfere => exact hkept hq hanswer

theorem replayable_run (law : StoreLaw platform.store view Fresh) (s : σ) (routers : Nat → Router)
    (actions : List Action)
    (hfresh : ∀ t ∈ Lib.trace (System.step platform) (System.init s routers) actions,
      FreshStep Fresh t.1 t.2.1)
    (hempty : ∀ id, view s id = none) :
    Replayable view (Lib.run (System.step platform) (System.init s routers) actions) := by
  refine Lib.run_invariant (I := Replayable view) (C := FreshStep Fresh)
    (fun _ action h hf => h.step law action hf) actions ?_ hfresh
  refine ⟨custody_init s routers, ?_, ?_⟩
  · intro id v hv
    exact absurd ((hempty id).symm.trans hv) (by simp)
  · rintro pid p id response ⟨⟩

end Steps

/-- An execution that created its request does not return it as pending. -/
def Process.Concludes (p : Process) : Prop :=
  ∀ {record outcome}, p.opened = some (record, true) → p.phase = .returned (.ok outcome) →
    outcome.pending = false

theorem Process.Concludes.step {σ : Type} {store : Store σ}
    {hashChat : ChatInput → Except GoError (List UInt8)} {p : Process} (h : p.Concludes)
    (service : Service) (env : Env) (s : σ) (router : Router) :
    (p.step store hashChat service env s router).1.Concludes := by
  intro record outcome hopened hphase
  rcases p.step_cases store hashChat service env s router with
    ⟨-, hp', -⟩ | ⟨record', stage, -, hbranch⟩ | ⟨-, hp', -⟩
  · rw [hp'] at hopened hphase
    rcases p.open_cases store hashChat env s with
      ⟨err, s', hopen⟩ | ⟨params, record', created, s', -, -, -, ⟨-, hopen⟩ | ⟨-, outcome', hopen⟩⟩
    · rw [hopen] at hphase
      cases hphase
    · rw [hopen] at hphase
      cases hphase
    · rw [hopen] at hopened
      cases hopened
  · generalize (p.step store hashChat service env s router).1 = p' at hbranch hphase
    generalize (p.step store hashChat service env s router).2.1 = s' at hbranch
    cases hbranch with
    | settle =>
        cases hphase
        rfl
    | _ => cases hphase
  · rw [hp'] at hopened hphase
    exact h hopened hphase

/-! ## A repeated submission -/

/-- The parameters of the `CreateOrGetRequest` of a process. -/
def Process.createParams (p : Process) (hash : List UInt8) : CreateRequestParams where
  tenantID := p.tenantID
  apiKeyID := p.job.principal.apiKeyID
  userID := p.job.principal.userID
  idempotencyKey := p.job.idempotencyKey
  canonicalHash := hash
  input := p.job.input
  correlationID := p.job.correlationID

/-- The outcome for a request that was there. -/
def replayOf (record : Record) : Outcome :=
  if record.response.isSome && record.state == .completed then
    { record, response := record.response, replayed := true }
  else { record, replayed := true, pending := true }

/-- The process after the answer to `CreateOrGetRequest`. -/
def Process.opens (p : Process) (record : Record) (created : Bool) : Process :=
  let p := { p with opened := some (record, created) }
  if created then p.goto record .received else p.done (.ok (replayOf record))

/-- The same tenant, key and input. -/
structure Repeats (job first : Job) : Prop where
  tenant : job.principal.tenantID = first.principal.tenantID
  key : job.idempotencyKey = first.idempotencyKey
  input : job.input = first.input

/-- A step in which a submission with the tenant, key and input of `job` gave
    the request `id`, whether or not the store's answer arrived. -/
inductive Submission {σ : Type} (platform : Platform σ) (job : Job) :
    String → System σ × Action × System σ → Prop
  | intro {x y : System σ} {pid : Nat} {env : Env} {p : Process} {hash : List UInt8}
      {record : Record} {created : Bool} (hproc : x.procs pid = some p)
      (hphase : p.phase = .submitted) (hrepeats : Repeats job p.job)
      (hvalid : p.job.input.validate = .ok ()) (hhash : platform.hashChat p.job.input = .ok hash)
      (hrun : platform.store (.createOrGetRequest (p.createParams hash)) env.info x.store
        = (.ok (record, created), y.store)) :
      Submission platform job record.id (x, .advance pid env, y)

/-- An outcome that tells what is stored of the request `id`. -/
structure Replays {σ : Type} (x : System σ) (id : String) (v : RequestView) (outcome : Outcome) :
    Prop where
  replayed : outcome.replayed = true
  response : outcome.response.isSome = true ↔ v.state = .completed
  /-- the response is the one that the call which created the request returned -/
  first : ∀ {pid p record returned}, x.procs pid = some p → p.opened = some (record, true) →
    record.id = id → p.phase = .returned (.ok returned) → outcome.response = returned.response
  pending : outcome.pending = true ↔ v.state.terminal = false

/-- The step of a repeated submission returns an outcome, which tells what is
    stored exactly when the request is COMPLETED or not terminal. -/
def ReplaysUnlessEnded {σ : Type} (platform : Platform σ) (view : σ → String → Option RequestView)
    (x : System σ) (pid : Nat) (env : Env) (id : String) : Prop :=
  ∃ v q outcome, view x.store id = some v
    ∧ (x.step platform (.advance pid env)).procs pid = some q ∧ q.phase = .returned (.ok outcome)
    ∧ (Replays x id v outcome ↔ (v.state.terminal = true → v.state = .completed))

section Replays

variable {σ : Type} {platform : Platform σ} {view : σ → String → Option RequestView}
  {Fresh : σ → Call × Info → Prop} {x : System σ}

/-- `open` after the store's answer. -/
theorem Process.open_ok {store : Store σ} {hashChat : ChatInput → Except GoError (List UInt8)}
    {p : Process} {env : Env} {s s' : σ} {hash : List UInt8} {record : Record} {created : Bool}
    (hentry : p.job.entry ≠ .stream none) (hvalid : p.job.input.validate = .ok ())
    (hhash : hashChat p.job.input = .ok hash)
    (hrun : perform store (.createOrGetRequest (p.createParams hash)) env s
      = (.ok (record, created), s')) :
    p.open store hashChat env s = (p.opens record created, s') := by
  unfold Process.createParams at hrun
  unfold Process.open
  split
  · next hnone => exact absurd hnone hentry
  · simp only [hvalid, hhash, hrun]
    cases created with
    | true => rfl
    | false =>
        unfold Process.opens replayOf
        simp only [Bool.false_eq_true, if_false]
        split <;> rfl

/-- `open` fails, or goes on after the store's answer. -/
theorem Process.open_spec (store : Store σ) (hashChat : ChatInput → Except GoError (List UInt8))
    (p : Process) (env : Env) (s : σ) :
    (∃ err s', p.open store hashChat env s = (p.done (.error err), s'))
      ∨ ∃ hash record created s', p.job.input.validate = .ok () ∧ hashChat p.job.input = .ok hash
          ∧ perform store (.createOrGetRequest (p.createParams hash)) env s
            = (.ok (record, created), s')
          ∧ p.open store hashChat env s = (p.opens record created, s') := by
  by_cases hentry : p.job.entry = .stream none
  · refine Or.inl ⟨.new "stream emitter is required", s, ?_⟩
    unfold Process.open
    simp only [hentry]
  cases hvalid : p.job.input.validate with
  | error err =>
      refine Or.inl ⟨err, s, ?_⟩
      unfold Process.open
      simp only [hvalid]
  | ok =>
      cases hhash : hashChat p.job.input with
      | error err =>
          refine Or.inl ⟨err, s, ?_⟩
          unfold Process.open
          simp only [hvalid, hhash]
      | ok hash =>
          rcases hrun : perform store (.createOrGetRequest (p.createParams hash)) env s
            with ⟨err | ⟨record, created⟩, s'⟩
          · refine Or.inl ⟨err, s', ?_⟩
            unfold Process.createParams at hrun
            unfold Process.open
            simp only [hvalid, hhash, hrun]
          · exact Or.inr ⟨hash, record, created, s', rfl, rfl, hrun,
              Process.open_ok hentry hvalid hhash hrun⟩

theorem Process.opens_opened (p : Process) (record : Record) (created : Bool) :
    (p.opens record created).opened = some (record, created) := by
  cases created <;> rfl

/-- A submission is one of every job that repeats it. -/
theorem Submission.of_repeats {job first : Job} {id : String} {t : System σ × Action × System σ}
    (h : Submission platform first id t) (hrepeats : Repeats job first) :
    Submission platform job id t := by
  cases h with
  | intro hproc hphase hsame hvalid hhash hrun =>
      refine .intro hproc hphase ?_ hvalid hhash hrun
      exact ⟨hrepeats.tenant.trans hsame.tenant, hrepeats.key.trans hsame.key,
        hrepeats.input.trans hsame.input⟩

/-- A process that has a request had it before, or this step is its submission. -/
theorem Submission.of_step {pid : Nat} {p : Process} {env : Env} {record : Record} {created : Bool}
    (hp : x.procs pid = some p)
    (h : (p.step platform.store platform.hashChat (platform.services p.job.replica) env x.store
      (x.routers p.job.replica)).1.opened = some (record, created)) :
    p.opened = some (record, created)
      ∨ Submission platform p.job record.id
          (x, .advance pid env, x.step platform (.advance pid env)) := by
  rcases p.step_cases platform.store platform.hashChat (platform.services p.job.replica) env
    x.store (x.routers p.job.replica) with
    ⟨hphase, hp', hs'⟩ | ⟨record', stage, -, hbranch⟩ | ⟨-, hp', -⟩
  · rw [hp'] at h
    rcases p.open_spec platform.store platform.hashChat env x.store with
      ⟨err, s', hopen⟩ | ⟨hash, record', created', s', hvalid, hhash, hrun, hopen⟩
    · rw [hopen] at h
      exact Or.inl h
    · rw [hopen, Process.opens_opened] at h
      obtain ⟨rfl, rfl⟩ := Prod.mk.inj (Option.some.inj h)
      have hstore : (x.step platform (.advance pid env)).store = s' := by
        rw [store_advance hp, hs', hopen]
      rw [← hstore] at hrun
      exact Or.inr (.intro hp hphase ⟨rfl, rfl, rfl⟩ hvalid hhash (perform_ok hrun))
  · rw [hbranch.kept.2] at h
    exact Or.inl h
  · rw [hp'] at h
    exact Or.inl h

/-- A process has its request from a submission in the run. -/
theorem opened_submission (s : σ) (routers : Nat → Router) (actions : List Action) {pid : Nat}
    {p : Process} {record : Record} {created : Bool}
    (hp : (Lib.run (System.step platform) (System.init s routers) actions).procs pid = some p)
    (hopened : p.opened = some (record, created)) :
    ∃ t ∈ Lib.trace (System.step platform) (System.init s routers) actions,
      Submission platform p.job record.id t := by
  -- the last step of the run is the submission, or it was before
  induction actions using List.reverseRecOn generalizing pid p with
  | nil => cases hp
  | append_singleton actions action ih =>
      rw [Lib.run_append, Lib.run_cons, Lib.run_nil] at hp
      rw [Lib.trace_append, Lib.trace_cons, Lib.trace_nil]
      generalize hx : Lib.run (System.step platform) (System.init s routers) actions = x at hp ih ⊢
      have hbefore : ∀ {pid p}, x.procs pid = some p → p.opened = some (record, created) →
          ∃ t ∈ Lib.trace (System.step platform) (System.init s routers) actions
              ++ [(x, action, x.step platform action)], Submission platform p.job record.id t := by
        intro pid p hp hopened
        obtain ⟨t, ht, hsubmission⟩ := ih hp hopened
        exact ⟨t, List.mem_append_left _ ht, hsubmission⟩
      cases action with
      | submit pid' job => exact hbefore (procs_submit_opened hp hopened) hopened
      | advance pid' env =>
          cases hq : x.procs pid' with
          | none =>
              rw [step_advance_none hq] at hp
              exact hbefore hp hopened
          | some q =>
              rcases procs_advance hq hp with ⟨-, rfl⟩ | ⟨-, hold⟩
              · rw [q.step_job]
                rcases Submission.of_step hq hopened with hold | hsubmission
                · exact hbefore hq hold
                · exact ⟨_, List.mem_append_right _ (List.mem_cons_self ..), hsubmission⟩
              · exact hbefore hold hopened
      | cancel | interfere => exact hbefore hp hopened

/-- The outcome is right about a COMPLETED request and about an open one. -/
theorem Replayable.replays_iff (h : Replayable view x) {v : RequestView} {record : Record}
    (hv : view x.store record.id = some v) (hstate : v.state = record.state)
    (hresponse : v.response = record.response) :
    Replays x record.id v (replayOf record) ↔ (v.state.terminal = true → v.state = .completed) := by
  -- a call that created the request and returned has stored its response
  have hfirst : ∀ {pid p record' returned}, x.procs pid = some p →
      p.opened = some (record', true) → record'.id = record.id →
      p.phase = .returned (.ok returned) →
        v.state = .completed ∧ v.response = returned.response := by
    intro pid p record' returned hp hopened hid hphase
    have hanswer : p.answer? = some (record.id, returned.response) := by
      rw [Process.answer?, hphase, hopened, ← hid]
    obtain ⟨w, hw, hholds⟩ := h.answers hp hanswer
    obtain rfl := Option.some.inj (hv.symm.trans hw)
    exact hholds
  by_cases hcompleted : v.state = .completed
  · have hsome := h.completed hv hcompleted
    have hreplay : replayOf record
        = { record, response := record.response, replayed := true } := by
      rw [hresponse] at hsome
      rw [replayOf, hsome, ← hstate, hcompleted]
      rfl
    rw [hreplay, hcompleted]
    refine iff_of_true ⟨rfl, ?_, ?_, ?_⟩ fun _ => rfl
    · exact iff_of_true (hresponse ▸ hsome) hcompleted
    · intro pid p record' returned hp hopened hid hphase
      exact hresponse.symm.trans (hfirst hp hopened hid hphase).2
    · rw [hcompleted]
      exact iff_of_false Bool.false_ne_true (by decide)
  · have hreplay : replayOf record = { record, replayed := true, pending := true } := by
      have hne : (record.state == State.completed) = false := by
        rw [← hstate]
        exact beq_false_of_ne hcompleted
      rw [replayOf, hne, Bool.and_false]
      rfl
    rw [hreplay]
    constructor
    · intro hreplays hterminal
      rw [hreplays.pending.mp rfl] at hterminal
      cases hterminal
    · intro hopen
      refine ⟨rfl, ?_, ?_, ?_⟩
      · exact iff_of_false (by simp) hcompleted
      · intro pid p record' returned hp hopened hid hphase
        exact absurd (hfirst hp hopened hid hphase).1 hcompleted
      · refine iff_of_true rfl ?_
        exact Bool.eq_false_iff.mpr fun hterminal => hcompleted (hopen hterminal)

end Replays

/-- The key of a job holds the request `id`, and its model is usable. -/
structure Held {σ : Type} (holding : σ → String → String → Option (String × List UInt8))
    (Valid : σ → Prop) (Enabled : σ → String → String → Prop) (job : Job) (id : String)
    (hash : List UInt8) (s : σ) : Prop where
  valid : Valid s
  held : holding s job.principal.tenantID job.idempotencyKey = some (id, hash)
  enabled : Enabled s job.principal.tenantID job.input.model

section Keys

variable {σ : Type} {platform : Platform σ} {view : σ → String → Option RequestView}
  {Fresh : σ → Call × Info → Prop}
  {holding : σ → String → String → Option (String × List UInt8)} {Valid : σ → Prop}
  {Enabled : σ → String → String → Prop} {job : Job} {id : String} {hash : List UInt8}

theorem Held.call (reuse : ReuseLaw platform.store holding Valid Fresh Enabled)
    (load : LoadLaw platform.store view Valid Enabled) {s : σ} {a : Call × Info}
    (h : Held holding Valid Enabled job id hash s) (ha : Fresh s a) :
    Held holding Valid Enabled job id hash (platform.store a.1 a.2 s).2 where
  valid := reuse.valid h.valid ha
  held := reuse.kept h.valid ha h.held
  enabled := load.usable h.enabled

/-- After a submission the key holds the request. -/
theorem Submission.held (reuse : ReuseLaw platform.store holding Valid Fresh Enabled)
    (load : LoadLaw platform.store view Valid Enabled) {t : System σ × Action × System σ}
    (h : Submission platform job id t) (hbefore : Valid t.1.store) (hafter : Valid t.2.2.store) :
    job.input.validate = .ok () ∧ ∃ hash, platform.hashChat job.input = .ok hash
      ∧ Held holding Valid Enabled job id hash t.2.2.store := by
  cases h with
  | @intro x y _ env p hash record created _ _ hrepeats hvalid hhash hrun =>
      have henabled : Enabled y.store p.tenantID p.job.input.model := by
        have hkept := load.usable (a := (.createOrGetRequest (p.createParams hash), env.info))
          (load.enabled hrun)
        rwa [Store.step, hrun] at hkept
      rw [hrepeats.input]
      refine ⟨hvalid, hash, hhash, hafter, ?_, ?_⟩
      · rw [hrepeats.tenant, hrepeats.key]
        exact reuse.submitted hbefore hrun
      · rw [hrepeats.tenant, hrepeats.input]
        exact henabled

/-- A submission under the key is answered from the stored request. -/
theorem Held.open_replay (reuse : ReuseLaw platform.store holding Valid Fresh Enabled)
    (load : LoadLaw platform.store view Valid Enabled) {s : σ} {q : Process} {env : Env}
    (h : Held holding Valid Enabled q.job id hash s) (hvalid : q.job.input.validate = .ok ())
    (hhash : platform.hashChat q.job.input = .ok hash) (hentry : q.job.entry ≠ .stream none)
    (hfault : env.fault = none) :
    ∃ record v, record.id = id ∧ view s id = some v ∧ v.state = record.state
      ∧ v.response = record.response
      ∧ q.open platform.store platform.hashChat env s = (q.opens record false, s) := by
  have hfound : ∃ record, Record.id record = id ∧ platform.store
      (.createOrGetRequest (q.createParams hash)) env.info s = (.ok (record, false), s) :=
    reuse.found h.valid h.enabled h.held
  obtain ⟨record, hid, hrun⟩ := hfound
  obtain ⟨v, hv, hstate, hresponse⟩ := load.loaded h.valid hrun
  refine ⟨record, v, hid, ?_, hstate, hresponse, ?_⟩
  · rw [← hid]
    exact hv
  · exact Process.open_ok hentry hvalid hhash ((perform_of_none hfault _ _).trans hrun)

/-- A repeated submission that the store answers is answered from the stored request. -/
theorem answered_of_laws (reuse : ReuseLaw platform.store holding Valid Fresh Enabled)
    (load : LoadLaw platform.store view Valid Enabled) {s : σ} (hstart : Valid s)
    (routers : Nat → Router) (actions : List Action)
    (hfresh : ∀ t ∈ Lib.trace (System.step platform) (System.init s routers) actions,
      FreshStep Fresh t.1 t.2.1)
    {t : System σ × Action × System σ}
    (ht : t ∈ Lib.trace (System.step platform) (System.init s routers) actions) {pid : Nat}
    {q : Process} {env : Env} (hsubmission : Submission platform q.job id t)
    (hq : (Lib.run (System.step platform) (System.init s routers) actions).procs pid = some q)
    (hphase : q.phase = .submitted) (hentry : q.job.entry ≠ .stream none)
    (hfault : env.fault = none) :
    let x := Lib.run (System.step platform) (System.init s routers) actions
    ∃ record v, record.id = id ∧ view x.store id = some v ∧ v.state = record.state
      ∧ v.response = record.response
      ∧ (x.step platform (.advance pid env)).procs pid = some (q.opens record false) := by
  intro x
  have hvalid := Lib.trace_invariant (I := fun y : System σ => Valid y.store)
    (C := FreshStep Fresh)
    (fun y action hy hf => System.step_keeps (fun _ _ h ha => reuse.valid h ha) hy action hf)
    hstart hfresh ht
  obtain ⟨hinput, hash, hhash, hheld⟩ := hsubmission.held reuse load hvalid.1 hvalid.2
  -- the key keeps the request for the rest of the run
  obtain ⟨post, hrest, hpost⟩ := Lib.trace_rest ht
  have hend : Held holding Valid Enabled q.job id hash x.store := by
    rw [show x = _ from hrest]
    exact Lib.run_invariant (C := FreshStep Fresh)
      (I := fun y : System σ => Held holding Valid Enabled q.job id hash y.store)
      (fun y action hy hf => System.step_keeps (fun _ _ h ha => h.call reuse load ha) hy action hf)
      post hheld fun y hy => hfresh y (hpost y hy)
  obtain ⟨record, v, hid, hv, hstate, hresponse, hopen⟩ :=
    hend.open_replay reuse load hinput hhash hentry hfault
  have hq : x.procs pid = some q := hq
  clear_value x
  have hnext : (x.step platform (.advance pid env)).procs pid = some _ :=
    System.procs_step hq (.advance pid env)
  simp only [Action.stepOf, if_true, Process.step, hphase, hopen] at hnext
  exact ⟨record, v, hid, hv, hstate, hresponse, hnext⟩

/-- **Replays**, on every store that keeps its keys. -/
theorem replays_of_laws (law : StoreLaw platform.store view Fresh)
    (reuse : ReuseLaw platform.store holding Valid Fresh Enabled)
    (load : LoadLaw platform.store view Valid Enabled) {s : σ} (hempty : ∀ id, view s id = none)
    (hstart : Valid s) (routers : Nat → Router) (actions : List Action)
    (hfresh : ∀ t ∈ Lib.trace (System.step platform) (System.init s routers) actions,
      FreshStep Fresh t.1 t.2.1)
    {t : System σ × Action × System σ}
    (ht : t ∈ Lib.trace (System.step platform) (System.init s routers) actions) {pid : Nat}
    {q : Process} {env : Env} (hsubmission : Submission platform q.job id t)
    (hq : (Lib.run (System.step platform) (System.init s routers) actions).procs pid = some q)
    (hphase : q.phase = .submitted) (hentry : q.job.entry ≠ .stream none)
    (hfault : env.fault = none) :
    ReplaysUnlessEnded platform view
      (Lib.run (System.step platform) (System.init s routers) actions) pid env id := by
  have hreplayable := replayable_run law s routers actions hfresh hempty
  obtain ⟨record, v, rfl, hv, hstate, hresponse, hnext⟩ := answered_of_laws reuse load hstart
    routers actions hfresh ht hsubmission hq hphase hentry hfault
  exact ⟨v, _, _, hv, hnext, rfl, hreplayable.replays_iff hv hstate hresponse⟩

end Keys

/-- **Replays are faithful exactly to COMPLETED and open requests.** After any
    interleaving of executions and cancellations in which an input was
    submitted under a key, a submission of it that the store answers returns an
    outcome; that tells what is stored unless the request has ended without a
    response. -/
theorem replay_faithful_iff (hashChat : ChatInput → Except GoError (List UInt8))
    (services : Nat → Service) (routers : Nat → Router) (actions : List Action) {id : String}
    {pid : Nat} {q : Process} (hphase : q.phase = .submitted)
    (hentry : q.job.entry ≠ .stream none) {env : Env} (hfault : env.fault = none) :
    (∀ catalog : Catalog,
        let platform : Platform Db := { store := Persistence.Postgres.store, hashChat, services }
        let start := System.init (Db.init catalog) routers
        let x := Lib.run (System.step platform) start actions
        ∀ t ∈ Lib.trace (System.step platform) start actions, Submission platform q.job id t →
        x.procs pid = some q → ReplaysUnlessEnded platform Db.view x pid env id)
      ∧ ∀ policies : String → Option TenantPolicy,
        let platform : Platform Memory := { store := Memory.store, hashChat, services }
        let start := System.init (Memory.withPolicies policies) routers
        let x := Lib.run (System.step platform) start actions
        (∀ t ∈ Lib.trace (System.step platform) start actions, UnusedID t.1 t.2.1) →
        ∀ t ∈ Lib.trace (System.step platform) start actions, Submission platform q.job id t →
        x.procs pid = some q → ReplaysUnlessEnded platform Memory.view x pid env id := by
  constructor
  · intro catalog platform start x t ht hsubmission hq
    exact replays_of_laws Persistence.Postgres.storeLaw Persistence.Postgres.reuseLaw
      Persistence.Postgres.loadLaw (fun _ => rfl) (Persistence.Db.modelled_init catalog) routers
      actions (fun t _ => freshStep_of_true t.2.1) ht hsubmission hq hphase hentry hfault
  · intro policies platform start x hunused t ht hsubmission hq
    exact replays_of_laws Memory.storeLaw Memory.reuseLaw Memory.loadLaw (fun _ => rfl)
      (Memory.bound_withPolicies policies) routers actions
      (fun t ht => freshStep_of_unusedID (hunused t ht)) ht hsubmission hq hphase hentry hfault

/-! ## Concrete runs -/

/-- The sample deployment with the hash of the source. -/
def hashedPlatform : Platform Db :=
  { samplePlatform Persistence.Postgres.store with
    hashChat := Idempotency.hashChat JsonText.wholeFormat }

/-- The first execution ends and the job is submitted again, as process 1. -/
def replayRun (ending : List Action) : List Action :=
  upToCall ++ ending ++ [.submit 1 (sampleJob "a" .submit)]

/-- The state before the step of process 1. -/
def replayStart (ending : List Action) : System Db :=
  Lib.run (System.step hashedPlatform) sampleStart (replayRun ending)

/-- The first process got the request `r` from its submission. -/
theorem replayRun_submission (ending : List Action)
    (h : ((replayStart ending).procs 0).map (fun p => p.opened.map fun r => r.1.id)
      = some (some "r")) :
    ∃ t ∈ Lib.trace (System.step hashedPlatform) sampleStart (replayRun ending),
      Submission hashedPlatform (sampleJob "a" .submit) "r" t := by
  have hsubmitted : (sampleStart.step hashedPlatform (.submit 0 (sampleJob "a" .submit))).procs 0
      = some { job := sampleJob "a" .submit } := rfl
  obtain ⟨p, hp, hjob⟩ := System.run_job hashedPlatform hsubmitted
    (upToCall.tail ++ ending ++ [.submit 1 (sampleJob "a" .submit)])
  rw [← Lib.run_cons, ← List.cons_append, ← List.cons_append] at hp
  have hp : (replayStart ending).procs 0 = some p := hp
  rw [hp] at h
  obtain ⟨⟨record, created⟩, hopened, hid⟩ := Option.map_eq_some_iff.mp (Option.some.inj h)
  obtain ⟨t, ht, hsubmission⟩ := opened_submission _ _ (replayRun ending) hp hopened
  rw [hjob, show record.id = "r" from hid] at hsubmission
  exact ⟨t, ht, hsubmission⟩

/-- A provider that refuses the request. -/
def refused : GoError :=
  ⟨[.provider { provider := "p", category := "invalid_request", status := 400 }]⟩

/-- Process 1 waits for its step. -/
theorem replayRun_waiting (ending : List Action)
    (h : ((Lib.run (System.step hashedPlatform) sampleStart (upToCall ++ ending)).procs 1).isNone
      = true) :
    (replayStart ending).procs 1 = some { job := sampleJob "a" .submit } := by
  rw [replayStart, replayRun, Lib.run_append]
  generalize Lib.run (System.step hashedPlatform) sampleStart (upToCall ++ ending) = x at h
  rw [Lib.run_cons, Lib.run_nil]
  simp only [System.step, Option.isNone_iff_eq_none.mp h, Function.update_self]

/-- A completed request is replayed with the response that the first call returned. -/
theorem replay_faithful_completed :
    let x := replayStart answerAndFinish
    let x' := x.step hashedPlatform (.advance 1 (sampleEnv "s" "f" 9))
    ∃ v q outcome, x.store.view "r" = some v ∧ v.state = .completed
      ∧ x'.procs 1 = some q ∧ q.phase = .returned (.ok outcome) ∧ Replays x "r" v outcome := by
  obtain ⟨t, ht, hsubmission⟩ := replayRun_submission answerAndFinish (by decide +kernel)
  have hwaiting := replayRun_waiting answerAndFinish (by decide +kernel)
  have hfault : (sampleEnv "s" "f" 9).fault = none := rfl
  have hreplay : ReplaysUnlessEnded hashedPlatform Db.view (replayStart answerAndFinish) 1
      (sampleEnv "s" "f" 9) "r" :=
    (replay_faithful_iff (Idempotency.hashChat JsonText.wholeFormat) hashedPlatform.services
      (fun _ => sampleRouter) (replayRun answerAndFinish)
      (q := { job := sampleJob "a" .submit }) rfl Entry.noConfusion hfault).1
      (Catalog.sample 100 Catalog.hundred_fits) t ht hsubmission hwaiting
  have hstate : ((replayStart answerAndFinish).store.view "r").map RequestView.state
      = some .completed := by decide +kernel
  generalize replayStart answerAndFinish = x at hreplay hstate
  intro _
  obtain ⟨v, q, outcome, hv, hq, hphase, hiff⟩ := hreplay
  obtain ⟨w, hw, hcompleted⟩ := Option.map_eq_some_iff.mp hstate
  obtain rfl := Option.some.inj (hv.symm.trans hw)
  exact ⟨v, q, outcome, hv, hcompleted, hq, hphase, hiff.mpr fun _ => hcompleted⟩

/-- A request that has failed is replayed as pending. -/
theorem failed_replayed_pending :
    let x := replayStart
      [.advance 0 { sampleEnv "" "" 4 with complete := .error refused },
        .advance 0 (sampleEnv "g" "h" 5), .advance 0 (sampleEnv "" "" 6)]
    let x' := x.step hashedPlatform (.advance 1 (sampleEnv "s" "f" 9))
    (x.store.view "r").map RequestView.state = some .failed
      ∧ (x'.procs 1).map (fun q => match q.phase with
          | .returned (.ok outcome) => some (outcome.record.id, outcome.replayed, outcome.pending)
          | _ => none) = some (some ("r", true, true)) := by
  decide +kernel

end Aegis.Gateway
