/-
  Aegis.Gateway.Custody

  Who may do what to a request.  The execution that created a request is the
  only one that calls the store about it; everyone else can only cancel it.
  So, as long as it runs, the stored state is the one its stage expects
  (`Stage.states`), or CANCELLED.

  The results hold for every store that meets `StoreLaw`.
-/

import Aegis.Gateway.System

namespace Aegis.Gateway

open Aegis.Persistence (Call CreateRequestParams Effect Info Memory RequestView Store StoreLaw)
open Aegis.Request (ChatInput Record State canTransition)
open Aegis.Routing (Router)

/-- The stored states of the request at a stage, unless it was cancelled. -/
def Stage.states : Stage → List State
  | .received => [.received]
  | .validated | .abandoning _ | .admitting _ | .reserving _ _ | .rejecting _ _
  | .reserved _ => [.validated]
  | .routed _ => [.routing]
  | .selecting _ | .leased _ _ | .attempted _ _ | .calling _ _ _ | .completing _ _ _ _ _ _
  | .failing _ _ _ _ _ | .backingOff _ _ | .closing _ => [.inProgress]
  | .settling _ _ => [.completed]
  -- the store's answer to the last `FailAttempt` is ignored
  | .releasing _ => [.inProgress, .failed]

/-- The stored state fits the stage. -/
def Stage.Fits (stage : Stage) (state : State) : Prop :=
  state = .cancelled ∨ state ∈ stage.states

/-! ## Where a step leads -/

section Steps

variable {σ : Type} {store : Store σ} {view : σ → String → Option RequestView}
  {Fresh : σ → Call × Info → Prop} {hashChat : ChatInput → Except GoError (List UInt8)}
  {service : Service} {env : Env} {s : σ}

/-- What a call does to a request that is there: nothing, or its edge. -/
theorem perform_view (law : StoreLaw store view Fresh) {call : Call}
    (hfresh : Fresh s (call, env.info)) {id : String} {v : RequestView}
    (hv : view s id = some v) :
    view (perform store call env s).2 id = some v
      ∨ ∃ accepts target w, call.edge = some (id, accepts, target) ∧ accepts v.state = true
          ∧ canTransition v.state target = true
          ∧ view (perform store call env s).2 id = some w ∧ w.state = target
          ∧ ∀ params, call = .completeRequest params → w.response = some params.response := by
  rcases perform_store store env call s with hsame | hdone
  · rw [hsame]
    exact Or.inl hv
  · rw [hdone]
    have heffect := law.effect s call env.info hfresh id
    rw [hv] at heffect
    generalize view (store call env.info s).2 id = after at heffect
    cases heffect with
    | stay => exact Or.inl rfl
    | move hedge haccepts hcan htarget hresponse =>
        exact Or.inr ⟨_, _, _, hedge, haccepts, hcan, rfl, htarget, hresponse⟩

/-- A call with no edge at the request leaves it alone. -/
theorem perform_view_of_no_edge (law : StoreLaw store view Fresh) {call : Call}
    (hfresh : Fresh s (call, env.info)) {id : String} {v : RequestView}
    (hv : view s id = some v) (hedge : ∀ accepts target, call.edge ≠ some (id, accepts, target)) :
    view (perform store call env s).2 id = some v := by
  rcases perform_view law hfresh hv with hsame | ⟨accepts, target, w, hmove, -⟩
  · exact hsame
  · exact absurd hmove (hedge accepts target)

/-- A call that is answered has taken its edge. -/
theorem perform_accepted (law : StoreLaw store view Fresh) {call : Call} {s' : σ}
    {r : call.Result} {id : String} {accepts : State → Bool} {target : State}
    (hedge : call.edge = some (id, accepts, target))
    (h : perform store call env s = (.ok r, s')) :
    ∃ v, view s' id = some v ∧ v.state = target := by
  obtain ⟨v, w, -, -, hw, htarget⟩ := law.accepted hedge (perform_ok h)
  exact ⟨w, hw, htarget⟩

/-- **Custody of a step.** If the stored state fits the stage, it fits the next
    stage after the step. -/
theorem Branch.fits (law : StoreLaw store view Fresh) {p p' : Process} {record : Record}
    {s' : σ} {stage : Stage} (h : Branch store service p record env s stage p' s')
    (hphase : p.phase = .running record stage)
    (hfresh : ∀ call, Makes p call → Fresh s (call, env.info)) {v : RequestView}
    (hv : view s record.id = some v) (hfits : stage.Fits v.state) {record' : Record}
    {stage' : Stage} (hphase' : p'.phase = .running record' stage') :
    record' = record ∧ ∃ v', view s' record.id = some v' ∧ stage'.Fits v'.state := by
  -- an answered call along an edge leaves the state that the edge sets
  have htaken : ∀ {call : Call} {r : call.Result} {accepts target},
      call.edge = some (record.id, accepts, target) →
      perform store call env s = (.ok r, s') → target ∈ stage'.states →
      ∃ v', view s' record.id = some v' ∧ stage'.Fits v'.state := by
    intro call r accepts target hedge hrun hmem
    obtain ⟨w, hw, htarget⟩ := perform_accepted law hedge hrun
    exact ⟨w, hw, Or.inr (by rw [htarget]; exact hmem)⟩
  -- a call without an edge leaves the state
  have hleft : ∀ {call : Call} {result : Except GoError call.Result}, Makes p call →
      (∀ id accepts target, call.edge ≠ some (id, accepts, target)) →
      perform store call env s = (result, s') → view s' record.id = some v := by
    intro call result hmakes hedge hrun
    have hsame := perform_view_of_no_edge law (hfresh _ hmakes) hv (hedge record.id)
    rwa [hrun] at hsame
  cases h with
  | validate h | route h | progress h | complete h =>
      obtain ⟨rfl, rfl⟩ := Phase.running.inj hphase'
      exact ⟨rfl, htaken rfl h (List.mem_singleton_self _)⟩
  | policy h | forbidden h =>
      obtain ⟨rfl, rfl⟩ := Phase.running.inj hphase'
      exact ⟨rfl, v, hleft (.policy hphase) nofun h, hfits⟩
  | reserve h | exceeded h =>
      obtain ⟨rfl, rfl⟩ := Phase.running.inj hphase'
      exact ⟨rfl, v, hleft (.reserve hphase) nofun h, hfits⟩
  | start h =>
      obtain ⟨rfl, rfl⟩ := Phase.running.inj hphase'
      exact ⟨rfl, v, hleft (.start hphase) nofun h, hfits⟩
  | retry h =>
      -- a failure that may be retried does not touch the request
      obtain ⟨rfl, rfl⟩ := Phase.running.inj hphase'
      exact ⟨rfl, v, hleft (.fail hphase) nofun h, hfits⟩
  | fail h =>
      obtain ⟨rfl, rfl⟩ := Phase.running.inj hphase'
      exact ⟨rfl, htaken rfl h (by simp [Stage.states])⟩
  | refuse | quote | lease | exhausted | begin | answer | fault | interrupted | again =>
      obtain ⟨rfl, rfl⟩ := Phase.running.inj hphase'
      exact ⟨rfl, v, hv, hfits⟩
  | close =>
      -- the answer is ignored, so the request may or may not be FAILED
      obtain ⟨rfl, rfl⟩ := Phase.running.inj hphase'
      refine ⟨rfl, ?_⟩
      rcases perform_view law (hfresh _ (.close hphase)) hv with
        hsame | ⟨accepts, target, w, hedge, -, -, hw, htarget, -⟩
      · refine ⟨v, hsame, hfits.imp id ?_⟩
        intro hmem
        exact List.mem_cons.mpr (Or.inl (List.mem_singleton.mp hmem))
      · have hfailed : State.failed = target := by
          simp only [Call.edge, if_true, Option.some.injEq, Prod.mk.injEq] at hedge
          exact hedge.2.2
        exact ⟨w, hw, Or.inr (by simp [Stage.states, htarget, ← hfailed])⟩
  | unvalidated | abandon | unquoted | unreserved | reject | unrouted | stalled | unstarted
  | unpriced | uncompleted | settle | unfailed | release | panic => cases hphase'

end Steps

/-! ## The system -/

/-- What the store assumes about the identifiers generated in a step. -/
def FreshStep {σ : Type} (Fresh : σ → Call × Info → Prop) (x : System σ) : Action → Prop
  | .advance pid env =>
      ∀ p ∈ x.procs pid, ∀ call, Makes p call → Fresh x.store (call, env.info)
  | .cancel tenantID requestID correlationID env =>
      Fresh x.store (.cancelRequest tenantID requestID correlationID, env.info)
  | _ => True

/-- In memory: a new request gets an identifier that is not in use. -/
def UnusedID (x : System Memory) : Action → Prop
  | .advance pid env => ∀ p ∈ x.procs pid, p.isSubmitted = true →
      (x.store.requests (env.info.ids 0)).isNone = true
  | _ => True

instance (x : System Memory) (action : Action) : Decidable (UnusedID x action) :=
  match action with
  | .advance _ _ => Option.decidableForallMem ..
  | .submit _ _ => isTrue trivial
  | .cancel _ _ _ _ => isTrue trivial
  | .interfere _ _ => isTrue trivial

theorem freshStep_of_unusedID {x : System Memory} {action : Action} (h : UnusedID x action) :
    FreshStep Memory.FreshID x action := by
  cases action with
  | advance pid env =>
      intro p hp call hmakes
      cases hmakes with
      | create hphase =>
          have hnone := h p hp (by rw [Process.isSubmitted, hphase])
          exact Option.isNone_iff_eq_none.mp hnone
      | _ => exact trivial
  | submit | cancel | interfere => exact trivial

theorem freshStep_of_true {σ : Type} {x : System σ} (action : Action) :
    FreshStep (fun _ _ => True) x action := by
  cases action with
  | advance => exact fun _ _ _ _ => trivial
  | submit | cancel | interfere => exact trivial

/-- The call that a step makes has what it assumes. -/
theorem FreshStep.fresh {σ : Type} {Fresh : σ → Call × Info → Prop} {x : System σ}
    {action : Action} (h : FreshStep Fresh x action) {call : Call} {info : Info}
    (hcall : action.Calls x call) (hinfo : action.info = some info) :
    Fresh x.store (call, info) := by
  cases action with
  | advance pid env =>
      obtain ⟨p, hp, hmakes⟩ := hcall
      obtain rfl := Option.some.inj hinfo
      exact h p hp call hmakes
  | cancel tenantID requestID correlationID env =>
      obtain rfl := Option.some.inj hinfo
      subst hcall
      exact h
  | submit | interfere => exact hcall.elim

/-- Each running execution has the custody of one stored request. -/
structure Custody {σ : Type} (view : σ → String → Option RequestView) (x : System σ) : Prop where
  opened : ∀ {pid p record stage}, x.procs pid = some p → p.phase = .running record stage →
    p.opened = some (record, true)
  distinct : ∀ {pid pid' p p' record record'}, x.procs pid = some p → x.procs pid' = some p' →
    p.opened = some (record, true) → p'.opened = some (record', true) →
    record.id = record'.id → pid = pid'
  stored : ∀ {pid p record}, x.procs pid = some p → p.opened = some (record, true) →
    ∃ v, view x.store record.id = some v
  fits : ∀ {pid p record stage}, x.procs pid = some p → p.phase = .running record stage →
    ∃ v, view x.store record.id = some v ∧ stage.Fits v.state

section System

variable {σ : Type} {platform : Platform σ} {view : σ → String → Option RequestView}
  {Fresh : σ → Call × Info → Prop} {x : System σ}

theorem custody_init (s : σ) (routers : Nat → Router) : Custody view (System.init s routers) :=
  ⟨fun h => (nomatch h), fun h => (nomatch h), fun h => (nomatch h), fun h => (nomatch h)⟩

/-- A process's step leaves other requests alone. -/
theorem Process.step_view_of_ne (law : StoreLaw platform.store view Fresh) (service : Service)
    (router : Router) {p : Process} {env : Env} {s : σ}
    (hfresh : ∀ call, Makes p call → Fresh s (call, env.info)) {id : String} {v : RequestView}
    (hv : view s id = some v)
    (hother : ∀ record stage, p.phase = .running record stage → id ≠ record.id) :
    view (p.step platform.store platform.hashChat service env s router).2.1 id = some v := by
  rcases p.step_store s router with hsame | ⟨call, hmakes, hstore⟩
  · rw [hsame]
    exact hv
  · rw [hstore]
    refine perform_view_of_no_edge law (hfresh call hmakes) hv ?_
    intro accepts target hedge
    obtain ⟨record, stage, hphase, hid⟩ := hmakes.edge hedge
    exact hother record stage hphase hid

/-- A request does not disappear in a step. -/
theorem Process.step_view_isSome (law : StoreLaw platform.store view Fresh) {p : Process}
    {env : Env} {s : σ} {service : Service} {router : Router}
    (hfresh : ∀ call, Makes p call → Fresh s (call, env.info)) {id : String} {v : RequestView}
    (hv : view s id = some v) :
    ∃ w, view (p.step platform.store platform.hashChat service env s router).2.1 id = some w := by
  rcases p.step_store s router with hsame | ⟨call, hmakes, hstore⟩
  · rw [hsame]
    exact ⟨v, hv⟩
  · rw [hstore]
    rcases perform_view law (hfresh call hmakes) hv with hkept | ⟨_, _, w, -, -, -, hw, -⟩
    · exact ⟨v, hkept⟩
    · exact ⟨w, hw⟩

/-- A request that appears in a step has just been received. -/
theorem Process.step_view_created (law : StoreLaw platform.store view Fresh) {p : Process}
    {env : Env} {s : σ} {service : Service} {router : Router}
    (hfresh : ∀ call, Makes p call → Fresh s (call, env.info)) {id : String} {v : RequestView}
    (hnone : view s id = none)
    (hv : view (p.step platform.store platform.hashChat service env s router).2.1 id = some v) :
    v.state = .received := by
  rcases p.step_store s router with hsame | ⟨call, hmakes, hstore⟩
  · rw [hsame, hnone] at hv
    cases hv
  · rcases perform_store platform.store env call s with hsame | hdone
    · rw [hstore, hsame, hnone] at hv
      cases hv
    · have heffect := law.effect s call env.info (hfresh call hmakes) id
      rw [← hdone, ← hstore, hnone, hv] at heffect
      cases heffect with
      | create params hcall hid hstate => exact hstate

/-- What a step does to the process's own request. -/
theorem Process.step_own (service : Service) (router : Router)
    (law : StoreLaw platform.store view Fresh) {p : Process} {env : Env} {s : σ}
    (hfresh : ∀ call, Makes p call → Fresh s (call, env.info))
    (hopened : ∀ record stage, p.phase = .running record stage → p.opened = some (record, true))
    (hfits : ∀ record stage, p.phase = .running record stage →
      ∃ v, view s record.id = some v ∧ stage.Fits v.state) :
    let p' := (p.step platform.store platform.hashChat service env s router).1
    let s' := (p.step platform.store platform.hashChat service env s router).2.1
    (∀ record stage, p'.phase = .running record stage → p'.opened = some (record, true)
        ∧ ∃ v, view s' record.id = some v ∧ stage.Fits v.state)
      ∧ ∀ record, p'.opened = some (record, true) → p.opened = some (record, true)
          ∨ view s record.id = none ∧ ∃ v, view s' record.id = some v := by
  dsimp only
  rcases p.step_cases platform.store platform.hashChat service env s router with
    ⟨hphase, hp', hs'⟩ | ⟨record, stage, hphase, hbranch⟩ | ⟨-, hp', hs'⟩
  · -- the request of a process is the one it created when it opened
    rw [hp', hs']
    rcases p.open_cases platform.store platform.hashChat env s with
      ⟨err, s', hopen⟩ | ⟨params, record, created, s', htenant, hkey, hrun, hcase⟩
    · rw [hopen]
      exact ⟨fun _ _ h => (nomatch h), fun _ h => Or.inl h⟩
    · rcases hcase with ⟨rfl, hopen⟩ | ⟨rfl, outcome, hopen⟩
      · obtain ⟨-, hnone, v, hv, hstate⟩ :=
          law.created (hfresh _ (.create hphase htenant hkey)) (perform_ok hrun)
        rw [hopen]
        constructor
        · intro record' stage hrunning
          obtain ⟨rfl, rfl⟩ := Phase.running.inj hrunning
          exact ⟨rfl, v, hv, Or.inr (by simp [Stage.states, hstate])⟩
        · intro record' hrecord
          have hsame : record = record' := congrArg Prod.fst (Option.some.inj hrecord)
          rw [← hsame]
          exact Or.inr ⟨hnone, v, hv⟩
      · rw [hopen]
        refine ⟨fun _ _ h => (nomatch h), ?_⟩
        intro record' hrecord
        exact absurd (congrArg Prod.snd (Option.some.inj hrecord)) (by simp)
  · obtain ⟨v, hv, hfit⟩ := hfits record stage hphase
    rw [hbranch.kept.2]
    refine ⟨?_, fun _ hrecord => Or.inl hrecord⟩
    intro record' stage' hrunning
    obtain ⟨rfl, hnext⟩ := hbranch.fits law hphase hfresh hv hfit hrunning
    exact ⟨hopened _ _ hphase, hnext⟩
  · rw [hp', hs']
    refine ⟨?_, fun _ h => Or.inl h⟩
    intro record stage hrunning
    exact ⟨hopened record stage hrunning, hfits record stage hrunning⟩

/-- The request of another process is not touched by a step. -/
theorem Custody.view_other (law : StoreLaw platform.store view Fresh) (h : Custody view x)
    {pid pid' : Nat} {env : Env} {p q : Process} {record : Record} {v : RequestView}
    (hp : x.procs pid = some p) (hfresh : ∀ call, Makes p call → Fresh x.store (call, env.info))
    (hne : pid' ≠ pid) (hq : x.procs pid' = some q) (hopened : q.opened = some (record, true))
    (hv : view x.store record.id = some v) :
    view (p.step platform.store platform.hashChat (platform.services p.job.replica) env x.store
      (x.routers p.job.replica)).2.1 record.id = some v := by
  refine Process.step_view_of_ne law _ _ hfresh hv ?_
  intro record' stage hphase hid
  exact hne (h.distinct hq hp hopened (h.opened hp hphase) hid)

/-- An advance keeps the custody. -/
theorem custody_advance (law : StoreLaw platform.store view Fresh) (h : Custody view x) {pid : Nat}
    {env : Env} {p : Process} (hp : x.procs pid = some p)
    (hfresh : ∀ call, Makes p call → Fresh x.store (call, env.info)) :
    Custody view (x.step platform (.advance pid env)) := by
  obtain ⟨hown, hnew⟩ := Process.step_own (platform.services p.job.replica)
    (x.routers p.job.replica) law hfresh (fun _ _ hphase => h.opened hp hphase)
    (fun _ _ hphase => h.fits hp hphase)
  refine ⟨?_, ?_, ?_, ?_⟩
  · intro pid' q record stage hq hphase
    rcases procs_advance hp hq with ⟨rfl, rfl⟩ | ⟨-, hq⟩
    · exact (hown record stage hphase).1
    · exact h.opened hq hphase
  · intro pid₁ pid₂ q₁ q₂ record₁ record₂ hq₁ hq₂ hopened₁ hopened₂ hid
    rcases procs_advance hp hq₁ with ⟨rfl, rfl⟩ | ⟨-, hold₁⟩
    · rcases procs_advance hp hq₂ with ⟨rfl, rfl⟩ | ⟨hne₂, hq₂⟩
      · rfl
      · rcases hnew record₁ hopened₁ with hold | ⟨hnone, -⟩
        · exact h.distinct hp hq₂ hold hopened₂ hid
        · -- a new request has an identifier that no stored request has
          obtain ⟨v, hv⟩ := h.stored hq₂ hopened₂
          rw [← hid, hnone] at hv
          cases hv
    · rcases procs_advance hp hq₂ with ⟨rfl, rfl⟩ | ⟨-, hq₂⟩
      · rcases hnew record₂ hopened₂ with hold | ⟨hnone, -⟩
        · exact h.distinct hold₁ hp hopened₁ hold hid
        · obtain ⟨v, hv⟩ := h.stored hold₁ hopened₁
          rw [hid, hnone] at hv
          cases hv
      · exact h.distinct hold₁ hq₂ hopened₁ hopened₂ hid
  · intro pid' q record hq hopened
    rw [store_advance hp]
    rcases procs_advance hp hq with ⟨rfl, rfl⟩ | ⟨-, hq⟩
    · rcases hnew record hopened with hold | ⟨-, hsome⟩
      · obtain ⟨v, hv⟩ := h.stored hp hold
        exact Process.step_view_isSome law hfresh hv
      · exact hsome
    · obtain ⟨v, hv⟩ := h.stored hq hopened
      exact Process.step_view_isSome law hfresh hv
  · intro pid' q record stage hq hphase
    rw [store_advance hp]
    rcases procs_advance hp hq with ⟨rfl, rfl⟩ | ⟨hne, hq⟩
    · exact (hown record stage hphase).2
    · obtain ⟨v, hv, hfit⟩ := h.fits hq hphase
      exact ⟨v, h.view_other law hp hfresh hne hq (h.opened hq hphase) hv, hfit⟩

/-- A cancellation keeps the custody. -/
theorem custody_cancel (law : StoreLaw platform.store view Fresh) (h : Custody view x)
    {tenantID requestID correlationID : String} {env : Env}
    (hfresh : Fresh x.store (.cancelRequest tenantID requestID correlationID, env.info)) :
    Custody view (x.step platform (.cancel tenantID requestID correlationID env)) := by
  refine ⟨h.opened, h.distinct, ?_, ?_⟩
  · intro pid p record hp hopened
    obtain ⟨v, hv⟩ := h.stored hp hopened
    rcases perform_view law hfresh hv with hkept | ⟨_, _, w, -, -, -, hw, -⟩
    · exact ⟨v, hkept⟩
    · exact ⟨w, hw⟩
  · intro pid p record stage hp hphase
    obtain ⟨v, hv, hfit⟩ := h.fits hp hphase
    rcases perform_view law hfresh hv with hkept | ⟨_, target, w, hedge, -, -, hw, htarget, -⟩
    · exact ⟨v, hkept, hfit⟩
    · -- CANCELLED fits every stage
      have hcancelled : State.cancelled = target :=
        congrArg (fun e => e.2.2) (Option.some.inj hedge)
      exact ⟨w, hw, Or.inl (by rw [htarget, ← hcancelled])⟩

theorem custody_step (law : StoreLaw platform.store view Fresh) (h : Custody view x)
    (action : Action) (hfresh : FreshStep Fresh x action) :
    Custody view (x.step platform action) := by
  cases action with
  | submit pid job =>
      refine ⟨?_, ?_, ?_, ?_⟩
      · intro pid' q record stage hq hphase
        exact h.opened (procs_submit_running hq hphase) hphase
      · intro pid₁ pid₂ q₁ q₂ record₁ record₂ hq₁ hq₂ hopened₁ hopened₂ hid
        exact h.distinct (procs_submit_opened hq₁ hopened₁) (procs_submit_opened hq₂ hopened₂)
          hopened₁ hopened₂ hid
      · intro pid' q record hq hopened
        rw [store_submit]
        exact h.stored (procs_submit_opened hq hopened) hopened
      · intro pid' q record stage hq hphase
        rw [store_submit]
        exact h.fits (procs_submit_running hq hphase) hphase
  | advance pid env =>
      cases hp : x.procs pid with
      | none =>
          rw [step_advance_none hp]
          exact h
      | some p => exact custody_advance law h hp (hfresh p hp)
  | cancel tenantID requestID correlationID env => exact custody_cancel law h hfresh
  | interfere replica state => exact ⟨h.opened, h.distinct, h.stored, h.fits⟩

/-- What a step does to a request is the effect of one call. -/
theorem System.step_effect (law : StoreLaw platform.store view Fresh) (action : Action)
    (hfresh : FreshStep Fresh x action) (id : String) :
    view (x.step platform action).store id = view x.store id
      ∨ ∃ call info, action.Calls x call
          ∧ Effect call info id (view x.store id) (view (x.step platform action).store id) := by
  rcases System.step_store_call platform x action with hsame | ⟨call, info, hcall, hcalled, hinfo⟩
  · exact Or.inl (by rw [hsame])
  · rw [hcalled]
    exact Or.inr ⟨call, info, hcall,
      law.effect x.store call info (hfresh.fresh hcall hinfo) id⟩

/-- A terminal request stays as it is. -/
theorem System.step_terminal (law : StoreLaw platform.store view Fresh) {id : String}
    {v : RequestView} (hv : view x.store id = some v) (hterminal : v.state.terminal = true)
    (action : Action) (hfresh : FreshStep Fresh x action) :
    view (x.step platform action).store id = some v := by
  rcases System.step_effect law action hfresh id with hsame | ⟨call, info, -, heffect⟩
  · exact hsame.trans hv
  · rw [hv] at heffect
    generalize view (x.step platform action).store id = after at heffect
    cases heffect with
    | stay => rfl
    | move _ _ hcan =>
        rw [Request.not_terminal_of_canTransition hcan] at hterminal
        cases hterminal

/-- A property of the store that every call keeps is kept by every step. -/
theorem System.step_keeps {P : σ → Prop}
    (hP : ∀ s a, P s → Fresh s a → P (platform.store a.1 a.2 s).2) (h : P x.store)
    (action : Action) (hfresh : FreshStep Fresh x action) : P (x.step platform action).store := by
  rcases System.step_store_call platform x action with hsame | ⟨call, info, hcall, hcalled, hinfo⟩
  · rw [hsame]
    exact h
  · rw [hcalled]
    exact hP x.store (call, info) h (hfresh.fresh hcall hinfo)

end System

end Aegis.Gateway
