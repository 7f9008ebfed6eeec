/-
  Aegis.Evaluations.Acceptance

  A `Submit` that returns a job without an error, and whether a command for the
  job has been confirmed.

  The first `Submit` of a job returns without an error only after its `Publish`.
  A repeat with the same idempotency key publishes nothing: it relies on the
  call that inserted the job.  The invariant is that a job has a confirmed
  command or there is such a call that has not published yet, or could not.
  Where no repeat reads a job of such a call, every accepted job has been
  published.
-/

import Aegis.Evaluations.Commands

namespace Aegis.Evaluations

open Aegis.EvaluationJob (Entry Invocation Response)
open Aegis.Persistence.Evaluations
open Aegis.RabbitMQ (Broker Env perform)
open Aegis.RabbitMQ.Broker (published_of_eq)

/-! ## Confirmed commands -/

/-- A command for the job has been confirmed. -/
def Confirmed (b : Broker) (jobID : String) : Prop :=
  ∃ command ∈ b.confirmed, command.jobID = jobID

theorem Relayed.confirmed {x : System} {action : Action} {b : Broker} {jobID : String}
    (hrelayed : Relayed x action b) (h : Confirmed x.broker jobID) : Confirmed b jobID := by
  obtain ⟨command, hmem, hjob⟩ := h
  cases hrelayed with
  | submitted _ _ hpublished | retried _ _ hpublished =>
      cases hpublished with
      | refused | unconfirmed => exact ⟨command, hmem, hjob⟩
      | confirmed => exact ⟨command, List.mem_append_left _ hmem, hjob⟩
  | _ => exact ⟨command, hmem, hjob⟩

/-! ## Jobs that have been inserted and not published -/

/-- The job that a `Submit` in this stage has inserted without having published
    a command for it. -/
def unpublished? : EvaluationJob.Stage → Option String
  | .reading _ id true => some id
  | .publishing job => some job.id
  | .returned ⟨some job, _, some err⟩ =>
      if err.chain.head? = some (.text "publish evaluation command") then some job.id else none
  | _ => none

/-- A `Submit` has inserted the job and has not published, or could not. -/
def Unpublished (x : System) (jobID : String) : Prop :=
  ∃ cid c, x.calls cid = some c ∧ c.entry.isSubmit = true ∧ unpublished? c.stage = some jobID

/-- A tenant reads its own jobs. -/
theorem getEvaluation_owned {db : Db} {tenantID id : String} (h : Owns db tenantID id) :
    ∃ job, getEvaluation tenantID id db = .ok (job, db) := by
  obtain ⟨v, hv, rfl⟩ := h
  obtain ⟨row, hrow, rfl⟩ := Db.view_eq_some_iff.mp hv
  obtain ⟨hmem, rfl⟩ := Db.job?_eq_some_iff.mp hrow
  unfold getEvaluation
  split
  · next hnone =>
      have hmiss := List.find?_eq_none.mp hnone row hmem
      simp at hmiss
  · next j hfound => exact ⟨_, rfl⟩

section Api

variable {env : Env} {entry : Entry} {db db' : Db} {broker broker' : Broker}
  {stage stage' : EvaluationJob.Stage}

/-- A `Submit` that has inserted a job goes on to publish a command for it, or
    says that it could not. -/
theorem ApiBranch.publishes (h : ApiBranch env entry db broker stage stage' db' broker')
    (hsubmit : entry.isSubmit = true)
    (howns : ∀ id, jobID? stage = some id → Owns db entry.tenantID id)
    (hread : ∀ canonical id, stage = .reading canonical id true → env.fault = none)
    {id : String} (hid : unpublished? stage = some id) :
    Confirmed broker' id ∨ unpublished? stage' = some id := by
  cases h with
  | read hrun =>
      have heffect := perform_ok hrun
      cases heffect with
      | read => exact Or.inr hid
  | @unread canonical jobID created err db' hrun =>
      cases created with
      | false => cases hid
      | true =>
          -- the job is there and the database answers
          obtain ⟨job, hjob⟩ := getEvaluation_owned (howns jobID rfl)
          simp [perform, hread canonical jobID rfl, store, transact, hjob] at hrun
  | publish hrun =>
      have hpublished := published_of_eq hrun
      cases hpublished with
      | confirmed =>
          exact Or.inl ⟨_, List.mem_append_right _ (List.mem_singleton_self _),
            Option.some.inj hid⟩
  | @unpublished job err broker' hrun =>
      cases entry with
      | retry => cases hsubmit
      | submit => exact Or.inr hid
  | returned => exact Or.inr hid
  | _ => cases hid

/-- The status is updated after a confirmed publication. -/
theorem ApiBranch.queues {job : EvaluationJob}
    (h : ApiBranch env entry db broker stage (.queueing job) db' broker') :
    Confirmed broker' job.id := by
  cases h with
  | publish hrun =>
      have hpublished := published_of_eq hrun
      cases hpublished with
      | confirmed => exact ⟨_, List.mem_append_right _ (List.mem_singleton_self _), rfl⟩

/-- How a call comes to return without an error. -/
theorem ApiBranch.accepts {response : Response}
    (h : ApiBranch env entry db broker stage (.returned response) db' broker')
    (herr : response.err = none) :
    stage = .returned response
      ∨ ∃ job, response.job = some job
        ∧ ((∃ queued, stage = .queueing queued ∧ job.id = queued.id)
          ∨ ∃ canonical v, stage = .reading canonical job.id false
            ∧ db.view job.id = some v) := by
  cases h with
  | returned => exact Or.inl rfl
  | queue => exact Or.inr ⟨_, rfl, Or.inl ⟨_, rfl, rfl⟩⟩
  | replay hrun =>
      have heffect := perform_ok hrun
      cases heffect with
      | read hv => exact Or.inr ⟨_, rfl, Or.inr ⟨_, _, rfl, hv⟩⟩
  | unpublished | unqueued => cases entry <;> cases herr
  | _ => cases herr

end Api

/-! ## The condition -/

/-- What a step of `Submit` needs in a stage: the insert is not committed
    without an answer, the new job is read, and the job of a repeat is `clear`. -/
def Orderly (clear : String → Prop) (env : Env) : EvaluationJob.Stage → Prop
  | .opened =>
      match env.fault with
      | some (.unacknowledged _) => False
      | _ => True
  | .reading _ _ true => env.fault.isNone = true
  | .reading _ id false => clear id
  | _ => True

/-- Every `Submit` that inserts a job gets to its `Publish`, and no repeat reads a
    job whose `Publish` has not come or has failed. -/
def InOrder (x : System) : Action → Prop
  | .advance cid env => ∀ c ∈ x.calls cid, c.entry.isSubmit = true →
      Orderly (fun id => ¬ Unpublished x id) env c.stage
  | _ => True

/-! ## The invariant -/

structure Submitted (x : System) : Prop where
  addressed : Addressed x
  jobs : ∀ id v, x.db.view id = some v → Confirmed x.broker id ∨ Unpublished x id
  queueing : ∀ cid c job, x.calls cid = some c → c.stage = .queueing job →
    Confirmed x.broker job.id
  returned : ∀ cid c response, x.calls cid = some c → c.entry.isSubmit = true →
    c.stage = .returned response → response.err = none →
    ∃ job, response.job = some job ∧ Confirmed x.broker job.id

theorem submitted_init (platform : Persistence.Db) : Submitted (.init platform) where
  addressed := addressed_init platform
  jobs := fun _ _ h => (nomatch h)
  queueing := fun _ _ _ h => (nomatch h)
  returned := fun _ _ _ h => (nomatch h)

section Steps

variable {services : Services} {x x' : System} {action : Action}

/-- A job that has not been published is published, or it stays so. -/
theorem Unpublished.step (h : Addressed x) (hstep : Step services x action x')
    (horder : InOrder x action) {id : String} (hid : Unpublished x id) :
    Confirmed x'.broker id ∨ Unpublished x' id := by
  obtain ⟨cid, c, hc, hsubmit, hstage⟩ := hid
  cases hstep with
  | @call cid' entry hfree =>
      have hne : cid ≠ cid' := by
        rintro rfl
        cases hfree.symm.trans hc
      exact Or.inr ⟨cid, c, (Function.update_of_ne hne ..).trans hc, hsubmit, hstage⟩
  | @advance cid' env c' stage db broker hc' hbranch =>
      by_cases heq : cid = cid'
      · subst heq
        obtain rfl := Option.some.inj (hc.symm.trans hc')
        have horderly := horder c hc hsubmit
        have hread : ∀ canonical id, c.stage = .reading canonical id true → env.fault = none := by
          intro canonical id hreading
          rw [hreading] at horderly
          exact Option.isNone_iff_eq_none.mp horderly
        rcases hbranch.publishes hsubmit (h.calls cid c hc) hread hstage with hconfirmed | hstage'
        · exact Or.inl hconfirmed
        · exact Or.inr ⟨cid, _, Function.update_self .., hsubmit, hstage'⟩
      · exact Or.inr ⟨cid, c, (Function.update_of_ne heq ..).trans hc, hsubmit, hstage⟩
  | _ => exact Or.inr ⟨cid, c, hc, hsubmit, hstage⟩

theorem Submitted.step (h : Submitted x) (hstep : Step services x action x')
    (horder : InOrder x action) : Submitted x' where
  addressed := h.addressed.step hstep
  jobs := by
    intro id v' hv'
    -- a job that was there keeps its witness; a new one has the call that inserted it
    rcases hstep.new_job hv' with ⟨v, hv⟩ | ⟨cid, env, c, rfl, hc, hstage, hsubmit, -, hnew⟩
    · rcases h.jobs id v hv with hconfirmed | hunpublished
      · exact Or.inl (hstep.relayed.confirmed hconfirmed)
      · exact hunpublished.step h.addressed hstep horder
    · rcases hnew with ⟨canonical, hc'⟩ | ⟨lost, hfault⟩
      · exact Or.inr ⟨cid, _, hc', hsubmit, rfl⟩
      · have horderly := horder c hc hsubmit
        rw [hstage] at horderly
        simp only [Orderly, hfault] at horderly
  queueing := by
    intro cid c' job hc' hstage'
    rcases hstep.call_cases hc' with hc | ⟨entry, -, rfl⟩ | ⟨c, env, hc, -, -, hbranch⟩
    · exact hstep.relayed.confirmed (h.queueing cid c' job hc hstage')
    · cases hstage'
    · rw [hstage'] at hbranch
      exact hbranch.queues
  returned := by
    intro cid c' response hc' hsubmit hstage' herr
    have hkeep : ∀ {jobID}, Confirmed x.broker jobID → Confirmed x'.broker jobID :=
      fun hconfirmed => hstep.relayed.confirmed hconfirmed
    have hold : ∀ c, x.calls cid = some c → c.entry.isSubmit = true →
        c.stage = .returned response →
        ∃ job, response.job = some job ∧ Confirmed x'.broker job.id := by
      intro c hc hsubmit hstage
      obtain ⟨job, hjob, hconfirmed⟩ := h.returned cid c response hc hsubmit hstage herr
      exact ⟨job, hjob, hkeep hconfirmed⟩
    rcases hstep.call_cases hc' with hc | ⟨entry, -, rfl⟩ | ⟨c, env, hc, rfl, hentry, hbranch⟩
    · exact hold c' hc hsubmit hstage'
    · cases hstage'
    · rw [hentry] at hsubmit
      rw [hstage'] at hbranch
      rcases hbranch.accepts herr with hstage
        | ⟨job, hjob, ⟨queued, hstage, hid⟩ | ⟨canonical, v, hstage, hv⟩⟩
      · exact hold c hc hsubmit hstage
      · have hconfirmed := h.queueing cid c queued hc hstage
        rw [← hid] at hconfirmed
        exact ⟨job, hjob, hkeep hconfirmed⟩
      · -- a repeat: the call that inserted the job has published
        have horderly := horder c hc hsubmit
        rw [hstage] at horderly
        exact ⟨job, hjob, hkeep ((h.jobs job.id v hv).resolve_right horderly)⟩

end Steps

/-- **An accepted evaluation has been published.**  In a run in which every
    `Submit` that inserts a job gets to its `Publish`, and no repeat reads a job
    whose `Publish` has not come or has failed: a `Submit` that has returned
    without an error has returned a job, and a command for it was confirmed. -/
theorem accepted_evaluation_published (services : Services) (platform : Persistence.Db)
    (actions : List Action)
    (hrun : ∀ t ∈ Lib.trace (System.step services) (.init platform) actions,
      InOrder t.1 t.2.1) :
    let x := Lib.run (System.step services) (.init platform) actions
    ∀ cid c response, x.calls cid = some c → c.entry.isSubmit = true →
      c.stage = .returned response → response.err = none →
      ∃ job, response.job = some job
        ∧ ∃ command ∈ x.broker.confirmed, command.jobID = job.id := by
  have hsubmitted : Submitted (Lib.run (System.step services) (.init platform) actions) :=
    Lib.run_invariant (C := InOrder)
      (fun x action h horder => h.step (step_cases services x action) horder)
      actions (submitted_init platform) hrun
  exact hsubmitted.returned

/-! ### Runs with few calls -/

/-- The call that an action opens. -/
def Action.opens : Action → Option Nat
  | .call cid _ => some cid
  | _ => none

/-- The condition, looking only at the first `n` calls. -/
def InOrderBelow (n : Nat) (x : System) : Action → Prop
  | .advance cid env => ∀ c ∈ x.calls cid, c.entry.isSubmit = true →
      Orderly (fun id => ∀ cid < n, ∀ c ∈ x.calls cid, c.entry.isSubmit = true →
        unpublished? c.stage ≠ some id) env c.stage
  | _ => True

instance {clear : String → Prop} [DecidablePred clear] (env : Env) :
    (stage : EvaluationJob.Stage) → Decidable (Orderly clear env stage)
  | .opened =>
      match h : env.fault with
      | some (.unacknowledged _) => .isFalse (by simp [Orderly, h])
      | some (.refused _) | none => .isTrue (by simp [Orderly, h])
  | .reading _ _ true => inferInstanceAs (Decidable (_ = true))
  | .reading _ id false => inferInstanceAs (Decidable (clear id))
  | .finding _ | .publishing _ | .queueing _ | .returned _ => .isTrue trivial

instance (n : Nat) (x : System) : (action : Action) → Decidable (InOrderBelow n x action)
  | .advance _ _ => inferInstanceAs (Decidable (∀ c ∈ _, _ → Orderly _ _ _))
  | .call _ _ | .deliver _ | .work _ _ | .crash _ | .requeue _ | .expire _ | .gateway _ _ =>
      .isTrue trivial

theorem Orderly.imp {clear clear' : String → Prop} (hclear : ∀ id, clear id → clear' id)
    {env : Env} {stage : EvaluationJob.Stage} (h : Orderly clear env stage) :
    Orderly clear' env stage := by
  cases stage with
  | reading canonical id created =>
      cases created with
      | true => exact h
      | false => exact hclear id h
  | _ => exact h

/-- A run that opens only the first `n` calls has no others. -/
theorem calls_lt {services : Services} {platform : Persistence.Db} {n : Nat}
    {actions : List Action} (hopens : ∀ action ∈ actions, ∀ cid ∈ action.opens, cid < n)
    {t : System × Action × System}
    (ht : t ∈ Lib.trace (System.step services) (.init platform) actions) :
    ∀ cid c, t.1.calls cid = some c → cid < n := by
  have hstep : ∀ (x : System) (action : Action), (∀ cid c, x.calls cid = some c → cid < n) →
      (∀ cid ∈ action.opens, cid < n) →
      ∀ cid c, (x.step services action).calls cid = some c → cid < n := by
    intro x action hcalls hopens cid c' hc'
    rcases (step_cases services x action).call_cases hc' with hc | ⟨entry, rfl, -⟩
      | ⟨c, env, hc, -⟩
    · exact hcalls cid c' hc
    · exact hopens cid rfl
    · exact hcalls cid c hc
  have hinit : ∀ cid c, (System.init platform).calls cid = some c → cid < n :=
    fun _ _ h => nomatch h
  refine (Lib.trace_invariant hstep hinit ?_ ht).1
  intro t ht
  obtain ⟨pre, post, hactions, -⟩ := Lib.mem_trace ht
  exact hopens t.2.1 (by rw [hactions]; simp)

/-- Such a run is in order when it is so as far as these calls are concerned. -/
theorem inOrder_of_below {services : Services} {platform : Persistence.Db} {n : Nat}
    {actions : List Action} (hopens : ∀ action ∈ actions, ∀ cid ∈ action.opens, cid < n)
    (hrun : ∀ t ∈ Lib.trace (System.step services) (.init platform) actions,
      InOrderBelow n t.1 t.2.1) :
    ∀ t ∈ Lib.trace (System.step services) (.init platform) actions, InOrder t.1 t.2.1 := by
  intro t ht
  have hcalls := calls_lt hopens ht
  have hbelow := hrun t ht
  generalize t.2.1 = action at hbelow
  cases action with
  | advance cid env =>
      intro c hc hsubmit
      refine (hbelow c hc hsubmit).imp ?_
      rintro id hclear ⟨cid', c', hc', hsubmit', hstage'⟩
      exact hclear cid' (hcalls cid' c' hc') c' hc' hsubmit' hstage'
  | _ => exact trivial

/-- The first call publishes its command and cannot update the status.  Its
    repeat returns the job. -/
theorem accepted_evaluation_published_repeat :
    let actions : List Action := .call 0 sampleSubmit
      :: List.replicate 3 (.advance 0 (sampleEnv "j" "")) ++ [.advance 0 refusedEnv]
      ++ .call 1 sampleSubmit :: List.replicate 3 (.advance 1 (sampleEnv "k" ""))
    let x := Lib.run (System.step sampleServices) (.init samplePlatform) actions
    (∃ c ∈ x.calls 1, ∃ job, c.stage = .returned ⟨some job, false, none⟩)
      ∧ ∀ cid c response, x.calls cid = some c → c.entry.isSubmit = true →
        c.stage = .returned response → response.err = none →
        ∃ job, response.job = some job
          ∧ ∃ command ∈ x.broker.confirmed, command.jobID = job.id := by
  refine ⟨⟨_, rfl, _, rfl⟩, ?_⟩
  exact accepted_evaluation_published sampleServices samplePlatform _
    (inOrder_of_below (n := 2) (by decide) (by decide +kernel))

/-- The first call cannot publish its command.  Its repeat returns the job
    without an error, and nothing has been published. -/
theorem repeat_returns_unpublished :
    let refused : Env := { sampleEnv "" "" with publication := .refused (.new "not confirmed") }
    let x := Lib.run (System.step sampleServices) (.init samplePlatform)
      (.call 0 sampleSubmit :: List.replicate 2 (.advance 0 (sampleEnv "j" ""))
        ++ [.advance 0 refused]
        ++ .call 1 sampleSubmit :: List.replicate 3 (.advance 1 (sampleEnv "k" "")))
    (∃ c ∈ x.calls 1, c.entry.isSubmit = true
        ∧ ∃ job, job.id = "j" ∧ c.stage = .returned ⟨some job, false, none⟩)
      ∧ x.broker.confirmed = [] ∧ x.broker.accepted = [] := by
  exact ⟨⟨_, rfl, rfl, _, rfl, rfl⟩, rfl, rfl⟩

end Aegis.Evaluations
