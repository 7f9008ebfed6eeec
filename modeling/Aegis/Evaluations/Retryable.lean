/-
  Aegis.Evaluations.Retryable

  A job without a result makes progress: a worker will get a command for it, or
  `Retry` accepts its status.

  The statuses that `Retry` refuses are QUEUED and RUNNING.  A job is `Pending`
  when a copy of its command waits in the work or retry queue, or is in the
  hands of a worker that has neither passed it on nor given it up.  The
  invariant is that a job in one of the two statuses is pending.

  Three calls can break it, and `Careful` asks them not to: a permanent
  `FailEvaluation` that does not commit, whose error `retry` ignores, and a
  `MarkEvaluationQueued` or `MarkEvaluationRunning` that comes so late that the
  command has already been given up.
-/

import Aegis.Evaluations.Conservation

namespace Aegis.Evaluations

open Aegis.EvaluationJob (Invocation)
open Aegis.Lib.Broker (at_publish_self)
open Aegis.Persistence (Info)
open Aegis.Persistence.Evaluations
open Aegis.RabbitMQ (Broker Env Handler Job Queue Stage Worker perform)
open Aegis.RabbitMQ.Broker (published_of_eq)

/-! ## Identifiers -/

/-- Identifiers are not empty: those of the callers' tenants and those that the
    database generates. -/
def Identified : Action → Prop
  | .call _ entry => entry.tenantID ≠ ""
  | .advance _ env => env.info.ids 0 ≠ ""
  | _ => True

instance : (action : Action) → Decidable (Identified action)
  | .call _ entry => inferInstanceAs (Decidable (entry.tenantID ≠ ""))
  | .advance _ env => inferInstanceAs (Decidable (env.info.ids 0 ≠ ""))
  | .deliver _ | .work _ _ | .crash _ | .requeue _ | .expire _ | .gateway _ _ => .isTrue trivial

/-- No command is malformed. -/
structure Named (x : System) : Prop where
  jobs : ∀ id v, x.db.view id = some v → id ≠ ""
  calls : ∀ cid c, x.calls cid = some c → c.entry.tenantID ≠ ""
  messages : ∀ place m, x.broker.messages.At place m → m.tenantID ≠ "" ∧ m.executionID ≠ ""
  handlers : ∀ tag h, x.handlers tag = some h → h.job.tenantID ≠ "" ∧ h.job.executionID ≠ ""

theorem named_init (platform : Persistence.Db) : Named (.init platform) where
  jobs := fun _ _ h => (nomatch h)
  calls := fun _ _ h => (nomatch h)
  messages := fun place m hm => absurd hm (Lib.Broker.not_at_empty place m)
  handlers := fun _ _ h => (nomatch h)

theorem Named.step {services : Services} {x x' : System} {action : Action} (h : Named x)
    (hstep : Step services x action x') (hidentified : Identified action) : Named x' where
  jobs := by
    intro id v' hv'
    rcases hstep.new_job hv' with ⟨v, hv⟩ | ⟨cid, env, c, rfl, -, -, -, rfl, -⟩
    · exact h.jobs id v hv
    · exact hidentified
  calls := by
    intro cid c' hc'
    rcases hstep.call_cases hc' with hc | ⟨entry, rfl, rfl⟩ | ⟨c, env, hc, -, hentry, -⟩
    · exact h.calls cid c' hc
    · exact hidentified
    · rw [hentry]
      exact h.calls cid c hc
  messages := by
    intro place m hm
    rcases hstep.origin hm with ⟨place', hold⟩ | ⟨cid, c, job, env, hc, -, rfl⟩
      | ⟨tag, handler, category, hh, -, rfl⟩
    · exact h.messages place' m hold
    · exact ⟨h.calls cid c hc, EvaluationJob.executionID_ne_empty env.random⟩
    · exact h.handlers tag handler hh
  handlers := by
    intro tag h' hh'
    rcases hstep.handler_cases hh' with hh | ⟨-, hqueued⟩ | ⟨handler, hh, hjob, -⟩
    · exact h.handlers tag h' hh
    · exact h.messages _ _ hqueued
    · rw [hjob]
      exact h.handlers tag handler hh

/-! ## Pending jobs -/

/-- The stages of a handler that has passed its command on or given it up. -/
def isSpent : Stage → Bool
  | .rejecting | .recording _ | .acknowledging => true
  | _ => false

/-- A place from which a command will be handled. -/
def IsOpen (x : System) : Lib.Broker.Place Queue → Prop
  | .queue .work | .queue .retry => True
  | .queue .dead => False
  | .delivery tag => ∀ h ∈ x.handlers tag, isSpent h.stage = false

def Pending (x : System) (jobID : String) : Prop :=
  ∃ place m, x.broker.messages.At place m ∧ m.jobID = jobID ∧ IsOpen x place

/-- Only the tags that have been used need to be looked at. -/
theorem pending_iff {x : System} {jobID : String} :
    Pending x jobID ↔
      (∃ m ∈ x.broker.messages.queues .work, m.jobID = jobID)
      ∨ (∃ m ∈ x.broker.messages.queues .retry, m.jobID = jobID)
      ∨ ∃ tag < x.broker.messages.next, ∃ m ∈ x.broker.messages.unacked tag,
          m.jobID = jobID ∧ ∀ h ∈ x.handlers tag, isSpent h.stage = false := by
  constructor
  · rintro ⟨place, m, hm, hjob, hopen⟩
    cases place with
    | delivery tag => exact Or.inr (Or.inr ⟨tag, Lib.Broker.lt_next hm, m, hm, hjob, hopen⟩)
    | queue q =>
        cases q with
        | work => exact Or.inl ⟨m, hm, hjob⟩
        | retry => exact Or.inr (Or.inl ⟨m, hm, hjob⟩)
        | dead => exact hopen.elim
  · rintro (⟨m, hm, hjob⟩ | ⟨m, hm, hjob⟩ | ⟨tag, -, m, hm, hjob, hopen⟩)
    · exact ⟨.queue .work, m, hm, hjob, trivial⟩
    · exact ⟨.queue .retry, m, hm, hjob, trivial⟩
    · exact ⟨.delivery tag, m, hm, hjob, hopen⟩

instance (x : System) (jobID : String) : Decidable (Pending x jobID) :=
  decidable_of_iff _ pending_iff.symm

/-! ## The condition -/

/-- The call to the store takes effect. -/
def commits (call : Call) (env : Env) (db : Db) : Bool :=
  match env.fault with
  | some (.refused _) => false
  | _ => (store call env.info db).1.isOk

theorem perform_commits {call : Call} {env : Env} {db : Db} (h : commits call env db = true) :
    ∃ r, Effect db env.info call (.ok r) (perform call env db).2 := by
  have hstore : (store call env.info db).1.isOk = true →
      ∃ r, Effect db env.info call (.ok r) (store call env.info db).2 := by
    intro hok
    have heffect := store_effect call env.info db
    generalize (store call env.info db).1 = r at hok heffect
    cases r with
    | error err => cases hok
    | ok r => exact ⟨r, heffect⟩
  unfold commits at h
  unfold perform
  cases hfault : env.fault with
  | none => exact hstore (by rwa [hfault] at h)
  | some fault =>
      rw [hfault] at h
      cases fault with
      | refused err => cases h
      | unacknowledged err => exact hstore h

/-- The statuses from which a job is set to QUEUED or RUNNING without having
    been in one of them. -/
def isIdle : Status → Bool
  | .pending | .failed => true
  | _ => false

/-- The statuses that `Retry` refuses, apart from COMPLETED. -/
def isActive : Status → Bool
  | .queued | .running => true
  | _ => false

/-- For a job without a result: it becomes active only while it is pending, and
    before its command is given up, DEAD_LETTERED is stored. -/
def Careful (x : System) (env : Env) : Call → Prop
  | .markEvaluationQueued _ jobID | .markEvaluationRunning _ jobID =>
      ∀ v ∈ x.db.view jobID, v.result = none → isIdle v.status = true → Pending x jobID
  | .failEvaluation tenantID jobID category true =>
      x.db.outcome? jobID = none →
        commits (.failEvaluation tenantID jobID category true) env x.db = true
  | _ => True

instance (x : System) (env : Env) : (call : Call) → Decidable (Careful x env call)
  | .markEvaluationQueued _ _ | .markEvaluationRunning _ _ =>
      inferInstanceAs (Decidable (∀ v ∈ _, _ → _ → _))
  | .failEvaluation _ _ _ true => inferInstanceAs (Decidable (_ → _))
  | .failEvaluation _ _ _ false | .insertEvaluation _ | .findEvaluation _ _
  | .getEvaluation _ _ | .loadInput _ _ | .completeEvaluation _ _ _ _ => .isTrue trivial

/-- The status update of `Submit` and `Retry`. -/
def queueCall (c : Invocation) : Option Call :=
  match c.stage with
  | .queueing job => some (.markEvaluationQueued c.entry.tenantID job.id)
  | _ => none

/-- The update of the store that an action makes, and its surroundings. -/
def Action.update (x : System) : Action → Option (Env × Call)
  | .work tag env => do
      let h ← x.handlers tag
      let call ← handlerCall h.job h.stage
      return (env, call)
  | .advance cid env => do
      let c ← x.calls cid
      let call ← queueCall c
      return (env, call)
  | _ => none

def CarefulStep (x : System) (action : Action) : Prop :=
  Identified action ∧ ∀ p ∈ action.update x, Careful x p.1 p.2

instance (x : System) (action : Action) : Decidable (CarefulStep x action) :=
  inferInstanceAs (Decidable (_ ∧ ∀ p ∈ _, _))

/-! ## What happens to pending jobs -/

/-- A handler passes its command on or gives it up after its result was
    committed, or after the next attempt has been published, or after
    `FailEvaluation`. -/
theorem Branch.spent {worker : Worker} {env : Env} {tag : Nat} {job : Job} {db db' : Db}
    {broker broker' : Broker} {stage stage' : Stage}
    (h : Branch worker env tag job db broker stage stage' db' broker')
    (hnamed : job.jobID ≠ "" ∧ job.tenantID ≠ "" ∧ job.executionID ≠ "")
    (hbefore : isSpent stage = false) (hafter : isSpent stage' = true) :
    Committed db' job.jobID
      ∨ broker'.messages.At (.queue .retry) job.next
      ∨ ∃ category, stage = .burying category
        ∧ db' = (perform (.failEvaluation job.tenantID job.jobID category true) env db).2 := by
  have hretry : ∀ category, isSpent (worker.retry job category) = false := by
    intro category
    rcases retry_cases worker job category with h | ⟨h, -⟩ <;> rw [h] <;> rfl
  cases h with
  | malformed hempty =>
      -- no command is malformed
      rcases hempty with hempty | hempty | hempty
      · exact absurd hempty hnamed.1
      · exact absurd hempty hnamed.2.1
      · exact absurd hempty hnamed.2.2
  | unstarted | unloaded | uncompleted =>
      rw [hretry] at hafter
      cases hafter
  | complete hrun =>
      have heffect := perform_ok hrun
      cases heffect with
      | completed hv _ hview => exact Or.inl ⟨_, by rw [hview, Function.update_self], rfl⟩
  | republish hrun =>
      have hpublished := published_of_eq hrun
      cases hpublished with
      | confirmed => exact Or.inr (Or.inl (at_publish_self ..))
  | bury => exact Or.inr (Or.inr ⟨_, rfl, rfl⟩)
  | record => cases hbefore
  | _ => cases hafter

/-- The job has been given up, and the database says so. -/
def DeadLettered (db : Db) (jobID : String) : Prop :=
  ∃ v, db.view jobID = some v ∧ v.status = .deadLettered

theorem deadLettered_of_commits {db : Db} {env : Env} {tenantID jobID category : String}
    (h : commits (.failEvaluation tenantID jobID category true) env db = true) :
    DeadLettered (perform (.failEvaluation tenantID jobID category true) env db).2 jobID := by
  obtain ⟨r, heffect⟩ := perform_commits h
  generalize (perform (.failEvaluation tenantID jobID category true) env db).2 = db' at heffect
  cases heffect with
  | failed hv htenant hview => exact ⟨_, by rw [hview, Function.update_self], rfl⟩

section Steps

variable {services : Services} {x x' : System} {action : Action}

/-- Only its own step spends a delivery. -/
theorem Step.spends (hstep : Step services x action x') {tag : Nat} {handler handler' : Handler}
    (hh : x.handlers tag = some handler) (hbefore : isSpent handler.stage = false)
    (hh' : x'.handlers tag = some handler') (hafter : isSpent handler'.stage = true) :
    ∃ env, action = .work tag env ∧ Branch services.worker env tag handler.job x.db x.broker
      handler.stage handler'.stage x'.db x'.broker := by
  rcases hstep.handler_cases hh' with hsame | ⟨hstage, -⟩
    | ⟨handler₁, hh₁, -, hstage | ⟨env, haction, hbranch⟩⟩
  · obtain rfl := Option.some.inj (hh.symm.trans hsame)
    cases hbefore.symm.trans hafter
  · rw [hstage] at hafter
    cases hafter
  · rw [hstage] at hafter
    cases hafter
  · obtain rfl := Option.some.inj (hh.symm.trans hh₁)
    exact ⟨env, haction, hbranch⟩

/-- A delivery is spent when its job is pending elsewhere, has its result or is
    dead-lettered. -/
theorem spent_delivery (haddressed : Addressed x) (hnamed : Named x)
    (hstep : Step services x action x') (hcareful : CarefulStep x action) {tag : Nat}
    {handler handler' : Handler} (hh : x.handlers tag = some handler)
    (hbefore : isSpent handler.stage = false) (hh' : x'.handlers tag = some handler')
    (hafter : isSpent handler'.stage = true) :
    Pending x' handler.job.jobID ∨ Committed x'.db handler.job.jobID
      ∨ DeadLettered x'.db handler.job.jobID := by
  -- the last step of the handler that counts
  obtain ⟨env, rfl, hbranch⟩ := hstep.spends hh hbefore hh' hafter
  obtain ⟨v, hv, -⟩ := haddressed.handlers tag handler hh
  have hfields := hnamed.handlers tag handler hh
  rcases hbranch.spent ⟨hnamed.jobs _ v hv, hfields⟩ hbefore hafter with
    hcommitted | hretry | ⟨category, hstage, hdb⟩
  · exact Or.inr (Or.inl hcommitted)
  · exact Or.inl ⟨.queue .retry, handler.job.next, hretry, rfl, trivial⟩
  · have hupdate : Action.update x (.work tag env) = some (env,
        .failEvaluation handler.job.tenantID handler.job.jobID category true) := by
      simp [Action.update, hh, hstage, handlerCall]
    right
    by_cases hcommitted : Committed x.db handler.job.jobID
    · exact Or.inl (hcommitted.stored hstep.stored)
    · have hnone : x.db.outcome? handler.job.jobID = none := by
        obtain ⟨row, hrow, rfl⟩ := Db.view_eq_some_iff.mp hv
        rw [committed_of_view hv, Bool.not_eq_true, Option.isSome_eq_false_iff] at hcommitted
        exact Option.isNone_iff_eq_none.mp hcommitted
      rw [hdb]
      exact Or.inr (deadLettered_of_commits (hcareful.2 _ hupdate hnone))

/-- A pending job stays pending, unless it gets a result or is dead-lettered. -/
theorem Pending.step {jobID : String} (h : Pending x jobID) (htracked : Tracked x)
    (haddressed : Addressed x) (hnamed : Named x) (hstep : Step services x action x')
    (hcareful : CarefulStep x action) :
    Pending x' jobID ∨ Committed x'.db jobID ∨ DeadLettered x'.db jobID := by
  obtain ⟨place, m, hm, rfl, hopen⟩ := h
  rcases hstep.carries hm with hstays | hwork | ⟨tag, hdelivered, hreceived⟩
    | ⟨tag, env, handler, rfl, rfl, hh, hend⟩
  · cases place with
    | queue q => exact Or.inl ⟨.queue q, m, hstays, rfl, by cases q <;> exact hopen⟩
    | delivery tag =>
        obtain ⟨handler, hh, rfl⟩ := htracked tag m hm
        obtain ⟨handler', hh', -⟩ := hstep.handler_kept hh (Lib.Broker.lt_next hm)
        -- the handler goes on, unless this was the last of its steps that counts
        cases hafter : isSpent handler'.stage with
        | true =>
            exact spent_delivery haddressed hnamed hstep hcareful hh (hopen handler hh) hh' hafter
        | false =>
            refine Or.inl ⟨.delivery tag, _, hstays, rfl, ?_⟩
            rintro _ hmem
            obtain rfl := Option.some.inj (hh'.symm.trans hmem)
            exact hafter
  · exact Or.inl ⟨.queue .work, m, hwork, rfl, trivial⟩
  · refine Or.inl ⟨.delivery tag, m, hdelivered, rfl, ?_⟩
    rintro _ hmem
    obtain rfl := Option.some.inj (hreceived.symm.trans hmem)
    rfl
  · -- a delivery that is settled was spent before
    have hbefore := hopen handler hh
    rcases hend with ⟨hstage, -⟩ | hstage <;> rw [hstage] at hbefore <;> cases hbefore

/-! ## Jobs without a result -/

/-- A job becomes active without a result only when it is marked. -/
theorem jobEffect_active {info : Info} {id : String} {call : Call} {view : Option JobView}
    {v' : JobView} (h : JobEffect info id call view (some v')) (hnone : v'.result = none)
    (hactive : isActive v'.status = true) :
    ∃ v, view = some v ∧ v.result = none
      ∧ (isActive v.status = true ∨ isIdle v.status = true
        ∧ ∃ tenantID, call = .markEvaluationQueued tenantID id
          ∨ call = .markEvaluationRunning tenantID id) := by
  cases h with
  | stay => exact ⟨v', rfl, hnone, Or.inl hactive⟩
  | insert => cases hactive
  | @queue tenantID v htenant hstatus =>
      have hidle : isIdle v.status = true := by rcases hstatus with hs | hs <;> rw [hs] <;> rfl
      exact ⟨v, rfl, hnone, Or.inr ⟨hidle, tenantID, Or.inl rfl⟩⟩
  | @run tenantID v htenant hstatus =>
      refine ⟨v, rfl, hnone, ?_⟩
      cases hs : v.status with
      | queued | running => exact Or.inl rfl
      | pending | failed => exact Or.inr ⟨rfl, tenantID, Or.inr rfl⟩
      | completed | deadLettered =>
          rw [hs] at hstatus
          cases hstatus
  | complete => cases hnone
  | @fail _ _ permanent => cases permanent <;> cases hactive

/-- A job becomes COMPLETED with its result. -/
theorem jobEffect_completed {info : Info} {id : String} {call : Call} {view : Option JobView}
    {v' : JobView} (h : JobEffect info id call view (some v'))
    (hbefore : ∀ v, view = some v → v.status = .completed → v.result.isSome = true)
    (hstatus : v'.status = .completed) : v'.result.isSome = true := by
  cases h with
  | stay => exact hbefore v' rfl hstatus
  | complete => rfl
  | insert | queue | run => cases hstatus
  | @fail _ _ permanent => cases permanent <;> cases hstatus

/-- The database calls of a step, as far as one job is concerned. -/
theorem Stored.job {db' : Db} (h : Stored x action db') (id : String) :
    x.db.view id = db'.view id
      ∨ ∃ env call, JobEffect env.info id call (x.db.view id) (db'.view id)
        ∧ ((∀ tenantID jobID, call ≠ .markEvaluationQueued tenantID jobID
            ∧ call ≠ .markEvaluationRunning tenantID jobID)
          ∨ Action.update x action = some (env, call)) := by
  cases h with
  | same | gateway => exact Or.inl rfl
  | @handler tag env h call r db' hh hcall heffect =>
      refine Or.inr ⟨env, call, heffect.job id, Or.inr ?_⟩
      simp [Action.update, hh, hcall]
  | @api cid env c call r db' hc hcall heffect =>
      refine Or.inr ⟨env, call, heffect.job id, ?_⟩
      generalize hstage : c.stage = stage at hcall
      cases hcall with
      | queue => exact Or.inr (by simp [Action.update, hc, queueCall, hstage])
      | _ => exact Or.inl fun _ _ => ⟨nofun, nofun⟩

structure Unwedged (x : System) : Prop where
  tracked : Tracked x
  addressed : Addressed x
  named : Named x
  completed : ∀ id v, x.db.view id = some v → v.status = .completed → v.result.isSome = true
  active : ∀ id v, x.db.view id = some v → v.result = none → isActive v.status = true →
    Pending x id

theorem unwedged_init (platform : Persistence.Db) : Unwedged (.init platform) where
  tracked := tracked_init platform
  addressed := addressed_init platform
  named := named_init platform
  completed := fun _ _ h => (nomatch h)
  active := fun _ _ h => (nomatch h)

/-- A job that is active without a result after a step was pending before it. -/
theorem Unwedged.pending (h : Unwedged x) (hstored : Stored x action x'.db)
    (hcareful : CarefulStep x action) {id : String} {v' : JobView}
    (hv' : x'.db.view id = some v') (hnone : v'.result = none)
    (hactive : isActive v'.status = true) : Pending x id := by
  rcases hstored.job id with hsame | ⟨env, call, hjob, hcall⟩
  · exact h.active id v' (hsame.trans hv') hnone hactive
  · rw [hv'] at hjob
    obtain ⟨v, hv, hresult, hbefore | ⟨hidle, tenantID, hmarks⟩⟩ :=
      jobEffect_active hjob hnone hactive
    · exact h.active id v hv hresult hbefore
    · rcases hcall with hother | hupdate
      · rcases hmarks with hmarks | hmarks
        · exact absurd hmarks (hother tenantID id).1
        · exact absurd hmarks (hother tenantID id).2
      · have hmarked := hcareful.2 _ hupdate
        rcases hmarks with rfl | rfl <;> exact hmarked v hv hresult hidle

theorem Unwedged.step (h : Unwedged x) (hstep : Step services x action x')
    (hcareful : CarefulStep x action) : Unwedged x' where
  tracked := h.tracked.step hstep
  addressed := h.addressed.step hstep
  named := h.named.step hstep hcareful.1
  completed := by
    intro id v' hv' hstatus
    rcases hstep.stored.job id with hsame | ⟨env, call, hjob, -⟩
    · exact h.completed id v' (hsame.trans hv') hstatus
    · rw [hv'] at hjob
      exact jobEffect_completed hjob (h.completed id) hstatus
  active := by
    intro id v' hv' hnone hactive
    -- the job was pending before the step, so it still is: it has no result and
    -- is not dead-lettered
    have hpending := h.pending hstep.stored hcareful hv' hnone hactive
    rcases hpending.step h.tracked h.addressed h.named hstep hcareful with
      hpending | hcommitted | ⟨v, hv, hstatus⟩
    · exact hpending
    · rw [committed_of_view hv', hnone] at hcommitted
      cases hcommitted
    · obtain rfl := Option.some.inj (hv.symm.trans hv')
      rw [hstatus] at hactive
      cases hactive

end Steps

/-- The job's command waits in the work or retry queue or is in the hands of a
    worker. -/
def Commanded (b : Broker) (jobID : String) : Prop :=
  (∃ m ∈ b.messages.queues .work, m.jobID = jobID)
    ∨ (∃ m ∈ b.messages.queues .retry, m.jobID = jobID)
    ∨ ∃ tag m, b.messages.unacked tag = some m ∧ m.jobID = jobID

theorem Pending.commanded {x : System} {jobID : String} (h : Pending x jobID) :
    Commanded x.broker jobID := by
  rcases pending_iff.mp h with hwork | hretry | ⟨tag, -, m, hm, hjob, -⟩
  · exact Or.inl hwork
  · exact Or.inr (Or.inl hretry)
  · exact Or.inr (Or.inr ⟨tag, m, hm, hjob⟩)

/-- **No job is wedged.**  In a run of careful steps, a job without a result has
    a command that a worker has or will get, or its status is one that `Retry`
    accepts. -/
theorem unfinished_jobs_retryable (services : Services) (platform : Persistence.Db)
    (actions : List Action)
    (hrun : ∀ t ∈ Lib.trace (System.step services) (.init platform) actions,
      CarefulStep t.1 t.2.1) :
    let x := Lib.run (System.step services) (.init platform) actions
    ∀ job ∈ x.db.jobs.rows, (¬ ∃ r ∈ x.db.results.rows, r.jobID = job.id) →
      Commanded x.broker job.id
        ∨ job.status = .pending ∨ job.status = .failed ∨ job.status = .deadLettered := by
  intro x job hjob hresult
  have hunwedged : Unwedged x :=
    Lib.run_invariant (C := CarefulStep)
      (fun x action h hcareful => h.step (step_cases services x action) hcareful)
      actions (unwedged_init platform) hrun
  have hv := Db.view_eq_some (Db.job?_eq_some_iff.mpr ⟨hjob, rfl⟩)
  rw [← committed_iff, committed_of_view hv, Bool.not_eq_true,
    Option.isSome_eq_false_iff] at hresult
  have hnone := Option.isNone_iff_eq_none.mp hresult
  have hactive := hunwedged.active job.id _ hv hnone
  cases hstatus : job.status with
  | pending => exact Or.inr (Or.inl rfl)
  | failed => exact Or.inr (Or.inr (Or.inl rfl))
  | deadLettered => exact Or.inr (Or.inr (Or.inr rfl))
  | queued | running => exact Or.inl (hactive (by rw [hstatus]; rfl)).commanded
  | completed =>
      have hsome := hunwedged.completed job.id _ hv hstatus
      rw [hnone] at hsome
      cases hsome

/-- A delivery whose input cannot be loaded, up to its acknowledgement. -/
def attemptAndFail (tag : Nat) : List Action :=
  [.deliver 0, .work tag (sampleEnv "" ""), .work tag refusedEnv, .work tag (sampleEnv "" ""),
    .work tag (sampleEnv "" ""), .work tag (sampleEnv "" ""), .expire 0]

/-- The input of job `j` is not available in three attempts.  The last of them
    dead-letters it. -/
theorem unfinished_jobs_retryable_deadLettered :
    let actions := submitAndQueue ++ attemptAndFail 0 ++ attemptAndFail 1
      ++ [.deliver 0, .work 2 (sampleEnv "" ""), .work 2 refusedEnv, .work 2 (sampleEnv "" ""),
        .work 2 (sampleEnv "" "")]
    let x := Lib.run (System.step sampleServices) (.init samplePlatform) actions
    (∃ job ∈ x.db.jobs.rows, job.id = "j" ∧ job.status = .deadLettered)
      ∧ ∀ job ∈ x.db.jobs.rows, (¬ ∃ r ∈ x.db.results.rows, r.jobID = job.id) →
        Commanded x.broker job.id
          ∨ job.status = .pending ∨ job.status = .failed ∨ job.status = .deadLettered := by
  refine ⟨by decide +kernel, ?_⟩
  exact unfinished_jobs_retryable sampleServices samplePlatform _ (by decide +kernel)

/-- In the third attempt the database also refuses `FailEvaluation`.  The
    command goes to the dead queue and the job stays RUNNING. -/
theorem refused_failure_wedges_job :
    let x := Lib.run (System.step sampleServices) (.init samplePlatform)
      (submitAndQueue ++ attemptAndFail 0 ++ attemptAndFail 1
        ++ [.deliver 0, .work 2 (sampleEnv "" ""), .work 2 refusedEnv, .work 2 refusedEnv,
          .work 2 (sampleEnv "" "")])
    (∃ job ∈ x.db.jobs.rows, job.id = "j" ∧ job.status = .running)
      ∧ x.db.results.rows = [] ∧ ¬ Commanded x.broker "j" := by
  intro x
  have hqueues : x.broker.messages.queues .work = [] ∧ x.broker.messages.queues .retry = [] := by
    decide +kernel
  have hunacked : ∀ tag < x.broker.messages.next, x.broker.messages.unacked tag = none := by
    decide +kernel
  refine ⟨by decide +kernel, by decide +kernel, ?_⟩
  rintro (⟨m, hm, -⟩ | ⟨m, hm, -⟩ | ⟨tag, m, hm, -⟩)
  · rw [hqueues.1] at hm
    cases hm
  · rw [hqueues.2] at hm
    cases hm
  · have hlt : tag < x.broker.messages.next := Lib.Broker.lt_next hm
    cases (hunacked tag hlt).symm.trans hm

end Aegis.Evaluations
