/-
  Aegis.Evaluations.Conservation

  No command is lost.

  A message leaves the broker only when a handler acknowledges its delivery
  (`Step.carries`), and a handler does so only after its result is committed or
  after the next attempt has been accepted.  So a chain of attempts always has
  an end that is still there: `Conserved` is the invariant.
-/

import Aegis.Evaluations.Results

namespace Aegis.Evaluations

open Aegis.EvaluationJob (Entry)
open Aegis.Lib.Broker (at_deliver at_move at_publish at_publish_self at_remove)
open Aegis.Persistence.Evaluations
open Aegis.RabbitMQ (Broker Env Handler Job Queue Stage Worker)
open Aegis.RabbitMQ.Broker (Published target)

/-! ## Where messages go -/

section Carries

variable {services : Services} {x x' : System} {action : Action}
  {place : Lib.Broker.Place Queue} {m c : Job}

theorem Relayed.carries {b : Broker} (h : Relayed x action b)
    (hm : x.broker.messages.At place m) :
    b.messages.At place m
      ∨ b.messages.At (.queue .work) m
      ∨ (∃ i, action = .deliver i ∧ x.broker.messages.get? (.queued .work i) = some m
          ∧ b.messages.At (.delivery x.broker.messages.next) m)
      ∨ ∃ tag env h, action = .work tag env ∧ place = .delivery tag
        ∧ x.handlers tag = some h
        ∧ (h.stage = .rejecting ∧ b.messages.At (.queue .dead) m
          ∨ h.stage = .acknowledging) := by
  cases h with
  | same => exact Or.inl hm
  | submitted _ _ hpublished | retried _ _ hpublished =>
      left
      cases hpublished with
      | refused => exact hm
      | unconfirmed | confirmed => exact hm.publish _ _
  | @delivered i =>
      rcases hm.deliver Queue.work i with hstays | ⟨htaken, hdelivered⟩
      · exact Or.inl hstays
      · exact Or.inr (Or.inr (Or.inl ⟨i, rfl, htaken, hdelivered⟩))
  | @acknowledged tag env h hh hstage =>
      rcases hm.remove (.delivered tag) with hstays | ⟨hplace, -⟩
      · exact Or.inl hstays
      · exact Or.inr (Or.inr (Or.inr ⟨tag, env, h, rfl, hplace, hh, Or.inr hstage⟩))
  | @rejected tag env h hh hstage =>
      rcases hm.move (.delivered tag) Queue.dead with hstays | ⟨hplace, hdead⟩
      · exact Or.inl hstays
      · exact Or.inr (Or.inr (Or.inr ⟨tag, env, h, rfl, hplace, hh, Or.inl ⟨hstage, hdead⟩⟩))
  | @returned _ slot =>
      rcases hm.move slot Queue.work with hstays | ⟨-, hwork⟩
      · exact Or.inl hstays
      · exact Or.inr (Or.inl hwork)

/-- **Where messages go.**  A message stays, or it moves to the work queue, or
    it is delivered, or its delivery is rejected or acknowledged. -/
theorem Step.carries (hstep : Step services x action x') (hm : x.broker.messages.At place m) :
    x'.broker.messages.At place m
      ∨ x'.broker.messages.At (.queue .work) m
      ∨ (∃ tag, x'.broker.messages.At (.delivery tag) m
          ∧ x'.handlers tag = some ⟨m, .received⟩)
      ∨ ∃ tag env h, action = .work tag env ∧ place = .delivery tag
        ∧ x.handlers tag = some h
        ∧ (h.stage = .rejecting ∧ x'.broker.messages.At (.queue .dead) m
          ∨ h.stage = .acknowledging) := by
  rcases hstep.relayed.carries hm with hstays | hwork | ⟨i, rfl, htaken, hdelivered⟩ | hend
  · exact Or.inl hstays
  · exact Or.inr (Or.inl hwork)
  · cases hstep with
    | idle => exact Or.inl hm
    | deliver hslot =>
        obtain rfl := Option.some.inj (hslot.symm.trans htaken)
        exact Or.inr (Or.inr (Or.inl ⟨_, hdelivered, Function.update_self ..⟩))
  · exact Or.inr (Or.inr (Or.inr hend))

/-! ## Accepted commands -/

/-- A command that has just been accepted is in its queue. -/
theorem Step.accepted (hstep : Step services x action x') (hc : c ∈ x'.broker.accepted) :
    c ∈ x.broker.accepted ∨ ∃ q, x'.broker.messages.At (.queue q) c := by
  have hrelayed := hstep.relayed
  generalize x'.broker = b at hrelayed hc
  cases hrelayed with
  | submitted _ _ hpublished | retried _ _ hpublished =>
      cases hpublished with
      | refused => exact Or.inl hc
      | unconfirmed | confirmed =>
          rcases List.mem_append.mp hc with hc | hc
          · exact Or.inl hc
          · rw [List.mem_singleton.mp hc]
            exact Or.inr ⟨_, at_publish_self ..⟩
  | _ => exact Or.inl hc

theorem Step.accepted_mono (hstep : Step services x action x') (hc : c ∈ x.broker.accepted) :
    c ∈ x'.broker.accepted := by
  have hrelayed := hstep.relayed
  generalize x'.broker = b at hrelayed
  cases hrelayed with
  | submitted _ _ hpublished | retried _ _ hpublished =>
      cases hpublished with
      | refused => exact hc
      | unconfirmed | confirmed => exact List.mem_append_left _ hc
  | _ => exact hc

/-! ## Handlers of outstanding deliveries -/

/-- The handler of each outstanding delivery has its message. -/
def Tracked (x : System) : Prop :=
  ∀ tag m, x.broker.messages.At (.delivery tag) m → ∃ h, x.handlers tag = some h ∧ h.job = m

theorem tracked_init (platform : Persistence.Db) : Tracked (.init platform) :=
  fun tag m hm => absurd hm (Lib.Broker.not_at_empty (.delivery tag) m)

/-- Only a delivery makes a message outstanding. -/
theorem Relayed.delivery_origin {b : Broker} {tag : Nat} (h : Relayed x action b)
    (hm : b.messages.At (.delivery tag) m) :
    x.broker.messages.At (.delivery tag) m
      ∨ ∃ i, action = .deliver i ∧ tag = x.broker.messages.next
        ∧ x.broker.messages.get? (.queued .work i) = some m := by
  cases h with
  | same => exact Or.inl hm
  | submitted _ _ hpublished | retried _ _ hpublished =>
      left
      cases hpublished with
      | refused => exact hm
      | unconfirmed | confirmed => exact (at_publish hm).resolve_right nofun
  | @delivered i =>
      rcases at_deliver hm with hm | ⟨hplace, htaken⟩
      · exact Or.inl hm
      · cases hplace
        exact Or.inr ⟨i, rfl, rfl, htaken⟩
  | @acknowledged tag' =>
      have hrest : (x.broker.messages.remove (.delivered tag')).At (.delivery tag) m := hm
      exact Or.inl (at_remove hrest)
  | rejected | returned => exact Or.inl ((at_move hm).resolve_right nofun)

theorem Step.delivery_origin {tag : Nat} (hstep : Step services x action x')
    (hm : x'.broker.messages.At (.delivery tag) m) :
    x.broker.messages.At (.delivery tag) m ∨ x'.handlers tag = some ⟨m, .received⟩ := by
  rcases hstep.relayed.delivery_origin hm with hold | ⟨i, rfl, rfl, htaken⟩
  · exact Or.inl hold
  · cases hstep with
    | idle => exact Or.inl hm
    | deliver hslot =>
        obtain rfl := Option.some.inj (hslot.symm.trans htaken)
        exact Or.inr (Function.update_self ..)

/-- Handlers of deliveries that have been made stay. -/
theorem Step.handler_kept {tag : Nat} {h : Handler} (hstep : Step services x action x')
    (hh : x.handlers tag = some h) (htag : tag < x.broker.messages.next) :
    ∃ h', x'.handlers tag = some h' ∧ h'.job = h.job := by
  cases hstep with
  | @work tag' _ h₁ _ _ _ hh₁ | @crash tag' h₁ hh₁ =>
      by_cases heq : tag = tag'
      · subst heq
        obtain rfl := Option.some.inj (hh₁.symm.trans hh)
        exact ⟨_, Function.update_self .., rfl⟩
      · exact ⟨h, (Function.update_of_ne heq ..).trans hh, rfl⟩
  | deliver hslot => exact ⟨h, (Function.update_of_ne (Nat.ne_of_lt htag) ..).trans hh, rfl⟩
  | _ => exact ⟨h, hh, rfl⟩

theorem Tracked.step (h : Tracked x) (hstep : Step services x action x') : Tracked x' := by
  intro tag m hm
  rcases hstep.delivery_origin hm with hold | hnew
  · obtain ⟨handler, hh, rfl⟩ := h tag m hold
    exact hstep.handler_kept hh (Lib.Broker.lt_next hold)
  · exact ⟨_, hnew, rfl⟩

end Carries

/-! ## Conservation -/

/-- A later attempt of the same command, or the command itself. -/
def Continues (m c : Job) : Prop := m = { c with attempt := m.attempt } ∧ c.attempt ≤ m.attempt

instance (m c : Job) : Decidable (Continues m c) := inferInstanceAs (Decidable (_ ∧ _))

theorem Continues.refl (c : Job) : Continues c c := ⟨rfl, Int.le_refl _⟩

theorem Continues.trans {m c d : Job} (hm : Continues m c) (hc : Continues c d) :
    Continues m d := by
  refine ⟨?_, Int.le_trans hc.2 hm.2⟩
  rw [hm.1, hc.1]

theorem Continues.jobID {m c : Job} (h : Continues m c) : m.jobID = c.jobID := by rw [h.1]

theorem continues_next (c : Job) : Continues c.next c :=
  ⟨rfl, Int.le_of_lt (Int.lt_succ c.attempt)⟩

/-- No attempt continues the one after it. -/
theorem not_continues_next (c : Job) : ¬ Continues c c.next := fun h =>
  absurd h.2 (Int.not_le.mpr (Int.lt_succ c.attempt))

/-- A copy of the command is in the broker, or its job has a result. -/
def Represented (x : System) (c : Job) : Prop :=
  (∃ place m, x.broker.messages.At place m ∧ Continues m c) ∨ Committed x.db c.jobID

/-- The stages of a handler that will acknowledge its delivery. -/
def isClosing : Stage → Bool
  | .recording _ | .acknowledging => true
  | _ => false

structure Conserved (worker : Worker) (x : System) : Prop where
  tracked : Tracked x
  accepted : ∀ c ∈ x.broker.accepted, Represented x c
  /-- a handler acknowledges after its next attempt was accepted or its result
      committed -/
  closing : ∀ tag h, x.handlers tag = some h → isClosing h.stage = true →
    h.job.next ∈ x.broker.accepted ∨ Committed x.db h.job.jobID
  attempts : ∀ place m, x.broker.messages.At place m → m.attempt < worker.maxAttempts
  republishing : ∀ tag h category, x.handlers tag = some h →
    h.stage = .republishing category → h.job.next.attempt < worker.maxAttempts

theorem conserved_init (worker : Worker) (platform : Persistence.Db) :
    Conserved worker (.init platform) where
  tracked := tracked_init platform
  accepted := fun _ h => (nomatch h)
  closing := fun _ _ h => (nomatch h)
  attempts := fun place m hm => absurd hm (Lib.Broker.not_at_empty place m)
  republishing := fun _ _ _ h => (nomatch h)

/-! ### What a handler's step contributes -/

section Branches

variable {worker : Worker} {env : Env} {tag : Nat} {job : Job} {db db' : Db}
  {broker broker' : Broker} {stage stage' : Stage}

theorem retry_cases (worker : Worker) (job : Job) (category : String) :
    worker.retry job category = .burying category
      ∨ worker.retry job category = .republishing category
        ∧ job.next.attempt < worker.maxAttempts := by
  unfold Worker.retry
  split
  · exact Or.inl rfl
  · next hlt => exact Or.inr ⟨rfl, Int.not_le.mp hlt⟩

theorem isClosing_retry (worker : Worker) (job : Job) (category : String) :
    isClosing (worker.retry job category) = false := by
  rcases retry_cases worker job category with h | ⟨h, -⟩ <;> rw [h] <;> rfl

/-- Before a delivery is acknowledged, its result was committed or its next
    attempt accepted. -/
theorem Branch.closing (h : Branch worker env tag job db broker stage stage' db' broker')
    (hclosing : isClosing stage' = true) :
    isClosing stage = true ∨ job.next ∈ broker'.accepted ∨ Committed db' job.jobID := by
  cases h with
  | unstarted | unloaded | uncompleted =>
      -- `retry` does not acknowledge before it has published
      rw [isClosing_retry] at hclosing
      cases hclosing
  | complete hrun =>
      have heffect := perform_ok hrun
      cases heffect with
      | completed hv _ hview =>
          exact Or.inr (Or.inr ⟨_, by rw [hview, Function.update_self], rfl⟩)
  | republish hrun =>
      have hpublished := RabbitMQ.Broker.published_of_eq hrun
      cases hpublished with
      | confirmed => exact Or.inr (Or.inl (List.mem_append_right _ (List.mem_singleton_self _)))
  | record => exact Or.inl rfl
  | _ => cases hclosing

theorem Branch.republishing (h : Branch worker env tag job db broker stage stage' db' broker')
    {category : String} (hstage : stage' = .republishing category) :
    job.next.attempt < worker.maxAttempts := by
  have hretry : ∀ text, worker.retry job text = .republishing category →
      job.next.attempt < worker.maxAttempts := by
    intro text heq
    rcases retry_cases worker job text with h | ⟨-, hlt⟩
    · cases h.symm.trans heq
    · exact hlt
  cases h with
  | unstarted | unloaded | uncompleted => exact hretry _ hstage
  | _ => cases hstage

end Branches

/-! ### Steps -/

section Steps

variable {services : Services} {x x' : System} {action : Action}

/-- A message is lost only by an acknowledgement. -/
theorem Step.stays_or_acknowledged {place : Lib.Broker.Place Queue} {m : Job}
    (hstep : Step services x action x') (hm : x.broker.messages.At place m) :
    (∃ place', x'.broker.messages.At place' m)
      ∨ ∃ tag env h, action = .work tag env ∧ place = .delivery tag
        ∧ x.handlers tag = some h ∧ h.stage = .acknowledging := by
  rcases hstep.carries hm with hstays | hwork | ⟨tag, hdelivered, -⟩
    | ⟨tag, env, h, haction, hplace, hh, ⟨-, hdead⟩ | hstage⟩
  · exact Or.inl ⟨_, hstays⟩
  · exact Or.inl ⟨_, hwork⟩
  · exact Or.inl ⟨_, hdelivered⟩
  · exact Or.inl ⟨_, hdead⟩
  · exact Or.inr ⟨tag, env, h, haction, hplace, hh, hstage⟩

/-- A represented command stays represented: when its copy is acknowledged, the
    next attempt has a copy elsewhere, or the result is there. -/
theorem Conserved.represented {worker : Worker} (h : Conserved worker x)
    (hstep : Step services x action x') {c : Job} (hc : Represented x c) :
    Represented x' c := by
  have hcommit : ∀ {jobID}, Committed x.db jobID → jobID = c.jobID → Represented x' c := by
    rintro _ hcommitted rfl
    exact Or.inr (hcommitted.stored hstep.stored)
  rcases hc with ⟨place, m, hm, hcontinues⟩ | hcommitted
  · rcases hstep.stays_or_acknowledged hm with ⟨place', hm'⟩
      | ⟨tag, env, handler, rfl, rfl, hh, hstage⟩
    · exact Or.inl ⟨place', m, hm', hcontinues⟩
    · obtain ⟨_, hh', rfl⟩ := h.tracked tag m hm
      obtain rfl := Option.some.inj (hh.symm.trans hh')
      -- the copy that goes was the last but one of its chain, or its job has a result
      rcases h.closing tag handler hh (by rw [hstage]; rfl) with hnext | hcommitted
      · rcases h.accepted _ hnext with ⟨place₁, m₁, hm₁, hcontinues₁⟩ | hcommitted
        · rcases hstep.stays_or_acknowledged hm₁ with ⟨place', hm'⟩
            | ⟨tag₁, env₁, handler₁, haction, rfl, -, -⟩
          · have hlater := hcontinues₁.trans (continues_next handler.job)
            exact Or.inl ⟨place', m₁, hm', hlater.trans hcontinues⟩
          · -- the acknowledged copy itself does not continue its next attempt
            cases haction
            obtain rfl := Option.some.inj (hm₁.symm.trans hm)
            exact absurd hcontinues₁ (not_continues_next _)
        · exact hcommit hcommitted hcontinues.jobID
      · exact hcommit hcommitted hcontinues.jobID
  · exact hcommit hcommitted rfl

theorem Conserved.step (hpos : 0 < services.worker.maxAttempts)
    (h : Conserved services.worker x) (hstep : Step services x action x') :
    Conserved services.worker x' where
  tracked := h.tracked.step hstep
  accepted := by
    intro c hc
    rcases hstep.accepted hc with hold | ⟨q, hnew⟩
    · exact h.represented hstep (h.accepted c hold)
    · exact Or.inl ⟨_, c, hnew, Continues.refl c⟩
  closing := by
    intro tag h' hh' hclosing
    have hkeep : ∀ handler, x.handlers tag = some handler → isClosing handler.stage = true →
        handler.job.next ∈ x'.broker.accepted ∨ Committed x'.db handler.job.jobID :=
      fun handler hh hclosing => (h.closing tag handler hh hclosing).imp
        (fun hnext => hstep.accepted_mono hnext) fun hcommitted => hcommitted.stored hstep.stored
    rcases hstep.handler_cases hh' with hh | ⟨hstage, -⟩
      | ⟨handler, hh, hjob, hstage | ⟨env, rfl, hbranch⟩⟩
    · exact hkeep h' hh hclosing
    · rw [hstage] at hclosing
      cases hclosing
    · rw [hstage] at hclosing
      cases hclosing
    · rw [hjob]
      rcases hbranch.closing hclosing with hbefore | hnext | hcommitted
      · exact hkeep handler hh hbefore
      · exact Or.inl hnext
      · exact Or.inr hcommitted
  attempts := by
    intro place m hm
    rcases hstep.origin hm with ⟨place', hold⟩ | ⟨cid, c, job, env, -, -, rfl⟩
      | ⟨tag, handler, category, hh, hstage, rfl⟩
    · exact h.attempts place' m hold
    · exact hpos
    · exact h.republishing tag handler category hh hstage
  republishing := by
    intro tag h' category hh' hstage'
    rcases hstep.handler_cases hh' with hh | ⟨hstage, -⟩
      | ⟨handler, hh, hjob, hstage | ⟨env, rfl, hbranch⟩⟩
    · exact h.republishing tag h' category hh hstage'
    · cases hstage.symm.trans hstage'
    · cases hstage.symm.trans hstage'
    · rw [hjob]
      exact hbranch.republishing hstage'

end Steps

/-- **Commands are conserved.**  Every command that the broker has accepted has
    a copy in a queue or in an outstanding delivery, possibly at a later
    attempt, or its job has a result; and what waits in the work and retry
    queues has attempts left. -/
theorem commands_conserved (evaluators : List Evaluation.Evaluator) (maxAttempts : Int)
    (hash : EvaluationJob.Hash) (platform : Persistence.Db) (actions : List Action) :
    let worker := RabbitMQ.newWorker evaluators maxAttempts
    let x := Lib.run (System.step ⟨worker, hash⟩) (.init platform) actions
    (∀ c ∈ x.broker.accepted,
        (∃ m, Continues m c ∧ (m ∈ x.broker.messages.queues .work
          ∨ m ∈ x.broker.messages.queues .retry ∨ m ∈ x.broker.messages.queues .dead
          ∨ ∃ tag, x.broker.messages.unacked tag = some m))
        ∨ ∃ r ∈ x.db.results.rows, r.jobID = c.jobID)
      ∧ ∀ q, q = .work ∨ q = .retry → ∀ m ∈ x.broker.messages.queues q,
          m.attempt < worker.maxAttempts := by
  intro worker x
  have hpos := RabbitMQ.newWorker_maxAttempts_pos evaluators maxAttempts
  have hconserved : Conserved worker x :=
    Lib.run_invariant' (fun x action h => h.step hpos (step_cases ⟨worker, hash⟩ x action))
      actions (conserved_init worker platform)
  constructor
  · intro c hc
    rcases hconserved.accepted c hc with ⟨place, m, hm, hcontinues⟩ | hcommitted
    · refine Or.inl ⟨m, hcontinues, ?_⟩
      cases place with
      | delivery tag => exact Or.inr (Or.inr (Or.inr ⟨tag, hm⟩))
      | queue q =>
          cases q with
          | work => exact Or.inl hm
          | retry => exact Or.inr (Or.inl hm)
          | dead => exact Or.inr (Or.inr (Or.inl hm))
    · exact Or.inr (committed_iff.mp hcommitted)
  · exact fun q _ m hm => hconserved.attempts (.queue q) m hm

end Aegis.Evaluations
