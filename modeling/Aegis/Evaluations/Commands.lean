/-
  Aegis.Evaluations.Commands

  Every command is addressed to a job that its tenant owns: in the broker, in
  the hands of a worker, and where a call of the API is about to publish it.

  A message in the broker was there before, or it is the command of an API call,
  or the next attempt of a worker (`Step.origin`).
-/

import Aegis.Evaluations.System

namespace Aegis.Evaluations

open Aegis.EvaluationJob (Entry Invocation)
open Aegis.Lib.Broker (at_deliver at_move at_publish at_remove)
open Aegis.Persistence.Evaluations
open Aegis.RabbitMQ (Broker Env Handler Job Stage)
open Aegis.RabbitMQ.Broker (Published)

/-! ## Ownership -/

/-- The job exists and is the tenant's. -/
def Owns (db : Db) (tenantID id : String) : Prop :=
  ∃ v, db.view id = some v ∧ v.tenantID = tenantID

/-- Jobs are not removed and do not change hands. -/
theorem Owns.effect {db db' : Db} {info : Persistence.Info} {call : Call}
    {r : Except GoError call.Result} {tenantID id : String} (h : Owns db tenantID id)
    (heffect : Effect db info call r db') : Owns db' tenantID id := by
  obtain ⟨v, hv, htenant⟩ := h
  have hjob := heffect.job id
  unfold Owns
  generalize db'.view id = view' at hjob ⊢
  rw [hv] at hjob
  cases hjob <;> exact ⟨_, rfl, htenant⟩

theorem Owns.stored {x : System} {action : Action} {db' : Db} {tenantID id : String}
    (h : Owns x.db tenantID id) (hstored : Stored x action db') : Owns db' tenantID id := by
  cases hstored with
  | same => exact h
  | handler _ _ heffect | api _ _ heffect => exact h.effect heffect
  | gateway => exact h

/-! ## Where messages and handlers come from -/

section Origins

variable {services : Services} {x x' : System} {action : Action}

/-- A message was there before, or it is a new command or a new attempt. -/
theorem Step.origin (hstep : Step services x action x') {place : Lib.Broker.Place RabbitMQ.Queue}
    {m : Job} (hm : x'.broker.messages.At place m) :
    (∃ place', x.broker.messages.At place' m)
      ∨ (∃ cid c job env, x.calls cid = some c ∧ c.stage = .publishing job
        ∧ m = c.entry.command job env)
      ∨ ∃ tag h category, x.handlers tag = some h ∧ h.stage = .republishing category
        ∧ m = h.job.next := by
  have hpublished : ∀ {b' : Broker} {job retry r}, Published x.broker job retry r b' →
      b'.messages.At place m → (∃ place', x.broker.messages.At place' m) ∨ m = job := by
    intro b' job retry r hpublished hm
    cases hpublished with
    | refused => exact Or.inl ⟨place, hm⟩
    | unconfirmed | confirmed => exact (at_publish hm).imp (fun hm => ⟨place, hm⟩) And.right
  have hrelayed := hstep.relayed
  generalize x'.broker = b' at hrelayed hm
  cases hrelayed with
  | same => exact Or.inl ⟨place, hm⟩
  | submitted hc hstage hpub =>
      exact (hpublished hpub hm).imp id fun hnew => Or.inl ⟨_, _, _, _, hc, hstage, hnew⟩
  | retried hh hstage hpub =>
      exact (hpublished hpub hm).imp id fun hnew => Or.inr ⟨_, _, _, hh, hstage, hnew⟩
  | delivered =>
      rcases at_deliver hm with hm | ⟨-, hm⟩
      · exact Or.inl ⟨place, hm⟩
      · exact Or.inl ⟨_, Lib.Broker.at_of_get? hm⟩
  | @acknowledged tag =>
      have hrest : (x.broker.messages.remove (.delivered tag)).At place m := hm
      exact Or.inl ⟨place, at_remove hrest⟩
  | rejected | returned =>
      rcases at_move hm with hm | ⟨-, hm⟩
      · exact Or.inl ⟨place, hm⟩
      · exact Or.inl ⟨_, hm⟩

/-- What stands at a key after an entry was set. -/
theorem update_eq_some {α : Type} {f : Nat → Option α} {k k' : Nat} {a b : α}
    (h : Function.update f k (some a) k' = some b) : k' = k ∧ b = a ∨ k' ≠ k ∧ f k' = some b := by
  by_cases hk : k' = k
  · subst hk
    rw [Function.update_self] at h
    exact Or.inl ⟨rfl, (Option.some.inj h).symm⟩
  · rw [Function.update_of_ne hk] at h
    exact Or.inr ⟨hk, h⟩

/-- A handler is as it was, or it has a new delivery, or it has made a step, or
    its worker has died. -/
theorem Step.handler_cases (hstep : Step services x action x') {tag : Nat} {h' : Handler}
    (hh' : x'.handlers tag = some h') :
    x.handlers tag = some h'
      ∨ h'.stage = .received ∧ x.broker.messages.At (.queue .work) h'.job
      ∨ ∃ h, x.handlers tag = some h ∧ h'.job = h.job
        ∧ (h'.stage = .finished ∨ ∃ env, action = .work tag env
          ∧ Branch services.worker env tag h.job x.db x.broker h.stage h'.stage x'.db
              x'.broker) := by
  cases hstep with
  | work hh hbranch =>
      rcases update_eq_some hh' with ⟨rfl, rfl⟩ | ⟨-, hh'⟩
      · exact Or.inr (Or.inr ⟨_, hh, rfl, Or.inr ⟨_, rfl, hbranch⟩⟩)
      · exact Or.inl hh'
  | crash hh =>
      rcases update_eq_some hh' with ⟨rfl, rfl⟩ | ⟨-, hh'⟩
      · exact Or.inr (Or.inr ⟨_, hh, rfl, Or.inl rfl⟩)
      · exact Or.inl hh'
  | deliver hslot =>
      rcases update_eq_some hh' with ⟨-, rfl⟩ | ⟨-, hh'⟩
      · exact Or.inr (Or.inl ⟨rfl, Lib.Broker.at_of_get? hslot⟩)
      · exact Or.inl hh'
  | _ => exact Or.inl hh'

/-- A call is as it was, or it is new, or it has made a step. -/
theorem Step.call_cases (hstep : Step services x action x') {cid : Nat} {c' : Invocation}
    (hc' : x'.calls cid = some c') :
    x.calls cid = some c'
      ∨ (∃ entry, action = .call cid entry ∧ c' = { entry })
      ∨ ∃ c env, x.calls cid = some c ∧ action = .advance cid env ∧ c'.entry = c.entry
        ∧ ApiBranch env c.entry x.db x.broker c.stage c'.stage x'.db x'.broker := by
  cases hstep with
  | call =>
      rcases update_eq_some hc' with ⟨rfl, rfl⟩ | ⟨-, hc'⟩
      · exact Or.inr (Or.inl ⟨_, rfl, rfl⟩)
      · exact Or.inl hc'
  | advance hc hbranch =>
      rcases update_eq_some hc' with ⟨rfl, rfl⟩ | ⟨-, hc'⟩
      · exact Or.inr (Or.inr ⟨_, _, hc, rfl, rfl, hbranch⟩)
      · exact Or.inl hc'
  | _ => exact Or.inl hc'

/-- A job was there before, or a `Submit` has just inserted it. -/
theorem Step.new_job (hstep : Step services x action x') {id : String} {v' : JobView}
    (hv' : x'.db.view id = some v') :
    (∃ v, x.db.view id = some v)
      ∨ ∃ cid env c, action = .advance cid env ∧ x.calls cid = some c ∧ c.stage = .opened
        ∧ c.entry.isSubmit = true ∧ id = env.info.ids 0
        ∧ ((∃ canonical, x'.calls cid = some { c with stage := .reading canonical id true })
          ∨ ∃ lost, env.fault = some (.unacknowledged lost)) := by
  cases hstep with
  | @advance cid env c stage db broker hc hbranch =>
      generalize hstage : c.stage = before at hbranch
      cases hbranch with
      | create hsubmit _ h =>
          have heffect := perform_ok h
          cases heffect with
          | inserted hnone hview =>
              by_cases hid : id = env.info.ids 0
              · subst hid
                exact Or.inr ⟨cid, env, c, rfl, hc, hstage, hsubmit, rfl,
                  Or.inl ⟨_, Function.update_self ..⟩⟩
              · rw [hview, Function.update_of_ne hid] at hv'
                exact Or.inl ⟨v', hv'⟩
      | conflict _ _ h =>
          have heffect := perform_ok h
          cases heffect with
          | conflict => exact Or.inl ⟨v', hv'⟩
      | uncreated hsubmit _ h =>
          -- the insert may have been committed although the call failed
          rcases perform_error h with rfl | hlost
          · exact Or.inl ⟨v', hv'⟩
          · obtain ⟨r, heffect⟩ := perform_eq_effect h
            have hjob := heffect.job id
            generalize x.db.view id = view at hjob
            rw [hv'] at hjob
            cases hjob with
            | stay => exact Or.inl ⟨v', rfl⟩
            | insert hid =>
                exact Or.inr ⟨cid, env, c, rfl, hc, hstage, hsubmit, hid, Or.inr hlost⟩
      | retry _ h | unretryable h | find _ h | unfound h | read h | replay h | mismatch h
      | unread h | queue h | unqueued h =>
          obtain ⟨r, heffect⟩ := perform_eq_effect h
          exact Or.inl (heffect.old_job nofun hv')
      | _ => exact Or.inl ⟨v', hv'⟩
  | work hh hbranch =>
      rcases hbranch.stored with rfl | ⟨call, r, hcall, heffect⟩
      · exact Or.inl ⟨v', hv'⟩
      · refine Or.inl (heffect.old_job ?_ hv')
        rintro params rfl
        exact handlerCall_ne_insert _ _ params hcall
  | _ => exact Or.inl ⟨v', hv'⟩

end Origins

/-! ## Addresses -/

/-- The job that a call of the API has found. -/
def jobID? : EvaluationJob.Stage → Option String
  | .reading _ id _ => some id
  | .publishing job | .queueing job => some job.id
  | _ => none

/-- Every command goes to a job of its tenant. -/
structure Addressed (x : System) : Prop where
  messages : ∀ place m, x.broker.messages.At place m → Owns x.db m.tenantID m.jobID
  handlers : ∀ tag h, x.handlers tag = some h → Owns x.db h.job.tenantID h.job.jobID
  calls : ∀ cid c, x.calls cid = some c → ∀ id, jobID? c.stage = some id →
    Owns x.db c.entry.tenantID id

theorem addressed_init (platform : Persistence.Db) : Addressed (.init platform) where
  messages := fun place m hm => absurd hm (Lib.Broker.not_at_empty place m)
  handlers := fun _ _ h => (nomatch h)
  calls := fun _ _ h => (nomatch h)

/-- A call of the API finds jobs of its tenant. -/
theorem ApiBranch.owns {env : Env} {entry : Entry} {db db' : Db} {broker broker' : Broker}
    {stage stage' : EvaluationJob.Stage}
    (h : ApiBranch env entry db broker stage stage' db' broker')
    (hbefore : ∀ id, jobID? stage = some id → Owns db entry.tenantID id) {id : String}
    (hid : jobID? stage' = some id) : Owns db' entry.tenantID id := by
  cases h with
  | create _ htenant h =>
      cases hid
      have heffect := perform_ok h
      cases heffect with
      | inserted hnone hview =>
          exact ⟨_, by rw [hview, Function.update_self], htenant⟩
  | retry _ h | read h =>
      cases hid
      have heffect := perform_ok h
      cases heffect with
      | read hv htenant => exact ⟨_, hv, htenant⟩
  | find _ h =>
      cases hid
      have heffect := perform_ok h
      cases heffect with
      | found hv htenant => exact ⟨_, hv, htenant⟩
  | publish h => exact hbefore id hid
  | _ => cases hid

theorem Addressed.step {services : Services} {x x' : System} {action : Action}
    (h : Addressed x) (hstep : Step services x action x') : Addressed x' where
  messages := by
    intro place m hm
    rcases hstep.origin hm with ⟨place', hold⟩ | ⟨cid, c, job, env, hc, hstage, rfl⟩
      | ⟨tag, handler, category, hh, -, rfl⟩
    · exact (h.messages place' m hold).stored hstep.stored
    · exact (h.calls cid c hc job.id (by rw [hstage]; rfl)).stored hstep.stored
    · exact (h.handlers tag handler hh).stored hstep.stored
  handlers := by
    intro tag h' hh'
    rcases hstep.handler_cases hh' with hh | ⟨-, hqueued⟩ | ⟨handler, hh, hjob, -⟩
    · exact (h.handlers tag h' hh).stored hstep.stored
    · exact (h.messages _ _ hqueued).stored hstep.stored
    · rw [hjob]
      exact (h.handlers tag handler hh).stored hstep.stored
  calls := by
    intro cid c' hc' id hid
    rcases hstep.call_cases hc' with hc | ⟨entry, -, rfl⟩ | ⟨c, env, hc, -, hentry, hbranch⟩
    · exact (h.calls cid c' hc id hid).stored hstep.stored
    · cases hid
    · rw [hentry]
      exact hbranch.owns (h.calls cid c hc) hid

end Aegis.Evaluations
