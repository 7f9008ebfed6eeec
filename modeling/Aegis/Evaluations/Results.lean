/-
  Aegis.Evaluations.Results

  The status of a job, its result and the fact that announces it.

  `CompleteEvaluation` writes all three in one transaction, and results are
  never removed.  Two things can still break their agreement, both when a
  command is handled again after its result was stored: `FailEvaluation` takes
  the status back, and a second `CompleteEvaluation` adds a second fact.  Where
  neither is called for a job with a result, they agree in every state.
-/

import Aegis.Evaluations.Commands

namespace Aegis.Evaluations

open Aegis.Persistence (Info)
open Aegis.Persistence.Evaluations
open Aegis.RabbitMQ (Handler Stage)
open Aegis.Request (Json)

/-! ## Committed results -/

/-- The job has a result. -/
def Committed (db : Db) (jobID : String) : Prop :=
  ∃ v, db.view jobID = some v ∧ v.result.isSome = true

theorem committed_iff {db : Db} {jobID : String} :
    Committed db jobID ↔ ∃ r ∈ db.results.rows, r.jobID = jobID := by
  constructor
  · rintro ⟨v, hv, hsome⟩
    obtain ⟨row, -, rfl⟩ := Db.view_eq_some_iff.mp hv
    obtain ⟨r, hr⟩ := Option.isSome_iff_exists.mp (Option.isSome_map.symm.trans hsome)
    have hjob := List.find?_some (p := fun r : ResultRow => r.jobID == jobID) hr
    exact ⟨r, List.mem_of_find?_eq_some hr, beq_iff_eq.mp hjob⟩
  · rintro ⟨r, hr, rfl⟩
    obtain ⟨j, hj, hid⟩ := db.jobs_of_results r hr
    refine ⟨_, Db.view_eq_some (Db.job?_eq_some_iff.mpr ⟨hj, hid⟩), ?_⟩
    simp only [Db.outcome?, Db.result?, Option.isSome_map, List.find?_isSome]
    exact ⟨r, hr, beq_self_eq_true _⟩

theorem committed_of_view {db : Db} {jobID : String} {v : JobView}
    (hv : db.view jobID = some v) : Committed db jobID ↔ v.result.isSome = true := by
  constructor
  · rintro ⟨v', hv', hsome⟩
    rw [← Option.some.inj (hv.symm.trans hv')] at hsome
    exact hsome
  · exact fun hsome => ⟨v, hv, hsome⟩

/-- Results stay. -/
theorem Committed.effect {db db' : Db} {info : Info} {call : Call}
    {r : Except GoError call.Result} {jobID : String} (h : Committed db jobID)
    (heffect : Effect db info call r db') : Committed db' jobID := by
  obtain ⟨v, hv, hsome⟩ := h
  have hjob := heffect.job jobID
  unfold Committed
  generalize db'.view jobID = view' at hjob ⊢
  rw [hv] at hjob
  cases hjob with
  | complete => exact ⟨_, rfl, rfl⟩
  | _ => exact ⟨_, rfl, hsome⟩

theorem Committed.stored {x : System} {action : Action} {db' : Db} {jobID : String}
    (h : Committed x.db jobID) (hstored : Stored x action db') : Committed db' jobID := by
  cases hstored with
  | same => exact h
  | handler _ _ heffect | api _ _ heffect => exact h.effect heffect
  | gateway => exact h

/-! ## Status and result -/

/-- A job is completed exactly when it has a result. -/
def Agrees (db : Db) : Prop :=
  ∀ id v, db.view id = some v → (v.status = .completed ↔ v.result.isSome = true)

theorem agrees_iff {db : Db} :
    Agrees db ↔ ∀ job ∈ db.jobs.rows,
      (job.status = .completed ↔ ∃ r ∈ db.results.rows, r.jobID = job.id) := by
  constructor
  · intro h job hjob
    have hv := Db.view_eq_some (Db.job?_eq_some_iff.mpr ⟨hjob, rfl⟩)
    rw [← committed_iff, committed_of_view hv]
    exact h _ _ hv
  · intro h id v hv
    obtain ⟨job, hjob, rfl⟩ := Db.view_eq_some_iff.mp hv
    obtain ⟨hmem, rfl⟩ := Db.job?_eq_some_iff.mp hjob
    rw [← committed_of_view hv, committed_iff]
    exact h job hmem

theorem agrees_init (platform : Persistence.Db) : Agrees (.init platform) := fun _ _ h => nomatch h

/-- The agreement survives a call that fails no job with a result and completes
    only jobs of the calling tenant. -/
theorem Agrees.effect {db db' : Db} {info : Info} {call : Call} {r : Except GoError call.Result}
    (h : Agrees db) (heffect : Effect db info call r db')
    (hfail : ∀ tenantID jobID category permanent,
      call = .failEvaluation tenantID jobID category permanent → db.outcome? jobID = none)
    (hcomplete : ∀ tenantID jobID executionID results,
      call = .completeEvaluation tenantID jobID executionID results → Owns db tenantID jobID) :
    Agrees db' := by
  intro id v' hv'
  have hjob := heffect.job id
  rw [hv'] at hjob
  generalize hview : db.view id = view at hjob
  -- a job in another status has no result
  have hopen : ∀ v, view = some v → v.status ≠ .completed → v.result.isSome = false := by
    rintro v rfl hstatus
    rw [← Bool.not_eq_true]
    exact fun hsome => hstatus ((h id v hview).mpr hsome)
  cases hjob with
  | stay => exact h id v' hview
  | insert => simp
  | queue _ hstatus =>
      have hresult := hopen _ rfl (by rcases hstatus with hs | hs <;> simp [hs])
      simp [hresult]
  | run _ hstatus =>
      have hresult := hopen _ rfl (by rintro hs; simp [hs, startable] at hstatus)
      simp [hresult]
  | @complete tenantID executionID results v score =>
      obtain ⟨v₁, hv₁, htenant⟩ := hcomplete tenantID id executionID results rfl
      obtain rfl := Option.some.inj (hview.symm.trans hv₁)
      simp [htenant]
  | @fail tenantID category permanent v =>
      have hnone := hfail tenantID id category permanent rfl
      obtain ⟨row, -, rfl⟩ := Db.view_eq_some_iff.mp hview
      simp only [hnone]
      cases permanent <;> simp

/-- `FailEvaluation` is called for jobs without a result. -/
def FailsUnfinished (x : System) (action : Action) : Prop :=
  ∀ h ∈ action.handler x, isFailing h.stage = true → x.db.outcome? h.job.jobID = none

instance (x : System) (action : Action) : Decidable (FailsUnfinished x action) :=
  inferInstanceAs (Decidable (∀ h ∈ action.handler x, _ → _))

theorem agrees_step {services : Services} {x x' : System} {action : Action}
    (h : Agrees x.db) (haddressed : Addressed x) (hstep : Step services x action x')
    (hunfinished : FailsUnfinished x action) : Agrees x'.db := by
  have hstored := hstep.stored
  generalize x'.db = db' at hstored
  cases hstored with
  | same => exact h
  | gateway => exact h
  | @handler tag env handler call r db' hh hcall heffect =>
      refine h.effect heffect ?_ ?_
      · rintro tenantID jobID category permanent rfl
        obtain ⟨hfailing, -, rfl⟩ := handlerCall_fail hcall
        exact hunfinished handler hh hfailing
      · rintro tenantID jobID executionID results rfl
        obtain ⟨-, rfl, rfl⟩ := handlerCall_complete hcall
        exact haddressed.handlers tag handler hh
  | api hc hcall heffect =>
      refine h.effect heffect ?_ ?_
      · exact fun t j c p heq => absurd heq (hcall.not_outcome.1 t j c p)
      · exact fun t j e rs heq => absurd heq (hcall.not_outcome.2 t j e rs)

/-- **Status and result agree.**  In a run that never fails a job with a result,
    a job is completed exactly when its result is stored, and once completed it
    stays so. -/
theorem completed_iff_result (services : Services) (platform : Persistence.Db)
    (actions : List Action)
    (hrun : ∀ t ∈ Lib.trace (System.step services) (.init platform) actions,
      FailsUnfinished t.1 t.2.1) :
    let db := (Lib.run (System.step services) (.init platform) actions).db
    (∀ job ∈ db.jobs.rows,
        (job.status = .completed ↔ ∃ r ∈ db.results.rows, r.jobID = job.id))
      ∧ ∀ t ∈ Lib.trace (System.step services) (.init platform) actions,
          ∀ job ∈ t.1.db.jobs.rows, job.status = .completed →
          ∀ job' ∈ t.2.2.db.jobs.rows, job'.id = job.id → job'.status = .completed := by
  have hstep : ∀ x action, (Agrees x.db ∧ Addressed x) → FailsUnfinished x action →
      Agrees (x.step services action).db ∧ Addressed (x.step services action) := by
    rintro x action ⟨hagrees, haddressed⟩ hunfinished
    have hcases := step_cases services x action
    exact ⟨agrees_step hagrees haddressed hcases hunfinished, haddressed.step hcases⟩
  have hinit : Agrees (System.init platform).db ∧ Addressed (.init platform) :=
    ⟨agrees_init platform, addressed_init platform⟩
  refine ⟨agrees_iff.mp (Lib.run_invariant hstep actions hinit hrun).1, ?_⟩
  intro t ht job hjob hcompleted job' hjob' hid
  obtain ⟨⟨hbefore, -⟩, hafter, -⟩ := Lib.trace_invariant hstep hinit hrun ht
  have hcommitted : Committed t.1.db job.id :=
    committed_iff.mpr ((agrees_iff.mp hbefore job hjob).mp hcompleted)
  have hstored : Stored t.1 t.2.1 t.2.2.db := by
    rw [Lib.trace_step ht]
    exact (step_cases services t.1 t.2.1).stored
  rw [agrees_iff.mp hafter job' hjob', ← committed_iff, hid]
  exact hcommitted.stored hstored

/-- A submitted evaluation that completes. -/
theorem completed_iff_result_completed :
    let db := (Lib.run (System.step sampleServices) (.init samplePlatform)
      (submitAndQueue ++ deliverAndComplete 0 "i" "f")).db
    (∃ job ∈ db.jobs.rows, job.id = "j")
      ∧ ∀ job ∈ db.jobs.rows,
        (job.status = .completed ↔ ∃ r ∈ db.results.rows, r.jobID = job.id) := by
  refine ⟨by decide +kernel, ?_⟩
  exact (completed_iff_result sampleServices samplePlatform
    (submitAndQueue ++ deliverAndComplete 0 "i" "f") (by decide +kernel)).1

/-- The worker dies after its result is committed.  The command is delivered
    again, the database refuses `MarkEvaluationRunning`, the command is
    published for another attempt, and the status becomes FAILED. -/
theorem completed_job_fails :
    let x := Lib.run (System.step sampleServices) (.init samplePlatform)
      (submitAndQueue ++ deliverAndComplete 0 "i" "f")
    let x' := Lib.run (System.step sampleServices) x
      [.crash 0, .requeue 0, .deliver 0, .work 1 refusedEnv, .work 1 (sampleEnv "" ""),
        .work 1 (sampleEnv "" "")]
    (∃ job ∈ x.db.jobs.rows, job.id = "j" ∧ job.status = .completed)
      ∧ (∃ job ∈ x'.db.jobs.rows, job.id = "j" ∧ job.status = .failed)
      ∧ ∃ r ∈ x'.db.results.rows, r.jobID = "j" := by
  decide +kernel

/-! ## Result and fact -/

/-- The EvaluationComplete facts about a job announce its result. -/
def Announced (db : Db) : Prop :=
  ∀ id, db.completions id = ((db.view id).bind JobView.result).toList.map fun outcome =>
    completePayload id outcome.1 outcome.2

theorem announced_init {platform : Persistence.Db}
    (hstart : ∀ f ∈ platform.facts, f.eventType ≠ .evaluationComplete) :
    Announced (.init platform) := by
  intro id
  have hnone : ((platform.factsOf id).filter fun f => f.eventType == .evaluationComplete) = [] := by
    rw [List.filter_eq_nil_iff]
    intro f hf
    simpa using hstart f (List.mem_filter.mp hf).1
  rw [Db.completions]
  exact congrArg (List.map Persistence.OutboxFact.payload) hnone

/-- The facts keep announcing the results after a call that completes no job
    with a result. -/
theorem Announced.effect {db db' : Db} {info : Info} {call : Call}
    {r : Except GoError call.Result} (h : Announced db) (heffect : Effect db info call r db')
    (hcomplete : ∀ tenantID jobID executionID results,
      call = .completeEvaluation tenantID jobID executionID results →
      db.outcome? jobID = none) :
    Announced db' := by
  have hkeep : (∀ tenantID jobID executionID results,
      call ≠ .completeEvaluation tenantID jobID executionID results) → Announced db' := by
    intro hother id
    obtain ⟨hfacts, hresult⟩ := heffect.results_kept hother id
    rw [hfacts, hresult]
    exact h id
  cases heffect with
  | @completed tenantID jobID executionID results v score db' hv hscore hview hfacts =>
      have hnone := hcomplete tenantID jobID executionID results rfl
      obtain ⟨row, -, rfl⟩ := Db.view_eq_some_iff.mp hv
      rw [hnone] at hv hview
      intro id
      rw [hview, hfacts]
      by_cases hid : id = jobID
      · subst hid
        rw [Function.update_self, Function.update_self, h id, hv]
        rfl
      · rw [Function.update_of_ne hid, Function.update_of_ne hid]
        exact h id
  | error => exact h
  | _ => exact hkeep nofun

/-- `CompleteEvaluation` is called for jobs without a result. -/
def CompletesUnfinished (x : System) (action : Action) : Prop :=
  ∀ h ∈ action.handler x, isCompleting h.stage = true → x.db.outcome? h.job.jobID = none

instance (x : System) (action : Action) : Decidable (CompletesUnfinished x action) :=
  inferInstanceAs (Decidable (∀ h ∈ action.handler x, _ → _))

theorem announced_step {services : Services} {x x' : System} {action : Action}
    (h : Announced x.db) (hstep : Step services x action x')
    (hunfinished : CompletesUnfinished x action) : Announced x'.db := by
  have hstored := hstep.stored
  generalize x'.db = db' at hstored
  cases hstored with
  | same => exact h
  | gateway =>
      intro id
      rw [completions_gatewayCall, view_gatewayCall]
      exact h id
  | @handler tag env handler call r db' hh hcall heffect =>
      refine h.effect heffect ?_
      rintro tenantID jobID executionID results rfl
      obtain ⟨hcompleting, -, rfl⟩ := handlerCall_complete hcall
      exact hunfinished handler hh hcompleting
  | api hc hcall heffect =>
      refine h.effect heffect ?_
      exact fun t j e rs heq => absurd heq (hcall.not_outcome.2 t j e rs)

/-- **One fact per evaluation.**  In a run that never completes a job with a
    result, a job has at most one EvaluationComplete fact, and it carries the
    outcome and the score of the job's one result. -/
theorem completion_announced_once (services : Services) (platform : Persistence.Db)
    (hstart : ∀ f ∈ platform.facts, f.eventType ≠ .evaluationComplete) (actions : List Action)
    (hrun : ∀ t ∈ Lib.trace (System.step services) (.init platform) actions,
      CompletesUnfinished t.1 t.2.1) :
    let db := (Lib.run (System.step services) (.init platform) actions).db
    ∀ job ∈ db.jobs.rows,
      (db.completions job.id).length ≤ 1
      ∧ ∀ payload ∈ db.completions job.id, ∃ r ∈ db.results.rows, r.jobID = job.id
        ∧ (∀ r' ∈ db.results.rows, r'.jobID = job.id → r' = r)
        ∧ payload = completePayload job.id r.outcome r.scoreMilli := by
  intro db job hjob
  have hannounced : Announced db :=
    Lib.run_invariant (I := fun x : System => Announced x.db) (C := CompletesUnfinished)
      (fun x action h hunfinished => announced_step h (step_cases services x action) hunfinished)
      actions (announced_init hstart) hrun
  have hview := Db.view_eq_some (Db.job?_eq_some_iff.mpr ⟨hjob, rfl⟩)
  have hcompletions := hannounced job.id
  rw [hview, Option.bind_some] at hcompletions
  rw [hcompletions, List.length_map]
  refine ⟨Option.length_toList_le, ?_⟩
  intro payload hpayload
  obtain ⟨outcome, houtcome, rfl⟩ := List.mem_map.mp hpayload
  obtain ⟨r, hr, rfl⟩ := Option.map_eq_some_iff.mp (Option.mem_toList.mp houtcome)
  have hrjob := List.find?_some (p := fun r : ResultRow => r.jobID == job.id) hr
  have hmem := List.mem_of_find?_eq_some hr
  refine ⟨r, hmem, beq_iff_eq.mp hrjob, ?_, rfl⟩
  intro r' hr' hjob'
  refine db.results.eq_of_clash ?_ hr' hmem (Or.inr (Or.inl ?_))
  · rintro a b (h | h | h)
    · exact Or.inl h.symm
    · exact Or.inr (Or.inl h.symm)
    · exact Or.inr (Or.inr h.symm)
  · exact hjob'.trans (beq_iff_eq.mp hrjob).symm

theorem completion_announced_once_completed :
    let db := (Lib.run (System.step sampleServices) (.init samplePlatform)
      (submitAndQueue ++ deliverAndComplete 0 "i" "f")).db
    (∃ job ∈ db.jobs.rows, job.id = "j")
      ∧ (db.completions "j").length = 1
      ∧ ∀ job ∈ db.jobs.rows, (db.completions job.id).length ≤ 1 := by
  refine ⟨by decide +kernel, by decide +kernel, ?_⟩
  intro job hjob
  exact (completion_announced_once sampleServices samplePlatform (fun _ h => nomatch h)
    (submitAndQueue ++ deliverAndComplete 0 "i" "f") (by decide +kernel) job hjob).1

/-- The worker dies after its result is committed and before it acknowledges.
    The command is delivered again and completed again: the result is kept, the
    fact is recorded twice. -/
theorem redelivery_announces_twice :
    let db := (Lib.run (System.step sampleServices) (.init samplePlatform)
      (submitAndQueue ++ deliverAndComplete 0 "i" "f" ++ [.crash 0, .requeue 0]
        ++ deliverAndComplete 1 "h" "g")).db
    db.results.rows.length = 1 ∧ (db.completions "j").length = 2 := by
  decide +kernel

end Aegis.Evaluations
