/-
  Aegis.Persistence.EvaluationEffects

  What a call of the evaluation store does, one constructor of `Effect` for each
  way a call can end.

  `JobView` is what the tables say about a job: its tenant, its status and the
  outcome of its result.  Next to it stand the payloads of the
  EvaluationComplete facts about the job.
-/

import Aegis.Persistence.Evaluations
import Aegis.Persistence.Slice

namespace Aegis.Persistence.Evaluations

open Aegis.Evaluation (Input Outcome Result)
open Aegis.Lib (Table)
open Aegis.Request (Json)

structure JobView where
  tenantID : String
  status : Status
  /-- outcome and score of the result -/
  result : Option (Outcome × Nat)
deriving DecidableEq, Repr

namespace Db

def outcome? (db : Db) (jobID : String) : Option (Outcome × Nat) :=
  (db.result? jobID).map fun r => (r.outcome, r.scoreMilli)

def view (db : Db) (id : String) : Option JobView :=
  (db.job? id).map fun j => ⟨j.tenantID, j.status, db.outcome? id⟩

/-- The payloads of the EvaluationComplete facts about a job. -/
def completions (db : Db) (id : String) : List Json :=
  ((db.platform.factsOf id).filter fun f => f.eventType == .evaluationComplete).map
    OutboxFact.payload

section Rows

variable {db db' : Db}

theorem jobs_unique (db : Db) (id : String) : Lib.Unique db.jobs.rows fun j => j.id == id := by
  refine db.jobs.unique.imp ?_
  intro a b hclash hboth
  refine hclash (Or.inl ?_)
  exact (beq_iff_eq.mp hboth.1).trans (beq_iff_eq.mp hboth.2).symm

/-- The identifier determines the job. -/
theorem job?_eq_some_iff {id : String} {row : JobRow} :
    db.job? id = some row ↔ row ∈ db.jobs.rows ∧ row.id = id := by
  rw [job?, (db.jobs_unique id).find?_eq_some_iff, beq_iff_eq]

theorem view_eq_some {id : String} {row : JobRow} (hrow : db.job? id = some row) :
    db.view id = some ⟨row.tenantID, row.status, db.outcome? id⟩ := by
  rw [view, hrow]
  rfl

theorem view_eq_some_iff {id : String} {v : JobView} :
    db.view id = some v ↔
      ∃ row, db.job? id = some row ∧ v = ⟨row.tenantID, row.status, db.outcome? id⟩ := by
  rw [view, Option.map_eq_some_iff]
  exact exists_congr fun row => and_congr_right fun _ => eq_comm

/-- A job that is not there has no result. -/
theorem outcome?_eq_none {id : String} (h : db.job? id = none) : db.outcome? id = none := by
  rw [outcome?, Option.map_eq_none_iff, result?, List.find?_eq_none]
  intro r hr hjob
  obtain ⟨j, hj, hid⟩ := db.jobs_of_results r hr
  have hfound := job?_eq_some_iff.mpr ⟨hj, hid.trans (beq_iff_eq.mp hjob)⟩
  cases h.symm.trans hfound

/-! ## Writes -/

variable {tenantID jobID : String} {status : Status → Bool} {set : JobRow → JobRow}
  {hset : ∀ j, (set j).key = j.key} {target : Status}

theorem job?_updateJob (db : Db) (id : String) :
    (db.updateJob tenantID jobID status set hset).job? id
      = (db.job? id).map fun j => if jobGuard tenantID jobID status j then set j else j := by
  refine Lib.find?_update ?_
  intro j
  rw [show (set j).id = j.id from congrArg Prod.fst (hset j)]

/-- A guarded update that no job meets. -/
theorem view_updateJob_of_not
    (h : ∀ v, db.view jobID = some v → ¬ (v.tenantID = tenantID ∧ status v.status = true)) :
    (db.updateJob tenantID jobID status set hset).view = db.view := by
  funext id
  have hmiss : ∀ j, db.job? id = some j → jobGuard tenantID jobID status j = false := by
    intro j hj
    by_contra hguard
    simp only [jobGuard, Bool.not_eq_false, Bool.and_eq_true, beq_iff_eq] at hguard
    obtain ⟨⟨htenant, hid⟩, hstatus⟩ := hguard
    obtain rfl : id = jobID := (job?_eq_some_iff.mp hj).2.symm.trans hid
    exact h _ (view_eq_some hj) ⟨htenant, hstatus⟩
  rw [view, view, job?_updateJob]
  cases hj : db.job? id with
  | none => rfl
  | some j =>
      simp only [Option.map_some, hmiss j hj]
      rfl

/-- A guarded update that the job meets. -/
theorem view_updateJob (set : JobRow → JobRow) {hset : ∀ j, (set j).key = j.key}
    (htarget : ∀ j, (set j).status = target) {v : JobView}
    (hv : db.view jobID = some v) (htenant : v.tenantID = tenantID)
    (hstatus : status v.status = true) :
    (db.updateJob tenantID jobID status set hset).view
      = Function.update db.view jobID (some { v with status := target }) := by
  obtain ⟨row, hrow, rfl⟩ := view_eq_some_iff.mp hv
  have hkept : (set row).tenantID = row.tenantID :=
    congrArg (fun key => key.2.1) (hset row)
  funext id
  by_cases hid : id = jobID
  · subst hid
    have hguard : jobGuard tenantID id status row = true := by
      simp only [jobGuard, Bool.and_eq_true, beq_iff_eq]
      exact ⟨⟨htenant, (job?_eq_some_iff.mp hrow).2⟩, hstatus⟩
    rw [Function.update_self, view, job?_updateJob, hrow]
    simp only [Option.map_some, hguard, if_true, htarget, hkept]
    rfl
  · rw [Function.update_of_ne hid, view, view, job?_updateJob]
    cases hj : db.job? id with
    | none => rfl
    | some j =>
        have hguard : jobGuard tenantID jobID status j = false := by
          have hne : j.id ≠ jobID := fun heq => hid ((job?_eq_some_iff.mp hj).2.symm.trans heq)
          simp only [jobGuard, beq_false_of_ne hne, Bool.and_false, Bool.false_and]
        simp only [Option.map_some, hguard]
        rfl

theorem insertJob_ok {row : JobRow} (h : db.insertJob row = .ok db') :
    db.view row.id = none
      ∧ db'.view = Function.update db.view row.id (some ⟨row.tenantID, row.status, none⟩)
      ∧ db'.completions = db.completions := by
  unfold insertJob at h
  split at h
  · cases h
  · next jobs hinsert =>
      cases h
      obtain ⟨hfree, hrows⟩ := Table.insert?_eq_some hinsert
      have hnone : db.job? row.id = none := by
        rw [job?, List.find?_eq_none]
        intro j hj hid
        exact hfree j hj (Or.inl (beq_iff_eq.mp hid))
      have hresult := outcome?_eq_none hnone
      refine ⟨by rw [view, hnone]; rfl, ?_, rfl⟩
      funext id
      simp only [view, job?, hrows, List.find?_append]
      by_cases hid : id = row.id
      · subst hid
        rw [job?] at hnone
        rw [Function.update_self, hnone]
        simp only [List.find?_cons, beq_self_eq_true, Option.none_or, Option.map_some]
        exact congrArg (fun o => some (JobView.mk _ _ o)) hresult
      · rw [Function.update_of_ne hid]
        have hother : (row.id == id) = false := beq_false_of_ne (Ne.symm hid)
        simp only [List.find?_cons, hother, List.find?_nil, Option.or_none]
        rfl

theorem insertResult_ok {row : ResultRow} (h : db.insertResult row = .ok db') :
    ∃ v, db.view row.jobID = some v ∧ v.result = none
      ∧ db'.view = Function.update db.view row.jobID
          (some { v with result := some (row.outcome, row.scoreMilli) })
      ∧ db'.completions = db.completions ∧ db'.platform = db.platform := by
  unfold insertResult at h
  split at h
  · cases h
  · next results hinsert =>
      split at h
      · next hjob =>
          cases h
          obtain ⟨hfree, hrows⟩ := Table.insert?_eq_some hinsert
          obtain ⟨j, hj, hid⟩ := hjob
          have hrow := job?_eq_some_iff.mpr ⟨hj, hid⟩
          have hnone : db.result? row.jobID = none := by
            rw [result?, List.find?_eq_none]
            intro r hr heq
            exact hfree r hr (Or.inr (Or.inl (beq_iff_eq.mp heq)))
          refine ⟨_, view_eq_some hrow, by rw [outcome?, hnone]; rfl, ?_, rfl, rfl⟩
          funext id
          simp only [view, job?, outcome?, result?, hrows, List.find?_append]
          by_cases heq : id = row.jobID
          · subst heq
            rw [result?] at hnone
            rw [job?] at hrow
            rw [Function.update_self, hnone, hrow]
            simp only [List.find?_cons, beq_self_eq_true, Option.none_or, Option.map_some]
          · rw [Function.update_of_ne heq]
            have hother : (row.jobID == id) = false := beq_false_of_ne (Ne.symm heq)
            simp only [List.find?_cons, hother, List.find?_nil, Option.or_none]
            rfl
      · cases h

end Rows

end Db

/-! ## Effects -/

/-- How a call can end. -/
inductive Effect (db : Db) (info : Info) : (call : Call) → Except GoError call.Result → Db → Prop
  | error {call : Call} (err : GoError) : Effect db info call (.error err) db
  | inserted {params : CreateEvaluationParams} {db' : Db} (hnone : db.view (info.ids 0) = none)
      (hview : db'.view
        = Function.update db.view (info.ids 0) (some ⟨params.tenantID, .pending, none⟩))
      (hfacts : db'.completions = db.completions) :
      Effect db info (.insertEvaluation params) (.ok (some (info.ids 0))) db'
  | conflict {params : CreateEvaluationParams} :
      Effect db info (.insertEvaluation params) (.ok none) db
  | found {tenantID idempotencyKey id : String} {v : JobView} (hv : db.view id = some v)
      (htenant : v.tenantID = tenantID) :
      Effect db info (.findEvaluation tenantID idempotencyKey) (.ok id) db
  | read {tenantID : String} {job : EvaluationJob} {v : JobView} (hv : db.view job.id = some v)
      (htenant : v.tenantID = tenantID) (hstatus : job.status = v.status) :
      Effect db info (.getEvaluation tenantID job.id) (.ok job) db
  | queued {tenantID jobID : String} {v : JobView} {db' : Db} (hv : db.view jobID = some v)
      (htenant : v.tenantID = tenantID) (hstatus : v.status = .pending ∨ v.status = .failed)
      (hview : db'.view = Function.update db.view jobID (some { v with status := .queued }))
      (hfacts : db'.completions = db.completions) :
      Effect db info (.markEvaluationQueued tenantID jobID) (.ok ()) db'
  /-- no job met the condition -/
  | unqueued {tenantID jobID : String} {db' : Db} (hview : db'.view = db.view)
      (hfacts : db'.completions = db.completions) :
      Effect db info (.markEvaluationQueued tenantID jobID) (.ok ()) db'
  | running {tenantID jobID : String} {v : JobView} {db' : Db} (hv : db.view jobID = some v)
      (htenant : v.tenantID = tenantID) (hstatus : startable v.status = true)
      (hview : db'.view = Function.update db.view jobID (some { v with status := .running }))
      (hfacts : db'.completions = db.completions) :
      Effect db info (.markEvaluationRunning tenantID jobID) (.ok ()) db'
  /-- no job met the condition -/
  | unstarted {tenantID jobID : String} {db' : Db} (hview : db'.view = db.view)
      (hfacts : db'.completions = db.completions) :
      Effect db info (.markEvaluationRunning tenantID jobID) (.ok ()) db'
  | loaded {tenantID jobID : String} (input : Input) :
      Effect db info (.loadInput tenantID jobID) (.ok input) db
  /-- an earlier result stays, a job of another tenant keeps its status, and the
      fact is recorded in any case -/
  | completed {tenantID jobID executionID : String} {results : List Result} {v : JobView}
      {score : Nat} {db' : Db} (hv : db.view jobID = some v)
      (hscore : (score : Int) = (summarize results).score)
      (hview : db'.view = Function.update db.view jobID (some {
        tenantID := v.tenantID
        status := if v.tenantID = tenantID then .completed else v.status
        result := some (v.result.getD ((summarize results).status, score)) }))
      (hfacts : db'.completions = Function.update db.completions jobID
        (db.completions jobID ++ [completePayload jobID (summarize results).status score])) :
      Effect db info (.completeEvaluation tenantID jobID executionID results) (.ok ()) db'
  | failed {tenantID jobID category : String} {permanent : Bool} {v : JobView} {db' : Db}
      (hv : db.view jobID = some v) (htenant : v.tenantID = tenantID)
      (hview : db'.view = Function.update db.view jobID
        (some { v with status := if permanent then .deadLettered else .failed }))
      (hfacts : db'.completions = db.completions) :
      Effect db info (.failEvaluation tenantID jobID category permanent) (.ok ()) db'

section Operations

variable {db db' : Db} {info : Info}

/-- A transaction that commits ends as its operation does. -/
theorem transact_effect {call : Call} {tx : Tx call.Result}
    (h : ∀ r db', tx db = .ok (r, db') → Effect db info call (.ok r) db') :
    Effect db info call (transact tx db).1 (transact tx db).2 := by
  unfold transact
  split
  · next r db' htx => exact h r db' htx
  · next err htx => exact .error err

/-- A lookup within a tenant. -/
theorem view_of_find? (tenantID : String) {p : JobRow → Bool} {row : JobRow}
    (hp : ∀ j, p j = true → j.tenantID = tenantID) (h : db.jobs.rows.find? p = some row) :
    db.view row.id = some ⟨row.tenantID, row.status, db.outcome? row.id⟩
      ∧ row.tenantID = tenantID :=
  ⟨Db.view_eq_some (Db.job?_eq_some_iff.mpr ⟨List.mem_of_find?_eq_some h, rfl⟩),
    hp row (List.find?_some h)⟩

theorem insertEvaluation_effect {params : CreateEvaluationParams} {r : Option String}
    (h : insertEvaluation params info db = .ok (r, db')) :
    Effect db info (.insertEvaluation params) (.ok r) db' := by
  unfold insertEvaluation at h
  split at h
  · split at h
    · cases h
      exact .conflict
    · simp only [wrapErr_eq_ok, bind_eq_ok] at h
      obtain ⟨-, -, db₁, hinsert, hreturn⟩ := h
      cases hreturn
      obtain ⟨hnone, hview, hfacts⟩ := Db.insertJob_ok hinsert
      exact .inserted hnone hview hfacts
  · cases h
    exact .conflict

theorem findEvaluation_effect {tenantID idempotencyKey : String} {r : String}
    (h : findEvaluation tenantID idempotencyKey db = .ok (r, db')) :
    Effect db info (.findEvaluation tenantID idempotencyKey) (.ok r) db' := by
  unfold findEvaluation at h
  split at h
  · cases h
  · next row hrow =>
      cases h
      obtain ⟨hv, htenant⟩ := view_of_find? tenantID (by simp_all) hrow
      exact .found hv htenant

theorem getEvaluation_effect {tenantID evaluationID : String} {r : EvaluationJob}
    (h : getEvaluation tenantID evaluationID db = .ok (r, db')) :
    Effect db info (.getEvaluation tenantID evaluationID) (.ok r) db' := by
  unfold getEvaluation at h
  split at h
  · cases h
  · next row hrow =>
      cases h
      obtain ⟨hv, htenant⟩ := view_of_find? tenantID (by simp_all) hrow
      have hid : row.id = evaluationID := by
        have hfound := List.find?_some hrow
        simp only [Bool.and_eq_true, beq_iff_eq] at hfound
        exact hfound.2
      subst hid
      have heffect : Effect db info (.getEvaluation tenantID (row.toJob (db.result? row.id)).id)
          (.ok (row.toJob (db.result? row.id))) db := .read hv htenant rfl
      exact heffect

theorem markEvaluationQueued_effect {tenantID jobID : String} {u : Unit}
    (h : markEvaluationQueued tenantID jobID db = .ok (u, db')) :
    Effect db info (.markEvaluationQueued tenantID jobID) (.ok u) db' := by
  cases h
  by_cases hmet : ∃ v, db.view jobID = some v ∧ v.tenantID = tenantID
      ∧ [Status.pending, .failed].contains v.status = true
  · obtain ⟨v, hv, htenant, hstatus⟩ := hmet
    refine .queued hv htenant (by simpa using hstatus) ?_ rfl
    exact Db.view_updateJob .queued (fun _ => rfl) hv htenant hstatus
  · refine .unqueued (Db.view_updateJob_of_not ?_) rfl
    exact fun v hv hboth => hmet ⟨v, hv, hboth⟩

theorem markEvaluationRunning_effect {tenantID jobID : String} {u : Unit}
    (h : markEvaluationRunning tenantID jobID info db = .ok (u, db')) :
    Effect db info (.markEvaluationRunning tenantID jobID) (.ok u) db' := by
  obtain ⟨-, -, hreturn⟩ := bind_eq_ok.mp h
  cases hreturn
  by_cases hmet : ∃ v, db.view jobID = some v ∧ v.tenantID = tenantID
      ∧ startable v.status = true
  · obtain ⟨v, hv, htenant, hstatus⟩ := hmet
    refine .running hv htenant hstatus ?_ rfl
    exact Db.view_updateJob (.running info.dbNow) (fun _ => rfl) hv htenant hstatus
  · refine .unstarted (Db.view_updateJob_of_not ?_) rfl
    exact fun v hv hboth => hmet ⟨v, hv, hboth⟩

theorem loadInput_effect {tenantID jobID : String} {input : Input}
    (h : loadInput tenantID jobID db = .ok (input, db')) :
    Effect db info (.loadInput tenantID jobID) (.ok input) db' := by
  obtain ⟨⟨job, db₁⟩, hget, hrest⟩ := bind_eq_ok.mp h
  obtain ⟨source, -, hreturn⟩ := bind_eq_ok.mp hrest
  cases hreturn
  have hread : Effect db info (.getEvaluation tenantID jobID) (.ok job) db' :=
    getEvaluation_effect hget
  cases hread
  exact .loaded _

/-! ### Recording the outcome -/

theorem recordFact_ok {row : OutboxRow} (h : recordFact row db = .ok db') :
    ∃ outbox, db' = { db with platform := { db.platform with outbox } }
      ∧ outbox.rows = db.platform.outbox.rows ++ [row] := by
  obtain ⟨platform, hinsert, hreturn⟩ := bind_eq_ok.mp h
  cases hreturn
  obtain ⟨outbox, rfl, hrows⟩ := insertOutbox_ok hinsert
  exact ⟨outbox, rfl, hrows⟩

theorem view_recordFact {row : OutboxRow} (h : recordFact row db = .ok db') :
    db'.view = db.view := by
  obtain ⟨outbox, rfl, -⟩ := recordFact_ok h
  rfl

/-- Only EvaluationComplete facts count. -/
theorem completions_recordFact {row : OutboxRow} (h : recordFact row db = .ok db') :
    db'.completions = if row.fact.eventType = .evaluationComplete then
      Function.update db.completions row.fact.aggregateID
        (db.completions row.fact.aggregateID ++ [row.fact.payload])
      else db.completions := by
  obtain ⟨outbox, rfl, hrows⟩ := recordFact_ok h
  have habout : ∀ r ∈ [row], r.fact.aggregateID = row.fact.aggregateID := by simp
  funext id
  by_cases hid : id = row.fact.aggregateID
  · subst hid
    have hfacts := Persistence.Db.factsOf_append_self db.platform
      { db.platform with outbox } habout hrows
    rw [Db.completions, hfacts, List.filter_append, List.map_append]
    split
    · next htype =>
        rw [Function.update_self]
        simp [htype, Db.completions]
    · next htype => simp [htype, Db.completions]
  · have hfacts := Persistence.Db.factsOf_append_of_ne db.platform
      { db.platform with outbox } habout hrows hid
    rw [Db.completions, hfacts]
    split
    · rw [Function.update_of_ne hid]
      rfl
    · rfl

theorem checkScore_ok {score : Int} {n : Nat} (h : checkScore score = .ok n) :
    (n : Int) = score := by
  obtain ⟨_, hrange, hreturn⟩ := bind_eq_ok.mp h
  cases hreturn
  have hbounds := of_decide_eq_true (require_eq_ok.mp hrange)
  exact Int.toNat_of_nonneg hbounds.1

theorem persistResult_ok {tenantID jobID executionID : String} {results : List Result}
    (h : persistResult tenantID jobID executionID results info db = .ok db') :
    ∃ v, ∃ score : Nat, db.view jobID = some v ∧ (score : Int) = (summarize results).score
      ∧ db'.view = Function.update db.view jobID
          (some { v with result := some (v.result.getD ((summarize results).status, score)) })
      ∧ db'.completions = db.completions := by
  simp only [persistResult, wrapErr_eq_ok, bind_eq_ok] at h
  obtain ⟨score, hscore, duration, -, h⟩ := h
  split at h
  · next hsome =>
      cases h
      obtain ⟨r, hr⟩ := Option.isSome_iff_exists.mp hsome
      have hresult : db.outcome? jobID = some (r.outcome, r.scoreMilli) := by
        rw [Db.outcome?, hr]
        rfl
      -- the foreign key gives the job of the result
      obtain ⟨row, hrow⟩ : ∃ row, db.job? jobID = some row := by
        rw [← Option.ne_none_iff_exists']
        intro hnone
        cases (Db.outcome?_eq_none hnone).symm.trans hresult
      have hv := Db.view_eq_some hrow
      refine ⟨_, score, hv, checkScore_ok hscore, ?_, rfl⟩
      rw [hresult] at hv ⊢
      simp only [Option.getD_some, ← hv, Function.update_eq_self]
  · obtain ⟨-, -, hinsert⟩ := bind_eq_ok.mp h
    obtain ⟨v, hv, hnone, hview, hfacts, -⟩ := Db.insertResult_ok hinsert
    refine ⟨v, score, hv, checkScore_ok hscore, ?_, hfacts⟩
    rw [hview, hnone]
    rfl

theorem completeEvaluation_effect {tenantID jobID executionID : String} {results : List Result}
    {u : Unit} (h : completeEvaluation tenantID jobID executionID results info db = .ok (u, db')) :
    Effect db info (.completeEvaluation tenantID jobID executionID results) (.ok u) db' := by
  obtain ⟨db₁, hpersist, h⟩ := bind_eq_ok.mp h
  obtain ⟨db₂, hfact, hreturn⟩ := bind_eq_ok.mp h
  cases hreturn
  obtain ⟨v, score, hv, hscore, hview, hfacts⟩ := persistResult_ok hpersist
  refine .completed hv hscore ?_ ?_
  · rw [view_recordFact hfact]
    have hv₁ : db₁.view jobID
        = some { v with result := some (v.result.getD ((summarize results).status, score)) } := by
      rw [hview, Function.update_self]
    by_cases htenant : v.tenantID = tenantID
    · have hcompleted : (db₁.updateJob tenantID jobID (fun _ => true)
          (JobRow.completed info.dbNow) (fun _ => rfl)).view
          = Function.update db₁.view jobID (some {
              tenantID := v.tenantID
              status := .completed
              result := some (v.result.getD ((summarize results).status, score)) }) :=
        Db.view_updateJob (.completed info.dbNow) (fun _ => rfl) hv₁ htenant rfl
      rw [if_pos htenant]
      refine hcompleted.trans ?_
      rw [hview, Function.update_idem]
    · rw [if_neg htenant]
      refine (Db.view_updateJob_of_not ?_).trans hview
      intro v' hv' hboth
      obtain rfl := Option.some.inj (hv₁.symm.trans hv')
      exact htenant hboth.1
  · have hcompletions : db'.completions = Function.update db₁.completions jobID
        (db₁.completions jobID
          ++ [completePayload jobID (summarize results).status (summarize results).score]) :=
      (completions_recordFact hfact).trans (if_pos rfl)
    rw [hfacts, ← hscore] at hcompletions
    exact hcompletions

theorem failEvaluation_effect {tenantID jobID category : String} {permanent : Bool} {u : Unit}
    (h : failEvaluation tenantID jobID category permanent info db = .ok (u, db')) :
    Effect db info (.failEvaluation tenantID jobID category permanent) (.ok u) db' := by
  unfold failEvaluation at h
  split at h
  · cases h
  · next row hrow =>
      obtain ⟨hv, htenant⟩ := view_of_find? tenantID (by simp_all) hrow
      obtain rfl : row.id = jobID := by
        have hfound := List.find?_some hrow
        simp only [Bool.and_eq_true, beq_iff_eq] at hfound
        exact hfound.1
      have hupdate : (db.updateJob tenantID row.id (fun _ => true)
          (JobRow.failed category permanent info.dbNow) (fun _ => rfl)).view
          = Function.update db.view row.id (some {
              tenantID := row.tenantID
              status := if permanent then .deadLettered else .failed
              result := db.outcome? row.id }) :=
        Db.view_updateJob (.failed category permanent info.dbNow) (fun _ => rfl) hv htenant rfl
      dsimp only at h
      split at h
      · obtain ⟨db₁, hfact, hreturn⟩ := bind_eq_ok.mp h
        cases hreturn
        refine .failed hv htenant ((view_recordFact hfact).trans hupdate) ?_
        exact (completions_recordFact hfact).trans (if_neg (by simp [outboxRow]))
      · cases h
        exact .failed hv htenant hupdate rfl

/-- **Every call ends as listed.** -/
theorem store_effect (call : Call) (info : Info) (db : Db) :
    Effect db info call (store call info db).1 (store call info db).2 := by
  cases call with
  | insertEvaluation params => exact transact_effect fun _ _ h => insertEvaluation_effect h
  | findEvaluation tenantID key => exact transact_effect fun _ _ h => findEvaluation_effect h
  | getEvaluation tenantID id => exact transact_effect fun _ _ h => getEvaluation_effect h
  | markEvaluationQueued tenantID jobID =>
      exact transact_effect fun _ _ h => markEvaluationQueued_effect h
  | markEvaluationRunning tenantID jobID =>
      exact transact_effect fun _ _ h => markEvaluationRunning_effect h
  | loadInput tenantID jobID => exact transact_effect fun _ _ h => loadInput_effect h
  | completeEvaluation tenantID jobID executionID results =>
      exact transact_effect fun _ _ h => completeEvaluation_effect h
  | failEvaluation tenantID jobID category permanent =>
      exact transact_effect fun _ _ h => failEvaluation_effect h

end Operations

/-! ## One job -/

/-- What a call does to the job `id`. -/
inductive JobEffect (info : Info) (id : String) : Call → Option JobView → Option JobView → Prop
  | stay {call : Call} (v : Option JobView) : JobEffect info id call v v
  | insert {params : CreateEvaluationParams} (hid : id = info.ids 0) :
      JobEffect info id (.insertEvaluation params) none (some ⟨params.tenantID, .pending, none⟩)
  | queue {tenantID : String} {v : JobView} (htenant : v.tenantID = tenantID)
      (hstatus : v.status = .pending ∨ v.status = .failed) :
      JobEffect info id (.markEvaluationQueued tenantID id) (some v)
        (some { v with status := .queued })
  | run {tenantID : String} {v : JobView} (htenant : v.tenantID = tenantID)
      (hstatus : startable v.status = true) :
      JobEffect info id (.markEvaluationRunning tenantID id) (some v)
        (some { v with status := .running })
  | complete {tenantID executionID : String} {results : List Result} {v : JobView}
      (score : Nat) :
      JobEffect info id (.completeEvaluation tenantID id executionID results) (some v) (some {
        tenantID := v.tenantID
        status := if v.tenantID = tenantID then .completed else v.status
        result := some (v.result.getD ((summarize results).status, score)) })
  | fail {tenantID category : String} {permanent : Bool} {v : JobView}
      (htenant : v.tenantID = tenantID) :
      JobEffect info id (.failEvaluation tenantID id category permanent) (some v)
        (some { v with status := if permanent then .deadLettered else .failed })

theorem Effect.job {db db' : Db} {info : Info} {call : Call} {r : Except GoError call.Result}
    (h : Effect db info call r db') (id : String) :
    JobEffect info id call (db.view id) (db'.view id) := by
  -- the call sets the view of one job
  have hset : ∀ {jobID old new}, db.view jobID = old →
      db'.view = Function.update db.view jobID new → JobEffect info jobID call old new →
      JobEffect info id call (db.view id) (db'.view id) := by
    rintro jobID _ new rfl hview heffect
    rw [hview]
    by_cases hid : id = jobID
    · subst hid
      rw [Function.update_self]
      exact heffect
    · rw [Function.update_of_ne hid]
      exact .stay _
  cases h with
  | error | conflict | found | read | loaded => exact .stay _
  | unqueued hview | unstarted hview =>
      rw [hview]
      exact .stay _
  | inserted hnone hview => exact hset hnone hview (.insert rfl)
  | queued hv htenant hstatus hview => exact hset hv hview (.queue htenant hstatus)
  | running hv htenant hstatus hview => exact hset hv hview (.run htenant hstatus)
  | completed hv hscore hview => exact hset hv hview (.complete _)
  | failed hv htenant hview => exact hset hv hview (.fail htenant)

/-- Only `CompleteEvaluation` stores a result or announces one. -/
theorem Effect.results_kept {db db' : Db} {info : Info} {call : Call}
    {r : Except GoError call.Result} (h : Effect db info call r db')
    (hcall : ∀ tenantID jobID executionID results,
      call ≠ .completeEvaluation tenantID jobID executionID results) (id : String) :
    db'.completions = db.completions
      ∧ (db'.view id).bind JobView.result = (db.view id).bind JobView.result := by
  constructor
  · cases h with
    | error | conflict | found | read | loaded => rfl
    | inserted _ _ hfacts | queued _ _ _ _ hfacts | unqueued _ hfacts | running _ _ _ _ hfacts
    | unstarted _ hfacts | failed _ _ _ hfacts => exact hfacts
    | completed => exact absurd rfl (hcall _ _ _ _)
  · have hjob := h.job id
    generalize db.view id = view at hjob
    generalize db'.view id = view' at hjob
    cases hjob with
    | complete => exact absurd rfl (hcall _ _ _ _)
    | _ => rfl

/-- Only an insert makes a job. -/
theorem Effect.old_job {db db' : Db} {info : Info} {call : Call} {r : Except GoError call.Result}
    (h : Effect db info call r db') (hcall : ∀ params, call ≠ .insertEvaluation params)
    {id : String} {v' : JobView} (hv' : db'.view id = some v') : ∃ v, db.view id = some v := by
  have hjob := h.job id
  generalize db.view id = view at hjob
  rw [hv'] at hjob
  cases hjob with
  | insert => exact absurd rfl (hcall _)
  | _ => exact ⟨_, rfl⟩

/-! ## The rest of the platform -/

/-- A call of the gateway's store next to the evaluation tables. -/
def gatewayCall (call : Persistence.Call) (info : Info) (db : Db) : Db :=
  { db with platform := (Postgres.store call info db.platform).2 }

theorem view_gatewayCall (call : Persistence.Call) (info : Info) (db : Db) :
    (gatewayCall call info db).view = db.view := rfl

/-- The gateway records no EvaluationComplete facts. -/
theorem completions_gatewayCall (call : Persistence.Call) (info : Info) (db : Db) :
    (gatewayCall call info db).completions = db.completions := by
  funext id
  refine congrArg (List.map OutboxFact.payload) ?_
  rcases Postgres.store_slice call info db.platform id with hsame | ⟨-, hwrite⟩
  · exact congrArg (fun S => S.facts.filter fun f => f.eventType == .evaluationComplete) hsame
  · have hfilter : ∀ {S S' : Slice}, Postgres.Write info call S S' →
        (S'.facts.filter fun f => f.eventType == .evaluationComplete)
          = S.facts.filter fun f => f.eventType == .evaluationComplete := by
      intro S S' hwrite
      cases hwrite <;> simp [outboxRow]
    exact hfilter hwrite

end Aegis.Persistence.Evaluations
