/-
  Aegis.Evaluations.ManualRetry

  What a `Retry` that succeeds does to its job.

  Three status sets have to fit together: those that `Retry` accepts, those that
  `MarkEvaluationQueued` updates and those that `MarkEvaluationRunning` starts.
  A job that is not in the second set keeps its status, without an error, and
  `Retry` still returns it as QUEUED.

  The call is followed through a run in which the other steps leave the row of
  the job alone.
-/

import Aegis.Evaluations.Commands

namespace Aegis.Evaluations

open Aegis.EvaluationJob (Entry Invocation Response)
open Aegis.Persistence.Evaluations
open Aegis.RabbitMQ (Broker Env Handler Job Stage perform)

/-! ## Rows -/

section Rows

variable {db db' : Db} {tenantID id : String} {row : JobRow}

/-- `GetEvaluation` reads the row of the job if it is the tenant's. -/
theorem getEvaluation_eq_ok_iff (hrow : db.job? id = some row) {job : EvaluationJob} :
    getEvaluation tenantID id db = .ok (job, db') ↔
      row.tenantID = tenantID ∧ job = row.toJob (db.result? id) ∧ db' = db := by
  obtain ⟨hmem, rfl⟩ := Db.job?_eq_some_iff.mp hrow
  unfold getEvaluation
  split
  · next hnone =>
      refine iff_of_false (fun h => nomatch h) ?_
      rintro ⟨htenant, -, -⟩
      have hmiss := List.find?_eq_none.mp hnone row hmem
      simp [htenant] at hmiss
  · next found hfound =>
      have hboth := List.find?_some hfound
      simp only [Bool.and_eq_true, beq_iff_eq] at hboth
      have hsame : found = row := by
        have hjob := Db.job?_eq_some_iff.mpr ⟨List.mem_of_find?_eq_some hfound, hboth.2⟩
        exact Option.some.inj (hjob.symm.trans hrow)
      subst hsame
      constructor
      · intro h
        cases h
        exact ⟨hboth.1, rfl, rfl⟩
      · rintro ⟨-, rfl, rfl⟩
        rfl

/-- A guarded update on the row of the tenant's job. -/
theorem updateJob_row (hrow : db.job? id = some row) (htenant : row.tenantID = tenantID)
    {status : Status → Bool} {set : JobRow → JobRow} {hset : ∀ j, (set j).key = j.key} :
    (db.updateJob tenantID id status set hset).job? id
      = some (if status row.status then set row else row) := by
  have hid := (Db.job?_eq_some_iff.mp hrow).2
  have hguard : Db.jobGuard tenantID id status row = status row.status := by
    simp [Db.jobGuard, hid, htenant]
  rw [Db.job?_updateJob, hrow, Option.map_some, hguard]

/-- The statuses that `MarkEvaluationQueued` names. -/
def requeueable (status : Status) : Bool := [Status.pending, .failed].contains status

theorem markEvaluationQueued_row (hrow : db.job? id = some row) (htenant : row.tenantID = tenantID)
    {u : Unit} (h : markEvaluationQueued tenantID id db = .ok (u, db')) :
    db'.job? id = some (if requeueable row.status then row.queued else row) := by
  cases h
  exact updateJob_row hrow htenant

/-- `MarkEvaluationRunning` fails only where the number of attempts is not an
    `INTEGER` any more. -/
theorem markEvaluationRunning_row (hrow : db.job? id = some row)
    (htenant : row.tenantID = tenantID) (info : Persistence.Info) :
    (startable row.status = true ∧ 2 ^ 31 ≤ row.attemptCount + 1
        ∧ ∃ err, markEvaluationRunning tenantID id info db = .error err)
      ∨ (¬(startable row.status = true ∧ 2 ^ 31 ≤ row.attemptCount + 1)
        ∧ ∃ db', markEvaluationRunning tenantID id info db = .ok ((), db')
          ∧ db'.job? id = some (if startable row.status then row.running info.dbNow else row)) := by
  obtain ⟨hmem, hid⟩ := Db.job?_eq_some_iff.mp hrow
  have hany : (db.jobs.rows.any fun j => Db.jobGuard tenantID id startable j
        && decide (2 ^ 31 ≤ j.attemptCount + 1)) = true
      ↔ startable row.status = true ∧ 2 ^ 31 ≤ row.attemptCount + 1 := by
    simp only [List.any_eq_true, Bool.and_eq_true, decide_eq_true_eq, Db.jobGuard, beq_iff_eq]
    constructor
    · rintro ⟨j, hj, ⟨⟨-, hjid⟩, hstatus⟩, hmany⟩
      have hsame := hrow.symm.trans (Db.job?_eq_some_iff.mpr ⟨hj, hjid⟩)
      cases hsame
      exact ⟨hstatus, hmany⟩
    · rintro ⟨hstatus, hmany⟩
      exact ⟨row, hmem, ⟨⟨htenant, hid⟩, hstatus⟩, hmany⟩
  unfold markEvaluationRunning
  by_cases hfull : startable row.status = true ∧ 2 ^ 31 ≤ row.attemptCount + 1
  · refine Or.inl ⟨hfull.1, hfull.2, Persistence.violation "integer out of range", ?_⟩
    rw [hany.mpr hfull]
    rfl
  · have hnone := Bool.eq_false_iff.mpr fun htrue => hfull (hany.mp htrue)
    refine Or.inr ⟨hfull, db.updateJob tenantID id startable (.running info.dbNow)
      (fun _ => rfl), ?_, updateJob_row hrow htenant⟩
    rw [hnone]
    rfl

end Rows

/-- An answer that arrived is the store's. -/
theorem perform_eq_ok {call : Call} {env : Env} {db db' : Db} {r : call.Result}
    (h : perform call env db = (.ok r, db')) : store call env.info db = (.ok r, db') := by
  unfold perform at h
  split at h
  · exact h
  · cases (Prod.mk.inj h).1
  · cases (Prod.mk.inj h).1

theorem transact_eq_ok {α : Type} {tx : Tx α} {db db' : Db} {r : α}
    (h : transact tx db = (.ok r, db')) : tx db = .ok (r, db') := by
  unfold transact at h
  split at h
  · next htx =>
      cases h
      exact htx
  · cases (Prod.mk.inj h).1

/-! ## The call -/

section Call

variable {services : Services} {tenantID id correlationID : String} {row : JobRow} {cid : Nat}

/-- The statuses that `Retry` accepts. -/
def retryable (status : Status) : Bool :=
  [Status.failed, .deadLettered, .pending].contains status

/-- How far the call is and what it has done to the row. -/
def Retried (tenantID id : String) (row : JobRow) (db : Db) : EvaluationJob.Stage → Prop
  | .opened => db.job? id = some row
  | .publishing job | .queueing job =>
      db.job? id = some row ∧ row.tenantID = tenantID ∧ retryable row.status = true ∧ job.id = id
  | .returned response =>
      ∀ job, response.job = some job →
        db.job? id = some (if requeueable row.status then row.queued else row)
          ∧ row.tenantID = tenantID ∧ retryable row.status = true ∧ job.id = id
          ∧ job.status = .queued
  | .finding _ | .reading .. => False

/-- Its steps. -/
theorem Retried.advance {db : Db} {broker : Broker} {env : Env} {hash : EvaluationJob.Hash}
    {stage : EvaluationJob.Stage} (h : Retried tenantID id row db stage) :
    Retried tenantID id row
      ((Entry.retry tenantID id correlationID).step hash env db broker stage).2.1
      ((Entry.retry tenantID id correlationID).step hash env db broker stage).1 := by
  cases stage with
  | opened =>
      simp only [Entry.step]
      split
      · rintro job ⟨⟩
      · next job db' hget =>
          have hread := transact_eq_ok (perform_eq_ok hget)
          obtain ⟨htenant, rfl, rfl⟩ := (getEvaluation_eq_ok_iff h).mp hread
          split
          · next haccepted => exact ⟨h, htenant, haccepted, (Db.job?_eq_some_iff.mp h).2⟩
          · rintro job ⟨⟩
  | publishing job =>
      simp only [Entry.step]
      split
      · rintro job ⟨⟩
      · exact h
  | queueing job =>
      obtain ⟨hrow, htenant, haccepted, rfl⟩ := h
      simp only [Entry.step]
      split
      · rintro job ⟨⟩
      · next u db' hqueue =>
          intro returned hreturned
          cases hreturned
          have hdone : markEvaluationQueued tenantID job.id db = .ok (u, db') :=
            transact_eq_ok (perform_eq_ok hqueue)
          exact ⟨markEvaluationQueued_row hrow htenant hdone, htenant, haccepted, rfl, rfl⟩
  | returned response => exact h
  | finding canonical => exact h.elim
  | reading canonical jobID created => exact h.elim

/-- A step of the call `cid`, or one that does not change the row of the job. -/
def Apart (services : Services) (cid : Nat) (id : String) (x : System) (action : Action) : Prop :=
  (∃ env, action = .advance cid env) ∨ (x.step services action).db.job? id = x.db.job? id

/-- Only the call `cid` changes the row of the job. -/
def Undisturbed (services : Services) (cid : Nat) (id : String) (x : System)
    (actions : List Action) : Prop :=
  ∀ t ∈ Lib.trace (System.step services) x actions, Apart services cid id t.1 t.2.1

/-- A step of another call or of a worker leaves the call where it is. -/
theorem calls_of_ne {x : System} {action : Action} {c : Invocation}
    (hc : x.calls cid = some c) (hother : ∀ env, action ≠ .advance cid env) :
    (x.step services action).calls cid = some c := by
  have hstep := step_cases services x action
  generalize x.step services action = x' at hstep
  cases hstep with
  | @call cid' entry hfree =>
      have hne : cid ≠ cid' := by
        rintro rfl
        cases hfree.symm.trans hc
      exact (Function.update_of_ne hne ..).trans hc
  | @advance cid' env c' stage db broker hc' hbranch =>
      have hne : cid ≠ cid' := by
        rintro rfl
        exact hother env rfl
      exact (Function.update_of_ne hne ..).trans hc
  | _ => exact hc

/-- The call along a run. -/
theorem retried_run {x : System} {actions : List Action} {stage : EvaluationJob.Stage}
    (hcall : x.calls cid = some ⟨.retry tenantID id correlationID, stage⟩)
    (hretried : Retried tenantID id row x.db stage)
    (halone : Undisturbed services cid id x actions) :
    ∃ stage', (Lib.run (System.step services) x actions).calls cid
        = some ⟨.retry tenantID id correlationID, stage'⟩
      ∧ Retried tenantID id row (Lib.run (System.step services) x actions).db stage' := by
  refine Lib.run_invariant
    (I := fun y : System => ∃ stage', y.calls cid
        = some ⟨.retry tenantID id correlationID, stage'⟩
      ∧ Retried tenantID id row y.db stage')
    (C := Apart services cid id) ?_ actions ⟨stage, hcall, hretried⟩ halone
  rintro y action ⟨stage', hcall', hretried'⟩ hown
  by_cases hadvance : ∃ env, action = .advance cid env
  · obtain ⟨env, rfl⟩ := hadvance
    have hstep : y.step services (.advance cid env) = { y with
        db := ((Entry.retry tenantID id correlationID).step services.hash env y.db y.broker
          stage').2.1
        broker := ((Entry.retry tenantID id correlationID).step services.hash env y.db y.broker
          stage').2.2
        calls := Function.update y.calls cid (some ⟨.retry tenantID id correlationID,
          ((Entry.retry tenantID id correlationID).step services.hash env y.db y.broker
            stage').1⟩) } := by
      simp only [System.step, hcall']
    rw [hstep]
    exact ⟨_, Function.update_self .., hretried'.advance⟩
  · have hsame := hown.resolve_left hadvance
    refine ⟨stage', calls_of_ne hcall' fun env heq => hadvance ⟨env, heq⟩, ?_⟩
    -- what the call has done is read off the row
    cases stage' with
    | finding | reading => exact hretried'
    | opened => exact hsame.trans hretried'
    | publishing | queueing => exact ⟨hsame.trans hretried'.1, hretried'.2⟩
    | returned =>
        intro job hjob
        obtain ⟨hrow, hrest⟩ := hretried' job hjob
        exact ⟨hsame.trans hrow, hrest⟩

/-- A call that has returned makes no more steps. -/
theorem returned_run {x : System} {entry : Entry} {response : Response}
    (hcall : x.calls cid = some ⟨entry, .returned response⟩) (actions : List Action) :
    (Lib.run (System.step services) x actions).calls cid = some ⟨entry, .returned response⟩ := by
  refine Lib.run_invariant'
    (I := fun y : System => y.calls cid = some ⟨entry, .returned response⟩) ?_ actions hcall
  intro y action hy
  by_cases hadvance : ∃ env, action = .advance cid env
  · obtain ⟨env, rfl⟩ := hadvance
    simp only [System.step, hy, Entry.step, Function.update_self]
  · exact calls_of_ne hy fun env heq => hadvance ⟨env, heq⟩

end Call

/-! ## The worker -/

/-- The first step of a well-formed command. -/
theorem work_received (services : Services) {x : System} {tag : Nat} {job : Job} {env : Env}
    {row : JobRow} (hhandler : x.handlers tag = some { job })
    (hjob : job.jobID ≠ "" ∧ job.tenantID ≠ "" ∧ job.executionID ≠ "") (hfault : env.fault = none)
    (hrow : x.db.job? job.jobID = some row) (htenant : row.tenantID = job.tenantID) :
    ((x.step services (.work tag env)).handlers tag = some { job, stage := .loading }
        ∧ ∃ row', (x.step services (.work tag env)).db.job? job.jobID = some row'
          ∧ row'.status = .running ∧ row'.attemptCount = row.attemptCount + 1)
      ↔ startable row.status = true ∧ row.attemptCount + 1 < 2 ^ 31 := by
  have hwell : ¬(job.jobID = "" ∨ job.tenantID = "" ∨ job.executionID = "") := by
    rintro (h | h | h)
    · exact hjob.1 h
    · exact hjob.2.1 h
    · exact hjob.2.2 h
  have hperform : perform (.markEvaluationRunning job.tenantID job.jobID) env x.db
      = transact (markEvaluationRunning job.tenantID job.jobID env.info) x.db := by
    unfold perform
    rw [hfault]
    rfl
  simp only [System.step, hhandler, RabbitMQ.Worker.process, if_neg hwell, hperform]
  rcases markEvaluationRunning_row hrow htenant env.info with
    ⟨hstart, hfull, err, hmark⟩ | ⟨hroom, db', hmark, hrow'⟩
  · have hdone : transact (markEvaluationRunning job.tenantID job.jobID env.info) x.db
        = (.error err, x.db) := by rw [transact, hmark]
    rw [hdone]
    refine iff_of_false ?_ fun h => absurd h.2 (Nat.not_lt.mpr hfull)
    rintro ⟨-, row', hsame, -, hcount⟩
    obtain rfl := Option.some.inj (hrow.symm.trans hsame)
    omega
  · have hdone : transact (markEvaluationRunning job.tenantID job.jobID env.info) x.db
        = (.ok (), db') := by rw [transact, hmark]
    rw [hdone]
    by_cases hstart : startable row.status = true
    · rw [if_pos hstart] at hrow'
      refine iff_of_true ⟨Function.update_self .., _, hrow', rfl, rfl⟩ ⟨hstart, ?_⟩
      exact Nat.not_le.mp fun hfull => hroom ⟨hstart, hfull⟩
    · rw [if_neg hstart] at hrow'
      refine iff_of_false ?_ fun h => hstart h.1
      rintro ⟨-, row', hsame, -, hcount⟩
      obtain rfl := Option.some.inj (hrow'.symm.trans hsame)
      omega

/-! ## Retry -/

/-- A `Retry` that returns a job without an error, up to the delivery of the
    command it has published.  Until then no other step touches the job. -/
structure ManualRetry (services : Services) where
  start : System
  tenantID : String
  id : String
  correlationID : String
  /-- the row of the job when `Retry` is called -/
  row : JobRow
  start_row : start.db.job? id = some row
  named : id ≠ "" ∧ tenantID ≠ ""
  cid : Nat
  start_free : start.calls cid = none
  /-- the steps until `Retry` returns -/
  during : List Action
  during_alone : Undisturbed services cid id
    (start.step services (.call cid (.retry tenantID id correlationID))) during
  job : EvaluationJob
  returned : (Lib.run (System.step services) start
      (.call cid (.retry tenantID id correlationID) :: during)).calls cid
    = some ⟨.retry tenantID id correlationID, .returned ⟨some job, false, none⟩⟩
  /-- the steps until the delivery -/
  after : List Action
  after_alone : Undisturbed services cid id (Lib.run (System.step services) start
    (.call cid (.retry tenantID id correlationID) :: during)) after
  /-- the step that published the command -/
  publishing : Env
  tag : Nat
  delivered : (Lib.run (System.step services) start
      (.call cid (.retry tenantID id correlationID) :: during ++ after)).handlers tag
    = some { job := (Entry.retry tenantID id correlationID).command job publishing }

namespace ManualRetry

variable {services : Services} (r : ManualRetry services)

/-- When `Retry` has returned. -/
def done : System :=
  Lib.run (System.step services) r.start
    (.call r.cid (.retry r.tenantID r.id r.correlationID) :: r.during)

/-- When a worker has the command. -/
def delivery : System := Lib.run (System.step services) r.done r.after

/-- `GetEvaluation` reports QUEUED. -/
def Reported : Prop :=
  ∃ current, getEvaluation r.tenantID r.id r.done.db = .ok (current, r.done.db)
    ∧ current.status = .queued

/-- The first step of the worker stores RUNNING and one more attempt, and the
    worker goes on to load the input. -/
def Started (env : Env) : Prop :=
  (r.delivery.step services (.work r.tag env)).handlers r.tag = some {
      job := (Entry.retry r.tenantID r.id r.correlationID).command r.job r.publishing
      stage := .loading }
    ∧ ∃ row', (r.delivery.step services (.work r.tag env)).db.job? r.id = some row'
      ∧ row'.status = .running ∧ row'.attemptCount = r.row.attemptCount + 1

/-- The row that `Retry` leaves. -/
def row' : JobRow := if requeueable r.row.status then r.row.queued else r.row

theorem done_row : r.done.db.job? r.id = some r.row' ∧ r.row.tenantID = r.tenantID
    ∧ retryable r.row.status = true ∧ r.job.id = r.id ∧ r.job.status = .queued := by
  have hopened : (r.start.step services
      (.call r.cid (.retry r.tenantID r.id r.correlationID))).calls r.cid
      = some ⟨.retry r.tenantID r.id r.correlationID, .opened⟩ := by
    simp only [System.step, r.start_free, Function.update_self]
  have hrow : Retried r.tenantID r.id r.row (r.start.step services
      (.call r.cid (.retry r.tenantID r.id r.correlationID))).db .opened := by
    simp only [System.step, r.start_free]
    exact r.start_row
  obtain ⟨stage, hstage, hretried⟩ := retried_run hopened hrow r.during_alone
  obtain rfl : stage = .returned ⟨some r.job, false, none⟩ :=
    congrArg Invocation.stage (Option.some.inj (hstage.symm.trans r.returned))
  exact hretried r.job rfl

theorem delivery_row : r.delivery.db.job? r.id = some r.row' := by
  have hdone : Retried r.tenantID r.id r.row r.done.db
      (.returned ⟨some r.job, false, none⟩) := by
    intro job hjob
    cases hjob
    exact r.done_row
  obtain ⟨stage, hstage, hretried⟩ := retried_run r.returned hdone r.after_alone
  obtain rfl : stage = .returned ⟨some r.job, false, none⟩ :=
    congrArg Invocation.stage
      (Option.some.inj (hstage.symm.trans (returned_run r.returned r.after)))
  exact (hretried r.job rfl).1

theorem row'_tenantID : r.row'.tenantID = r.row.tenantID := by
  unfold row'
  split <;> rfl

theorem row'_attemptCount : r.row'.attemptCount = r.row.attemptCount := by
  unfold row'
  split <;> rfl

theorem reported_iff : r.Reported ↔ r.row'.status = .queued := by
  obtain ⟨hrow, htenant, -⟩ := r.done_row
  have htenant' : r.row'.tenantID = r.tenantID := r.row'_tenantID.trans htenant
  constructor
  · rintro ⟨current, hget, hstatus⟩
    obtain ⟨-, rfl, -⟩ := (getEvaluation_eq_ok_iff hrow).mp hget
    exact hstatus
  · intro hstatus
    exact ⟨_, (getEvaluation_eq_ok_iff hrow).mpr ⟨htenant', rfl, rfl⟩, hstatus⟩

theorem started_iff {env : Env} (hfault : env.fault = none) :
    r.Started env ↔ startable r.row'.status = true ∧ r.row.attemptCount + 1 < 2 ^ 31 := by
  obtain ⟨-, htenant, -, hid, -⟩ := r.done_row
  have hhandler : r.delivery.handlers r.tag = some {
      job := (Entry.retry r.tenantID r.id r.correlationID).command r.job r.publishing } := by
    rw [delivery, done, ← Lib.run_append]
    exact r.delivered
  have hnamed : r.job.id ≠ "" ∧ r.tenantID ≠ ""
      ∧ EvaluationJob.executionID r.publishing.random ≠ "" := by
    rw [hid]
    exact ⟨r.named.1, r.named.2, EvaluationJob.executionID_ne_empty _⟩
  have hrow := r.delivery_row
  rw [← hid] at hrow
  have hwork := work_received services hhandler hnamed hfault hrow
    (r.row'_tenantID.trans htenant)
  rw [r.row'_attemptCount] at hwork
  unfold Started
  rw [← hid]
  exact hwork

/-- **When a manual retry takes effect.**  After a `Retry` that returns QUEUED,
    `GetEvaluation` reports QUEUED and the next execution of the command stores
    RUNNING and one attempt more before it evaluates, exactly when the job was
    PENDING or FAILED and its attempts can still be counted. -/
theorem takes_effect_iff (env : Env) (hfault : env.fault = none) :
    r.job.status = .queued
      ∧ (r.Reported ∧ r.Started env ↔
        (r.row.status = .pending ∨ r.row.status = .failed)
          ∧ r.row.attemptCount + 1 < 2 ^ 31) := by
  obtain ⟨-, -, haccepted, -, hqueued⟩ := r.done_row
  refine ⟨hqueued, ?_⟩
  rw [r.reported_iff, r.started_iff hfault]
  unfold row'
  revert haccepted
  cases hstatus : r.row.status with
  | pending | failed => simp [requeueable, JobRow.queued, startable]
  | deadLettered => simp [requeueable, hstatus]
  | queued | running | completed => simp [retryable]

/-- A `Retry` of the job `j`, which is PENDING because `Submit` could not publish
    its command. -/
def ofUnpublished : ManualRetry sampleServices where
  start := Lib.run (System.step sampleServices) (.init samplePlatform)
    [.call 0 sampleSubmit, .advance 0 (sampleEnv "j" ""), .advance 0 (sampleEnv "" ""),
      .advance 0 { sampleEnv "" "" with publication := .refused (.new "not confirmed") }]
  tenantID := "t"
  id := "j"
  correlationID := "c"
  row := {
    id := "j", tenantID := "t", requestID := "r", idempotencyKey := "e"
    canonicalRequestHash := [1], jobType := "suite", correlationID := "c", parameters := .null
    requestedAt := 0 }
  start_row := rfl
  named := ⟨by decide, by decide⟩
  cid := 1
  start_free := rfl
  during := List.replicate 3 (.advance 1 (sampleEnv "" ""))
  during_alone := by
    intro t ht
    obtain ⟨before, rest, hactions, -⟩ := Lib.mem_trace ht
    have hmem : t.2.1 ∈ List.replicate 3 (Action.advance 1 (sampleEnv "" "")) := by
      rw [hactions]
      exact List.mem_append_right _ (List.mem_cons_self ..)
    exact Or.inl ⟨_, List.eq_of_mem_replicate hmem⟩
  job := {
    id := "j", tenantID := "t", requestID := "r", idempotencyKey := "e"
    canonicalHash := [1], jobType := "suite", status := .queued, attemptCount := 0
    correlationID := "c", parameters := .null, requestedAt := 0, startedAt := none
    completedAt := none, lastErrorCategory := "", result := none }
  returned := rfl
  after := [.deliver 0]
  after_alone := by
    intro t ht
    obtain rfl := List.mem_singleton.mp ht
    exact Or.inr rfl
  publishing := sampleEnv "" ""
  tag := 0
  delivered := rfl

theorem takes_effect_iff_unpublished :
    ofUnpublished.Reported ∧ ofUnpublished.Started (sampleEnv "" "") :=
  (takes_effect_iff ofUnpublished (sampleEnv "" "") rfl).2.mpr ⟨Or.inl rfl, by decide⟩

end ManualRetry

/-- A worker with one attempt dead-letters the job `j`.  `Retry` returns it as
    QUEUED; it is still DEAD_LETTERED, before and after a worker has begun with
    the new command. -/
theorem deadLettered_retry_ignored :
    let services := { sampleServices with worker := RabbitMQ.newWorker [] 1 }
    let x := Lib.run (System.step services) (.init samplePlatform) (submitAndQueue
      ++ [.deliver 0, .work 0 (sampleEnv "" ""), .work 0 refusedEnv, .work 0 (sampleEnv "" ""),
        .work 0 (sampleEnv "" "")]
      ++ .call 1 (.retry "t" "j" "c") :: List.replicate 3 (.advance 1 (sampleEnv "" "")))
    let y := Lib.run (System.step services) x [.deliver 0, .work 1 (sampleEnv "" "")]
    (∃ c ∈ x.calls 1, ∃ job, c.stage = .returned ⟨some job, false, none⟩ ∧ job.status = .queued)
      ∧ (∃ row ∈ x.db.job? "j", row.status = .deadLettered ∧ row.attemptCount = 1)
      ∧ (∃ h ∈ y.handlers 1, h.stage = .loading)
      ∧ ∃ row ∈ y.db.job? "j", row.status = .deadLettered ∧ row.attemptCount = 1 :=
  ⟨⟨_, rfl, _, rfl, rfl⟩, ⟨_, rfl, rfl, rfl⟩, ⟨_, rfl, rfl⟩, _, rfl, rfl, rfl⟩

end Aegis.Evaluations
