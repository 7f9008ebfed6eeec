/-
  Aegis.Gateway.AuditFacts

  Which failed and rejected requests leave their audit fact (PostgreSQL).

  A request reaches FAILED through `FailAttempt` and BUDGET_REJECTED through
  `RejectBudget`; both insert the fact and set the completion columns in the
  same transaction, so that every write but one keeps `Audited`.  The exception
  is the bare status update with which `execute` abandons a VALIDATED request
  when the tenant's policy, the admission or the prices fail it.  It leaves a
  FAILED request without a fact, a category or a completion time
  (`abandoned_unaudited`); as long as it never takes effect the audit is
  complete (`auditFacts_complete`).
-/

import Aegis.Gateway.System
import Aegis.Persistence.Slice

namespace Aegis.Gateway

open Aegis.Persistence (Call Catalog Db Info RequestRow Slice outboxRow)
open Aegis.Persistence.Postgres (Write newRequest)
open Aegis.Request (ChatInput Record State)
open Aegis.Routing (Router)

/-! ## One request -/

/-- The facts and columns that go with a terminal state. -/
structure Audited (S : Slice) : Prop where
  failed : S.count .requestFailed = if S.inState .failed then 1 else 0
  rejected : S.count .budgetExceeded = if S.inState .budgetRejected then 1 else 0
  completed : ∀ row ∈ S.row, row.status.terminal = true → row.completedAt.isSome = true
  category : ∀ row ∈ S.row, row.status = .failed ∨ row.status = .budgetRejected →
    row.failureCategory.isSome = true

/-- A request that is not yet terminal has neither fact. -/
theorem Audited.clear {S : Slice} {row : RequestRow} (h : Audited S) (hrow : S.row = some row)
    (hopen : row.status.terminal = false) :
    S.count .requestFailed = 0 ∧ S.count .budgetExceeded = 0 := by
  constructor
  · rw [h.failed, Slice.not_inState_of_open hrow hopen rfl]
    rfl
  · rw [h.rejected, Slice.not_inState_of_open hrow hopen rfl]
    rfl

/-- The audit of a request that has just got a row. -/
theorem audited_of_row {S : Slice} {row : RequestRow} (hrow : S.row = some row)
    (hfailed : S.count .requestFailed = if row.status = .failed then 1 else 0)
    (hrejected : S.count .budgetExceeded = if row.status = .budgetRejected then 1 else 0)
    (hcompleted : row.status.terminal = true → row.completedAt.isSome = true)
    (hcategory : row.status = .failed ∨ row.status = .budgetRejected →
      row.failureCategory.isSome = true) : Audited S := by
  refine ⟨?_, ?_, ?_, ?_⟩
  · simpa [Slice.inState, hrow] using hfailed
  · simpa [Slice.inState, hrow] using hrejected
  · intro r hr
    obtain rfl := Option.some.inj (hrow.symm.trans hr)
    exact hcompleted
  · intro r hr
    obtain rfl := Option.some.inj (hrow.symm.trans hr)
    exact hcategory

/-- A write that leaves the row and the facts of failures alone. -/
theorem Audited.same {S S' : Slice} (h : Audited S) (hrow : S'.row = S.row)
    (hfailed : S'.count .requestFailed = S.count .requestFailed)
    (hrejected : S'.count .budgetExceeded = S.count .budgetExceeded) : Audited S' := by
  refine ⟨?_, ?_, ?_, ?_⟩
  · rw [hfailed, h.failed, Slice.inState, Slice.inState, hrow]
  · rw [hrejected, h.rejected, Slice.inState, Slice.inState, hrow]
  · rw [hrow]
    exact h.completed
  · rw [hrow]
    exact h.category

/-- A bare status update to a terminal state. -/
def BareUpdate (call : Call) (S : Slice) : Prop :=
  ∃ tenantID id source target, call = .transitionRequest tenantID id source target
    ∧ target.terminal = true ∧ S.inState source = true

/-- **Every write but a bare terminal update keeps the audit.** -/
theorem Audited.write {info : Info} {call : Call} {S S' : Slice} (hS : Audited S)
    (h : Write info call S S') (hcall : ¬ BareUpdate call S) : Audited S' := by
  cases h with
  | create hrow =>
      have hfailed : S.count .requestFailed = 0 := by simpa [Slice.inState, hrow] using hS.failed
      have hrejected : S.count .budgetExceeded = 0 := by
        simpa [Slice.inState, hrow] using hS.rejected
      refine audited_of_row rfl ?_ ?_ ?_ ?_
      · simpa [Slice.count, outboxRow, newRequest] using hfailed
      · simpa [Slice.count, outboxRow, newRequest] using hrejected
      · intro hterminal
        cases hterminal
      · rintro (hbad | hbad)
        · cases hbad
        · cases hbad
  | @move _ _ source target row _ hrow htenant hstatus hcan =>
      have hopen : row.status.terminal = false := by
        rw [hstatus]
        exact Request.not_terminal_of_canTransition hcan
      obtain ⟨hfailed, hrejected⟩ := hS.clear hrow hopen
      -- the new state is not terminal, or the update was bare
      have htarget : target.terminal = false := by
        rw [Bool.eq_false_iff]
        intro hterminal
        exact hcall ⟨_, _, _, _, rfl, hterminal, by simp [Slice.inState, hrow, hstatus]⟩
      have hnot : target ≠ .failed ∧ target ≠ .budgetRejected := by
        constructor <;> (rintro rfl; cases htarget)
      refine audited_of_row rfl ?_ ?_ ?_ ?_
      · exact hfailed.trans (if_neg hnot.1).symm
      · exact hrejected.trans (if_neg hnot.2).symm
      · intro hterminal
        exact absurd (htarget.symm.trans hterminal) Bool.false_ne_true
      · rintro (hbad | hbad)
        · exact absurd hbad hnot.1
        · exact absurd hbad hnot.2
  | start => exact hS.same rfl (by simp [Slice.count, outboxRow]) (by simp [Slice.count, outboxRow])
  | complete hrow htenant hstatus =>
      obtain ⟨hfailed, hrejected⟩ := hS.clear hrow (by rw [hstatus]; rfl)
      refine audited_of_row rfl ?_ ?_ (fun _ => rfl) ?_
      · simpa [Slice.count, outboxRow, RequestRow.completed] using hfailed
      · simpa [Slice.count, outboxRow, RequestRow.completed] using hrejected
      · rintro (hbad | hbad)
        · cases hbad
        · cases hbad
  | fail hfinal hrow htenant hstatus =>
      obtain ⟨hfailed, hrejected⟩ := hS.clear hrow (by rw [hstatus]; rfl)
      refine audited_of_row rfl ?_ ?_ (fun _ => rfl) (fun _ => rfl)
      · simpa [Slice.count, outboxRow, RequestRow.failed] using hfailed
      · simpa [Slice.count, outboxRow, RequestRow.failed] using hrejected
  | cancel hrow htenant hstatus =>
      obtain ⟨hfailed, hrejected⟩ :=
        hS.clear hrow (Persistence.Postgres.not_terminal_of_cancellable hstatus)
      refine audited_of_row rfl hfailed hrejected (fun _ => rfl) ?_
      rintro (hbad | hbad)
      · cases hbad
      · cases hbad
  | reject hrow htenant hstatus =>
      obtain ⟨hfailed, hrejected⟩ := hS.clear hrow (by rw [hstatus]; rfl)
      refine audited_of_row rfl ?_ ?_ (fun _ => rfl) (fun _ => rfl)
      · simpa [Slice.count, outboxRow, RequestRow.budgetRejected] using hfailed
      · simpa [Slice.count, outboxRow, RequestRow.budgetRejected] using hrejected
  | load | retry | reserve | keep | reconcile => exact hS.same rfl rfl rfl

/-! ## All requests -/

/-- The request that a process is about to abandon. -/
def Process.abandons (p : Process) : Option Record :=
  match p.phase with
  | .running record (.abandoning _) => some record
  | _ => none

/-- No execution whose policy, admission or prices failed finds its request
    still VALIDATED. -/
def Unabandoned (x : System Db) : Action → Prop
  | .advance pid _ => ∀ p ∈ x.procs pid, ∀ record ∈ p.abandons,
      ∀ row ∈ x.store.request? record.id, row.status ≠ .validated
  | _ => True

instance (x : System Db) (action : Action) : Decidable (Unabandoned x action) :=
  match action with
  | .advance pid _ => inferInstanceAs (Decidable (∀ p ∈ x.procs pid, ∀ record ∈ p.abandons,
      ∀ row ∈ x.store.request? record.id, row.status ≠ .validated))
  | .submit _ _ | .cancel _ _ _ _ | .interfere _ _ => isTrue trivial

/-- Then no action makes a bare terminal update that takes effect. -/
theorem Unabandoned.not_bare {x : System Db} {action : Action} {call : Call} {info : Info}
    {id : String} (h : Unabandoned x action) (hcall : action.Calls x call)
    (hsubject : call.subject info = some id) : ¬ BareUpdate call (x.store.slice id) := by
  rintro ⟨tenantID, requestID, source, target, rfl, hterminal, hstate⟩
  obtain rfl : requestID = id := Option.some.inj hsubject
  cases action with
  | advance pid env =>
      obtain ⟨p, hp, hmakes⟩ := hcall
      cases hmakes with
      | abandon hphase =>
          obtain ⟨row, hrow, hstatus⟩ := (Option.any_eq_true _ _).mp hstate
          refine h p hp _ (by rw [Process.abandons, hphase]; rfl) row hrow ?_
          simpa using hstatus
      | validate | route | progress => cases hterminal
  | cancel => cases hcall
  | submit | interfere => exact hcall

theorem audited_step {platform : Platform Db} (hstore : platform.store = Persistence.Postgres.store)
    {x : System Db} (h : ∀ id, Audited (x.store.slice id)) (action : Action)
    (hclean : Unabandoned x action) (id : String) :
    Audited ((x.step platform action).store.slice id) := by
  rcases System.step_store_call platform x action with
    hsame | ⟨call, info, hcall, hcalled, -⟩
  · rw [hsame]
    exact h id
  · rw [hcalled, hstore]
    rcases Persistence.Postgres.store_slice call info x.store id with hsame | ⟨hsubject, hwrite⟩
    · rw [hsame]
      exact h id
    · exact (h id).write hwrite (hclean.not_bare hcall hsubject)

/-- What the audit of a stored request has to show. -/
def FactsComplete (db : Db) (row : RequestRow) : Prop :=
  (row.status = .failed ↔ (db.slice row.id).count .requestFailed = 1)
    ∧ (row.status = .budgetRejected ↔ (db.slice row.id).count .budgetExceeded = 1)
    ∧ (row.status.terminal = true → row.completedAt.isSome = true)
    ∧ (row.status = .failed ∨ row.status = .budgetRejected → row.failureCategory.isSome = true)

theorem Audited.complete {db : Db} {row : RequestRow} (h : Audited (db.slice row.id))
    (hrow : row ∈ db.requests.rows) : FactsComplete db row := by
  have hfound : (db.slice row.id).row = some row := (db.request?_eq_some_iff).mpr ⟨hrow, rfl⟩
  refine ⟨?_, ?_, h.completed row hfound, h.category row hfound⟩
  · rw [h.failed, Slice.inState, hfound]
    by_cases hstatus : row.status = .failed <;> simp [hstatus]
  · rw [h.rejected, Slice.inState, hfound]
    by_cases hstatus : row.status = .budgetRejected <;> simp [hstatus]

theorem audited_init (catalog : Catalog) (id : String) : Audited ((Db.init catalog).slice id) where
  failed := rfl
  rejected := rfl
  completed := fun _ h => (nomatch h)
  category := fun _ h => (nomatch h)

/-- **Audit facts.** In every run in which no VALIDATED request is abandoned,
    every stored request is FAILED exactly if it has one RequestFailed fact,
    BUDGET_REJECTED exactly if it has one BudgetExceeded fact, and has the
    columns of its terminal state. -/
theorem auditFacts_complete (catalog : Catalog) (hashChat : ChatInput → Except GoError (List UInt8))
    (services : Nat → Service) (routers : Nat → Router) (actions : List Action) :
    let platform : Platform Db := { store := Persistence.Postgres.store, hashChat, services }
    let start := System.init (Db.init catalog) routers
    (∀ t ∈ Lib.trace (System.step platform) start actions, Unabandoned t.1 t.2.1) →
    let db := (Lib.run (System.step platform) start actions).store
    ∀ row ∈ db.requests.rows, FactsComplete db row := by
  intro platform start hclean db row hrow
  have haudited := Lib.run_invariant (I := fun x : System Db => ∀ id, Audited (x.store.slice id))
    (C := Unabandoned) (fun x action h hC => audited_step rfl h action hC) actions
    (audited_init catalog) hclean
  exact (haudited row.id).complete hrow

/-! ## Concrete runs -/

/-- The limiter refuses: the request ends FAILED, without a fact, a category or
    a completion time. -/
theorem abandoned_unaudited :
    let platform := { samplePlatform Persistence.Postgres.store with
      services := fun _ => newService true {} }
    let refused := { sampleEnv "" "" 2 with allow := fun _ _ _ => .ok ⟨false, "requests"⟩ }
    let db := (Lib.run (System.step platform) sampleStart
      (submitAndAdvance 3 ++ [.advance 0 refused, .advance 0 (sampleEnv "" "" 3)])).store
    ∃ row ∈ db.requests.rows, row.status = .failed
      ∧ (db.slice row.id).count .requestFailed = 0
      ∧ row.completedAt = none ∧ row.failureCategory = none ∧ ¬ FactsComplete db row := by
  intro platform refused db
  have hrow : ∃ row ∈ db.requests.rows, row.status = .failed
      ∧ (db.slice row.id).count .requestFailed = 0
      ∧ row.completedAt = none ∧ row.failureCategory = none := by
    decide +kernel
  obtain ⟨row, hmem, hstatus, hcount, hcolumns⟩ := hrow
  refine ⟨row, hmem, hstatus, hcount, hcolumns.1, hcolumns.2, ?_⟩
  intro hcomplete
  exact absurd (hcount.symm.trans (hcomplete.1.mp hstatus)) Nat.zero_ne_one

/-- A request over the budget ends BUDGET_REJECTED with its fact. -/
theorem auditFacts_complete_rejected :
    let platform := samplePlatform Persistence.Postgres.store
    let start := System.init (Db.init (Catalog.sample 5 (by decide))) fun _ => sampleRouter
    let db := (Lib.run (System.step platform) start (submitAndAdvance 5
      ++ [.advance 0 (sampleEnv "f" "" 2)])).store
    db.requests.rows.map (·.status) = [.budgetRejected]
      ∧ ∀ row ∈ db.requests.rows, FactsComplete db row := by
  refine ⟨by decide +kernel, ?_⟩
  exact auditFacts_complete _ _ _ _ _ (by decide +kernel)

end Aegis.Gateway
