/-
  Aegis.Gateway.Charging

  A completed request is charged once (PostgreSQL).

  `CompleteRequest` sets the attempt in flight to SUCCEEDED, the request to
  COMPLETED and inserts two facts, in one transaction and with the same
  numbers.  `Charged` says that these four always go together.  Every write
  keeps it, given that `CompleteRequest` is only called for an attempt that is
  in flight (`Aegis.Gateway.Attempts`) and that no bare status update leads to
  COMPLETED.
-/

import Aegis.Gateway.Attempts

namespace Aegis.Gateway

open Aegis.Events (EventType completionPayload)
open Aegis.Persistence (AttemptRow Call CompletionParams Db FailureParams Info OutboxFact RequestRow
  Slice outboxRow)
open Aegis.Persistence.Postgres (Write failAll failureGuard newAttempt newRequest succeedAll)
open Aegis.Request (ChatInput Record State)

/-! ## One request -/

/-- The attempts that succeeded. -/
def succeededOf (S : Slice) : List AttemptRow :=
  S.attempts.filter fun a => a.status == .succeeded

/-- The facts of a type. -/
def factsOfType (S : Slice) (eventType : EventType) : List OutboxFact :=
  S.facts.filter fun f => f.eventType == eventType

/-- The types of the two facts of a completion. -/
def completionTypes : List EventType := [.requestCompleted, .usageRecorded]

/-- A completed request, its attempt and its two facts, with the same numbers. -/
def Settled (id : String) (S : Slice) (row : RequestRow) : Prop :=
  ∃ prompt completion cost : Nat,
    (row.promptTokens = some prompt ∧ row.completionTokens = some completion
      ∧ row.actualCostMicroUSD = some cost)
    ∧ (∃ a, succeededOf S = [a] ∧ a.promptTokens = some prompt
        ∧ a.completionTokens = some completion ∧ a.costMicroUSD = some cost)
    ∧ ∀ eventType ∈ completionTypes, ∃ f, factsOfType S eventType = [f]
        ∧ ∃ model latency, f.payload = completionPayload id model prompt completion cost latency

/-- Completed requests are settled; others have no part of a completion. -/
structure Charged (id : String) (S : Slice) : Prop where
  settled : ∀ row, S.row = some row → row.status = .completed → Settled id S row
  uncharged : S.inState .completed = false →
    succeededOf S = [] ∧ ∀ eventType ∈ completionTypes, factsOfType S eventType = []

section Writes

variable {id : String} {S S' : Slice} {info : Info}

/-- A failed attempt had not succeeded. -/
theorem succeeded_failAll (params : FailureParams) (latency : Nat) (attempts : List AttemptRow) :
    (failAll params latency info attempts).filter (fun a => a.status == .succeeded)
      = attempts.filter fun a => a.status == .succeeded := by
  induction attempts with
  | nil => rfl
  | cons a rest ih =>
      have hhead : ∀ b : AttemptRow, failAll params latency info (b :: rest)
          = (if failureGuard params b then
              b.failed params.category params.retryable latency info.dbNow else b)
            :: failAll params latency info rest := fun _ => rfl
      rw [hhead]
      by_cases hguard : failureGuard params a = true
      · have hstarted : a.status = .started := by
          simp only [failureGuard, Db.attemptGuard, Bool.and_eq_true, beq_iff_eq] at hguard
          exact hguard.2.2
        rw [if_pos hguard, List.filter_cons_of_neg (by simp [AttemptRow.failed]),
          List.filter_cons_of_neg (by simp [hstarted]), ih]
      · rw [if_neg hguard, List.filter_cons, List.filter_cons, ih]

/-- The parts of a completion are as they were, and so is whether the request
    is completed. -/
theorem Charged.kept (h : Charged id S)
    (hrow : S'.row = S.row ∨ S.inState .completed = false ∧ S'.inState .completed = false)
    (hattempts : succeededOf S' = succeededOf S)
    (hfacts : ∀ eventType ∈ completionTypes, factsOfType S' eventType = factsOfType S eventType) :
    Charged id S' := by
  rcases hrow with hrow | ⟨hbefore, hafter⟩
  · constructor
    · intro row hsome hstatus
      obtain ⟨prompt, completion, cost, hnumbers, hattempt, hrecorded⟩ :=
        h.settled row (hrow ▸ hsome) hstatus
      refine ⟨prompt, completion, cost, hnumbers, ?_, ?_⟩
      · rw [hattempts]
        exact hattempt
      · intro eventType htype
        rw [hfacts eventType htype]
        exact hrecorded eventType htype
    · intro hopen
      have hopen' : S.inState .completed = false := by
        rw [Slice.inState, ← hrow]
        exact hopen
      obtain ⟨hnone, hunrecorded⟩ := h.uncharged hopen'
      refine ⟨hattempts.trans hnone, ?_⟩
      intro eventType htype
      exact (hfacts eventType htype).trans (hunrecorded eventType htype)
  · obtain ⟨hnone, hunrecorded⟩ := h.uncharged hbefore
    constructor
    · intro row hsome hstatus
      simp [Slice.inState, hsome, hstatus] at hafter
    · intro _
      refine ⟨hattempts.trans hnone, ?_⟩
      intro eventType htype
      exact (hfacts eventType htype).trans (hunrecorded eventType htype)

/-- A fact of another type is added. -/
theorem factsOfType_append {f : OutboxFact} (hfacts : S'.facts = S.facts ++ [f])
    (hother : f.eventType ∉ completionTypes) :
    ∀ eventType ∈ completionTypes, factsOfType S' eventType = factsOfType S eventType := by
  intro eventType htype
  have hne : f.eventType ≠ eventType := by
    rintro rfl
    exact hother htype
  rw [factsOfType, hfacts, List.filter_append, List.filter_cons_of_neg (by simpa using hne),
    List.filter_nil, List.append_nil]
  rfl

/-- `CompleteRequest` of the attempt in flight settles the request. -/
theorem settled_complete {params : CompletionParams} {n : Nat}
    {prompt completion cost latency : Nat} {row : RequestRow} (h : Charged id S)
    (hopen : S.inState .completed = false) (hid : params.requestID = id)
    (hnumber : params.attemptNumber = n)
    (hflight : InFlight params.tenantID params.requestID n S.attempts)
    (hrow : S'.row = some (row.completed params.response prompt completion cost info.dbNow))
    (hattempts : S'.attempts = succeedAll params prompt completion cost latency info S.attempts)
    {model : String} {elapsed : Int}
    (hfacts : S'.facts = S.facts ++
      [(outboxRow info 0 .requestCompleted params.requestID params.tenantID params.correlationID
          (completionPayload params.requestID model prompt completion cost elapsed)).fact,
       (outboxRow info 1 .usageRecorded params.requestID params.tenantID params.correlationID
          (completionPayload params.requestID model prompt completion cost elapsed)).fact]) :
    Charged id S' := by
  obtain ⟨-, tried, last, hlist, htried, hlast⟩ := hflight
  obtain ⟨-, hunrecorded⟩ := h.uncharged hopen
  rw [← hnumber] at hlast
  -- of the attempts only the one in flight has succeeded
  have hsucceeded : succeededOf S' = [last.succeeded params.providerRequestID prompt completion
      cost latency info.dbNow] := by
    have hnone : tried.filter (fun a => a.status == .succeeded) = [] := by
      rw [List.filter_eq_nil_iff]
      intro a ha
      simp [(htried a ha).1]
    rw [succeededOf, hattempts, hlist, succeedAll_of_tried htried hlast, List.filter_append,
      hnone, List.nil_append]
    exact List.filter_cons_of_pos rfl
  constructor
  · intro row' hsome _
    obtain rfl := Option.some.inj (hrow.symm.trans hsome)
    refine ⟨prompt, completion, cost, ⟨rfl, rfl, rfl⟩, ⟨_, hsucceeded, rfl, rfl, rfl⟩, ?_⟩
    intro eventType htype
    have hbefore := hunrecorded eventType htype
    rw [factsOfType] at hbefore
    rw [factsOfType, hfacts, List.filter_append, hbefore, List.nil_append, ← hid]
    simp only [completionTypes, List.mem_cons, List.not_mem_nil, or_false] at htype
    rcases htype with rfl | rfl
    · exact ⟨_, rfl, _, _, rfl⟩
    · exact ⟨_, rfl, _, _, rfl⟩
  · intro hnot
    rw [Slice.inState_of_row hrow] at hnot
    cases hnot

/-- **Every write keeps the charge**, if a completion is one of the attempt in
    flight and no bare status update leads to COMPLETED. -/
theorem Charged.write {call : Call} (h : Charged id S) (hwrite : Write info call S S')
    (hsubject : call.subject info = some id)
    (hmove : ∀ tenantID requestID source,
      call ≠ .transitionRequest tenantID requestID source .completed)
    (hcomplete : ∀ params, call = .completeRequest params →
      ∃ n : Nat, params.attemptNumber = n
        ∧ InFlight params.tenantID params.requestID n S.attempts) : Charged id S' := by
  cases hwrite with
  | create hrow =>
      refine h.kept (Or.inr ⟨by rw [Slice.inState, hrow]; rfl, rfl⟩) rfl ?_
      exact factsOfType_append rfl (by simp [outboxRow, completionTypes])
  | move hrow htenant hstatus hcan =>
      refine h.kept (Or.inr ⟨Slice.not_inState_of_open hrow ?_ rfl, ?_⟩) rfl (fun _ _ => rfl)
      · rw [hstatus]
        exact Request.not_terminal_of_canTransition hcan
      · rw [Slice.inState_of_row rfl, beq_eq_false_iff_ne]
        rintro (rfl : _ = State.completed)
        exact hmove _ _ _ rfl
  | start hrow =>
      refine h.kept (Or.inl rfl) ?_ (factsOfType_append rfl (by simp [outboxRow, completionTypes]))
      rw [succeededOf, List.filter_append, List.filter_cons_of_neg (by simp [newAttempt]),
        List.filter_nil, List.append_nil]
      rfl
  | complete hrow htenant hstatus =>
      obtain ⟨n, hnumber, hflight⟩ := hcomplete _ rfl
      have hopen := Slice.not_inState_of_open hrow (by rw [hstatus]; rfl)
        (show State.completed.terminal = true from rfl)
      exact settled_complete h hopen (Option.some.inj hsubject) hnumber hflight rfl rfl rfl
  | retry => exact h.kept (Or.inl rfl) (succeeded_failAll _ _ _) (fun _ _ => rfl)
  | fail hfinal hrow htenant hstatus =>
      refine h.kept (Or.inr ⟨Slice.not_inState_of_open hrow ?_ rfl, rfl⟩)
        (succeeded_failAll _ _ _) (factsOfType_append rfl (by simp [outboxRow, completionTypes]))
      rw [hstatus]
      rfl
  | cancel hrow htenant hstatus =>
      refine h.kept (Or.inr ⟨Slice.not_inState_of_open hrow ?_ rfl, rfl⟩) rfl (fun _ _ => rfl)
      exact Persistence.Postgres.not_terminal_of_cancellable hstatus
  | reject hrow htenant hstatus =>
      refine h.kept (Or.inr ⟨Slice.not_inState_of_open hrow ?_ rfl, rfl⟩) rfl
        (factsOfType_append rfl (by simp [outboxRow, completionTypes]))
      rw [hstatus]
      rfl
  | load | reserve | keep | reconcile => exact h.kept (Or.inl rfl) rfl (fun _ _ => rfl)

end Writes

/-! ## The gateway -/

/-- The attempts of a running execution follow its stage. -/
def Tracking (p : Process) (S : Slice) : Prop :=
  ∀ record stage, p.phase = .running record stage →
    stage.Attempted p.tenantID record.id S.attempts

theorem tracking_local : Local Tracking where
  opened := by
    intro p record row S hphase _ _ hattempts _ record' stage hphase'
    obtain ⟨rfl, rfl⟩ := Phase.running.inj (hphase.symm.trans hphase')
    exact hattempts
  cancelled := fun _ h => h

section Gateway

variable {platform : Platform Db} {x : System Db}

theorem tracking_step (hstore : platform.store = Persistence.Postgres.store)
    (h : Owned Tracking x) (action : Action) : Owned Tracking (x.step platform action) := by
  refine owned_step tracking_local hstore h action ?_
  intro pid env p record stage p' db' _ hp hphase hopened hbranch record' stage' hphase'
  have htracked := h.holds hp hopened record stage hphase
  obtain ⟨rfl, hnext⟩ := hbranch.attempted htracked hphase'
  have htenant : p'.tenantID = p.tenantID := by rw [Process.tenantID, hbranch.kept.1]; rfl
  rw [htenant]
  exact hnext

/-- The calls of the gateway keep every charge. -/
theorem charged_step (hstore : platform.store = Persistence.Postgres.store)
    (howned : Owned Tracking x) (h : ∀ id, Charged id (x.store.slice id)) (action : Action)
    (id : String) : Charged id ((x.step platform action).store.slice id) := by
  rcases System.step_store_call platform x action with hsame | ⟨call, info, hcall, hcalled, -⟩
  · rw [hsame]
    exact h id
  rw [hcalled, hstore]
  rcases Persistence.Postgres.store_slice call info x.store id with hsame | ⟨hsubject, hwrite⟩
  · rw [hsame]
    exact h id
  refine (h id).write hwrite hsubject ?_ ?_
  · -- the gateway's bare updates do not lead to COMPLETED
    rintro tenantID requestID source rfl
    cases action with
    | advance pid env =>
        obtain ⟨p, -, hmakes⟩ := hcall
        cases hmakes
    | cancel => cases hcall
    | submit | interfere => exact hcall
  · -- it completes the attempt that it has in flight
    rintro params rfl
    cases action with
    | advance pid env =>
        obtain ⟨p, hp, hmakes⟩ := hcall
        cases hmakes with
        | complete hphase =>
            have htracked := howned.holds hp (howned.custody.opened hp hphase) _ _ hphase
            rw [← Option.some.inj hsubject]
            exact ⟨_, rfl, htracked⟩
    | cancel => cases hcall
    | submit | interfere => exact hcall.elim

end Gateway

end Aegis.Gateway
