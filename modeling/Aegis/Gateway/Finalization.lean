/-
  Aegis.Gateway.Finalization

  When an execution returns, is its request in a terminal state?

  On every way out of `execute` but a few the last call about the request
  finalizes it.  The exceptions are the two errors of `CostMicroUSD`: when the
  reservation cannot be priced the request stays VALIDATED, and when the usage
  that a provider reports cannot be priced it stays IN_PROGRESS.  Nothing
  validates those numbers before.  An error of `ReserveBudget` other than
  ErrExceeded is a third way out; a store that answers its calls does not
  return one for an amount that is not negative.

  The result holds for every store that meets `StoreLaw` and whose calls
  succeed when their guards hold (`Obliging`).
-/

import Aegis.Gateway.Custody
import Aegis.Gateway.Idempotency
import Aegis.Gateway.Release

namespace Aegis.Gateway

open Aegis.Persistence (Call Db Info RequestView Store StoreLaw TenantPolicy)
open Aegis.Request (ChatInput Record State canTransition)
open Aegis.Routing (Router highestPrices)

/-! ## Assumptions -/

/-- The request is stored in a state. -/
def isIn {σ : Type} (view : σ → String → Option RequestView) (s : σ) (requestID : String)
    (state : State) : Bool :=
  (view s requestID).any fun v => v.state == state

namespace Process

/-- The calls of a process that bear on the state of its request, and for which
    it goes on or returns by the answer. -/
def due (p : Process) (env : Env) : Option Call :=
  match p.phase with
  | .running record .received =>
      some (.transitionRequest p.tenantID record.id .received .validated)
  | .running record (.abandoning _) =>
      some (.transitionRequest p.tenantID record.id .validated .failed)
  | .running record (.reserving _ reservation) =>
      some (.reserveBudget p.tenantID record.id reservation env.info.now)
  | .running record (.rejecting reservation _) =>
      some (.rejectBudget p.tenantID record.id p.job.correlationID reservation)
  | .running record (.closing err) => some (.failAttempt {
      requestID := record.id, tenantID := p.tenantID, category := errorCategory err
      final := true, startedAt := env.info.now, correlationID := p.job.correlationID })
  | _ => p.pending

/-- What a call of the process requires of the store and of its arguments. -/
def guarded {σ : Type} (view : σ → String → Option RequestView) (s : σ) (p : Process) :
    Call → Bool
  | .transitionRequest _ requestID source target =>
      canTransition source target && isIn view s requestID source
  | .reserveBudget _ requestID amount _ => isIn view s requestID .validated && decide (0 ≤ amount)
  | .rejectBudget _ requestID _ _ => isIn view s requestID .validated
  | .startAttempt params =>
      isIn view s params.requestID .inProgress && decide (0 < params.number)
        && p.calls.all fun c => decide ((c.1 : Int) ≠ params.number)
  | .completeRequest params =>
      isIn view s params.requestID .inProgress
        && decide (0 ≤ params.response.usage.promptTokens)
        && decide (0 ≤ params.response.usage.completionTokens)
        && decide (0 ≤ params.costMicroUSD)
  | .failAttempt params => isIn view s params.requestID .inProgress
  | _ => false

/-- The reservation of a process that is admitted has a cost. -/
def quotable (service : Service) (p : Process) (env : Env) (router : Router) : Bool :=
  match p.phase with
  | .running _ (.admitting policy) =>
      let input := p.job.input
      let estimatedPrompt := estimatePromptTokens input.messages
      let maxCompletion :=
        if input.maxTokens = 0 then service.config.defaultMaxTokens else input.maxTokens
      match admission service p.job.principal policy (estimatedPrompt + maxCompletion) env.allow,
          highestPrices router.configs {
            model := input.model, dataClassification := policy.dataClassification
            allowedProviders := policy.allowedProviders
            strategy := service.config.strategy.getD .weightedRoundRobin } with
      | .ok (), .ok (maxInputPrice, maxOutputPrice) =>
          (Budget.costMicroUSD estimatedPrompt maxCompletion maxInputPrice maxOutputPrice).isOk
      | _, _ => true
  | _ => true

end Process

/-- The call succeeds; `ReserveBudget` may also answer that the budget is exceeded. -/
def granted (call : Call) : Except GoError call.Result → Bool
  | .ok _ => true
  | .error err =>
      match call with
      | .reserveBudget _ _ _ _ => err.is .errExceeded
      | _ => false

section Assumptions

variable {σ : Type} (platform : Platform σ) (view : σ → String → Option RequestView)

/-- Nobody cancels, no call to the store is lost, and those whose guard holds
    succeed. -/
def Obliging (x : System σ) : Action → Prop
  | .advance pid env => env.fault.isNone = true ∧ ∀ p ∈ x.procs pid, ∀ call ∈ p.due env,
      p.guarded view x.store call = true →
        granted call (platform.store call env.info x.store).1 = true
  | .cancel _ _ _ _ => False
  | _ => True

/-- The reservation and the usage that a provider reports have a cost. -/
def Priced (x : System σ) : Action → Prop
  | .advance pid env => ∀ p ∈ x.procs pid,
      p.quotable (platform.services p.job.replica) env (x.routers p.job.replica) = true
        ∧ p.usable (platform.services p.job.replica) env = true
  | _ => True

instance (x : System σ) (action : Action) : Decidable (Obliging platform view x action) :=
  match action with
  | .advance pid env => inferInstanceAs (Decidable (env.fault.isNone = true
      ∧ ∀ p ∈ x.procs pid, ∀ call ∈ p.due env, p.guarded view x.store call = true →
        granted call (platform.store call env.info x.store).1 = true))
  | .cancel _ _ _ _ => isFalse id
  | .submit _ _ | .interfere _ _ => isTrue trivial

instance (x : System σ) (action : Action) : Decidable (Priced platform x action) :=
  match action with
  | .advance pid env => inferInstanceAs (Decidable (∀ p ∈ x.procs pid,
      p.quotable (platform.services p.job.replica) env (x.routers p.job.replica) = true
        ∧ p.usable (platform.services p.job.replica) env = true))
  | .submit _ _ | .cancel _ _ _ _ | .interfere _ _ => isTrue trivial

end Assumptions

/-! ## Where the request is -/

/-- The stored state of the request at a stage. -/
def Stage.state : Stage → State
  | .received => .received
  | .validated | .abandoning _ | .admitting _ | .reserving _ _ | .rejecting _ _
  | .reserved _ => .validated
  | .routed _ => .routing
  | .selecting _ | .leased _ _ | .attempted _ _ | .calling _ _ _ | .completing _ _ _ _ _ _
  | .failing _ _ _ _ _ | .backingOff _ _ | .closing _ => .inProgress
  | .settling _ _ => .completed
  | .releasing _ => .failed

/-- The amounts of a stage are not negative. -/
def Stage.Payable : Stage → Prop
  | .reserving _ reservation => 0 ≤ reservation
  | .completing _ _ _ _ response cost =>
      0 ≤ response.usage.promptTokens ∧ 0 ≤ response.usage.completionTokens ∧ 0 ≤ cost
  | _ => True

/-- An execution that runs finds its request in the state of its stage, and one
    that has returned has left it in a terminal one.  A panic leaves it as it
    was. -/
def Phase.Placed {σ : Type} (view : σ → String → Option RequestView) (s : σ) (id : String) :
    Phase → Prop
  | .submitted | .panicked => True
  | .running _ stage => isIn view s id stage.state = true ∧ stage.Payable
  | .returned _ => ∃ v, view s id = some v ∧ v.state.terminal = true

section Steps

variable {σ : Type} {platform : Platform σ} {view : σ → String → Option RequestView}
  {Fresh : σ → Call × Info → Prop} {x : System σ} {pid : Nat} {env : Env} {p p' : Process}
  {record : Record} {s' : σ} {stage : Stage}

theorem isIn_iff {s : σ} {id : String} {state : State} :
    isIn view s id state = true ↔ ∃ v, view s id = some v ∧ v.state = state := by
  simp [isIn, Option.any_eq_true]

/-- A call whose guard holds succeeds, unless it may answer that the budget is
    exceeded. -/
theorem Obliging.answered (h : Obliging platform view x (.advance pid env))
    (hp : x.procs pid = some p) {call : Call} (hdue : p.due env = some call)
    (hguard : p.guarded view x.store call = true) :
    granted call (perform platform.store call env x.store).1 = true := by
  unfold perform
  rw [Option.isNone_iff_eq_none.mp h.1]
  exact h.2 p hp call hdue hguard

theorem Obliging.ok (h : Obliging platform view x (.advance pid env))
    (hp : x.procs pid = some p) {call : Call} (hdue : p.due env = some call)
    (hguard : p.guarded view x.store call = true)
    (hstrict : ∀ err, granted call (.error err) = false) :
    ∃ r s', perform platform.store call env x.store = (.ok r, s') := by
  have hgranted := h.answered hp hdue hguard
  generalize perform platform.store call env x.store = answer at hgranted
  obtain ⟨result, s'⟩ := answer
  cases result with
  | error err =>
      rw [hstrict err] at hgranted
      cases hgranted
  | ok r => exact ⟨r, s', rfl⟩

/-- Along an edge it leaves the state that the edge sets. -/
theorem Obliging.moved (law : StoreLaw platform.store view Fresh)
    (h : Obliging platform view x (.advance pid env)) (hp : x.procs pid = some p) {call : Call}
    (hdue : p.due env = some call) (hguard : p.guarded view x.store call = true)
    (hstrict : ∀ err, granted call (.error err) = false) {id : String}
    {accepts : State → Bool} {target : State}
    (hedge : call.edge = some (id, accepts, target)) :
    ∃ r s', perform platform.store call env x.store = (.ok r, s')
      ∧ isIn view s' id target = true := by
  obtain ⟨r, s', hrun⟩ := h.ok hp hdue hguard hstrict
  exact ⟨r, s', hrun, isIn_iff.mpr (perform_accepted law hedge hrun)⟩

/-- A call without an edge leaves the state. -/
theorem isIn_perform (law : StoreLaw platform.store view Fresh) {call : Call}
    (hfresh : Fresh x.store (call, env.info)) (hedge : call.edge = none) {id : String}
    {state : State} (hin : isIn view x.store id state = true) :
    isIn view (perform platform.store call env x.store).2 id state = true := by
  obtain ⟨v, hv, hstate⟩ := isIn_iff.mp hin
  have hnone : ∀ accepts target, call.edge ≠ some (id, accepts, target) := by
    intro accepts target h
    rw [hedge] at h
    cases h
  have hkept : view (perform platform.store call env x.store).2 id = some v :=
    perform_view_of_no_edge law hfresh hv hnone
  exact isIn_iff.mpr ⟨v, hkept, hstate⟩

theorem terminal_of_isIn {s : σ} {id : String} {state : State}
    (hin : isIn view s id state = true) (hterminal : state.terminal = true) :
    ∃ v, view s id = some v ∧ v.state.terminal = true := by
  obtain ⟨v, hv, hstate⟩ := isIn_iff.mp hin
  exact ⟨v, hv, by rw [hstate]; exact hterminal⟩

/-- The number of the next attempt is not used. -/
theorem Attempts.unused {service : Service} (h : Attempts service p) {loop : Loop}
    {lease : Routing.Lease} (hphase : p.phase = .running record (.leased loop lease)) :
    0 < loop.attemptNumber ∧ ∀ c ∈ p.calls, c.1 ≠ loop.attemptNumber := by
  obtain ⟨-, hnumber, -⟩ := h.running _ _ hphase
  refine ⟨by omega, ?_⟩
  intro c hc
  have hmem : c.1 ∈ p.calls.map Prod.fst := List.mem_map_of_mem hc
  rw [h.numbers, List.mem_range'_1] at hmem
  omega

/-- From the quote on: the process is turned away or reserves an amount. -/
theorem Process.quote_placed {service : Service} {policy : TenantPolicy} {router : Router}
    (hphase : p.phase = .running record (.admitting policy))
    (hquotable : p.quotable service env router = true) {s : σ} {id : String}
    (hin : isIn view s id .validated = true) :
    (p.quote service record policy env router).phase.Placed view s id := by
  simp only [Process.quotable, hphase] at hquotable
  unfold Process.quote
  dsimp only
  split
  · exact ⟨hin, trivial⟩
  · next hadmitted =>
      rw [hadmitted] at hquotable
      split
      · exact ⟨hin, trivial⟩
      · next hprices =>
          rw [hprices] at hquotable
          dsimp only at hquotable
          split
          · next hcost =>
              rw [hcost] at hquotable
              cases hquotable
          · next hcost => exact ⟨hin, Budget.costMicroUSD_nonneg hcost⟩

/-! ### The stages that call the store -/

section Stages

variable {service : Service} {router : Router}

/-- The guard of a transition is the state of the stage. -/
theorem Obliging.transitioned (law : StoreLaw platform.store view Fresh)
    (h : Obliging platform view x (.advance pid env)) (hp : x.procs pid = some p)
    (source target : State) (hin : isIn view x.store record.id source = true)
    (hcan : canTransition source target = true)
    (hdue : p.due env = some (.transitionRequest p.tenantID record.id source target)) :
    ∃ r s', perform platform.store (.transitionRequest p.tenantID record.id source target) env
        x.store = (.ok r, s') ∧ isIn view s' record.id target = true := by
  refine h.moved law hp hdue ?_ (fun _ => rfl) rfl
  rw [Process.guarded, hcan, Bool.true_and]
  exact hin

theorem Process.reserving_placed (law : StoreLaw platform.store view Fresh)
    (hobliging : Obliging platform view x (.advance pid env)) (hp : x.procs pid = some p)
    {selection : Routing.Selection} {reservation : Int}
    (hphase : p.phase = .running record (.reserving selection reservation))
    (hfresh : ∀ call, Makes p call → Fresh x.store (call, env.info))
    (hin : isIn view x.store record.id .validated = true) (hpayable : 0 ≤ reservation) :
    (p.advance platform.store service record env x.store router
        (.reserving selection reservation)).1.phase.Placed view
      (p.advance platform.store service record env x.store router
        (.reserving selection reservation)).2.1 record.id := by
  have hguard : p.guarded view x.store
      (.reserveBudget p.tenantID record.id reservation env.info.now) = true := by
    rw [Process.guarded, Bool.and_eq_true, decide_eq_true_eq]
    exact ⟨hin, hpayable⟩
  have hdue : p.due env
      = some (.reserveBudget p.tenantID record.id reservation env.info.now) := by
    rw [Process.due, hphase]
  have hmakes : Makes p (.reserveBudget p.tenantID record.id reservation env.info.now) :=
    .reserve hphase
  have hkept := isIn_perform law (hfresh _ hmakes) rfl hin
  have hgranted := hobliging.answered hp hdue hguard
  simp only [Process.advance]
  split
  · next err s' hrun =>
      -- the store's only refusal is that the budget is exceeded
      rw [hrun] at hkept hgranted
      rw [if_pos (show err.is .errExceeded = true from hgranted)]
      exact ⟨hkept, trivial⟩
  · next hrun =>
      rw [hrun] at hkept
      exact ⟨hkept, trivial⟩

theorem Process.leased_placed (law : StoreLaw platform.store view Fresh)
    (hobliging : Obliging platform view x (.advance pid env)) (hp : x.procs pid = some p)
    {loop : Loop} {lease : Routing.Lease}
    (hphase : p.phase = .running record (.leased loop lease))
    (hfresh : ∀ call, Makes p call → Fresh x.store (call, env.info))
    (hattempts : Attempts service p) (hin : isIn view x.store record.id .inProgress = true) :
    (p.advance platform.store service record env x.store router
        (.leased loop lease)).1.phase.Placed view
      (p.advance platform.store service record env x.store router
        (.leased loop lease)).2.1 record.id := by
  obtain ⟨hpositive, hunused⟩ := hattempts.unused hphase
  have hdue : p.due env = some (.startAttempt {
      requestID := record.id, tenantID := p.tenantID, number := loop.attemptNumber
      providerName := lease.provider.name, model := p.job.input.model
      correlationID := p.job.correlationID }) := by
    simp only [Process.due, Process.pending, hphase]
  have hguard : p.guarded view x.store (.startAttempt {
      requestID := record.id, tenantID := p.tenantID, number := loop.attemptNumber
      providerName := lease.provider.name, model := p.job.input.model
      correlationID := p.job.correlationID }) = true := by
    simp only [Process.guarded, Bool.and_eq_true, decide_eq_true_eq, List.all_eq_true]
    refine ⟨⟨hin, by omega⟩, ?_⟩
    intro c hc
    have hne := hunused c hc
    omega
  obtain ⟨r, s', hrun⟩ := hobliging.ok hp hdue hguard (fun _ => rfl)
  have hkept := isIn_perform law (hfresh _ (.start hphase)) rfl hin
  rw [hrun] at hkept
  simp only [Process.advance, hrun]
  exact ⟨hkept, trivial⟩

theorem Process.calling_placed {loop : Loop} {lease : Routing.Lease} {started : Time}
    (hphase : p.phase = .running record (.calling loop lease started))
    (husable : p.usable service env = true) {s : σ}
    (hin : isIn view s record.id .inProgress = true) :
    (p.advance platform.store service record env s router
        (.calling loop lease started)).1.phase.Placed view
      (p.advance platform.store service record env s router
        (.calling loop lease started)).2.1 record.id := by
  simp only [Process.usable, hphase, Process.called] at husable
  simp only [Process.advance, Process.answered]
  split
  · next completion hcall =>
      rw [hcall] at husable
      dsimp only at husable
      split
      · next hcost =>
          rw [hcost] at husable
          cases husable
      · next cost hcost =>
          obtain ⟨⟨hprompt, hcompletion, -⟩, -⟩ := Budget.costMicroUSD_eq_ok_iff.mp hcost
          exact ⟨hin, hprompt, hcompletion, Budget.costMicroUSD_nonneg hcost⟩
  · exact ⟨hin, trivial⟩

theorem Process.completing_placed (law : StoreLaw platform.store view Fresh)
    (hobliging : Obliging platform view x (.advance pid env)) (hp : x.procs pid = some p)
    {loop : Loop} {lease : Routing.Lease} {started : Time} {providerRequestID : String}
    {response : Request.ChatResponse} {cost : Int}
    (hphase : p.phase
      = .running record (.completing loop lease started providerRequestID response cost))
    (hin : isIn view x.store record.id .inProgress = true)
    (hpayable : (Stage.completing loop lease started providerRequestID response cost).Payable) :
    (p.advance platform.store service record env x.store router
        (.completing loop lease started providerRequestID response cost)).1.phase.Placed view
      (p.advance platform.store service record env x.store router
        (.completing loop lease started providerRequestID response cost)).2.1 record.id := by
  have hdue : p.due env = some (.completeRequest {
      requestID := record.id, tenantID := p.tenantID, attemptNumber := loop.attemptNumber
      providerRequestID, response, costMicroUSD := cost, startedAt := started
      correlationID := p.job.correlationID }) := by
    simp only [Process.due, Process.pending, hphase]
  have hguard : p.guarded view x.store (.completeRequest {
      requestID := record.id, tenantID := p.tenantID, attemptNumber := loop.attemptNumber
      providerRequestID, response, costMicroUSD := cost, startedAt := started
      correlationID := p.job.correlationID }) = true := by
    obtain ⟨hprompt, hcompletion, hcost⟩ := hpayable
    simp only [Process.guarded, Bool.and_eq_true, decide_eq_true_eq]
    exact ⟨⟨⟨hin, hprompt⟩, hcompletion⟩, hcost⟩
  obtain ⟨r, s', hrun, hmoved⟩ := hobliging.moved law hp hdue hguard (fun _ => rfl) rfl
  simp only [Process.advance, hrun]
  exact ⟨hmoved, trivial⟩

theorem Process.failing_placed (law : StoreLaw platform.store view Fresh)
    (hobliging : Obliging platform view x (.advance pid env)) (hp : x.procs pid = some p)
    {loop : Loop} {started : Time} {err : GoError} {isPartial retryable : Bool}
    (hphase : p.phase = .running record (.failing loop started err isPartial retryable))
    (hfresh : ∀ call, Makes p call → Fresh x.store (call, env.info))
    (hin : isIn view x.store record.id .inProgress = true) :
    (p.advance platform.store service record env x.store router
        (.failing loop started err isPartial retryable)).1.phase.Placed view
      (p.advance platform.store service record env x.store router
        (.failing loop started err isPartial retryable)).2.1 record.id := by
  have hdue : p.due env = some (.failAttempt {
      requestID := record.id, tenantID := p.tenantID, attemptNumber := loop.attemptNumber
      category := errorCategory err, retryable, isPartial, final := !retryable
      startedAt := started, correlationID := p.job.correlationID }) := by
    simp only [Process.due, Process.pending, hphase]
  cases retryable with
  | true =>
      obtain ⟨r, s', hrun⟩ := hobliging.ok hp hdue hin (fun _ => rfl)
      have hkept := isIn_perform law (hfresh _ (.fail hphase)) rfl hin
      rw [hrun] at hkept
      simp only [Process.advance, hrun, if_true]
      exact ⟨hkept, trivial⟩
  | false =>
      obtain ⟨r, s', hrun, hmoved⟩ := hobliging.moved law hp hdue hin (fun _ => rfl) rfl
      simp only [Process.advance, hrun, Bool.false_eq_true, if_false]
      exact ⟨hmoved, trivial⟩

end Stages

/-- **One step.** The execution goes on with its request in the state of the
    next stage, or returns and leaves it in a terminal one. -/
theorem Process.advance_placed (law : StoreLaw platform.store view Fresh)
    (hobliging : Obliging platform view x (.advance pid env))
    (hp : x.procs pid = some p) (hphase : p.phase = .running record stage)
    (hfresh : ∀ call, Makes p call → Fresh x.store (call, env.info)) {service : Service}
    {router : Router} (hattempts : Attempts service p)
    (hquotable : p.quotable service env router = true) (husable : p.usable service env = true)
    (hin : isIn view x.store record.id stage.state = true) (hpayable : stage.Payable) :
    (p.advance platform.store service record env x.store router stage).1.phase.Placed view
      (p.advance platform.store service record env x.store router stage).2.1 record.id := by
  cases stage with
  | received =>
      obtain ⟨r, s', hrun, hmoved⟩ := hobliging.transitioned law hp .received .validated hin rfl
        (by rw [Process.due, hphase])
      simp only [Process.advance, hrun]
      exact ⟨hmoved, trivial⟩
  | validated =>
      have hkept := isIn_perform law (hfresh _ (.policy hphase)) rfl hin
      simp only [Process.advance]
      split
      · next hrun =>
          rw [hrun] at hkept
          exact ⟨hkept, trivial⟩
      · next hrun =>
          rw [hrun] at hkept
          exact ⟨hkept, trivial⟩
  | abandoning err =>
      obtain ⟨r, s', hrun, hmoved⟩ := hobliging.transitioned law hp .validated .failed hin rfl
        (by rw [Process.due, hphase])
      simp only [Process.advance, hrun]
      exact terminal_of_isIn hmoved rfl
  | admitting policy => exact Process.quote_placed hphase hquotable hin
  | reserving selection reservation =>
      exact Process.reserving_placed law hobliging hp hphase hfresh hin hpayable
  | rejecting reservation err =>
      have hdue : p.due env
          = some (.rejectBudget p.tenantID record.id p.job.correlationID reservation) := by
        rw [Process.due, hphase]
      obtain ⟨r, s', hrun, hmoved⟩ := hobliging.moved law hp hdue hin (fun _ => rfl) rfl
      simp only [Process.advance, hrun]
      exact terminal_of_isIn hmoved rfl
  | reserved selection =>
      obtain ⟨r, s', hrun, hmoved⟩ := hobliging.transitioned law hp .validated .routing hin rfl
        (by simp only [Process.due, Process.pending, hphase])
      simp only [Process.advance, hrun]
      exact ⟨hmoved, trivial⟩
  | routed selection =>
      obtain ⟨r, s', hrun, hmoved⟩ := hobliging.transitioned law hp .routing .inProgress hin rfl
        (by simp only [Process.due, Process.pending, hphase])
      simp only [Process.advance, hrun]
      exact ⟨hmoved, trivial⟩
  | selecting loop =>
      simp only [Process.advance, Process.select]
      split
      · split
        · split
          · exact trivial
          · exact ⟨hin, trivial⟩
        · exact ⟨hin, trivial⟩
      · exact ⟨hin, trivial⟩
  | leased loop lease => exact Process.leased_placed law hobliging hp hphase hfresh hattempts hin
  | attempted loop lease => exact ⟨hin, trivial⟩
  | calling loop lease started => exact Process.calling_placed hphase husable hin
  | completing loop lease started providerRequestID response cost =>
      exact Process.completing_placed law hobliging hp hphase hin hpayable
  | settling response cost =>
      have hkept := isIn_perform law (hfresh _ (.settle hphase)) rfl hin
      exact terminal_of_isIn hkept rfl
  | failing loop started err isPartial retryable =>
      exact Process.failing_placed law hobliging hp hphase hfresh hin
  | backingOff loop err =>
      simp only [Process.advance]
      split
      · exact ⟨hin, trivial⟩
      · exact ⟨hin, trivial⟩
  | closing err =>
      have hdue : p.due env = some (.failAttempt {
          requestID := record.id, tenantID := p.tenantID, category := errorCategory err
          final := true, startedAt := env.info.now, correlationID := p.job.correlationID }) := by
        rw [Process.due, hphase]
      obtain ⟨r, s', hrun, hmoved⟩ := hobliging.moved law hp hdue hin (fun _ => rfl) rfl
      simp only [Process.advance, hrun]
      exact ⟨hmoved, trivial⟩
  | releasing err =>
      have hkept := isIn_perform law (hfresh _ (.release hphase)) rfl hin
      exact terminal_of_isIn hkept rfl

end Steps

/-! ## Runs -/

/-- Every execution is where its request is. -/
structure Finalizing {σ : Type} (services : Nat → Service)
    (view : σ → String → Option RequestView) (x : System σ) : Prop where
  custody : Custody view x
  attempts : ∀ pid p, x.procs pid = some p → Attempts (services p.job.replica) p
  submitted : ∀ pid p, x.procs pid = some p → p.phase = .submitted → p.opened = none
  placed : ∀ pid p record, x.procs pid = some p → p.opened = some (record, true) →
    p.phase.Placed view x.store record.id

section Runs

variable {σ : Type} {platform : Platform σ} {view : σ → String → Option RequestView}
  {Fresh : σ → Call × Info → Prop} {x : System σ}

/-- Where a request is depends on its own state only. -/
theorem Phase.Placed.of_view {s s' : σ} {id : String} {phase : Phase}
    (h : phase.Placed view s id) (hsame : ∀ v, view s id = some v → view s' id = some v) :
    phase.Placed view s' id := by
  cases phase with
  | submitted | panicked => trivial
  | running record stage =>
      obtain ⟨v, hv, hstate⟩ := isIn_iff.mp h.1
      exact ⟨isIn_iff.mpr ⟨v, hsame v hv, hstate⟩, h.2⟩
  | returned result =>
      obtain ⟨v, hv, hterminal⟩ := h
      exact ⟨v, hsame v hv, hterminal⟩

/-- The step of one execution. -/
theorem Finalizing.own (law : StoreLaw platform.store view Fresh)
    (h : Finalizing platform.services view x) {pid : Nat} {env : Env}
    (hobliging : Obliging platform view x (.advance pid env))
    (hpriced : Priced platform x (.advance pid env)) {p : Process} (hp : x.procs pid = some p)
    (hfresh : ∀ call, Makes p call → Fresh x.store (call, env.info)) {record : Record}
    (hopened : (p.step platform.store platform.hashChat (platform.services p.job.replica) env
      x.store (x.routers p.job.replica)).1.opened = some (record, true)) :
    (p.step platform.store platform.hashChat (platform.services p.job.replica) env x.store
        (x.routers p.job.replica)).1.phase.Placed view
      (p.step platform.store platform.hashChat (platform.services p.job.replica) env x.store
        (x.routers p.job.replica)).2.1 record.id := by
  obtain ⟨hquotable, husable⟩ := hpriced p hp
  unfold Process.step at hopened ⊢
  split at hopened
  · next hphase =>
      rcases p.open_cases platform.store platform.hashChat env x.store with
        ⟨err, s', hopen⟩ | ⟨params, created, flag, s', htenant, hkey, hrun, hcase⟩
      · rw [hopen] at hopened
        have hnone : p.opened = none := h.submitted pid p hp hphase
        exact absurd (hnone.symm.trans hopened) (by simp)
      · rcases hcase with ⟨rfl, hopen⟩ | ⟨rfl, outcome, hopen⟩
        · rw [hopen] at hopened
          obtain ⟨-, -, v, hv, hstate⟩ :=
            law.created (hfresh _ (.create hphase htenant hkey)) (perform_ok hrun)
          obtain rfl : created = record := congrArg Prod.fst (Option.some.inj hopened)
          rw [hopen]
          exact ⟨isIn_iff.mpr ⟨v, hv, hstate⟩, trivial⟩
        · rw [hopen] at hopened
          exact absurd (congrArg Prod.snd (Option.some.inj hopened)) (by simp)
  · next record' stage hphase =>
      -- an execution keeps its request
      have hkept := (p.advance_branch platform.store (platform.services p.job.replica) record' env
        x.store (x.routers p.job.replica) stage).kept.2
      have hown := h.custody.opened hp hphase
      rw [hkept, hown] at hopened
      obtain rfl : record' = record := congrArg Prod.fst (Option.some.inj hopened)
      have hplaced := h.placed pid p record' hp hown
      rw [hphase] at hplaced
      exact Process.advance_placed law hobliging hp hphase hfresh (h.attempts pid p hp) hquotable
        husable hplaced.1 hplaced.2
  · exact h.placed pid p record hp hopened
  · exact h.placed pid p record hp hopened

theorem finalizing_init (services : Nat → Service) (s : σ) (routers : Nat → Router) :
    Finalizing services view (System.init s routers) where
  custody := custody_init s routers
  attempts := by
    intro pid p hp
    cases hp
  submitted := by
    intro pid p hp
    cases hp
  placed := by
    intro pid p record hp
    cases hp

/-- All processes of a step count their attempts. -/
theorem attempts_step (h : ∀ pid p, x.procs pid = some p →
      Attempts (platform.services p.job.replica) p) (action : Action) :
    ∀ pid p, (x.step platform action).procs pid = some p →
      Attempts (platform.services p.job.replica) p :=
  System.step_forall_service attempts_new (fun _ _ env s router hp => hp.step env s router) h action

theorem Finalizing.step (law : StoreLaw platform.store view Fresh)
    (h : Finalizing platform.services view x) (action : Action)
    (hfresh : FreshStep Fresh x action) (hobliging : Obliging platform view x action)
    (hpriced : Priced platform x action) :
    Finalizing platform.services view (x.step platform action) := by
  have hcustody := custody_step law h.custody action hfresh
  have hattempts := attempts_step h.attempts action
  have hsubmitted : ∀ pid p, (x.step platform action).procs pid = some p →
      p.phase = .submitted → p.opened = none := by
    refine System.step_forall (Q := fun p => p.phase = .submitted → p.opened = none)
      (fun job _ => rfl) ?_ h.submitted action
    intro p env _ hphase
    exact absurd hphase (Process.step_ne_submitted _ _ _ _ _ _ _)
  refine ⟨hcustody, hattempts, hsubmitted, ?_⟩
  intro pid q record hq hopened
  cases action with
  | submit pid' job =>
      rw [store_submit]
      exact h.placed pid q record (procs_submit_opened hq hopened) hopened
  | advance pid' env =>
      cases hp : x.procs pid' with
      | none =>
          rw [step_advance_none hp] at hq ⊢
          exact h.placed pid q record hq hopened
      | some p =>
          rw [store_advance hp]
          rcases procs_advance hp hq with ⟨rfl, rfl⟩ | ⟨hne, hold⟩
          · exact h.own law hobliging hpriced hp (hfresh p hp) hopened
          · refine (h.placed pid q record hold hopened).of_view ?_
            intro v hv
            exact h.custody.view_other law hp (hfresh p hp) hne hold hopened hv
  | cancel => exact hobliging.elim
  | interfere replica state => exact h.placed pid q record hq hopened

/-- **Execute finalises.**  On a store whose calls succeed when their guards
    hold, with no cancellation, and when the reservation and every reported
    usage have a cost, each execution that has returned left the request it
    created in a terminal state, whatever else runs. -/
theorem execute_finalizes (platform : Platform σ) (law : StoreLaw platform.store view Fresh)
    (s : σ) (routers : Nat → Router) (actions : List Action)
    (hsteps : ∀ t ∈ Lib.trace (System.step platform) (System.init s routers) actions,
      FreshStep Fresh t.1 t.2.1 ∧ Obliging platform view t.1 t.2.1 ∧ Priced platform t.1 t.2.1) :
    let x := Lib.run (System.step platform) (System.init s routers) actions
    ∀ pid p record result, x.procs pid = some p → p.opened = some (record, true) →
      p.phase = .returned result →
      ∃ v, view x.store record.id = some v ∧ v.state.terminal = true := by
  intro x pid p record result hp hopened hphase
  have hfinal : Finalizing platform.services view x := by
    refine Lib.run_invariant (I := Finalizing platform.services view)
      (C := fun x action => FreshStep Fresh x action ∧ Obliging platform view x action
        ∧ Priced platform x action) ?_ actions (finalizing_init _ s routers) hsteps
    intro y action hy hC
    exact hy.step law action hC.1 hC.2.1 hC.2.2
  have hplaced := hfinal.placed pid p record hp hopened
  rw [hphase] at hplaced
  exact hplaced

end Runs

/-- A completed request. -/
theorem execute_finalizes_completed :
    let platform := samplePlatform Persistence.Postgres.store
    let x := Lib.run (System.step platform) sampleStart (upToCall ++ answerAndFinish)
    (x.procs 0).map (fun p => (p.opened.map fun o => (o.1.id, o.2), p.isReturned))
        = some (some ("r", true), true)
      ∧ ∃ v, x.store.view "r" = some v ∧ v.state.terminal = true := by
  refine ⟨by decide +kernel, ?_⟩
  have hreturned : ∃ p record result, (Lib.run (System.step
      (samplePlatform Persistence.Postgres.store)) sampleStart
        (upToCall ++ answerAndFinish)).procs 0 = some p
      ∧ p.opened = some (record, true) ∧ record.id = "r" ∧ p.phase = .returned result :=
    returned_of_map (by decide +kernel)
  obtain ⟨p, record, result, hp, hopened, hid, hresult⟩ := hreturned
  rw [← hid]
  have hsteps : ∀ t ∈ Lib.trace (System.step (samplePlatform Persistence.Postgres.store))
      sampleStart (upToCall ++ answerAndFinish),
      Obliging (samplePlatform Persistence.Postgres.store) Db.view t.1 t.2.1
        ∧ Priced (samplePlatform Persistence.Postgres.store) t.1 t.2.1 := by
    decide +kernel
  exact execute_finalizes (samplePlatform Persistence.Postgres.store)
    Persistence.Postgres.storeLaw _ _ (upToCall ++ answerAndFinish)
    (fun t ht => ⟨freshStep_of_true t.2.1, hsteps t ht⟩) 0 p record result hp hopened hresult

/-- The provider answers with a usage of minus one prompt token.  The execution
    returns the error of `CostMicroUSD`, and the request stays IN_PROGRESS. -/
theorem negative_usage_unfinalized :
    let platform := samplePlatform Persistence.Postgres.store
    let actions := upToCall ++ [.advance 0 { sampleEnv "" "" 4 with complete := .ok {
      model := "m", content := "hi", finishReason := "stop", usage := ⟨-1, 1, 0⟩ } }]
    let x := Lib.run (System.step platform) sampleStart actions
    (∀ t ∈ Lib.trace (System.step platform) sampleStart actions,
        Obliging platform Db.view t.1 t.2.1)
      ∧ (x.procs 0).map (fun p => (p.opened.map fun o => (o.1.id, o.2), p.isReturned))
          = some (some ("r", true), true)
      ∧ (x.store.view "r").map RequestView.state = some .inProgress := by
  decide +kernel

end Aegis.Gateway
