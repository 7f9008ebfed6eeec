/-
  Aegis.Gateway.Branch

  The branches of `execute`, as a relation.

  `Branch` has one constructor for each way a running process can take a step:
  the stage it leaves, the process and the store after the step, and what was
  decided on the way.  `Process.advance_branch` says that these are all; the
  invariants go over the constructors and do not open `Process.advance`.
-/

import Aegis.Gateway.Service

namespace Aegis.Gateway

open Aegis.Persistence (Call Store TenantPolicy)
open Aegis.Provider (Chunk Completion isRetryable)
open Aegis.Request (ChatInput ChatResponse Record State)
open Aegis.Routing (Lease ProviderConfig Router Selection staticallyEligible)

/-- What the provider call of a step returns. -/
def Process.called (service : Service) (p : Process) (env : Env) : CallResult :=
  call service p.job (p.emitted.map Prod.snd) env.complete env.stream

/-- The process with the chunks of that call. -/
def Process.heard (service : Service) (p : Process) (loop : Loop) (env : Env) : Process :=
  { p with emitted := p.emitted
      ++ (p.called service env).passed.map fun chunk => (loop.attemptNumber, chunk) }

section Branch

variable {σ : Type} (store : Store σ) (service : Service) (p : Process) (record : Record)
  (env : Env) (s : σ)

/-- The steps of a running process. -/
inductive Branch : Stage → Process → σ → Prop
  | validate {r s'}
      (h : perform store (.transitionRequest p.tenantID record.id .received .validated) env s
        = (.ok r, s')) :
      Branch .received (p.goto record .validated) s'
  | unvalidated {err s'}
      (h : perform store (.transitionRequest p.tenantID record.id .received .validated) env s
        = (.error err, s')) :
      Branch .received (p.done (.error err)) s'
  | policy {policy s'}
      (h : perform store (.tenantPolicy p.tenantID p.job.input.model) env s
        = (.ok policy, s')) :
      Branch .validated (p.goto record (.admitting policy)) s'
  | forbidden {err s'}
      (h : perform store (.tenantPolicy p.tenantID p.job.input.model) env s
        = (.error err, s')) :
      Branch .validated (p.goto record (.abandoning err)) s'
  | abandon {err} :
      Branch (.abandoning err) (p.done (.error err))
        (perform store (.transitionRequest p.tenantID record.id .validated .failed) env s).2
  | refuse {policy err} :
      Branch (.admitting policy) (p.goto record (.abandoning err)) s
  | unquoted {policy err} : Branch (.admitting policy) (p.done (.error err)) s
  | quote {policy selection reservation}
      (hallowed : selection.allowedProviders = policy.allowedProviders) :
      Branch (.admitting policy) (p.goto record (.reserving selection reservation)) s
  | reserve {selection reservation r s'}
      (h : perform store (.reserveBudget p.tenantID record.id reservation env.info.now) env s
        = (.ok r, s')) :
      Branch (.reserving selection reservation) (p.goto record (.reserved selection)) s'
  | exceeded {selection reservation err s'}
      (h : perform store (.reserveBudget p.tenantID record.id reservation env.info.now) env s
        = (.error err, s')) :
      Branch (.reserving selection reservation) (p.goto record (.rejecting reservation err)) s'
  | unreserved {selection reservation err s'}
      (h : perform store (.reserveBudget p.tenantID record.id reservation env.info.now) env s
        = (.error err, s')) :
      Branch (.reserving selection reservation) (p.done (.error err)) s'
  | reject {reservation err} :
      Branch (.rejecting reservation err) (p.done (.error err))
        (perform store (.rejectBudget p.tenantID record.id p.job.correlationID reservation) env
          s).2
  | route {selection r s'}
      (h : perform store (.transitionRequest p.tenantID record.id .validated .routing) env s
        = (.ok r, s')) :
      Branch (.reserved selection) (p.goto record (.routed selection)) s'
  | unrouted {selection err s'}
      (h : perform store (.transitionRequest p.tenantID record.id .validated .routing) env s
        = (.error err, s')) :
      Branch (.reserved selection) (p.done (.error err)) s'
  | progress {selection r s'}
      (h : perform store (.transitionRequest p.tenantID record.id .routing .inProgress) env s
        = (.ok r, s')) :
      Branch (.routed selection) (p.goto record (.selecting { selection })) s'
  | stalled {selection err s'}
      (h : perform store (.transitionRequest p.tenantID record.id .routing .inProgress) env s
        = (.error err, s')) :
      Branch (.routed selection) (p.done (.error err)) s'
  | lease {loop lease} (hmax : (loop.attemptNumber : Int) ≤ service.config.maxAttempts)
      (hnew : lease.provider.name ∉ loop.excluded)
      (hallowed : ∀ names ∈ loop.selection.allowedProviders, lease.provider.name ∈ names) :
      Branch (.selecting loop) (p.goto record (.leased
        { loop with excluded := lease.provider.name :: loop.excluded } lease)) s
  | exhausted {loop err} : Branch (.selecting loop) (p.goto record (.closing err)) s
  | panic {loop} : Branch (.selecting loop) { p with phase := .panicked } s
  | start {loop lease r s'}
      (h : perform store (.startAttempt {
          requestID := record.id, tenantID := p.tenantID, number := loop.attemptNumber
          providerName := lease.provider.name, model := p.job.input.model
          correlationID := p.job.correlationID }) env s = (.ok r, s')) :
      Branch (.leased loop lease) (p.goto record (.attempted loop lease)) s'
  | unstarted {loop lease err s'}
      (h : perform store (.startAttempt {
          requestID := record.id, tenantID := p.tenantID, number := loop.attemptNumber
          providerName := lease.provider.name, model := p.job.input.model
          correlationID := p.job.correlationID }) env s = (.error err, s')) :
      Branch (.leased loop lease) (p.done (.error err)) s'
  | begin {loop lease} :
      Branch (.attempted loop lease)
        ({ p with calls := p.calls ++ [(loop.attemptNumber, lease.provider.name)] }.goto record
          (.calling loop lease env.info.now)) s
  | answer {loop lease started completion cost}
      (hcall : (p.called service env).completion = .ok completion)
      (hcost : Budget.costMicroUSD completion.usage.promptTokens
        completion.usage.completionTokens lease.inputCostPerMillionMicro
        lease.outputCostPerMillionMicro = .ok cost) :
      Branch (.calling loop lease started) ((p.heard service loop env).goto record
        (.completing loop lease started completion.providerRequestID
          (buildResponse record.id p.job.input.model completion env.info.now) cost)) s
  | unpriced {loop lease started completion err}
      (hcall : (p.called service env).completion = .ok completion)
      (hcost : Budget.costMicroUSD completion.usage.promptTokens
        completion.usage.completionTokens lease.inputCostPerMillionMicro
        lease.outputCostPerMillionMicro = .error err) :
      Branch (.calling loop lease started) ((p.heard service loop env).done (.error err)) s
  | fault {loop lease started err} (hcall : (p.called service env).completion = .error err) :
      Branch (.calling loop lease started) ((p.heard service loop env).goto record
        (.failing loop started err (p.called service env).isPartial
          (isRetryable err && !(p.called service env).isPartial
            && decide ((loop.attemptNumber : Int) < service.config.maxAttempts)))) s
  | complete {loop lease started providerRequestID response cost r s'}
      (h : perform store (.completeRequest {
          requestID := record.id, tenantID := p.tenantID, attemptNumber := loop.attemptNumber
          providerRequestID, response, costMicroUSD := cost, startedAt := started
          correlationID := p.job.correlationID }) env s = (.ok r, s')) :
      Branch (.completing loop lease started providerRequestID response cost)
        (p.goto record (.settling response cost)) s'
  | uncompleted {loop lease started providerRequestID response cost err s'}
      (h : perform store (.completeRequest {
          requestID := record.id, tenantID := p.tenantID, attemptNumber := loop.attemptNumber
          providerRequestID, response, costMicroUSD := cost, startedAt := started
          correlationID := p.job.correlationID }) env s = (.error err, s')) :
      Branch (.completing loop lease started providerRequestID response cost)
        (p.done (.error err)) s'
  | settle {response cost} :
      Branch (.settling response cost)
        (p.done (.ok {
          record := { record with
            state := .completed, response := some response, costMicroUSD := cost }
          response := some response }))
        (perform store (.reconcileBudget record.id cost) env s).2
  | retry {loop started err isPartial r s'}
      (h : perform store (.failAttempt {
          requestID := record.id, tenantID := p.tenantID, attemptNumber := loop.attemptNumber
          category := errorCategory err, retryable := true, isPartial, final := false
          startedAt := started, correlationID := p.job.correlationID }) env s = (.ok r, s')) :
      Branch (.failing loop started err isPartial true) (p.goto record (.backingOff loop err)) s'
  | fail {loop started err isPartial r s'}
      (h : perform store (.failAttempt {
          requestID := record.id, tenantID := p.tenantID, attemptNumber := loop.attemptNumber
          category := errorCategory err, retryable := false, isPartial, final := true
          startedAt := started, correlationID := p.job.correlationID }) env s = (.ok r, s')) :
      Branch (.failing loop started err isPartial false) (p.goto record (.releasing err)) s'
  | unfailed {loop started err isPartial retryable failErr s'}
      (h : perform store (.failAttempt {
          requestID := record.id, tenantID := p.tenantID, attemptNumber := loop.attemptNumber
          category := errorCategory err, retryable, isPartial, final := !retryable
          startedAt := started, correlationID := p.job.correlationID }) env s
        = (.error failErr, s')) :
      Branch (.failing loop started err isPartial retryable) (p.done (.error failErr)) s'
  | interrupted {loop err waitErr} :
      Branch (.backingOff loop err) (p.goto record (.closing waitErr)) s
  | again {loop err} :
      Branch (.backingOff loop err) (p.goto record (.selecting { loop with
        attemptNumber := loop.attemptNumber + 1, lastErr := some err })) s
  | close {err} :
      Branch (.closing err) (p.goto record (.releasing err))
        (perform store (.failAttempt {
          requestID := record.id, tenantID := p.tenantID, category := errorCategory err
          final := true, startedAt := env.info.now, correlationID := p.job.correlationID }) env
          s).2
  | release {err} :
      Branch (.releasing err) (p.done (.error err))
        (perform store (.reconcileBudget record.id 0) env s).2

/-- `Select` leases an allowed provider that is not excluded, or panics, or the
    loop ends. -/
theorem Process.select_branch (loop : Loop) (router : Router) :
    Branch store service p record env s (.selecting loop)
      (p.select service record loop env router).1 s := by
  unfold Process.select
  split
  · next hmax =>
      dsimp only
      split
      · split
        · exact .panic
        · exact .exhausted
      · next lease router' hselect =>
          have hconfigs : router.configs
              = ({ router with state := env.seen.getD router.state } : Router).configs := rfl
          -- whatever state the filter saw, the names of the entries are fixed
          obtain ⟨config, -, hlease, heligible, hexcluded⟩ :=
            Router.selectFrom_ok hconfigs hselect
          have hname : lease.provider.name = config.provider.name := by rw [hlease]; rfl
          refine .lease hmax ?_ ?_
          · rw [hname]
            exact hexcluded
          · intro names hnames
            simp only [staticallyEligible, Option.mem_def.mp hnames, Bool.and_eq_true,
              List.contains_iff_mem] at heligible
            rw [hname]
            exact heligible.1.1.2
  · exact .exhausted

/-- From `admit` to the reservation. -/
theorem Process.quote_branch (policy : TenantPolicy) (router : Router) :
    Branch store service p record env s (.admitting policy)
      (p.quote service record policy env router) s := by
  unfold Process.quote
  dsimp only
  split
  · exact .refuse
  · split
    · exact .refuse
    · split
      · exact .unquoted
      · exact .quote rfl

/-- What follows a provider call. -/
theorem Process.answered_branch (loop : Loop) (lease : Lease) (started : Time) (router : Router) :
    Branch store service p record env s (.calling loop lease started)
      (p.answered service record loop lease started (p.called service env) env router).1 s := by
  unfold Process.answered
  dsimp only
  split
  · next completion hcall =>
      split
      · next err hcost => exact .unpriced hcall hcost
      · next cost hcost => exact .answer hcall hcost
  · next err hcall => exact .fault hcall

/-- **All branches.** Every step of a running process is one of them. -/
theorem Process.advance_branch (router : Router) (stage : Stage) :
    Branch store service p record env s stage
      (p.advance store service record env s router stage).1
      (p.advance store service record env s router stage).2.1 := by
  cases stage with
  | received =>
      simp only [Process.advance]
      split
      · next h => exact .unvalidated h
      · next h => exact .validate h
  | validated =>
      simp only [Process.advance]
      split
      · next h => exact .forbidden h
      · next h => exact .policy h
  | abandoning err => exact .abandon
  | admitting policy => exact p.quote_branch store service record env s policy router
  | reserving selection reservation =>
      simp only [Process.advance]
      split
      · next h =>
          split
          · exact .exceeded h
          · exact .unreserved h
      · next h => exact .reserve h
  | rejecting reservation err => exact .reject
  | reserved selection =>
      simp only [Process.advance]
      split
      · next h => exact .unrouted h
      · next h => exact .route h
  | routed selection =>
      simp only [Process.advance]
      split
      · next h => exact .stalled h
      · next h => exact .progress h
  | selecting loop => exact p.select_branch store service record env s loop router
  | leased loop lease =>
      simp only [Process.advance]
      split
      · next h => exact .unstarted h
      · next h => exact .start h
  | attempted loop lease => exact .begin
  | calling loop lease started =>
      exact p.answered_branch store service record env s loop lease started router
  | completing loop lease started providerRequestID response cost =>
      simp only [Process.advance]
      split
      · next h => exact .uncompleted h
      · next h => exact .complete h
  | settling response cost => exact .settle
  | failing loop started err isPartial retryable =>
      simp only [Process.advance]
      split
      · next h => exact .unfailed h
      · next h =>
          cases retryable with
          | true => exact .retry h
          | false => exact .fail h
  | backingOff loop err =>
      simp only [Process.advance]
      split
      · exact .interrupted
      · exact .again
  | closing err => exact .close
  | releasing err => exact .release

end Branch

/-! ## What the branches have in common -/

section Common

variable {σ : Type} {store : Store σ} {service : Service} {p p' : Process} {record : Record}
  {env : Env} {s s' : σ} {stage : Stage}

/-- A running process keeps its job and its request. -/
theorem Branch.kept (h : Branch store service p record env s stage p' s') :
    p'.job = p.job ∧ p'.opened = p.opened := by
  cases h <;> exact ⟨rfl, rfl⟩

/-- It goes on for the same request, or returns, or panics. -/
theorem Branch.phase (h : Branch store service p record env s stage p' s') :
    (∃ stage', p'.phase = .running record stage') ∨ (∃ result, p'.phase = .returned result)
      ∨ p'.phase = .panicked := by
  cases h with
  | panic => exact Or.inr (Or.inr rfl)
  | _ => first | exact Or.inl ⟨_, rfl⟩ | exact Or.inr (Or.inl ⟨_, rfl⟩)

theorem Branch.ne_submitted (h : Branch store service p record env s stage p' s') :
    p'.phase ≠ .submitted := by
  rcases h.phase with ⟨stage', hphase⟩ | ⟨result, hphase⟩ | hphase
  all_goals
    rw [hphase]
    exact Phase.noConfusion

theorem Branch.record_eq (h : Branch store service p record env s stage p' s')
    {record' : Record} {stage' : Stage} (hphase' : p'.phase = .running record' stage') :
    record' = record := by
  rcases h.phase with ⟨_, hphase⟩ | ⟨_, hphase⟩ | hphase
  · exact ((Phase.running.inj (hphase.symm.trans hphase')).1).symm
  · exact absurd (hphase.symm.trans hphase') (by simp)
  · exact absurd (hphase.symm.trans hphase') (by simp)

/-- Provider calls begin only at `attempted`. -/
theorem Branch.calls (h : Branch store service p record env s stage p' s')
    (hstage : ∀ loop lease, stage ≠ .attempted loop lease) : p'.calls = p.calls := by
  cases h with
  | begin => exact absurd rfl (hstage _ _)
  | _ => rfl

end Common

end Aegis.Gateway
