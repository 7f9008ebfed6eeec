/-
  Aegis.Gateway.Return

  Every execution comes to its end.  Its rank goes down with each of its own
  steps and is positive until the end, so it can be kept from its end only by
  being kept from its steps: nothing another execution, the store, a provider, a
  limiter or the client does takes it back.

  The end is an answer, unless `order` divides by zero.  For that the weights of
  the replica's providers have to sum up to 2^64.
-/

import Aegis.Gateway.Finalization
import Aegis.Gateway.Policy
import Aegis.Routing.Select

namespace Aegis.Gateway

open Aegis.Persistence (Catalog Db Store)
open Aegis.Request (ChatInput Record)
open Aegis.Routing (ProviderConfig Router)
open Aegis.Routing.Router (WeightsFit)

/-! ## A bound on the steps that are left -/

def Stage.rank (maxAttempts : Int) : Stage → Int
  | .received => 6 * maxAttempts + 24
  | .validated => 6 * maxAttempts + 23
  | .admitting _ => 6 * maxAttempts + 22
  | .reserving _ _ => 6 * maxAttempts + 21
  | .reserved _ => 6 * maxAttempts + 20
  | .routed _ => 6 * maxAttempts + 19
  | .selecting loop => 6 * (maxAttempts - loop.attemptNumber) + 18
  | .leased loop _ => 6 * (maxAttempts - loop.attemptNumber) + 17
  | .attempted loop _ => 6 * (maxAttempts - loop.attemptNumber) + 16
  | .calling loop _ _ => 6 * (maxAttempts - loop.attemptNumber) + 15
  | .failing loop _ _ _ _ => 6 * (maxAttempts - loop.attemptNumber) + 14
  | .backingOff loop _ => 6 * (maxAttempts - loop.attemptNumber) + 13
  | .closing _ | .completing _ _ _ _ _ _ => 2
  | .abandoning _ | .rejecting _ _ | .settling _ _ | .releasing _ => 1

def Phase.rank (maxAttempts : Int) : Phase → Int
  | .submitted => 6 * maxAttempts + 25
  | .running _ stage => stage.rank maxAttempts
  | .returned _ | .panicked => 0

/-- The attempt number of a stage in the loop, which bounds its rank. -/
theorem Attempts.rank_pos {service : Service} {p : Process} (h : Attempts service p)
    {record : Record} {stage : Stage} (hphase : p.phase = .running record stage) :
    0 < stage.rank service.config.maxAttempts := by
  have hcounted := (h.running record stage hphase).2
  have hbounded := h.bounded
  have hmax := service.maxAttempts_pos
  cases stage with
  | selecting loop =>
      have hnumber := hcounted.1
      simp only [Stage.rank]
      omega
  | leased loop lease | attempted loop lease =>
      have hle := hcounted.2.1
      simp only [Stage.rank]
      omega
  | calling loop lease started | failing loop started err isPartial retryable
  | backingOff loop err =>
      have hnumber := hcounted.1
      simp only [Stage.rank]
      omega
  | _ =>
      simp only [Stage.rank]
      omega

/-- A new execution has the highest rank. -/
theorem Attempts.rank_le {service : Service} {p : Process} (h : Attempts service p) :
    p.phase.rank service.config.maxAttempts ≤ 6 * service.config.maxAttempts + 25 := by
  have hmax := service.maxAttempts_pos
  cases hphase : p.phase with
  | submitted => exact Int.le_refl _
  | returned | panicked =>
      simp only [Phase.rank]
      omega
  | running record stage =>
      have hpos := h.rank_pos hphase
      cases stage <;> simp only [Phase.rank, Stage.rank] <;> omega

/-- Without steps to take, an execution is at its end. -/
theorem Attempts.over_of_rank {service : Service} {p : Process} (h : Attempts service p)
    (hrank : p.phase.rank service.config.maxAttempts ≤ 0) :
    (∃ result, p.phase = .returned result) ∨ p.phase = .panicked := by
  have hmax := service.maxAttempts_pos
  cases hphase : p.phase with
  | submitted =>
      rw [hphase, Phase.rank] at hrank
      omega
  | running record stage =>
      have hpos := h.rank_pos hphase
      rw [hphase, Phase.rank] at hrank
      omega
  | returned result => exact Or.inl ⟨result, rfl⟩
  | panicked => exact Or.inr rfl

section Steps

variable {σ : Type} {store : Store σ} {service : Service} {p p' : Process} {record : Record}
  {env : Env} {s s' : σ} {stage : Stage}

/-- Each step of a running process lowers its rank. -/
theorem Branch.rank_lt (h : Branch store service p record env s stage p' s')
    (hattempts : Attempts service p) (hphase : p.phase = .running record stage) :
    p'.phase.rank service.config.maxAttempts < stage.rank service.config.maxAttempts := by
  have hpos := hattempts.rank_pos hphase
  have hcounted := (hattempts.running record stage hphase).2
  have hbounded := hattempts.bounded
  have hmax := service.maxAttempts_pos
  cases h with
  | exhausted | answer | fail | interrupted =>
      -- out of the loop, whatever is left of the attempts
      have hnumber := hcounted.1
      simp only [Process.goto, Phase.rank, Stage.rank]
      omega
  | progress | again | begin | lease | start | retry | fault | validate | policy | forbidden
  | refuse | quote | reserve | exceeded | route | complete | close =>
      simp only [Process.goto, Phase.rank, Stage.rank]
      omega
  -- the end has rank zero
  | unvalidated | abandon | unquoted | unreserved | reject | unrouted | stalled | panic
  | unstarted | unpriced | uncompleted | settle | unfailed | release => exact hpos

/-- A process comes closer to its end by a step, or is there. -/
theorem Process.step_rank (store : Store σ)
    (hashChat : ChatInput → Except GoError (List UInt8)) (h : Attempts service p) (env : Env)
    (s : σ) (router : Router) :
    (p.step store hashChat service env s router).1.phase.rank service.config.maxAttempts
      ≤ max (p.phase.rank service.config.maxAttempts - 1) 0 := by
  have hmax := service.maxAttempts_pos
  rcases p.step_cases store hashChat service env s router with
    ⟨hphase, hp', -⟩ | ⟨record, stage, hphase, hbranch⟩ | ⟨hover, hp', -⟩
  · obtain ⟨phase, opened, hopen, hne, hreceived⟩ := p.open_result store hashChat env s
    rw [hp', hopen, hphase]
    cases phase with
    | submitted => exact absurd rfl hne
    | running record stage =>
        obtain ⟨-, rfl⟩ := hreceived record stage rfl
        simp only [Phase.rank, Stage.rank]
        omega
    | returned | panicked =>
        simp only [Phase.rank]
        omega
  · have hlt := hbranch.rank_lt h hphase
    rw [hphase, Phase.rank]
    omega
  · rcases hover with ⟨result, hover⟩ | hover
    all_goals
      rw [hp', hover]
      simp only [Phase.rank]
      omega

/-- Only `Select` panics. -/
theorem Branch.panicked (h : Branch store service p record env s stage p' s')
    (hpanicked : p'.phase = .panicked) : ∃ loop, stage = .selecting loop := by
  cases h with
  | panic => exact ⟨_, rfl⟩
  | _ => cases hpanicked

/-- A step panics only when the weights do not fit. -/
theorem Process.step_panicked {hashChat : ChatInput → Except GoError (List UInt8)}
    {router : Router}
    (h : (p.step store hashChat service env s router).1.phase = .panicked) :
    p.phase = .panicked ∨ ¬ WeightsFit router.configs := by
  rcases p.step_cases store hashChat service env s router with
    ⟨-, hp', -⟩ | ⟨record, stage, hphase, hbranch⟩ | ⟨-, hp', -⟩
  · rw [hp'] at h
    rcases p.open_cases store hashChat env s with
      ⟨err, s', hopen⟩ | ⟨params, record, created, s', -, -, -, ⟨-, hopen⟩ | ⟨-, outcome, hopen⟩⟩
    all_goals
      rw [hopen] at h
      cases h
  · obtain ⟨loop, rfl⟩ := hbranch.panicked h
    simp only [Process.step, hphase, Process.advance, Process.select] at h
    split at h
    · split at h
      · next err router' hselect =>
          split at h
          · next hpanic =>
              refine Or.inr fun hfit => ?_
              have hseen : WeightsFit
                  ({ router with state := env.seen.getD router.state } : Router).configs := hfit
              rcases Router.selectFrom_error hselect with hnone | ⟨-, hne, hpanics⟩
              · exact absurd (hpanic.symm.trans hnone) (by decide)
              · rw [Router.orderPanics_of_fit hseen hne] at hpanics
                cases hpanics
          · cases h
      · cases h
    · cases h
  · rw [hp'] at h
    exact Or.inl h

end Steps

/-! ## Runs -/

section Runs

variable {σ : Type} {platform : Platform σ} {x : System σ}

/-- The action is a step of the execution `pid`. -/
def Action.advances (pid : Nat) (action : Action) : Bool := (action.stepOf pid).isSome

/-- An action brings the execution closer to its end if it is one of its steps,
    and never further away. -/
theorem System.step_rank {pid : Nat} {p : Process} (hp : x.procs pid = some p)
    (hattempts : Attempts (platform.services p.job.replica) p) (action : Action) :
    ∃ p', (x.step platform action).procs pid = some p' ∧ p'.job = p.job
      ∧ p'.phase.rank (platform.services p.job.replica).config.maxAttempts
        ≤ max (p.phase.rank (platform.services p.job.replica).config.maxAttempts
          - if action.advances pid then 1 else 0) 0 := by
  refine ⟨_, System.procs_step hp action, ?_⟩
  unfold Action.advances
  cases action.stepOf pid with
  | none =>
      simp only [Option.isSome_none, Bool.false_eq_true, if_false]
      exact ⟨trivial, by omega⟩
  | some env =>
      simp only [Option.isSome_some, if_true]
      exact ⟨Process.step_job _ _ _ _ _ _ _, Process.step_rank _ _ hattempts _ _ _⟩

theorem System.run_rank {pid : Nat} {p : Process} (hp : x.procs pid = some p)
    (hattempts : ∀ pid p, x.procs pid = some p → Attempts (platform.services p.job.replica) p)
    (actions : List Action) :
    ∃ p', (Lib.run (System.step platform) x actions).procs pid = some p' ∧ p'.job = p.job
      ∧ Attempts (platform.services p.job.replica) p'
      ∧ p'.phase.rank (platform.services p.job.replica).config.maxAttempts
        ≤ max (p.phase.rank (platform.services p.job.replica).config.maxAttempts
          - actions.countP (Action.advances pid)) 0 := by
  induction actions generalizing x p with
  | nil => exact ⟨p, hp, rfl, hattempts pid p hp, by simp⟩
  | cons action actions ih =>
      obtain ⟨p₁, hp₁, hjob₁, hrank₁⟩ := System.step_rank hp (hattempts pid p hp) action
      obtain ⟨p', hp', hjob', hattempts', hrank'⟩ := ih hp₁ (attempts_step hattempts action)
      rw [hjob₁] at hattempts' hrank'
      refine ⟨p', hp', hjob'.trans hjob₁, hattempts', ?_⟩
      rw [List.countP_cons]
      push_cast
      omega

/-- The configurations are fixed, and a panic is due to that of its replica. -/
structure Accountable (configs : Nat → List ProviderConfig) (x : System σ) : Prop where
  routers : ∀ replica, (x.routers replica).configs = configs replica
  panicked : ∀ pid p, x.procs pid = some p → p.phase = .panicked →
    ¬ WeightsFit (configs p.job.replica)

theorem Accountable.step {configs : Nat → List ProviderConfig} (h : Accountable configs x)
    (action : Action) : Accountable configs (x.step platform action) where
  routers := by
    intro replica
    rw [System.step_configs]
    exact h.routers replica
  panicked := by
    refine System.step_forall
      (Q := fun p => p.phase = .panicked → ¬ WeightsFit (configs p.job.replica)) ?_ ?_
      h.panicked action
    · rintro job ⟨⟩
    · intro p env hp hpanicked
      rw [p.step_job]
      rcases Process.step_panicked hpanicked with hbefore | hunfit
      · exact hp hbefore
      · rwa [h.routers] at hunfit

/-- **Every execution comes to an end.**  Whatever the store, the providers, the
    limiters and the clients do, and whatever runs in between, an execution that
    gets `6 * MaxAttempts + 25` steps of its own has returned, or has panicked
    because the weights of its replica's providers do not fit. -/
theorem execution_answered (platform : Platform σ) (s : σ) (routers : Nat → Router)
    (early late : List Action) (pid : Nat) (p : Process)
    (hp : (Lib.run (System.step platform) (System.init s routers) early).procs pid = some p)
    (hsteps : 6 * (platform.services p.job.replica).config.maxAttempts + 25
      ≤ (late.countP (Action.advances pid) : Int)) :
    ∃ p', (Lib.run (System.step platform) (System.init s routers)
        (early ++ late)).procs pid = some p'
      ∧ p'.job = p.job
      ∧ ((∃ result, p'.phase = .returned result)
        ∨ p'.phase = .panicked ∧ ¬ WeightsFit (routers p.job.replica).configs) := by
  have hattempts : ∀ pid p,
      (Lib.run (System.step platform) (System.init s routers) early).procs pid = some p →
      Attempts (platform.services p.job.replica) p :=
    System.run_forall_service platform attempts_new
      (fun _ _ env s router hp => hp.step env s router) s routers early
  obtain ⟨p', hp', hjob, hattempts', hrank⟩ := System.run_rank hp hattempts late
  rw [← Lib.run_append] at hp'
  refine ⟨p', hp', hjob, ?_⟩
  -- the steps have used up the rank
  have hle := (hattempts pid p hp).rank_le
  have hover := hattempts'.over_of_rank (by omega)
  refine hover.imp id fun hpanicked => ⟨hpanicked, ?_⟩
  have haccountable : Accountable (fun replica => (routers replica).configs)
      (Lib.run (System.step platform) (System.init s routers) (early ++ late)) := by
    refine Lib.run_invariant' (fun _ action h => h.step action) (early ++ late) ⟨fun _ => rfl, ?_⟩
    rintro pid p ⟨⟩
  rw [← hjob]
  exact haccountable.panicked pid p' hp' hpanicked

/-- A request that has reached its provider call, with a default of three
    attempts. -/
theorem execution_answered_called :
    ∃ p' result, (Lib.run (System.step (samplePlatform Persistence.Postgres.store)) sampleStart
        (upToCall ++ List.replicate 43 (.advance 0 (sampleEnv "x" "y" 4)))).procs 0 = some p'
      ∧ p'.phase = .returned result := by
  have hcalled : ((Lib.run (System.step (samplePlatform Persistence.Postgres.store)) sampleStart
      upToCall).procs 0).map (fun p => p.job.replica) = some 0 := by
    decide +kernel
  obtain ⟨p, hp, hreplica⟩ := Option.map_eq_some_iff.mp hcalled
  obtain ⟨p', hp', -, ⟨result, hresult⟩ | ⟨-, hunfit⟩⟩ := execution_answered
    (samplePlatform Persistence.Postgres.store) (Db.init (Catalog.sample 100 Catalog.hundred_fits))
    (fun _ => sampleRouter) upToCall (List.replicate 43 (.advance 0 (sampleEnv "x" "y" 4))) 0 p hp
    (by rw [hreplica]; decide +kernel)
  · exact ⟨p', result, hp', hresult⟩
  · exact absurd (by decide +kernel) hunfit

end Runs

end Aegis.Gateway
