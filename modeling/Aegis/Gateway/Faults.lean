/-
  Aegis.Gateway.Faults

  Which provider faults the circuit breakers hear of.

  `execute` decides with one flag whether to try again and whether the provider
  was at fault: `retryable` is also false at the last attempt.  There a fault
  only gives the provider's slot back (`fault_reaches_breaker_iff`).
-/

import Aegis.Gateway.Leases
import Aegis.Routing.Latency

namespace Aegis.Gateway

open Aegis.CircuitBreaker (Breaker)
open Aegis.Persistence (Store)
open Aegis.Provider (isRetryable)
open Aegis.Request (ChatInput Record)
open Aegis.Routing (Lease Router)

section Fresh

variable {σ : Type} {store : Store σ} {hashChat : ChatInput → Except GoError (List UInt8)}
  {service : Service} {env : Env}

/-- The lease that a process holds has not been reported. -/
def Process.Fresh (p : Process) : Prop :=
  ∀ lease, p.phase.lease? = some lease → lease.released = false

/-- `Select` hands out a lease that nobody has reported. -/
theorem Process.select_fresh (p : Process) (record : Record) (loop : Loop) (router : Router) :
    (p.select service record loop env router).1.Fresh := by
  intro lease hlease
  unfold Process.select at hlease
  split at hlease
  · dsimp only at hlease
    split at hlease
    · split at hlease <;> cases hlease
    · next lease' router' hselect =>
        cases hlease
        have hconfigs : router.configs
            = ({ router with state := env.seen.getD router.state } : Router).configs := rfl
        obtain ⟨config, -, hof, -⟩ := Router.selectFrom_ok hconfigs hselect
        rw [hof]
        rfl
  · cases hlease

theorem Process.step_fresh (p : Process) (s : σ) (router : Router) (h : p.Fresh) :
    (p.step store hashChat service env s router).1.Fresh := by
  cases hselecting : p.phase.isSelecting with
  | true =>
      unfold Phase.isSelecting at hselecting
      split at hselecting
      · next record loop hphase =>
          unfold Process.step
          rw [hphase]
          exact p.select_fresh record loop router
      · cases hselecting
  | false =>
      intro lease hlease
      rcases p.step_lease store hashChat service env s router hselecting with
        ⟨hkept, -⟩ | ⟨_, _, -, -, hnone, -⟩
      · rw [hkept] at hlease
        exact h lease hlease
      · rw [hnone] at hlease
        cases hlease

end Fresh

/-- The error of a provider call that `IsRetryable` puts down to the provider,
    before any content. -/
def CallResult.Fault (result : CallResult) (err : GoError) : Prop :=
  result.completion = .error err ∧ isRetryable err = true ∧ result.isPartial = false

section Report

variable {service : Service} {env : Env} {p : Process} {lease : Lease} {err : GoError}

/-- What a failed call tells the breaker of its provider. -/
theorem answered_breaker (record : Record) (loop : Loop) (started : Time)
    (hfresh : lease.released = false)
    (hcall : (p.called service env).completion = .error err) (router : Router) :
    ((p.answered service record loop lease started (p.called service env) env router).2.state
        lease.entry).breaker
      = if (isRetryable err && !(p.called service env).isPartial
            && decide ((loop.attemptNumber : Int) < service.config.maxAttempts)) = true
        then (router.state lease.entry).breaker.failure env.info.now
        else (router.state lease.entry).breaker.release := by
  unfold Process.answered
  dsimp only
  rw [hcall]
  dsimp only
  rw [Router.failure_eq hfresh]
  simp only [Router.setState, Function.update_self]

end Report

variable {σ : Type}

/-- **Provider faults reach the breaker, except at the last attempt.**  In every
    run, at every step in which a provider call ends in an error: a fault counts
    as a `Failure` of that provider's breaker and any other error does not, if and
    only if a fault leaves attempts. -/
theorem fault_reaches_breaker_iff (platform : Platform σ) (s : σ) (routers : Nat → Router)
    (actions : List Action) {x x' : System σ} {pid : Nat} {env : Env} {p : Process}
    {record : Record} {loop : Loop} {lease : Lease} {started : Time} {err : GoError}
    (hstep : (x, Action.advance pid env, x')
      ∈ Lib.trace (System.step platform) (System.init s routers) actions)
    (hp : x.procs pid = some p) (hphase : p.phase = .running record (.calling loop lease started))
    (hcall : (p.called (platform.services p.job.replica) env).completion = .error err)
    (hwindow : 0 < ((x.routers p.job.replica).state lease.entry).breaker.config.window) :
    let before := ((x.routers p.job.replica).state lease.entry).breaker
    let after := ((x'.routers p.job.replica).state lease.entry).breaker
    let result := p.called (platform.services p.job.replica) env
    ((result.Fault err → after = before.failure env.info.now)
        ∧ (¬result.Fault err → after = before.release))
      ↔ (result.Fault err →
        (loop.attemptNumber : Int) < (platform.services p.job.replica).config.maxAttempts) := by
  intro before after result
  obtain ⟨pre, post, -, hpre⟩ := Lib.mem_trace hstep
  have hfresh : lease.released = false := by
    have hall : p.Fresh := System.run_forall platform (fun _ _ h => by cases h)
      (fun q env s router hq => q.step_fresh s router hq) s routers pre pid p
      (by rw [← hpre]; exact hp)
    apply hall
    rw [hphase]
    rfl
  have hafter : after = if (isRetryable err && !result.isPartial && decide
        ((loop.attemptNumber : Int) < (platform.services p.job.replica).config.maxAttempts)) = true
      then before.failure env.info.now else before.release := by
    have hx' : x' = x.step platform (.advance pid env) := Lib.trace_step hstep
    show ((x'.routers p.job.replica).state lease.entry).breaker = _
    rw [hx']
    simp only [System.step, hp, Function.update_self]
    unfold Process.step
    rw [hphase]
    exact answered_breaker record loop started hfresh hcall (x.routers p.job.replica)
  have hdistinct : before.failure env.info.now ≠ before.release :=
    Breaker.failure_ne_release hwindow _
  have hfault : result.Fault err ↔ (isRetryable err && !result.isPartial) = true := by
    unfold CallResult.Fault
    simp [show result.completion = .error err from hcall]
  rw [hafter, hfault]
  by_cases hclass : (isRetryable err && !result.isPartial) = true
  · by_cases hleft :
        (loop.attemptNumber : Int) < (platform.services p.job.replica).config.maxAttempts
    · rw [if_pos (by simp [hclass, hleft])]
      exact iff_of_true ⟨fun _ => rfl, fun hno => absurd hclass hno⟩ fun _ => hleft
    · -- the last attempt: the provider is released like one that did its work
      rw [if_neg (by simp [hclass, hleft])]
      refine iff_of_false (fun hreached => ?_) (fun hlast => hleft (hlast hclass))
      exact hdistinct (hreached.1 hclass).symm
  · rw [if_neg (by simp [hclass])]
    exact iff_of_true ⟨fun hyes => absurd hyes hclass, fun _ => rfl⟩
      fun hyes => absurd hyes hclass

/-! ## Concrete runs -/

/-- The platform with a bound on the attempts. -/
def boundedPlatform (maxAttempts : Int) : Platform Persistence.Db :=
  { samplePlatform Persistence.Postgres.store with
    services := fun _ => newService false { maxAttempts } }

/-- An upstream that is overloaded. -/
def overloaded : GoError :=
  ⟨[.provider { provider := "p", category := "upstream_error", status := 503, retryable := true }]⟩

/-- The call ends in that error. -/
def overloadedEnv : Env := { sampleEnv "" "" 4 with complete := .error overloaded }

/-- The request at its provider call, under a bound on the attempts. -/
def atCall (maxAttempts : Int) : System Persistence.Db :=
  Lib.run (System.step (boundedPlatform maxAttempts)) sampleStart upToCall

theorem atCall_calling (maxAttempts : Int) (h : ((atCall maxAttempts).procs 0).map
      (fun p => (p.job.replica, p.job.emit.isNone, match p.phase with
        | .running _ (.calling loop lease _) => some (loop.attemptNumber, lease.entry)
        | _ => none)) = some (0, true, some (1, 0))) :
    ∃ p record loop lease started, (atCall maxAttempts).procs 0 = some p
      ∧ p.job.replica = 0
      ∧ p.phase = .running record (.calling loop lease started)
      ∧ loop.attemptNumber = 1 ∧ lease.entry = 0
      ∧ ∀ service, (p.called service overloadedEnv).Fault overloaded := by
  obtain ⟨p, hp, hvalues⟩ := Option.map_eq_some_iff.mp h
  obtain ⟨hreplica, hvalues⟩ := Prod.mk.inj hvalues
  obtain ⟨hemit, hcalling⟩ := Prod.mk.inj hvalues
  have hsubmit : p.job.emit = none := Option.isNone_iff_eq_none.mp hemit
  have hfault : ∀ service, (p.called service overloadedEnv).Fault overloaded := by
    intro service
    unfold Process.called call
    rw [hsubmit]
    exact ⟨rfl, by decide, rfl⟩
  split at hcalling
  · next record loop lease started hphase =>
      obtain ⟨hattempt, hentry⟩ := Prod.mk.inj (Option.some.inj hcalling)
      exact ⟨p, record, loop, lease, started, hp, hreplica, hphase, hattempt, hentry, hfault⟩
  · cases hcalling

/-- With one attempt, the fault of the overloaded upstream is not counted. -/
theorem lastFault_unrecorded :
    let x := atCall 1
    let x' := x.step (boundedPlatform 1) (.advance 0 overloadedEnv)
    ∃ p record loop lease started, x.procs 0 = some p
      ∧ p.phase = .running record (.calling loop lease started)
      ∧ (p.called ((boundedPlatform 1).services p.job.replica) overloadedEnv).Fault overloaded
      ∧ ((x'.routers p.job.replica).state lease.entry).breaker.failures = []
      ∧ ((x'.routers p.job.replica).state lease.entry).breaker
        ≠ ((x.routers p.job.replica).state lease.entry).breaker.failure overloadedEnv.info.now := by
  intro x x'
  obtain ⟨p, record, loop, lease, started, hp, hreplica, hphase, -, hentry, hfault⟩ :=
    atCall_calling 1 (by decide +kernel)
  refine ⟨p, record, loop, lease, started, hp, hphase, hfault _, ?_⟩
  rw [hreplica, hentry]
  exact ⟨by decide +kernel, by decide +kernel⟩

/-- With two it is. -/
theorem firstFault_recorded :
    let x := atCall 2
    let x' := x.step (boundedPlatform 2) (.advance 0 overloadedEnv)
    ∃ p record loop lease started, x.procs 0 = some p
      ∧ p.phase = .running record (.calling loop lease started)
      ∧ ((x'.routers p.job.replica).state lease.entry).breaker
        = ((x.routers p.job.replica).state lease.entry).breaker.failure overloadedEnv.info.now := by
  intro x x'
  obtain ⟨p, record, loop, lease, started, hp, hreplica, hphase, hattempt, hentry, hfault⟩ :=
    atCall_calling 2 (by decide +kernel)
  have hstep : (x, Action.advance 0 overloadedEnv, x')
      ∈ Lib.trace (System.step (boundedPlatform 2)) sampleStart
        (upToCall ++ [.advance 0 overloadedEnv]) := by
    rw [Lib.trace_append]
    exact List.mem_append_right _ (List.mem_cons_self ..)
  have hwindow : 0 < ((x.routers p.job.replica).state lease.entry).breaker.config.window := by
    rw [hreplica, hentry]
    decide +kernel
  have hreached := (fault_reaches_breaker_iff (boundedPlatform 2) _ _ _ hstep hp hphase
    (hfault _).1 hwindow).mpr
  have hleft : (loop.attemptNumber : Int)
      < ((boundedPlatform 2).services p.job.replica).config.maxAttempts := by
    rw [hattempt, hreplica]
    decide
  exact ⟨p, record, loop, lease, started, hp, hphase, (hreached fun _ => hleft).1 (hfault _)⟩

end Aegis.Gateway
