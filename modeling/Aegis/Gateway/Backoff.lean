/-
  Aegis.Gateway.Backoff

  The pause between two attempts (`waitBackoff` in internal/gateway/service.go).

  The delay doubles with each attempt up to `MaximumBackoff`, and half of it is
  random.  The doubling is a shift of an `int64`, and only its result is compared
  with the cap: once the product leaves the 63 bits, what is left of it may be
  negative or zero, and the timer fires at once.  `backoff_bounded_iff` says at
  which attempts the pause is the intended one.
-/

import Aegis.Gateway.Failover
import Aegis.Gateway.Faults

namespace Aegis.Gateway

open Aegis.Persistence (Store)
open Aegis.Request (ChatInput Record)
open Aegis.Routing (Router)

/-! ## The intended pause -/

namespace Config

/-- The product of the shift, without a bound on its size. -/
def doubled (config : Config) (attempt : Nat) : Int :=
  config.initialBackoff.toInt * 2 ^ (attempt - 1)

/-- The delay that is meant. -/
def backoff (config : Config) (attempt : Nat) : Int :=
  min (config.doubled attempt) config.maximumBackoff.toInt

/-- The pause before the attempt after this one. -/
def wait (config : Config) (attempt : Nat) (random : UInt64) : Int :=
  waitBackoff config.initialBackoff config.maximumBackoff attempt random

/-- The product fits in an `int64`, or what is left of it is no shorter, when
    halved, than the halved cap. -/
def Spans (config : Config) (attempt : Nat) : Prop :=
  config.doubled attempt < 2 ^ 63
    ∨ config.maximumBackoff.toInt = 1
    ∨ (config.doubled attempt % 2 ^ 64 < 2 ^ 63
      ∧ config.maximumBackoff.toInt / 2 ≤ config.doubled attempt % 2 ^ 64 / 2)

instance (config : Config) (attempt : Nat) : Decidable (config.Spans attempt) :=
  inferInstanceAs (Decidable (_ ∨ _ ∨ (_ ∧ _)))

end Config

theorem Config.backoff_mono {config : Config} (hpos : 0 < config.initialBackoff.toInt)
    {m n : Nat} (h : m ≤ n) : config.backoff m ≤ config.backoff n := by
  have hpow : (2 : Int) ^ (m - 1) ≤ 2 ^ (n - 1) :=
    pow_le_pow_right₀ (by decide) (Nat.sub_le_sub_right h 1)
  have hdoubled : config.doubled m ≤ config.doubled n :=
    Int.mul_le_mul_of_nonneg_left hpow (Int.le_of_lt hpos)
  exact min_le_min_right _ hdoubled

/-! ## The pause of the code -/

/-- The pause for a delay: half of it and a random part of the other half. -/
def pause (delay : Int) (random : UInt64) : Int :=
  max 0 (wrap64 (delay.tdiv 2 + (random.toNat : Int) % max 1 (delay.tdiv 2)))

theorem pause_bounds {delay : Int} (hpos : 0 ≤ delay) (hfits : delay ≤ maxInt64)
    (random : UInt64) : delay / 2 ≤ pause delay random ∧ pause delay random ≤ delay := by
  have hhalf : delay.tdiv 2 = delay / 2 := Int.tdiv_eq_ediv_of_nonneg hpos
  have hlow : 0 ≤ (random.toNat : Int) % max 1 (delay / 2) := Int.emod_nonneg _ (by omega)
  have hhigh : (random.toNat : Int) % max 1 (delay / 2) < max 1 (delay / 2) :=
    Int.emod_lt_of_pos _ (by omega)
  have hwrap : wrap64 (delay / 2 + (random.toNat : Int) % max 1 (delay / 2))
      = delay / 2 + (random.toNat : Int) % max 1 (delay / 2) := by
    apply wrap64_of_isInt64
    unfold isInt64 maxInt64 at *
    exact decide_eq_true (by omega)
  unfold pause
  rw [hhalf, hwrap]
  omega

/-- The random bytes may all be zero. -/
theorem pause_zero {delay : Int} (hpos : 0 ≤ delay) (hfits : delay ≤ maxInt64) :
    pause delay 0 = delay / 2 := by
  have hhalf : delay.tdiv 2 = delay / 2 := Int.tdiv_eq_ediv_of_nonneg hpos
  have hwrap : wrap64 (delay / 2 + 0) = delay / 2 + 0 := by
    apply wrap64_of_isInt64
    unfold isInt64 maxInt64 at *
    exact decide_eq_true (by omega)
  unfold pause
  rw [hhalf, show ((0 : UInt64).toNat : Int) = 0 from rfl, Int.zero_emod, hwrap]
  omega

/-- With a negative delay the timer fires at once. -/
theorem pause_of_neg {delay : Int} (hneg : delay < 0) (hfits : -(2 ^ 63) ≤ delay)
    (random : UInt64) : pause delay random = 0 := by
  have hhalf : delay.tdiv 2 = -(-delay / 2) := by
    rw [← Int.tdiv_eq_ediv_of_nonneg (by omega), Int.neg_tdiv, Int.neg_neg]
  have hone : max 1 (-(-delay / 2)) = 1 := by omega
  have hwrap : wrap64 (-(-delay / 2) + 0) = -(-delay / 2) + 0 := by
    apply wrap64_of_isInt64
    unfold isInt64 maxInt64
    exact decide_eq_true (by omega)
  unfold pause
  rw [hhalf, hone, Int.emod_one, hwrap]
  omega

/-- A capped product and its pause, when the product is cut to 64 bits before. -/
theorem pause_bounded_iff {product maximum : Int} (hproduct : 0 < product) (hmax : 0 < maximum)
    (hfits : maximum < 2 ^ 63) :
    (∀ random, min product maximum / 2 ≤ pause (min (wrap64 product) maximum) random
        ∧ pause (min (wrap64 product) maximum) random ≤ min product maximum)
      ↔ (product < 2 ^ 63 ∨ maximum = 1
        ∨ (product % 2 ^ 64 < 2 ^ 63 ∧ maximum / 2 ≤ product % 2 ^ 64 / 2)) := by
  by_cases hsmall : product < 2 ^ 63
  · have hwrap : wrap64 product = product := by
      unfold wrap64
      omega
    rw [hwrap]
    have hdelay : min product maximum ≤ maxInt64 := by
      unfold maxInt64
      omega
    exact iff_of_true (pause_bounds (by omega) hdelay) (Or.inl hsmall)
  · have hcapped : min product maximum = maximum := by omega
    rw [hcapped]
    by_cases hsign : product % 2 ^ 64 < 2 ^ 63
    · -- what is left of the product is not negative
      have hwrap : wrap64 product = product % 2 ^ 64 := by
        unfold wrap64
        omega
      rw [hwrap]
      have hrest : 0 ≤ product % 2 ^ 64 := Int.emod_nonneg _ (by decide)
      have hdelay : min (product % 2 ^ 64) maximum ≤ maxInt64 := by
        unfold maxInt64
        omega
      constructor
      · intro hbounds
        have hleast := (hbounds 0).1
        rw [pause_zero (by omega) hdelay] at hleast
        omega
      · intro hcases random
        have hbounds := pause_bounds (by omega) hdelay random
        omega
    · -- the sign bit is set
      have hwrap : wrap64 product = product % 2 ^ 64 - 2 ^ 64 := by
        unfold wrap64
        omega
      have hneg : wrap64 product < 0 := by omega
      have hpause : ∀ random, pause (min (wrap64 product) maximum) random = 0 :=
        pause_of_neg (by omega) (by omega)
      simp only [hpause]
      constructor
      · intro hbounds
        have hleast := (hbounds 0).1
        omega
      · intro hcases random
        omega

section Pause

variable {config : Config}

/-- The delay that the code computes, on the product of the shift. -/
theorem backoffDelay_eq (config : Config) (attempt : Nat) :
    backoffDelay config.initialBackoff config.maximumBackoff attempt
      = min (wrap64 (config.doubled attempt)) config.maximumBackoff.toInt := by
  unfold backoffDelay Config.doubled
  dsimp only
  split <;> omega

theorem Config.wait_bounded_iff (hinitial : 0 < config.initialBackoff.toInt)
    (hmaximum : 0 < config.maximumBackoff.toInt) (attempt : Nat) :
    (∀ random, config.backoff attempt / 2 ≤ config.wait attempt random
        ∧ config.wait attempt random ≤ config.backoff attempt)
      ↔ config.Spans attempt := by
  have hproduct : 0 < config.doubled attempt := Int.mul_pos hinitial (Int.pow_pos (by decide))
  have hwait : ∀ random, config.wait attempt random
      = pause (min (wrap64 (config.doubled attempt)) config.maximumBackoff.toInt) random := by
    intro random
    rw [← backoffDelay_eq]
    rfl
  simp only [hwait]
  exact pause_bounded_iff hproduct hmaximum config.maximumBackoff.toInt_lt

end Pause

/-! ## The attempts that are followed by a pause -/

/-- The attempt number in the stages of the loop.  An attempt that is retried is
    not the last one. -/
def Stage.Numbered (service : Service) : Stage → Prop
  | .selecting loop | .leased loop _ | .attempted loop _ | .calling loop _ _ =>
      1 ≤ loop.attemptNumber
  | .failing loop _ _ _ retryable =>
      1 ≤ loop.attemptNumber
        ∧ (retryable = true → (loop.attemptNumber : Int) < service.config.maxAttempts)
  | .backingOff loop _ =>
      1 ≤ loop.attemptNumber ∧ (loop.attemptNumber : Int) < service.config.maxAttempts
  | _ => True

/-- The same of a process. -/
def Process.Numbered (service : Service) (p : Process) : Prop :=
  ∀ record stage, p.phase = .running record stage → stage.Numbered service

section Steps

variable {σ : Type} {store : Store σ} {hashChat : ChatInput → Except GoError (List UInt8)}
  {service : Service} {p p' : Process} {record : Record} {env : Env} {s s' : σ} {stage : Stage}

theorem Branch.numbered (h : Branch store service p record env s stage p' s')
    (hnumbered : stage.Numbered service) : p'.Numbered service := by
  intro record' stage' hphase'
  cases h with
  | progress =>
      obtain ⟨-, rfl⟩ := Phase.running.inj hphase'
      exact Nat.le_refl 1
  | fault =>
      obtain ⟨-, rfl⟩ := Phase.running.inj hphase'
      refine ⟨hnumbered, ?_⟩
      intro hretryable
      exact of_decide_eq_true (Bool.and_eq_true_iff.mp hretryable).2
  | retry =>
      obtain ⟨-, rfl⟩ := Phase.running.inj hphase'
      exact ⟨hnumbered.1, hnumbered.2 rfl⟩
  | again =>
      obtain ⟨-, rfl⟩ := Phase.running.inj hphase'
      exact Nat.le_add_left 1 _
  | lease | start | begin =>
      obtain ⟨-, rfl⟩ := Phase.running.inj hphase'
      exact hnumbered
  | validate | policy | forbidden | refuse | quote | reserve | exceeded | route | exhausted | answer
  | complete | fail | interrupted | close =>
      obtain ⟨-, rfl⟩ := Phase.running.inj hphase'
      exact True.intro
  | unvalidated | abandon | unquoted | unreserved | reject | unrouted | stalled | unstarted
  | unpriced | uncompleted | settle | unfailed | release | panic => cases hphase'

theorem Process.Numbered.step (h : p.Numbered service) (env : Env) (s : σ) (router : Router) :
    (p.step store hashChat service env s router).1.Numbered service := by
  rcases p.step_cases store hashChat service env s router with
    ⟨-, hp', -⟩ | ⟨record, stage, hphase, hbranch⟩ | ⟨-, hp', -⟩
  · obtain ⟨phase, opened, hopen, -, hrunning⟩ := p.open_result store hashChat env s
    rw [hp', hopen]
    intro record stage hrun
    obtain ⟨-, rfl⟩ := hrunning record stage hrun
    exact True.intro
  · exact hbranch.numbered (h record stage hphase)
  · rw [hp']
    exact h

end Steps

/-! ## Every run -/

/-- **The pause is the intended one, unless the doubling overflows.**  In every
    run, whenever an execution pauses after an attempt: it waits between half of
    the intended delay and all of it, whatever the random bytes, if and only if
    the shifted backoff has kept enough of its bits. -/
theorem backoff_bounded_iff {σ : Type} (platform : Platform σ) (s : σ) (routers : Nat → Router)
    (actions : List Action) {pid : Nat} {p : Process} {record : Record} {loop : Loop}
    {err : GoError}
    (hp : (Lib.run (System.step platform) (System.init s routers) actions).procs pid = some p)
    (hphase : p.phase = .running record (.backingOff loop err)) :
    let config := (platform.services p.job.replica).config
    let attempt := loop.attemptNumber
    (1 ≤ attempt ∧ (attempt : Int) < config.maxAttempts)
      ∧ (∀ earlier ≤ attempt, config.backoff earlier / 2 ≤ config.backoff attempt / 2)
      ∧ ((∀ random, config.backoff attempt / 2 ≤ config.wait attempt random
            ∧ config.wait attempt random ≤ config.backoff attempt)
          ↔ config.Spans attempt) := by
  intro config attempt
  have hnumbered : p.Numbered (platform.services p.job.replica) :=
    System.run_forall_service platform (Q := fun service p => p.Numbered service)
      (fun _ _ _ _ hrun => Phase.noConfusion hrun)
      (fun _ _ env s router h => h.step env s router) s routers actions pid p hp
  have hinitial : 0 < config.initialBackoff.toInt :=
    Int64.lt_iff_toInt_lt.mp (platform.services p.job.replica).initialBackoff_pos
  have hmaximum : 0 < config.maximumBackoff.toInt :=
    Int64.lt_iff_toInt_lt.mp (platform.services p.job.replica).maximumBackoff_pos
  refine ⟨hnumbered record _ hphase, ?_, Config.wait_bounded_iff hinitial hmaximum attempt⟩
  intro earlier hle
  exact Int.ediv_le_ediv (by decide) (Config.backoff_mono hinitial hle)

/-- With the default backoff, 50 ms up to a second, the 39th attempt is the first
    whose product leaves the 63 bits. -/
example : (newService false {}).config.Spans 38 ∧ ¬ (newService false {}).config.Spans 39 := by
  decide

/-- The service with a backoff. -/
def backoffService (initial maximum : Int64) : Service :=
  newService false { initialBackoff := initial, maximumBackoff := maximum }

def backoffPlatform (initial maximum : Int64) : Platform Persistence.Db :=
  { samplePlatform Persistence.Postgres.store with
    services := fun _ => backoffService initial maximum }

/-- Both providers are overloaded, and the execution is in its second pause. -/
def overloadedTwice : List Action :=
  upToCall ++ .advance 0 overloadedEnv :: afterCall
    ++ [.advance 0 overloadedEnv, .advance 0 (sampleEnv "q" "s" 10)]

def secondPause (initial maximum : Int64) : System Persistence.Db :=
  Lib.run (System.step (backoffPlatform initial maximum)) sampleStart overloadedTwice

theorem secondPause_attempt (initial maximum : Int64)
    (h : ((secondPause initial maximum).procs 0).map (fun p => match p.phase with
        | .running _ (.backingOff loop _) => some loop.attemptNumber
        | _ => none) = some (some 2)) :
    ∃ p record loop err, (secondPause initial maximum).procs 0 = some p
      ∧ p.phase = .running record (.backingOff loop err) ∧ loop.attemptNumber = 2 := by
  obtain ⟨p, hp, hattempt⟩ := Option.map_eq_some_iff.mp h
  split at hattempt
  · next record loop err hphase =>
      exact ⟨p, record, loop, err, hp, hphase, Option.some.inj hattempt⟩
  · cases hattempt

/-- The default backoff: the second pause is between 50 and 100 ms. -/
theorem default_backoff_bounded :
    ∃ p record loop err, (secondPause 0 0).procs 0 = some p
      ∧ p.phase = .running record (.backingOff loop err)
      ∧ ∀ random,
        50000000 ≤ (backoffService 0 0).config.wait loop.attemptNumber random
          ∧ (backoffService 0 0).config.wait loop.attemptNumber random ≤ 100000000 := by
  obtain ⟨p, record, loop, err, hp, hphase, hattempt⟩ :=
    secondPause_attempt 0 0 (by decide +kernel)
  have hbounded := (backoff_bounded_iff (backoffPlatform 0 0) _ _ _ hp hphase).2.2
  have hspans : (backoffService 0 0).config.Spans loop.attemptNumber := by
    rw [hattempt]
    decide
  have hdelay : (backoffService 0 0).config.backoff loop.attemptNumber = 100000000 := by
    rw [hattempt]
    decide
  have hwait := hbounded.mpr hspans
  refine ⟨p, record, loop, err, hp, hphase, fun random => ?_⟩
  have hone := hwait random
  rw [show ((backoffPlatform 0 0).services p.job.replica) = backoffService 0 0 from rfl,
    hdelay] at hone
  exact hone

/-- The product of the second attempt is the least `int64`: the pause is over at
    once instead of after 73 years at least. -/
theorem huge_backoff_collapses :
    let service := backoffService 4611686018427387904 4611686018427387904
    ∃ p record loop err,
      (secondPause 4611686018427387904 4611686018427387904).procs 0 = some p
      ∧ p.phase = .running record (.backingOff loop err)
      ∧ service.config.backoff loop.attemptNumber = 2 ^ 62
      ∧ ∀ random, service.config.wait loop.attemptNumber random = 0 := by
  intro service
  obtain ⟨p, record, loop, err, hp, hphase, hattempt⟩ :=
    secondPause_attempt 4611686018427387904 4611686018427387904 (by decide +kernel)
  refine ⟨p, record, loop, err, hp, hphase, ?_, ?_⟩
  · rw [hattempt]
    decide
  · intro random
    rw [hattempt]
    exact pause_of_neg (by decide) (by decide) random

end Aegis.Gateway
