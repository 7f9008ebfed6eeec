/-
  Aegis.CircuitBreaker.Window

  The failure window.  `Failure` throws away the timestamps that have left the
  window each time it is called, and nothing is recorded in the half-open
  state.  Here the breaker stands beside the full history, the timestamps of
  all `Failure` calls since the last `Success`, of which nothing is thrown
  away, and the two are compared at every later cutoff.

  The callers follow no discipline: any method may be called at any time.
-/

import Aegis.CircuitBreaker
import Aegis.Lib.Runs

namespace Aegis.CircuitBreaker

/-- A call of one of the methods that change a breaker. -/
inductive Call where
  | allow (now : Time)
  | success
  | failure (now : Time)
  | release
deriving DecidableEq, Repr

/-- A breaker with its history. -/
structure Recorded where
  breaker : Breaker
  /-- the `Failure` calls since the last `Success`, or since the creation -/
  history : List Time
  /-- the latest timestamp so far -/
  clock : Time

namespace Recorded

/-- A new breaker; no timestamp is earlier than `start`. -/
def new (config : Config) (start : Time) : Recorded where
  breaker := Breaker.new config
  history := []
  clock := start

/-- One call.  Timestamps do not decrease: an earlier one is not a call. -/
def step (x : Recorded) : Call → Recorded
  | .allow now =>
      if now < x.clock then x
      else { x with breaker := (x.breaker.allow now).2, clock := now }
  | .success => { x with breaker := x.breaker.success, history := [] }
  | .failure now =>
      if now < x.clock then x
      else { breaker := x.breaker.failure now, history := x.history ++ [now], clock := now }
  | .release => { x with breaker := x.breaker.release }

/-! ## Timestamps in the window -/

/-- The timestamps later than `now - window`. -/
def within (window now : Time) (times : List Time) : List Time :=
  times.filter fun occurred => decide (now - window < occurred)

theorem within_append (window now : Time) (early late : List Time) :
    within window now (early ++ late) = within window now early ++ within window now late :=
  List.filter_append ..

/-- What has left the window does not come back. -/
theorem within_within {window now later : Time} (h : now ≤ later) (times : List Time) :
    within window later (within window now times) = within window later times := by
  unfold within
  rw [List.filter_filter]
  apply List.filter_congr
  intro occurred _
  by_cases hlate : later - window < occurred
  · have hearly : now - window < occurred :=
      Int.lt_of_le_of_lt (Int.sub_le_sub_right h window) hlate
    simp [hlate, hearly]
  · simp [hlate]

/-! ## One call -/

theorem withDefaults_window_pos (config : Config) : 0 < config.withDefaults.window := by
  simp only [Config.withDefaults, Time.seconds]
  split <;> omega

theorem withDefaults_threshold_pos (config : Config) :
    0 < config.withDefaults.failureThreshold := by
  simp only [Config.withDefaults]
  split <;> omega

/-- What `Failure` retains. -/
def retained (breaker : Breaker) (now : Time) : List Time :=
  within breaker.config.window now breaker.failures ++ [now]

/-- `Failure` in the closed state opens the circuit or records the failure. -/
theorem failure_of_closed {breaker : Breaker} (hclosed : breaker.state = .closed) (now : Time) :
    (breaker.config.failureThreshold ≤ (retained breaker now).length
        ∧ breaker.failure now = { breaker with failures := retained breaker now }.open now)
      ∨ ((retained breaker now).length < breaker.config.failureThreshold
        ∧ breaker.failure now = { breaker with failures := retained breaker now }) := by
  have hstate : ¬breaker.state = .halfOpen := by
    rw [hclosed]
    exact State.noConfusion
  unfold Breaker.failure
  rw [if_neg hstate]
  dsimp only
  split
  · next hmany => exact Or.inl ⟨hmany, rfl⟩
  · next hfew => exact Or.inr ⟨Int.not_le.mp hfew, rfl⟩

/-- Only `Success` closes a circuit. -/
theorem failure_not_closed {breaker : Breaker} (h : breaker.state ≠ .closed) (now : Time) :
    (breaker.failure now).state ≠ .closed := by
  rcases breaker.failure_cases now with ⟨failures, hdone⟩ | ⟨-, failures, hdone⟩
  · rw [hdone]
    exact State.noConfusion
  · rw [hdone]
    exact h

theorem allow_not_closed {breaker : Breaker} (h : breaker.state ≠ .closed) (now : Time) :
    (breaker.allow now).2.state ≠ .closed := by
  have hcases := breaker.allow_cases now
  generalize breaker.allow now = result at hcases
  cases hcases with
  | closed hstate => exact absurd hstate h
  | waiting | full | probe => exact h
  | barred | first => exact State.noConfusion

theorem allow_of_closed {breaker : Breaker} (h : breaker.state = .closed) (now : Time) :
    (breaker.allow now).2 = breaker := by
  have hcases := breaker.allow_cases now
  generalize breaker.allow now = result at hcases
  cases hcases with
  | closed => rfl
  | waiting hstate | full hstate | probe hstate | barred hstate | first hstate =>
      exact State.noConfusion (hstate.symm.trans h)

theorem release_of_not_halfOpen {breaker : Breaker} (h : breaker.state ≠ .halfOpen) :
    breaker.release = breaker := by
  unfold Breaker.release
  exact if_neg fun hboth => h hboth.1

theorem release_state (breaker : Breaker) : breaker.release.state = breaker.state := by
  unfold Breaker.release
  split <;> rfl

/-! ## Runs -/

/-- In the closed state the retained failures are those of the history, at
    every cutoff from now on. -/
structure Kept (config : Config) (x : Recorded) : Prop where
  configured : x.breaker.config = config.withDefaults
  below : x.breaker.state = .closed →
    x.breaker.failures.length < config.withDefaults.failureThreshold
  same : x.breaker.state = .closed → ∀ now, x.clock ≤ now →
    within config.withDefaults.window now x.breaker.failures
      = within config.withDefaults.window now x.history

theorem kept_new (config : Config) (start : Time) : Kept config (new config start) where
  configured := rfl
  below := fun _ => withDefaults_threshold_pos config
  same := fun _ _ _ => rfl

section Steps

variable {config : Config} {x : Recorded}

/-- A breaker that keeps its failures, or is not closed, keeps the history. -/
theorem Kept.of_same (h : Kept config x) {breaker : Breaker} {clock : Time}
    (hclock : x.clock ≤ clock) (hconfig : breaker.config = x.breaker.config)
    (hsame : breaker.state = .closed → breaker = x.breaker) :
    Kept config { x with breaker, clock } where
  configured := hconfig.trans h.configured
  below := by
    intro hclosed
    have heq := hsame hclosed
    dsimp only at hclosed ⊢
    rw [heq] at hclosed ⊢
    exact h.below hclosed
  same := by
    intro hclosed now hnow
    have heq := hsame hclosed
    dsimp only at hclosed hnow ⊢
    rw [heq] at hclosed ⊢
    exact h.same hclosed now (Int.le_trans hclock hnow)

/-- The failures that `Failure` counts are those of the history. -/
theorem Kept.retained_eq (h : Kept config x) (hclosed : x.breaker.state = .closed) {now : Time}
    (hnow : x.clock ≤ now) :
    retained x.breaker now
      = within config.withDefaults.window now (x.history ++ [now]) := by
  have hlast : within config.withDefaults.window now [now] = [now] := by
    have hpos := withDefaults_window_pos config
    exact List.filter_eq_self.mpr (by simpa using hpos)
  unfold retained
  rw [h.configured, h.same hclosed now hnow, within_append, hlast]

theorem Kept.failure (h : Kept config x) {now : Time} (hnow : x.clock ≤ now) :
    Kept config
      { breaker := x.breaker.failure now, history := x.history ++ [now], clock := now } := by
  refine ⟨(x.breaker.failure_config now).trans h.configured, ?_, ?_⟩
  · intro hstill
    have hclosed : x.breaker.state = .closed :=
      by_contra fun hopen => failure_not_closed hopen now hstill
    dsimp only at hstill ⊢
    rcases failure_of_closed hclosed now with ⟨-, hdone⟩ | ⟨hfew, hdone⟩
    · rw [hdone] at hstill
      exact State.noConfusion hstill
    · rw [hdone, ← h.configured]
      exact hfew
  · intro hstill later hlater
    have hclosed : x.breaker.state = .closed :=
      by_contra fun hopen => failure_not_closed hopen now hstill
    dsimp only at hstill hlater ⊢
    rcases failure_of_closed hclosed now with ⟨-, hdone⟩ | ⟨-, hdone⟩
    · rw [hdone] at hstill
      exact State.noConfusion hstill
    · rw [hdone]
      dsimp only
      -- a later cutoff sees the same of the pruned list as of the whole one
      rw [h.retained_eq hclosed hnow, within_within hlater]

theorem Kept.step (h : Kept config x) (call : Call) : Kept config (x.step call) := by
  cases call with
  | allow now =>
      simp only [Recorded.step]
      split
      · exact h
      · next hlate =>
          refine h.of_same (Int.not_lt.mp hlate) (x.breaker.allow_config now) ?_
          intro hclosed
          refine allow_of_closed (by_contra fun hopen => ?_) now
          exact allow_not_closed hopen now hclosed
  | success =>
      exact ⟨h.configured, fun _ => withDefaults_threshold_pos config, fun _ _ _ => rfl⟩
  | failure now =>
      simp only [Recorded.step]
      split
      · exact h
      · next hlate => exact h.failure (Int.not_lt.mp hlate)
  | release =>
      refine h.of_same (Int.le_refl _) x.breaker.release_config ?_
      intro hclosed
      refine release_of_not_halfOpen ?_
      rw [← release_state x.breaker, hclosed]
      exact State.noConfusion

end Steps

theorem kept_run (config : Config) (start : Time) (calls : List Call) :
    Kept config (Lib.run step (new config start) calls) :=
  Lib.run_invariant' (fun _ call h => h.step call) calls (kept_new config start)

/-- **The pruned window counts like the full history.**  In every run, in the
    closed state: fewer than `FailureThreshold` failures are retained; a
    `Failure(now)` opens the circuit exactly when, this one included, at least
    `FailureThreshold` of the `Failure` calls since the last `Success` are later
    than `now - Window`; and no other call leaves the closed state. -/
theorem opens_iff_history (config : Config) (start : Time) (calls : List Call)
    (hclosed : (Lib.run step (new config start) calls).breaker.state = .closed) :
    let x := Lib.run step (new config start) calls
    x.breaker.failures.length < config.withDefaults.failureThreshold
      ∧ (∀ now, x.clock ≤ now →
        ((x.breaker.failure now).state = .open ↔
          config.withDefaults.failureThreshold
            ≤ (x.history ++ [now]).countP fun occurred =>
                decide (now - config.withDefaults.window < occurred)))
      ∧ ∀ call, (x.step call).breaker.state ≠ .closed →
        ∃ now, call = .failure now ∧ x.clock ≤ now
          ∧ (x.breaker.failure now).state = .open := by
  have hkept := kept_run config start calls
  generalize Lib.run step (new config start) calls = x at hclosed hkept
  refine ⟨hkept.below hclosed, ?_, ?_⟩
  · intro now hnow
    rw [List.countP_eq_length_filter, ← within, ← hkept.retained_eq hclosed hnow,
      ← hkept.configured]
    rcases failure_of_closed hclosed now with ⟨hmany, hdone⟩ | ⟨hfew, hdone⟩
    · rw [hdone]
      exact iff_of_true rfl hmany
    · rw [hdone]
      refine iff_of_false ?_ (Int.not_le.mpr hfew)
      exact fun hopen => State.noConfusion (hclosed.symm.trans hopen)
  · intro call hleft
    cases call with
    | allow now =>
        refine absurd ?_ hleft
        simp only [step]
        split
        · exact hclosed
        · rw [allow_of_closed hclosed]
          exact hclosed
    | success => exact absurd rfl hleft
    | failure now =>
        simp only [step] at hleft
        split at hleft
        · exact absurd hclosed hleft
        · next hlate =>
            refine ⟨now, rfl, Int.not_lt.mp hlate, ?_⟩
            rcases failure_of_closed hclosed now with ⟨-, hdone⟩ | ⟨-, hdone⟩
            · rw [hdone]
              rfl
            · rw [hdone] at hleft
              exact absurd hclosed hleft
    | release =>
        refine absurd ?_ hleft
        exact (release_state x.breaker).trans hclosed

/-- With a threshold of 2 and a window of 10, the failure at 0 has left the
    window at 10 and the failure at 12 opens the circuit. -/
theorem opens_iff_history_expired :
    let x := Lib.run step (new { failureThreshold := 2, window := 10 } 0)
      [.failure 0, .allow 5, .release, .failure 10]
    x.breaker.state = .closed ∧ x.history = [0, 10] ∧ (x.breaker.failure 12).state = .open := by
  refine ⟨by decide, by decide, ?_⟩
  have hopens := opens_iff_history { failureThreshold := 2, window := 10 } 0
    [.failure 0, .allow 5, .release, .failure 10] (by decide)
  exact (hopens.2.1 12 (by decide)).mpr (by decide)

end Recorded

end Aegis.CircuitBreaker
