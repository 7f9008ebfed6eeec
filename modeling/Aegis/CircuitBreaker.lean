/-
  Aegis.CircuitBreaker

  The closed / open / half-open breaker (internal/circuitbreaker/breaker.go).
  Every method holds the mutex for its whole body, so each is one function on
  the breaker's state.
-/

import Aegis.Go

namespace Aegis.CircuitBreaker

/-- The observable circuit state. -/
inductive State where
  | closed
  | «open»
  | halfOpen
deriving DecidableEq, Repr

/-- `Config` as the caller gives it; durations in microseconds. -/
structure Config where
  failureThreshold : Int := 0
  window : Int := 0
  openDuration : Int := 0
  halfOpenProbes : Int := 0
deriving DecidableEq, Repr

/-- The defaults `New` puts in place of values that are not positive. -/
def Config.withDefaults (config : Config) : Config where
  failureThreshold := if config.failureThreshold ≤ 0 then 5 else config.failureThreshold
  window := if config.window ≤ 0 then Time.seconds 30 else config.window
  openDuration := if config.openDuration ≤ 0 then Time.seconds 15 else config.openDuration
  halfOpenProbes := if config.halfOpenProbes ≤ 0 then 1 else config.halfOpenProbes

structure Breaker where
  config : Config
  state : State
  failures : List Time
  openedAt : Time
  halfOpenActive : Int
deriving DecidableEq, Repr

namespace Breaker

/-- `New`: a closed breaker. -/
def new (config : Config) : Breaker where
  config := config.withDefaults
  state := .closed
  failures := []
  openedAt := 0
  halfOpenActive := 0

/-- `open`: the circuit opens at `now` with no probe outstanding. -/
def «open» (breaker : Breaker) (now : Time) : Breaker :=
  { breaker with state := .open, openedAt := now, halfOpenActive := 0 }

/-- `Allow` reserves a half-open probe when necessary. -/
def allow (breaker : Breaker) (now : Time) : Bool × Breaker :=
  let breaker :=
    if breaker.state = .open ∧ now - breaker.openedAt ≥ breaker.config.openDuration then
      { breaker with state := .halfOpen, halfOpenActive := 0 }
    else breaker
  match breaker.state with
  | .closed => (true, breaker)
  | .halfOpen =>
      if breaker.halfOpenActive ≥ breaker.config.halfOpenProbes then (false, breaker)
      else (true, { breaker with halfOpenActive := breaker.halfOpenActive + 1 })
  | .open => (false, breaker)

/-- `Success` closes the breaker and releases a half-open probe. -/
def success (breaker : Breaker) : Breaker :=
  { breaker with state := .closed, failures := [], halfOpenActive := 0 }

/-- `Failure` records one retry-relevant failure. -/
def failure (breaker : Breaker) (now : Time) : Breaker :=
  if breaker.state = .halfOpen then breaker.open now
  else
    let cutoff := now - breaker.config.window
    let retained := breaker.failures.filter fun occurred => decide (cutoff < occurred)
    let breaker := { breaker with failures := retained ++ [now] }
    if (breaker.failures.length : Int) ≥ breaker.config.failureThreshold then breaker.open now
    else breaker

/-- `Release` abandons an unused half-open probe without recording a failure. -/
def release (breaker : Breaker) : Breaker :=
  if breaker.state = .halfOpen ∧ breaker.halfOpenActive > 0 then
    { breaker with halfOpenActive := breaker.halfOpenActive - 1 }
  else breaker

/-- `State`, which reads half-open once time permits but does not store it. -/
def stateAt (breaker : Breaker) (now : Time) : State :=
  if breaker.state = .open ∧ now - breaker.openedAt ≥ breaker.config.openDuration then .halfOpen
  else breaker.state

/-! ## What each method does -/

section Methods

variable {breaker : Breaker} {now : Time}

/-- The outcomes of `Allow`. -/
inductive Allowed (breaker : Breaker) (now : Time) : Bool × Breaker → Prop
  | closed (hstate : breaker.state = .closed) : Allowed breaker now (true, breaker)
  /-- open, and not for long enough -/
  | waiting (hstate : breaker.state = .open)
      (hwait : now < breaker.openedAt + breaker.config.openDuration) :
      Allowed breaker now (false, breaker)
  | full (hstate : breaker.state = .halfOpen)
      (hfull : breaker.config.halfOpenProbes ≤ breaker.halfOpenActive) :
      Allowed breaker now (false, breaker)
  | probe (hstate : breaker.state = .halfOpen)
      (hroom : breaker.halfOpenActive < breaker.config.halfOpenProbes) :
      Allowed breaker now
        (true, { breaker with halfOpenActive := breaker.halfOpenActive + 1 })
  /-- the open time is over and no probe is permitted at all -/
  | barred (hstate : breaker.state = .open)
      (hover : breaker.openedAt + breaker.config.openDuration ≤ now)
      (hnone : breaker.config.halfOpenProbes ≤ 0) :
      Allowed breaker now (false, { breaker with state := .halfOpen, halfOpenActive := 0 })
  /-- the open time is over: the first probe -/
  | first (hstate : breaker.state = .open)
      (hover : breaker.openedAt + breaker.config.openDuration ≤ now)
      (hroom : 0 < breaker.config.halfOpenProbes) :
      Allowed breaker now (true, { breaker with state := .halfOpen, halfOpenActive := 0 + 1 })

theorem allow_cases (breaker : Breaker) (now : Time) :
    Allowed breaker now (breaker.allow now) := by
  obtain ⟨config, state, failures, openedAt, active⟩ := breaker
  cases state with
  | closed => exact .closed rfl
  | halfOpen =>
      simp only [allow, reduceCtorEq, false_and, if_false]
      split
      · next hfull => exact .full rfl hfull
      · next hroom => exact .probe rfl (Int.not_le.mp hroom)
  | «open» =>
      by_cases hover : now - openedAt ≥ config.openDuration
      · simp only [allow, hover, and_self, if_true]
        have hover' : openedAt + config.openDuration ≤ now := Int.add_le_of_le_sub_left hover
        split
        · next hfull => exact .barred rfl hover' hfull
        · next hroom => exact .first rfl hover' (Int.not_le.mp hroom)
      · simp only [allow, hover, and_false, if_false]
        exact .waiting rfl (Int.lt_add_of_sub_left_lt (Int.not_le.mp hover))

/-- A breaker that admits does not read open. -/
theorem stateAt_of_allow (h : (breaker.allow now).1 = true) : breaker.stateAt now ≠ .open := by
  have hcases := allow_cases breaker now
  generalize breaker.allow now = result at hcases h
  unfold stateAt
  cases hcases with
  | waiting | full | barred => cases h
  | closed hstate => simp [hstate]
  | probe hstate hroom => simp [hstate]
  | first hstate hover hroom =>
      have helapsed : now - breaker.openedAt ≥ breaker.config.openDuration :=
        Int.le_sub_left_of_add_le hover
      rw [if_pos ⟨hstate, helapsed⟩]
      simp

/-- Where probes are permitted, a refusal leaves the breaker as it was. -/
theorem allow_refused (hprobes : 0 < breaker.config.halfOpenProbes)
    (h : (breaker.allow now).1 = false) : breaker.allow now = (false, breaker) := by
  have hcases := allow_cases breaker now
  generalize breaker.allow now = result at hcases h
  cases hcases with
  | closed | probe | first => cases h
  | waiting | full => rfl
  | barred hopen hover hnone => omega

/-- A breaker that admits changes its state from open to half-open at most, and
    its probes. -/
theorem allow_admits (h : (breaker.allow now).1 = true) :
    ∃ state probes, (breaker.allow now).2 = { breaker with state, halfOpenActive := probes }
      ∧ (state = breaker.state ∨ breaker.state = .open ∧ state = .halfOpen) := by
  have hcases := allow_cases breaker now
  generalize breaker.allow now = result at hcases h
  cases hcases with
  | waiting | full | barred => cases h
  | closed hstate => exact ⟨breaker.state, breaker.halfOpenActive, rfl, Or.inl rfl⟩
  | probe hstate hroom => exact ⟨breaker.state, _, rfl, Or.inl rfl⟩
  | first hstate hover hroom => exact ⟨.halfOpen, _, rfl, Or.inr ⟨hstate, rfl⟩⟩

/-- No method changes the configuration. -/
theorem allow_config (breaker : Breaker) (now : Time) :
    (breaker.allow now).2.config = breaker.config := by
  have hcases := allow_cases breaker now
  generalize breaker.allow now = result at hcases
  cases hcases <;> rfl

theorem failure_config (breaker : Breaker) (now : Time) :
    (breaker.failure now).config = breaker.config := by
  unfold failure
  dsimp only
  split
  · rfl
  · split <;> rfl

theorem release_config (breaker : Breaker) : breaker.release.config = breaker.config := by
  unfold release
  split <;> rfl

/-- `Failure` opens the circuit now, or only records in a circuit that is not
    half-open. -/
theorem failure_cases (breaker : Breaker) (now : Time) :
    (∃ failures, breaker.failure now = { breaker with failures }.open now)
      ∨ breaker.state ≠ .halfOpen
        ∧ ∃ failures, breaker.failure now = { breaker with failures } := by
  unfold failure
  dsimp only
  split
  · exact Or.inl ⟨breaker.failures, rfl⟩
  · next hstate =>
      split
      · exact Or.inl ⟨_, rfl⟩
      · exact Or.inr ⟨hstate, _, rfl⟩

/-- Within its window a failure leaves a trace that a release does not. -/
theorem failure_ne_release (hwindow : 0 < breaker.config.window) (now : Time) :
    breaker.failure now ≠ breaker.release := by
  intro heq
  by_cases hstate : breaker.state = .halfOpen
  · -- the failure opens the circuit, the release keeps it half-open
    have hopen : (breaker.failure now).state = .open := by
      unfold failure
      rw [if_pos hstate]
      rfl
    have hkept : breaker.release.state = .halfOpen := by
      unfold release
      split <;> exact hstate
    rw [heq, hkept] at hopen
    cases hopen
  · have hrelease : breaker.release = breaker := by
      unfold release
      exact if_neg fun h => hstate h.1
    -- `now` itself is in the window, so one more occurrence is
    have hfailures : (breaker.failure now).failures
        = breaker.failures.filter
          (fun occurred => decide (now - breaker.config.window < occurred)) ++ [now] := by
      unfold failure
      rw [if_neg hstate]
      dsimp only
      split <;> rfl
    have hcount := congrArg (fun b : Breaker => (b.failures.filter
      fun occurred => decide (now - breaker.config.window < occurred)).length) heq
    rw [hrelease, hfailures, List.filter_append, List.filter_filter] at hcount
    simp at hcount
    exact absurd hcount (Int.not_le.mpr hwindow)

end Methods

/-! ## Probes -/

section Probes

variable {breaker : Breaker}

/-- The probes in flight are counted from 0, in the half-open state only, and
    at least one is permitted there. -/
structure Sound (breaker : Breaker) : Prop where
  nonneg : 0 ≤ breaker.halfOpenActive
  idle : breaker.state ≠ .halfOpen → breaker.halfOpenActive = 0
  permitted : 0 < breaker.config.halfOpenProbes

theorem sound_new (config : Config) : (new config).Sound where
  nonneg := Int.le_refl _
  idle := fun _ => rfl
  permitted := by
    simp only [new, Config.withDefaults]
    split <;> omega

theorem Sound.allow (h : breaker.Sound) (now : Time) :
    (breaker.allow now).2.Sound
      ∧ (breaker.allow now).2.halfOpenActive
        ≤ breaker.halfOpenActive + (breaker.allow now).1.toNat := by
  have hnonneg := h.nonneg
  have hcases := allow_cases breaker now
  generalize breaker.allow now = result at hcases
  cases hcases with
  | closed =>
      refine ⟨h, ?_⟩
      simp only [Bool.toNat_true]
      omega
  | waiting | full => exact ⟨h, by simp⟩
  | probe hstate hroom =>
      refine ⟨⟨?_, fun hne => absurd hstate hne, h.permitted⟩, by simp⟩
      dsimp only
      omega
  | barred hstate hover hnone => exact absurd h.permitted (Int.not_lt.mpr hnone)
  | first hstate hover hroom =>
      refine ⟨⟨Int.zero_le_ofNat 1, fun hne => absurd rfl hne, hroom⟩, ?_⟩
      simp only [Bool.toNat_true]
      omega

theorem Sound.success (h : breaker.Sound) : breaker.success.Sound :=
  ⟨Int.le_refl _, fun _ => rfl, h.permitted⟩

/-- A failure ends the half-open state. -/
theorem Sound.failure (h : breaker.Sound) (now : Time) :
    (breaker.failure now).Sound ∧ (breaker.failure now).halfOpenActive = 0 := by
  rcases failure_cases breaker now with ⟨failures, hfailure⟩ | ⟨hstate, failures, hfailure⟩
  · rw [hfailure]
    exact ⟨⟨Int.le_refl _, fun _ => rfl, h.permitted⟩, rfl⟩
  · rw [hfailure]
    exact ⟨⟨h.nonneg, h.idle, h.permitted⟩, h.idle hstate⟩

/-- A release takes one probe off, if there is one. -/
theorem Sound.release (h : breaker.Sound) :
    breaker.release.Sound
      ∧ (breaker.release.halfOpenActive = 0
        ∨ breaker.release.halfOpenActive + 1 = breaker.halfOpenActive) := by
  have hnonneg := h.nonneg
  unfold Breaker.release
  split
  · next hprobe =>
      refine ⟨⟨?_, fun hne => absurd hprobe.1 hne, h.permitted⟩, Or.inr ?_⟩
      · dsimp only
        omega
      · dsimp only
        omega
  · next hnone =>
      refine ⟨h, Or.inl ?_⟩
      by_cases hstate : breaker.state = .halfOpen
      · have hactive : ¬breaker.halfOpenActive > 0 := fun hpos => hnone ⟨hstate, hpos⟩
        omega
      · exact h.idle hstate

/-- Without a probe in flight, a circuit that does not read open admits. -/
theorem Sound.allow_of_idle (h : breaker.Sound) (hidle : breaker.halfOpenActive = 0) {now : Time}
    (hstate : breaker.stateAt now ≠ .open) : (breaker.allow now).1 = true := by
  have hpermitted := h.permitted
  have hcases := allow_cases breaker now
  generalize breaker.allow now = result at hcases
  cases hcases with
  | closed | probe | first => rfl
  | full hstate' hfull => omega
  | barred hstate' hover hnone => omega
  | waiting hopen hwait =>
      have hearly : ¬now - breaker.openedAt ≥ breaker.config.openDuration := by
        intro hover
        exact absurd hwait (Int.not_lt.mpr (Int.add_le_of_le_sub_left hover))
      refine absurd ?_ hstate
      unfold stateAt
      rw [if_neg (fun hboth => hearly hboth.2)]
      exact hopen

end Probes

end Breaker

end Aegis.CircuitBreaker
