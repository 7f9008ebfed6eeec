/-
  Aegis.Routing.Latency

  The latency estimate behind the least-latency strategy, over every run of
  `Select` and of reports on its leases.

  The estimate is the moving average of the whole milliseconds of the recorded
  latencies (`Sound.ewma`).  It stays between the least and the greatest of
  them (`estimate_of_forall`).  But it is also 0 before the first measurement, and
  `latency` reads 0 as unmeasured: a provider all of whose answers took less
  than a millisecond is ordered as if it had never answered.
-/

import Aegis.Lib.Runs
import Aegis.Routing.Select
import Mathlib.Tactic.Linarith

namespace Aegis.Routing

open Aegis.CircuitBreaker (Breaker)
open Aegis.Lib (run)

/-- A `time.Duration`: an `int64` number of nanoseconds. -/
structure Duration where
  nanoseconds : Int
  fits : isInt64 nanoseconds = true

/-- `Milliseconds()`, which truncates. -/
def Duration.milliseconds (latency : Duration) : Int := latency.nanoseconds.tdiv 1000000

/-! ## The estimate -/

/-- One update of `ewmaMS` in `Success`. -/
def measure (ewmaMS measurement : ℚ) : ℚ :=
  if ewmaMS = 0 then measurement else (1 / 5 : ℚ) * measurement + (4 / 5 : ℚ) * ewmaMS

/-- The estimate after a list of measurements. -/
def estimate (measurements : List ℚ) : ℚ := measurements.foldl measure 0

theorem estimate_concat (measurements : List ℚ) (m : ℚ) :
    estimate (measurements ++ [m]) = measure (estimate measurements) m := by
  unfold estimate
  rw [List.foldl_append]
  rfl

/-- **Convexity.**  What holds of all measurements and of weighted means holds of
    the estimate. -/
theorem estimate_of_forall {P : ℚ → Prop}
    (hmean : ∀ e m, P e → P m → P ((1 / 5 : ℚ) * m + (4 / 5 : ℚ) * e)) {measurements : List ℚ}
    (hne : measurements ≠ []) (hall : ∀ m ∈ measurements, P m) : P (estimate measurements) := by
  induction measurements using List.reverseRecOn with
  | nil => exact absurd rfl hne
  | append_singleton earlier m ih =>
      have hm : P m := hall m (List.mem_append_right _ (List.mem_singleton.mpr rfl))
      rw [estimate_concat]
      unfold measure
      by_cases hzero : estimate earlier = 0
      · rw [if_pos hzero]
        exact hm
      · rw [if_neg hzero]
        have hearlier : earlier ≠ [] := by
          rintro rfl
          exact hzero rfl
        exact hmean _ _ (ih hearlier fun x hx => hall x (List.mem_append_left _ hx)) hm

theorem estimate_le {measurements : List ℚ} {high : ℚ} (hne : measurements ≠ [])
    (h : ∀ m ∈ measurements, m ≤ high) : estimate measurements ≤ high :=
  estimate_of_forall (P := (· ≤ high)) (fun e m he hm => by linarith) hne h

theorem le_estimate {measurements : List ℚ} {low : ℚ} (hne : measurements ≠ [])
    (h : ∀ m ∈ measurements, low ≤ m) : low ≤ estimate measurements :=
  estimate_of_forall (P := (low ≤ ·)) (fun e m he hm => by linarith) hne h

/-- Over measurements that are not negative, the estimate is 0 exactly while
    all of them are. -/
theorem estimate_eq_zero_iff {measurements : List ℚ} (hnonneg : ∀ m ∈ measurements, 0 ≤ m) :
    estimate measurements = 0 ↔ ∀ m ∈ measurements, m = 0 := by
  induction measurements using List.reverseRecOn with
  | nil =>
      refine ⟨fun _ m hm => ?_, fun _ => rfl⟩
      exact absurd hm List.not_mem_nil
  | append_singleton earlier m ih =>
      have hm : 0 ≤ m := hnonneg m (List.mem_append_right _ (List.mem_singleton.mpr rfl))
      have hearlier : ∀ x ∈ earlier, 0 ≤ x := fun x hx => hnonneg x (List.mem_append_left _ hx)
      have hzeros : (∀ x ∈ earlier ++ [m], x = 0) ↔ (∀ x ∈ earlier, x = 0) ∧ m = 0 := by
        rw [List.forall_mem_append]
        simp
      rw [hzeros, ← ih hearlier, estimate_concat]
      unfold measure
      by_cases hzero : estimate earlier = 0
      · rw [if_pos hzero]
        simp [hzero]
      · rw [if_neg hzero]
        have hne : earlier ≠ [] := by
          rintro rfl
          exact hzero rfl
        -- the estimate is positive and stays so
        have hprevious : 0 ≤ estimate earlier := le_estimate hne hearlier
        have hpositive : 0 < estimate earlier := lt_of_le_of_ne hprevious (Ne.symm hzero)
        constructor
        · intro hsum
          linarith
        · rintro ⟨hsum, -⟩
          exact absurd hsum hzero

/-! ## What the calls do to the estimates -/

namespace Router

section Calls

variable {router router' : Router} {selection : Selection} {result : Except GoError Lease}
  {lease : Lease}

/-- Of an entry that a call touches it changes neither the estimate nor the
    configuration of the breaker. -/
theorem Selected.keeps (h : router.Selected selection result router') (index : Nat) :
    (router'.state index).ewmaMS = (router.state index).ewmaMS
      ∧ (router'.state index).breaker.config = (router.state index).breaker.config := by
  cases result with
  | error err =>
      rw [(h.failed err rfl).2]
      exact ⟨rfl, rfl⟩
  | ok lease =>
      by_cases hindex : index = lease.entry
      · obtain ⟨state, probes, hstate, -⟩ := h.leased lease rfl
        rw [hindex, hstate]
        exact ⟨rfl, rfl⟩
      · rw [h.others lease rfl index hindex]
        exact ⟨rfl, rfl⟩

theorem success_of_released (h : lease.released = true) (latencyMS : Int) :
    router.success lease latencyMS = (lease, router) := by
  simp [success, release, h]

theorem failure_of_released (h : lease.released = true) (retryable : Bool) (now : Time) :
    router.failure lease retryable now = (lease, router) := by
  simp [failure, release, h]

/-- The first `Success` on a lease. -/
theorem success_eq (h : lease.released = false) (latencyMS : Int) :
    router.success lease latencyMS
      = ({ lease with released := true }, router.setState lease.entry {
          router.state lease.entry with
          occupancy := (router.state lease.entry).occupancy - 1
          outstanding := (router.state lease.entry).outstanding - 1
          ewmaMS := measure (router.state lease.entry).ewmaMS latencyMS
          breaker := (router.state lease.entry).breaker.success }) := by
  simp [success, release, h, setState, measure]

/-- The first `Failure` on a lease. -/
theorem failure_eq (h : lease.released = false) (retryable : Bool) (now : Time) :
    router.failure lease retryable now
      = ({ lease with released := true }, router.setState lease.entry {
          router.state lease.entry with
          occupancy := (router.state lease.entry).occupancy - 1
          outstanding := (router.state lease.entry).outstanding - 1
          breaker := if retryable then (router.state lease.entry).breaker.failure now
            else (router.state lease.entry).breaker.release }) := by
  simp [failure, release, h, setState]

/-- A call that changes one entry, without its breaker's configuration. -/
theorem WellFormed.setState (h : router.WellFormed) {index : Nat} {managed : Managed}
    (hconfig : managed.breaker.config = (router.state index).breaker.config) :
    (router.setState index managed).WellFormed := by
  refine ⟨h.weights, fun i => ?_⟩
  unfold Router.setState
  dsimp only
  by_cases hi : i = index
  · subst hi
    rw [Function.update_self, hconfig]
    exact h.probes i
  · rw [Function.update_of_ne hi]
    exact h.probes i

theorem WellFormed.selected (h : router.WellFormed)
    (hselected : router.Selected selection result router') : router'.WellFormed := by
  refine ⟨?_, fun index => ?_⟩
  · rw [hselected.configs]
    exact h.weights
  · rw [(hselected.keeps index).2]
    exact h.probes index

theorem WellFormed.success (h : router.WellFormed) (lease : Lease) (latencyMS : Int) :
    (router.success lease latencyMS).2.WellFormed := by
  cases hreleased : lease.released with
  | true =>
      rw [success_of_released hreleased]
      exact h
  | false =>
      rw [success_eq hreleased]
      exact h.setState rfl

theorem WellFormed.failure (h : router.WellFormed) (lease : Lease) (retryable : Bool)
    (now : Time) : (router.failure lease retryable now).2.WellFormed := by
  cases hreleased : lease.released with
  | true =>
      rw [failure_of_released hreleased]
      exact h
  | false =>
      rw [failure_eq hreleased]
      apply h.setState
      cases retryable with
      | true => exact Breaker.failure_config _ _
      | false => exact Breaker.release_config _

end Calls

end Router

/-! ## Runs -/

/-- A router in use: the leases handed out so far, and the latencies recorded
    for each entry. -/
structure Ledger where
  router : Router
  leases : List Lease
  recorded : Nat → List Duration

namespace Ledger

inductive Action where
  | select (clock : Time) (selection : Selection)
  /-- `Success` on the lease handed out as number `k` -/
  | success (k : Nat) (latency : Duration)
  | failure (k : Nat) (retryable : Bool) (now : Time)

/-- One call on the router or on a lease. -/
def step (x : Ledger) : Action → Ledger
  | .select clock selection =>
      match x.router.selectChecked clock selection with
      | some (.ok lease, router) => { x with router, leases := x.leases ++ [lease] }
      | some (.error _, router) => { x with router }
      | none => x
  | .success k latency =>
      match x.leases[k]? with
      | none => x
      | some lease =>
          let (lease', router) := x.router.success lease latency.milliseconds
          { router
            leases := x.leases.set k lease'
            recorded :=
              if lease.released then x.recorded
              else Function.update x.recorded lease.entry (x.recorded lease.entry ++ [latency]) }
  | .failure k retryable now =>
      match x.leases[k]? with
      | none => x
      | some lease =>
          let (lease', router) := x.router.failure lease retryable now
          { x with router, leases := x.leases.set k lease' }

/-- A new router, without a lease. -/
def ofRouter (router : Router) : Ledger := ⟨router, [], fun _ => []⟩

/-- The measurements behind an estimate. -/
def measurements (x : Ledger) (index : Nat) : List ℚ :=
  (x.recorded index).map fun latency => (latency.milliseconds : ℚ)

/-- Every estimate is that of the latencies recorded so far. -/
structure Sound (x : Ledger) : Prop where
  wellFormed : x.router.WellFormed
  ewma : ∀ index, (x.router.state index).ewmaMS = estimate (x.measurements index)

theorem sound_new {configs : List ProviderConfig} {breakerConfig : CircuitBreaker.Config}
    {router : Router} (h : Router.new configs breakerConfig = .ok router) :
    (ofRouter router).Sound := by
  refine ⟨Router.wellFormed_new h, fun index => ?_⟩
  unfold Router.new at h
  split at h
  · cases h
  · cases h
    rfl

/-- **One call.** -/
theorem Sound.step {x : Ledger} (h : x.Sound) (action : Action) : (x.step action).Sound := by
  cases action with
  | select clock selection =>
      unfold Ledger.step
      dsimp only
      split
      · next lease router hselect =>
          have hsel := Router.selectChecked_selected h.wellFormed hselect
          exact ⟨h.wellFormed.selected hsel,
            fun index => (hsel.keeps index).1.trans (h.ewma index)⟩
      · next err router hselect =>
          have hsel := Router.selectChecked_selected h.wellFormed hselect
          exact ⟨h.wellFormed.selected hsel,
            fun index => (hsel.keeps index).1.trans (h.ewma index)⟩
      · exact h
  | success k latency =>
      unfold Ledger.step
      dsimp only
      split
      · exact h
      · next lease hlease =>
          refine ⟨h.wellFormed.success lease _, fun index => ?_⟩
          cases hreleased : lease.released with
          | true =>
              rw [Router.success_of_released hreleased]
              exact h.ewma index
          | false =>
              rw [Router.success_eq hreleased]
              by_cases hindex : index = lease.entry
              · -- the one estimate that moves, by the latency that is recorded
                subst hindex
                simp only [Router.setState, measurements, Function.update_self, Bool.false_eq_true,
                  if_false, List.map_append, List.map_cons, List.map_nil]
                rw [estimate_concat, h.ewma]
                rfl
              · simp only [Router.setState, measurements, Function.update_of_ne hindex,
                  Bool.false_eq_true, if_false]
                exact h.ewma index
  | failure k retryable now =>
      unfold Ledger.step
      dsimp only
      split
      · exact h
      · next lease hlease =>
          refine ⟨h.wellFormed.failure lease _ _, fun index => ?_⟩
          cases hreleased : lease.released with
          | true =>
              rw [Router.failure_of_released hreleased]
              exact h.ewma index
          | false =>
              rw [Router.failure_eq hreleased]
              by_cases hindex : index = lease.entry
              · subst hindex
                simp only [Router.setState, measurements, Function.update_self]
                exact h.ewma lease.entry
              · simp only [Router.setState, measurements, Function.update_of_ne hindex]
                exact h.ewma index

/-- **Every run.** -/
theorem sound_run {configs : List ProviderConfig} {breakerConfig : CircuitBreaker.Config}
    {router : Router} (h : Router.new configs breakerConfig = .ok router)
    (actions : List Action) : (run step (ofRouter router) actions).Sound :=
  Aegis.Lib.run_invariant' (fun _ action hx => hx.step action) actions (sound_new h)

end Ledger

/-! ## The order -/

/-- A latency of at least a millisecond more has more whole milliseconds. -/
theorem Duration.milliseconds_lt {a b : Duration} (hnonneg : 0 ≤ a.nanoseconds)
    (h : a.nanoseconds + 1000000 ≤ b.nanoseconds) : a.milliseconds + 1 ≤ b.milliseconds := by
  unfold milliseconds
  rw [Int.tdiv_eq_ediv_of_nonneg hnonneg, Int.tdiv_eq_ediv_of_nonneg (by omega)]
  omega

/-- A duration is far below the latency of an unmeasured provider. -/
theorem Duration.milliseconds_lt_unmeasured {a : Duration} (hnonneg : 0 ≤ a.nanoseconds) :
    a.milliseconds < 10 ^ 15 := by
  have hfits := of_decide_eq_true a.fits
  unfold maxInt64 at hfits
  unfold milliseconds
  rw [Int.tdiv_eq_ediv_of_nonneg hnonneg]
  omega

theorem Duration.milliseconds_eq_zero {a : Duration} (hnonneg : 0 ≤ a.nanoseconds) :
    a.milliseconds = 0 ↔ a.nanoseconds < 1000000 := by
  unfold milliseconds
  rw [Int.tdiv_eq_ediv_of_nonneg hnonneg]
  omega

namespace Ledger

section Order

variable {x : Ledger} {a b : Nat}

/-- `a` and `b` have answered, and every answer of `a` was faster by at least a
    millisecond than every answer of `b`. -/
structure Faster (x : Ledger) (a b : Nat) : Prop where
  answered : x.recorded a ≠ []
  answered' : x.recorded b ≠ []
  faster : ∀ latency ∈ x.recorded a, ∀ latency' ∈ x.recorded b,
    latency.nanoseconds + 1000000 ≤ latency'.nanoseconds

theorem measurements_ne_nil (h : x.recorded a ≠ []) : x.measurements a ≠ [] := by
  unfold measurements
  rw [Ne, List.map_eq_nil_iff]
  exact h

/-- The estimates of such a pair are a millisecond apart. -/
theorem Faster.estimate_lt (h : x.Faster a b)
    (hnonneg : ∀ latency ∈ x.recorded a, 0 ≤ latency.nanoseconds) :
    estimate (x.measurements a) + 1 ≤ estimate (x.measurements b) := by
  apply le_estimate (measurements_ne_nil h.answered')
  intro m' hm'
  obtain ⟨latency', hlatency', rfl⟩ := List.mem_map.mp hm'
  have hle : estimate (x.measurements a) ≤ (latency'.milliseconds : ℚ) - 1 := by
    apply estimate_le (measurements_ne_nil h.answered)
    intro m hm
    obtain ⟨latency, hlatency, rfl⟩ := List.mem_map.mp hm
    have hms := Duration.milliseconds_lt (hnonneg latency hlatency)
      (h.faster latency hlatency latency' hlatency')
    have hcast : (latency.milliseconds : ℚ) + 1 ≤ latency'.milliseconds := by exact_mod_cast hms
    linarith
  linarith

/-- The answers of the slower one are not negative either. -/
theorem Faster.nonneg (h : x.Faster a b)
    (hnonneg : ∀ latency ∈ x.recorded a, 0 ≤ latency.nanoseconds) :
    ∀ latency' ∈ x.recorded b, 0 ≤ latency'.nanoseconds := by
  intro latency' hlatency'
  obtain ⟨latency, hlatency⟩ := List.exists_mem_of_ne_nil _ h.answered
  have hfaster := h.faster latency hlatency latency' hlatency'
  have hzero := hnonneg latency hlatency
  omega

theorem estimate_nonneg (h : x.recorded a ≠ [])
    (hnonneg : ∀ latency ∈ x.recorded a, 0 ≤ latency.nanoseconds) :
    (∀ m ∈ x.measurements a, 0 ≤ m) ∧ 0 ≤ estimate (x.measurements a) := by
  have hall : ∀ m ∈ x.measurements a, 0 ≤ m := by
    intro m hm
    obtain ⟨latency, hlatency, rfl⟩ := List.mem_map.mp hm
    have hms : 0 ≤ latency.milliseconds := Int.tdiv_nonneg (hnonneg latency hlatency) (by decide)
    exact_mod_cast hms
  exact ⟨hall, le_estimate (measurements_ne_nil h) hall⟩

/-- The slower one is measured. -/
theorem Faster.latency_right (h : x.Faster a b) (hsound : x.Sound)
    (hnonneg : ∀ latency ∈ x.recorded a, 0 ≤ latency.nanoseconds) :
    x.router.latency b = estimate (x.measurements b) := by
  have hpositive : 0 < estimate (x.measurements b) := by
    have hlt := h.estimate_lt hnonneg
    have hzero := (estimate_nonneg h.answered hnonneg).2
    linarith
  unfold Router.latency
  rw [hsound.ewma b, if_neg hpositive.ne']

/-- The faster one is measured once it has taken a millisecond. -/
theorem latency_left (h : x.recorded a ≠ []) (hsound : x.Sound)
    (hnonneg : ∀ latency ∈ x.recorded a, 0 ≤ latency.nanoseconds) :
    x.router.latency a
      = if ∃ latency ∈ x.recorded a, 1000000 ≤ latency.nanoseconds
        then estimate (x.measurements a) else 10 ^ 15 := by
  have hzero : estimate (x.measurements a) = 0
      ↔ ¬∃ latency ∈ x.recorded a, 1000000 ≤ latency.nanoseconds := by
    rw [estimate_eq_zero_iff (estimate_nonneg h hnonneg).1]
    unfold measurements
    rw [List.forall_mem_map]
    push Not
    apply forall₂_congr
    intro latency hlatency
    rw [Int.cast_eq_zero, Duration.milliseconds_eq_zero (hnonneg latency hlatency)]
  unfold Router.latency
  rw [hsound.ewma a]
  by_cases hmeasured : ∃ latency ∈ x.recorded a, 1000000 ≤ latency.nanoseconds
  · rw [if_pos hmeasured, if_neg (fun h0 => hzero.mp h0 hmeasured)]
  · rw [if_neg hmeasured, if_pos (hzero.mpr hmeasured)]

end Order

/-- **Least latency prefers the faster provider once it has taken a millisecond.**
    In every run of calls and reports: if all answers of `a` were faster by at
    least a millisecond than all of `b`, and both are eligible, then `a` is
    ordered before `b` if and only if one of its answers took a millisecond or
    more.  Below that its estimate is 0, the mark of an unmeasured provider. -/
theorem leastLatency_before_iff {configs : List ProviderConfig}
    {breakerConfig : CircuitBreaker.Config} {router : Router}
    (hnew : Router.new configs breakerConfig = .ok router) {actions : List Action} {x : Ledger}
    (hx : x = run step (ofRouter router) actions) {a b : Nat} (hfaster : x.Faster a b)
    (hnonneg : ∀ latency ∈ x.recorded a, 0 ≤ latency.nanoseconds) {selection : Selection}
    (ha : a ∈ x.router.eligibleEntries selection) (hb : b ∈ x.router.eligibleEntries selection) :
    [a, b].Sublist (x.router.order (x.router.eligibleEntries selection) .leastLatency)
      ↔ ∃ latency ∈ x.recorded a, 1000000 ≤ latency.nanoseconds := by
  have hsound : x.Sound := by
    rw [hx]
    exact sound_run hnew actions
  have hperm := x.router.order_perm (x.router.eligibleEntries selection) .leastLatency
  have hsorted : (x.router.order (x.router.eligibleEntries selection) .leastLatency).Pairwise
      (Aegis.Lib.ByKey x.router.latency (· < ·)) :=
    Aegis.Lib.pairwise_insertionSort_key (x.router.eligibleEntries_pairwise selection)
  have hright := hfaster.latency_right hsound hnonneg
  have hleft := latency_left hfaster.answered hsound hnonneg
  by_cases hmeasured : ∃ latency ∈ x.recorded a, 1000000 ≤ latency.nanoseconds
  · refine iff_of_true ?_ hmeasured
    apply Aegis.Lib.pair_sublist_of_key_lt hsorted (hperm.mem_iff.mpr ha) (hperm.mem_iff.mpr hb)
    rw [if_pos hmeasured] at hleft
    have hlt := hfaster.estimate_lt hnonneg
    rw [hleft, hright]
    linarith
  · refine iff_of_false (fun hbefore => ?_) hmeasured
    have hle := Aegis.Lib.key_le_of_pair_sublist hsorted hbefore
    rw [if_neg hmeasured] at hleft
    -- no measured latency reaches that of an unmeasured provider
    have hbelow : estimate (x.measurements b) < 10 ^ 15 := by
      apply estimate_of_forall (P := (· < 10 ^ 15)) (fun e m he hm => by linarith)
        (measurements_ne_nil hfaster.answered')
      intro m hm
      obtain ⟨latency, hlatency, rfl⟩ := List.mem_map.mp hm
      have hms := Duration.milliseconds_lt_unmeasured (hfaster.nonneg hnonneg latency hlatency)
      exact_mod_cast hms
    rw [hleft, hright] at hle
    linarith

end Ledger

/-- Two idle providers. -/
def twoProviders : Router where
  configs := ["first", "second"].map fun name =>
    { provider := ⟨name, ["model"], ["internal"]⟩, weight := 1, maxConcurrency := 20,
      timeout := Time.seconds 30, enabled := true }
  state := overweight.state
  sequence := 0

/-- One call to each of them, with the latencies of the answers. -/
def answeredAfter (first second : Duration) : List Ledger.Action :=
  [.select 0 { anyProvider with strategy := .leastOutstanding },
   .select 0 { anyProvider with strategy := .leastOutstanding },
   .success 0 first, .success 1 second]

theorem faster_answeredAfter {first second : Duration}
    (h : first.nanoseconds + 1000000 ≤ second.nanoseconds) :
    (run Ledger.step (.ofRouter twoProviders) (answeredAfter first second)).Faster 0 1 := by
  have hfirst : (run Ledger.step (.ofRouter twoProviders)
      (answeredAfter first second)).recorded 0 = [first] := rfl
  have hsecond : (run Ledger.step (.ofRouter twoProviders)
      (answeredAfter first second)).recorded 1 = [second] := rfl
  refine ⟨by rw [hfirst]; simp, by rw [hsecond]; simp, ?_⟩
  rw [hfirst, hsecond]
  simpa using h

def halfMillisecond : Duration := ⟨500000, rfl⟩

def twoMilliseconds : Duration := ⟨2000000, rfl⟩

def fiveMilliseconds : Duration := ⟨5000000, rfl⟩

/-- Answers after half a millisecond and after five: the faster provider is
    ordered last. -/
theorem leastLatency_prefers_slower :
    let x := run Ledger.step (.ofRouter twoProviders)
      (answeredAfter halfMillisecond fiveMilliseconds)
    Router.new twoProviders.configs {} = .ok twoProviders
      ∧ x.Faster 0 1
      ∧ x.router.eligibleEntries anyProvider = [0, 1]
      ∧ x.router.order [0, 1] .leastLatency = [1, 0] := by
  intro x
  refine ⟨rfl, faster_answeredAfter ?_, by decide +kernel, by decide +kernel⟩
  decide

/-- After two and five milliseconds it is ordered first. -/
theorem leastLatency_before_sample :
    let x := run Ledger.step (.ofRouter twoProviders)
      (answeredAfter twoMilliseconds fiveMilliseconds)
    [0, 1].Sublist (x.router.order (x.router.eligibleEntries anyProvider) .leastLatency) := by
  intro x
  have hnew : Router.new twoProviders.configs {} = .ok twoProviders := rfl
  have hfaster : x.Faster 0 1 := faster_answeredAfter (by decide)
  have hrecorded : x.recorded 0 = [twoMilliseconds] := rfl
  have heligible : x.router.eligibleEntries anyProvider = [0, 1] := by decide +kernel
  have hnonneg : ∀ latency ∈ x.recorded 0, 0 ≤ latency.nanoseconds := by
    rw [hrecorded]
    simp [twoMilliseconds]
  refine (Ledger.leastLatency_before_iff hnew rfl hfaster hnonneg ?_ ?_).mpr ?_
  · rw [heligible]
    decide
  · rw [heligible]
    decide
  · rw [hrecorded]
    simp [twoMilliseconds]

end Aegis.Routing
