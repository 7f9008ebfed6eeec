/-
  Aegis.Routing

  Provider selection (internal/routing/router.go): the policy filter, the four
  balancing strategies, acquisition of a lease, and the conservative prices
  used for budget admission.

  Registered providers keep their position for the life of the router, so an
  entry is its index: `configs` holds what `New` fixed and `state` what
  changes.  `Select` reads that state more than once while other goroutines
  run; `selectFrom` therefore takes the state the filter saw and the state the
  acquisition saw separately, and `select` is the case without interference.
-/

import Aegis.CircuitBreaker
import Aegis.Provider
import Mathlib.Data.List.Sort
import Mathlib.Algebra.Order.Ring.Rat

namespace Aegis.Routing

open Aegis.CircuitBreaker (Breaker)

/-- The selection algorithm after filtering.  The source's `order` treats any
    other text as weighted round robin. -/
inductive Strategy where
  | weightedRoundRobin
  | leastOutstanding
  | leastLatency
  | priorityFallback
deriving DecidableEq, Repr

/-- Routing and price metadata for one registered provider. -/
structure ProviderConfig where
  provider : Provider
  weight : Int := 0
  priority : Int := 0
  maxConcurrency : Int := 0
  timeout : Int := 0
  inputCostPerMillionMicro : Int := 0
  outputCostPerMillionMicro : Int := 0
  enabled : Bool := false
deriving DecidableEq, Repr

/-- The defaults `New` puts in place of values that are not positive. -/
def ProviderConfig.withDefaults (config : ProviderConfig) : ProviderConfig :=
  { config with
    weight := if config.weight ≤ 0 then 1 else config.weight
    maxConcurrency := if config.maxConcurrency ≤ 0 then 20 else config.maxConcurrency
    timeout := if config.timeout ≤ 0 then Time.seconds 30 else config.timeout }

/-- What changes about a registered provider. -/
structure Managed where
  /-- `len(semaphore)` -/
  occupancy : Int
  breaker : Breaker
  outstanding : Int
  healthy : Bool
  ewmaMS : ℚ

structure Router where
  configs : List ProviderConfig
  state : Nat → Managed
  /-- `atomic.Uint64` -/
  sequence : Nat

namespace Router

/-- `New`. -/
def new (configs : List ProviderConfig) (breakerConfig : CircuitBreaker.Config) :
    Except GoError Router :=
  if configs = [] then .error (.new "at least one provider is required")
  else .ok {
    configs := configs.map ProviderConfig.withDefaults
    state := fun _ => {
      occupancy := 0, breaker := Breaker.new breakerConfig, outstanding := 0,
      healthy := true, ewmaMS := 0 }
    sequence := 0 }

end Router

/-- Request eligibility inputs.  `allowedProviders` is `none` for a nil map. -/
structure Selection where
  model : String
  dataClassification : String
  allowedProviders : Option (List String)
  excludedProviders : List String := []
  strategy : Strategy
  now : Time := 0
deriving DecidableEq, Repr

/-- Provider capacity held until the caller reports an outcome. -/
structure Lease where
  entry : Nat
  provider : Provider
  timeout : Int
  inputCostPerMillionMicro : Int
  outputCostPerMillionMicro : Int
  released : Bool := false
deriving DecidableEq, Repr

/-- The lease on entry `index` configured as `config`. -/
def Lease.of (index : Nat) (config : ProviderConfig) : Lease where
  entry := index
  provider := config.provider
  timeout := config.timeout
  inputCostPerMillionMicro := config.inputCostPerMillionMicro
  outputCostPerMillionMicro := config.outputCostPerMillionMicro

/-! ## Filtering -/

/-- The part of the filter that `HighestPrices` shares: enabled, allowed by
    the tenant, and capable of the model and classification. -/
def staticallyEligible (selection : Selection) (config : ProviderConfig) : Bool :=
  config.enabled
    && (match selection.allowedProviders with
        | none => true
        | some allowed => allowed.contains config.provider.name)
    && config.provider.models.contains selection.model
    && config.provider.dataClassifications.contains selection.dataClassification

namespace Router

/-- The filter loop of `Select` on one entry. -/
def eligible (router : Router) (selection : Selection) (config : ProviderConfig) (index : Nat) :
    Bool :=
  staticallyEligible selection config
    && (router.state index).healthy
    && !selection.excludedProviders.contains config.provider.name
    && decide ((router.state index).breaker.stateAt selection.now ≠ .open)
    && decide ((router.state index).occupancy < config.maxConcurrency)

/-- The indices that pass the filter, in registration order. -/
def eligibleEntries (router : Router) (selection : Selection) : List Nat :=
  (router.configs.zipIdx.filter fun (config, index) =>
    router.eligible selection config index).map Prod.snd

/-! ## Ordering -/

/-- `latency`. -/
def latency (router : Router) (index : Nat) : ℚ :=
  if (router.state index).ewmaMS = 0 then 10 ^ 15 else (router.state index).ewmaMS

def weight (router : Router) (index : Nat) : Int :=
  ((router.configs[index]?).map ProviderConfig.weight).getD 0

def priority (router : Router) (index : Nat) : Int :=
  ((router.configs[index]?).map ProviderConfig.priority).getD 0

/-- The weighted round-robin scan: the first entry whose weight brings
    `position` below zero, counted from the front of the list. -/
def weightedStart (router : Router) (position : Int) : List Nat → Option Nat
  | [] => none
  | index :: rest =>
      let position := wrap64 (position - router.weight index)
      if position < 0 then some 0 else (weightedStart router position rest).map (· + 1)

/-- `total` in `order`. -/
def totalWeight (router : Router) (entries : List Nat) : Int :=
  entries.foldl (fun total index => wrap64 (total + router.weight index)) 0

/-- `order` divides by zero. -/
def orderPanics (router : Router) (entries : List Nat) (strategy : Strategy) : Bool :=
  decide (strategy = .weightedRoundRobin ∧ router.totalWeight entries = 0)

/-- The panic of `order`, as an error that nothing else returns. -/
def divideByZero : GoError := .new "runtime error: integer divide by zero"

/-- `order`, unless it panics: the entries in the strategy's order.
    `sort.SliceStable` is insertion sort here; round robin rotates the list. -/
def order (router : Router) (entries : List Nat) (strategy : Strategy) : List Nat :=
  match strategy with
  | .leastOutstanding =>
      entries.insertionSort fun i j =>
        (router.state i).outstanding ≤ (router.state j).outstanding
  | .leastLatency => entries.insertionSort fun i j => router.latency i ≤ router.latency j
  | .priorityFallback => entries.insertionSort fun i j => router.priority i ≤ router.priority j
  | .weightedRoundRobin =>
      let position := (wrap64 router.sequence).tmod (router.totalWeight entries)
      let selected := (router.weightedStart position entries).getD 0
      entries.drop selected ++ entries.take selected

/-- `order` takes a ticket from the sequence under weighted round robin only. -/
def takeTicket (router : Router) (strategy : Strategy) : Router :=
  match strategy with
  | .weightedRoundRobin => { router with sequence := (router.sequence + 1) % 2 ^ 64 }
  | _ => router

/-! ## Acquisition -/

def setState (router : Router) (index : Nat) (managed : Managed) : Router :=
  { router with state := Function.update router.state index managed }

/-- The acquisition loop of `Select`: the first entry whose breaker admits and
    whose semaphore has room. -/
def acquire (now : Time) : Router → List Nat → Except GoError Lease × Router
  | router, [] => (.error (.ofSentinel .errNoEligibleProvider), router)
  | router, index :: rest =>
      match router.configs[index]? with
      | none => acquire now router rest
      | some config =>
          let entry := router.state index
          match entry.breaker.allow now with
          | (false, breaker) => acquire now (router.setState index { entry with breaker }) rest
          | (true, breaker) =>
              if entry.occupancy < config.maxConcurrency then
                (.ok (Lease.of index config),
                  router.setState index { entry with
                    breaker
                    occupancy := entry.occupancy + 1
                    outstanding := entry.outstanding + 1 })
              else
                acquire now
                  (router.setState index { entry with breaker := breaker.release }) rest

/-- `Select` where `seen` is the state the filter and the ordering read and
    `router` the state at acquisition.  A panic of `order` leaves its ticket
    taken. -/
def selectFrom (seen router : Router) (selection : Selection) : Except GoError Lease × Router :=
  let entries := seen.eligibleEntries selection
  if entries = [] then (.error (.ofSentinel .errNoEligibleProvider), router)
  else if seen.orderPanics entries selection.strategy then
    (.error divideByZero, router.takeTicket selection.strategy)
  else
    acquire selection.now (router.takeTicket selection.strategy)
      (seen.order entries selection.strategy)

/-- `Select` without interference. -/
def select (router : Router) (selection : Selection) : Except GoError Lease × Router :=
  selectFrom router router selection

/-! ## Outcomes -/

/-- `release`: `false`, and nothing else, on a lease already released. -/
def release (router : Router) (lease : Lease) : Bool × Lease × Router :=
  if lease.released then (false, lease, router)
  else
    let entry := router.state lease.entry
    (true, { lease with released := true },
      router.setState lease.entry { entry with
        occupancy := entry.occupancy - 1
        outstanding := entry.outstanding - 1 })

/-- `Success` releases capacity, updates the latency EWMA and closes the
    circuit.  The float of the source is a rational here. -/
def success (router : Router) (lease : Lease) (latencyMS : Int) : Lease × Router :=
  match router.release lease with
  | (false, lease, router) => (lease, router)
  | (true, lease, router) =>
      let entry := router.state lease.entry
      (lease, router.setState lease.entry { entry with
        ewmaMS :=
          if entry.ewmaMS = 0 then latencyMS
          else (1 / 5 : ℚ) * latencyMS + (4 / 5 : ℚ) * entry.ewmaMS
        breaker := entry.breaker.success })

/-- `Failure` releases capacity and records a breaker failure only for
    provider faults. -/
def failure (router : Router) (lease : Lease) (retryable : Bool) (now : Time) : Lease × Router :=
  match router.release lease with
  | (false, lease, router) => (lease, router)
  | (true, lease, router) =>
      let entry := router.state lease.entry
      (lease, router.setState lease.entry { entry with
        breaker := if retryable then entry.breaker.failure now else entry.breaker.release })

end Router

/-- `HighestPrices`: conservative prices across providers allowed by static
    policy, ignoring current health and capacity. -/
def highestPrices (configs : List ProviderConfig) (selection : Selection) :
    Except GoError (Int × Int) :=
  match configs.filter (staticallyEligible selection) with
  | [] => .error (.ofSentinel .errNoEligibleProvider)
  | found =>
      .ok (found.foldl (fun (input, output) config =>
        (max input config.inputCostPerMillionMicro, max output config.outputCostPerMillionMicro))
        (0, 0))

/-! ## What a lease says about its provider -/

namespace Router

theorem mem_eligibleEntries {router : Router} {selection : Selection} {index : Nat}
    (h : index ∈ router.eligibleEntries selection) :
    ∃ config, router.configs[index]? = some config
      ∧ router.eligible selection config index = true := by
  unfold eligibleEntries at h
  obtain ⟨⟨config, i⟩, hmem, rfl⟩ := List.mem_map.mp h
  obtain ⟨hzip, helig⟩ := List.mem_filter.mp hmem
  exact ⟨config, List.mem_zipIdx_iff_getElem?.mp hzip, helig⟩

/-- Ordering only rearranges. -/
theorem mem_order {router : Router} {entries : List Nat} {strategy : Strategy} {index : Nat}
    (h : index ∈ router.order entries strategy) : index ∈ entries := by
  cases strategy with
  | leastOutstanding => exact (List.mem_insertionSort _).mp h
  | leastLatency => exact (List.mem_insertionSort _).mp h
  | priorityFallback => exact (List.mem_insertionSort _).mp h
  | weightedRoundRobin =>
      rcases List.mem_append.mp h with h | h
      · exact List.mem_of_mem_drop h
      · exact List.mem_of_mem_take h

/-- Acquisition leases one of the entries it is offered. -/
theorem acquire_ok {now : Time} {router router' : Router} {entries : List Nat} {lease : Lease}
    (h : acquire now router entries = (.ok lease, router')) :
    ∃ index ∈ entries, ∃ config, router.configs[index]? = some config
      ∧ lease = Lease.of index config := by
  induction entries generalizing router with
  | nil => exact absurd (congrArg Prod.fst h) (by simp [acquire])
  | cons index rest ih =>
      have hlater : ∀ {r : Router}, acquire now r rest = (.ok lease, router') →
          r.configs = router.configs →
          ∃ i ∈ index :: rest, ∃ config, router.configs[i]? = some config
            ∧ lease = Lease.of i config := by
        intro r hacq hr
        obtain ⟨i, hi, config, hconfig, hlease⟩ := ih hacq
        exact ⟨i, List.mem_cons_of_mem _ hi, config, by rw [← hr]; exact hconfig, hlease⟩
      unfold acquire at h
      split at h
      · exact hlater h rfl
      · next config hconfig =>
          dsimp only at h
          split at h
          · exact hlater h rfl
          · split at h
            · refine ⟨index, List.mem_cons_self .., config, hconfig, ?_⟩
              simpa using (congrArg Prod.fst h).symm
            · exact hlater h rfl

/-- Acquisition has one error. -/
theorem acquire_error {now : Time} {router router' : Router} {entries : List Nat} {err : GoError}
    (h : acquire now router entries = (.error err, router')) :
    err = .ofSentinel .errNoEligibleProvider := by
  induction entries generalizing router with
  | nil =>
      cases h
      rfl
  | cons index rest ih =>
      unfold acquire at h
      split at h
      · exact ih h
      · dsimp only at h
        split at h
        · exact ih h
        · split at h
          · cases h
          · exact ih h

/-- `Select` has one error, and one panic. -/
theorem selectFrom_error {seen router router' : Router} {selection : Selection} {err : GoError}
    (h : selectFrom seen router selection = (.error err, router')) :
    err = .ofSentinel .errNoEligibleProvider
      ∨ err = divideByZero ∧ seen.eligibleEntries selection ≠ []
        ∧ seen.orderPanics (seen.eligibleEntries selection) selection.strategy = true := by
  unfold selectFrom at h
  dsimp only at h
  split at h
  · cases h
    exact Or.inl rfl
  · next hne =>
      split at h
      · next hpanics =>
          cases h
          exact Or.inr ⟨rfl, hne, hpanics⟩
      · exact Or.inl (acquire_error h)

theorem takeTicket_configs (router : Router) (strategy : Strategy) :
    (router.takeTicket strategy).configs = router.configs := by
  unfold takeTicket
  split <;> rfl

theorem takeTicket_state (router : Router) (strategy : Strategy) :
    (router.takeTicket strategy).state = router.state := by
  unfold takeTicket
  split <;> rfl

/-- **Lease soundness.** Whatever other goroutines do to the router between
    the filter and the acquisition, a lease is for a registered provider that
    is statically eligible and not excluded. -/
theorem selectFrom_ok {seen router router' : Router} {selection : Selection} {lease : Lease}
    (hconfigs : router.configs = seen.configs)
    (h : selectFrom seen router selection = (.ok lease, router')) :
    ∃ config ∈ seen.configs, lease = Lease.of lease.entry config
      ∧ staticallyEligible selection config = true
      ∧ config.provider.name ∉ selection.excludedProviders := by
  unfold selectFrom at h
  dsimp only at h
  split at h
  · exact absurd (congrArg Prod.fst h) (by simp)
  split at h
  · exact absurd (congrArg Prod.fst h) (by simp)
  · obtain ⟨index, hmem, config, hconfig, hlease⟩ := acquire_ok h
    obtain ⟨config', hconfig', helig⟩ := mem_eligibleEntries (mem_order hmem)
    have hc : config' = config := by
      rw [takeTicket_configs, hconfigs, hconfig'] at hconfig
      exact Option.some.inj hconfig
    subst hc
    simp only [eligible, Bool.and_eq_true, Bool.not_eq_true', List.contains_eq_mem,
      decide_eq_false_iff_not] at helig
    obtain ⟨⟨⟨⟨hstatic, -⟩, hexcl⟩, -⟩, -⟩ := helig
    refine ⟨config', List.mem_of_getElem? hconfig', ?_, hstatic, hexcl⟩
    rw [hlease]
    rfl

end Router

end Aegis.Routing
