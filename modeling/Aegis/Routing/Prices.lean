/-
  Aegis.Routing.Prices

  The prices that a reservation is computed with.  `HighestPrices` and `Select`
  filter the providers in two separate loops: the first sees the configuration
  only, the second also health, circuits, capacity and exclusions.  Every
  provider that passes the second filter passes the first, so the reservation
  covers every provider that a request can fail over to.
-/

import Aegis.Budget
import Aegis.Routing

namespace Aegis.Routing

open Aegis.Budget (costMicroUSD costMicroUSD_mono)

/-- The static filter reads the model, the classification and the allowed
    providers only. -/
theorem staticallyEligible_congr {selection other : Selection}
    (hmodel : other.model = selection.model)
    (hclass : other.dataClassification = selection.dataClassification)
    (hallowed : other.allowedProviders = selection.allowedProviders) :
    staticallyEligible other = staticallyEligible selection := by
  funext config
  unfold staticallyEligible
  rw [hmodel, hclass, hallowed]

/-! ## The highest prices -/

/-- One turn of the loop of `HighestPrices`. -/
def raise (prices : Int × Int) (config : ProviderConfig) : Int × Int :=
  (max prices.1 config.inputCostPerMillionMicro, max prices.2 config.outputCostPerMillionMicro)

theorem le_foldl_raise (found : List ProviderConfig) (prices : Int × Int) :
    prices.1 ≤ (found.foldl raise prices).1 ∧ prices.2 ≤ (found.foldl raise prices).2 := by
  induction found generalizing prices with
  | nil => exact ⟨Int.le_refl _, Int.le_refl _⟩
  | cons config found ih =>
      obtain ⟨hinput, houtput⟩ := ih (raise prices config)
      exact ⟨Int.le_trans (Int.le_max_left ..) hinput, Int.le_trans (Int.le_max_left ..) houtput⟩

theorem price_le_foldl_raise {found : List ProviderConfig} {config : ProviderConfig}
    (hmem : config ∈ found) (prices : Int × Int) :
    config.inputCostPerMillionMicro ≤ (found.foldl raise prices).1
      ∧ config.outputCostPerMillionMicro ≤ (found.foldl raise prices).2 := by
  induction found generalizing prices with
  | nil => cases hmem
  | cons first found ih =>
      rcases List.mem_cons.mp hmem with rfl | hmem
      · obtain ⟨hinput, houtput⟩ := le_foldl_raise found (raise prices config)
        exact ⟨Int.le_trans (Int.le_max_right ..) hinput,
          Int.le_trans (Int.le_max_right ..) houtput⟩
      · exact ih hmem _

/-- A provider that passes the static filter makes `HighestPrices` succeed and
    is no more expensive than it says. -/
theorem highestPrices_of_mem {configs : List ProviderConfig} {selection : Selection}
    {config : ProviderConfig} (hmem : config ∈ configs)
    (hstatic : staticallyEligible selection config = true) :
    ∃ input output, highestPrices configs selection = .ok (input, output)
      ∧ config.inputCostPerMillionMicro ≤ input ∧ config.outputCostPerMillionMicro ≤ output := by
  have hfound : config ∈ configs.filter (staticallyEligible selection) :=
    List.mem_filter.mpr ⟨hmem, hstatic⟩
  obtain ⟨hinput, houtput⟩ := price_le_foldl_raise hfound (0, 0)
  refine ⟨_, _, ?_, hinput, houtput⟩
  unfold highestPrices
  split
  · next hnone =>
      rw [hnone] at hfound
      cases hfound
  · rfl

/-! ## Reservations -/

/-- **The reservation covers every failover.**  Let all prices be non-negative.
    Whatever the state of the router, while the filter runs and at the
    acquisition, and whatever is excluded, when `Select` returns a lease then
    `HighestPrices` of the same request succeeds and bounds the prices of the
    lease; and what is used within the estimate costs no more at the lease's
    prices than was reserved at the highest ones. -/
theorem reservation_covers_lease (seen router router' : Router) (selection : Selection)
    (excludedProviders : List String) (strategy : Strategy) (now : Time) (lease : Lease)
    (hconfigs : router.configs = seen.configs)
    (hprices : ∀ config ∈ seen.configs,
      0 ≤ config.inputCostPerMillionMicro ∧ 0 ≤ config.outputCostPerMillionMicro)
    (hselect : Router.selectFrom seen router
      { selection with excludedProviders, strategy, now } = (.ok lease, router')) :
    ∃ input output, highestPrices seen.configs selection = .ok (input, output)
      ∧ lease.inputCostPerMillionMicro ≤ input ∧ lease.outputCostPerMillionMicro ≤ output
      ∧ ∀ p c estimatedPrompt maxCompletion reservation,
        0 ≤ p → p ≤ estimatedPrompt → 0 ≤ c → c ≤ maxCompletion →
        costMicroUSD estimatedPrompt maxCompletion input output = .ok reservation →
        ∃ cost, costMicroUSD p c lease.inputCostPerMillionMicro lease.outputCostPerMillionMicro
            = .ok cost
          ∧ cost ≤ reservation := by
  obtain ⟨config, hmem, hlease, hstatic, -⟩ := Router.selectFrom_ok hconfigs hselect
  have hstatic' : staticallyEligible selection config = true := by
    rw [← hstatic]
    exact congrFun (staticallyEligible_congr rfl rfl rfl) config
  obtain ⟨input, output, hhighest, hinput, houtput⟩ := highestPrices_of_mem hmem hstatic'
  obtain ⟨hinput0, houtput0⟩ := hprices config hmem
  rw [hlease]
  refine ⟨input, output, hhighest, hinput, houtput, ?_⟩
  intro p c estimatedPrompt maxCompletion reservation hp hpp hc hcc hreserve
  exact costMicroUSD_mono hp hpp hc hcc hinput0 hinput houtput0 houtput hreserve

/-- Two providers of different prices. -/
def twoPrices : Router where
  configs := [("a", 1, 2), ("b", 3, 5)].map fun (name, input, output) => {
    provider := ⟨name, ["m"], ["public"]⟩, enabled := true, maxConcurrency := 1
    inputCostPerMillionMicro := input, outputCostPerMillionMicro := output }
  state := fun _ => {
    occupancy := 0, breaker := CircuitBreaker.Breaker.new {}, outstanding := 0
    healthy := true, ewmaMS := 0 }
  sequence := 0

/-- The cheap provider is excluded after a failure, and the request fails over
    to the other one. -/
theorem reservation_covers_lease_failover :
    ∃ input output,
      highestPrices twoPrices.configs ⟨"m", "public", none, [], .priorityFallback, 0⟩
        = .ok (input, output) ∧ 3 ≤ input ∧ 5 ≤ output := by
  obtain ⟨input, output, hhighest, hinput, houtput, -⟩ :=
    reservation_covers_lease twoPrices twoPrices _ ⟨"m", "public", none, [], .priorityFallback, 0⟩
      ["a"] .priorityFallback 7 ⟨1, ⟨"b", ["m"], ["public"]⟩, 0, 3, 5, false⟩ rfl (by decide)
      (Prod.ext (by decide) rfl)
  exact ⟨input, output, hhighest, hinput, houtput⟩

end Aegis.Routing
