/-
  Aegis.Routing.Select

  What `Select` (internal/routing/router.go) does when no other goroutine uses
  the router meanwhile: which entries are filtered, in which order they are
  tried, which one is leased, and what of the router changes.

  Under weighted round robin `order` takes a remainder by the sum of the
  weights, an `int` that can wrap to zero.  `Router.select` has the panic among
  its errors; `selectChecked` has it apart from them, and the time that `Select`
  fills in itself.

  The filter peeks at the breaker (`stateAt`) and the acquisition asks it
  (`allow`).  An entry that passed the filter is refused only by a half-open
  breaker with all its probes in flight, which leaves the breaker as it was
  (`allow_refused`); this is why a refusal changes nothing.
-/

import Aegis.Lib.Scheduling
import Aegis.Routing

namespace Aegis.Routing

open Aegis.CircuitBreaker (Breaker)
open Aegis.Lib (ByKey pick)

/-- `Select` reads the clock when the caller has not set `Now`. -/
def Selection.timed (selection : Selection) (clock : Time) : Selection :=
  if selection.now = Time.zero then { selection with now := clock } else selection

namespace Router

/-- `Select` on a router that nothing else uses; `clock` is what `time.Now`
    reads and `none` is a panic. -/
def selectChecked (router : Router) (clock : Time) (selection : Selection) :
    Option (Except GoError Lease × Router) :=
  let selection := selection.timed clock
  let entries := router.eligibleEntries selection
  if entries ≠ [] ∧ router.orderPanics entries selection.strategy = true then none
  else some (router.select selection)

/-- What `New` fixes about the providers and their breakers. -/
structure WellFormed (router : Router) : Prop where
  weights : ∀ config ∈ router.configs, 0 < config.weight
  probes : ∀ index, 0 < (router.state index).breaker.config.halfOpenProbes

theorem wellFormed_new {configs : List ProviderConfig} {breakerConfig : CircuitBreaker.Config}
    {router : Router} (h : Router.new configs breakerConfig = .ok router) :
    router.WellFormed := by
  unfold Router.new at h
  split at h
  · cases h
  · cases h
    refine ⟨fun config hconfig => ?_, fun _ => (Breaker.sound_new breakerConfig).permitted⟩
    obtain ⟨given, -, rfl⟩ := List.mem_map.mp hconfig
    simp only [ProviderConfig.withDefaults]
    split <;> omega

/-! ## The filter -/

section Filter

variable {router : Router} {selection : Selection} {index : Nat}

theorem mem_eligibleEntries_iff :
    index ∈ router.eligibleEntries selection
      ↔ ∃ config, router.configs[index]? = some config
        ∧ router.eligible selection config index = true := by
  refine ⟨mem_eligibleEntries, ?_⟩
  rintro ⟨config, hconfig, helig⟩
  unfold eligibleEntries
  refine List.mem_map.mpr ⟨(config, index), List.mem_filter.mpr ⟨?_, helig⟩, rfl⟩
  exact List.mem_zipIdx_iff_getElem?.mpr hconfig

/-- The filter keeps the registration order. -/
theorem eligibleEntries_pairwise (router : Router) (selection : Selection) :
    (router.eligibleEntries selection).Pairwise (· < ·) := by
  unfold eligibleEntries
  have hall : (router.configs.zipIdx.map Prod.snd).Pairwise (· < ·) := by
    rw [List.zipIdx_map_snd]
    exact List.pairwise_lt_range'
  exact hall.sublist (List.filter_sublist.map _)

theorem eligibleEntries_nodup (router : Router) (selection : Selection) :
    (router.eligibleEntries selection).Nodup :=
  (router.eligibleEntries_pairwise selection).imp fun h => Nat.ne_of_lt h

end Filter

/-- A provider that `Select` may lease: what the filter asks for, and a breaker
    that admits. -/
structure Admissible (router : Router) (selection : Selection) (index : Nat)
    (config : ProviderConfig) : Prop where
  registered : router.configs[index]? = some config
  enabled : config.enabled = true
  healthy : (router.state index).healthy = true
  allowed : ∀ names, selection.allowedProviders = some names → config.provider.name ∈ names
  notExcluded : config.provider.name ∉ selection.excludedProviders
  model : selection.model ∈ config.provider.models
  classification : selection.dataClassification ∈ config.provider.dataClassifications
  slot : (router.state index).occupancy < config.maxConcurrency
  admits : ((router.state index).breaker.allow selection.now).1 = true

section Admissible

variable {router : Router} {selection : Selection} {index : Nat} {config : ProviderConfig}

theorem staticallyEligible_iff :
    staticallyEligible selection config = true
      ↔ config.enabled = true
        ∧ (∀ names, selection.allowedProviders = some names → config.provider.name ∈ names)
        ∧ selection.model ∈ config.provider.models
        ∧ selection.dataClassification ∈ config.provider.dataClassifications := by
  unfold staticallyEligible
  cases selection.allowedProviders with
  | none => simp [and_assoc]
  | some allowed => simp [and_assoc]

theorem eligible_iff :
    router.eligible selection config index = true
      ↔ config.enabled = true
        ∧ (∀ names, selection.allowedProviders = some names → config.provider.name ∈ names)
        ∧ selection.model ∈ config.provider.models
        ∧ selection.dataClassification ∈ config.provider.dataClassifications
        ∧ (router.state index).healthy = true
        ∧ config.provider.name ∉ selection.excludedProviders
        ∧ (router.state index).breaker.stateAt selection.now ≠ .open
        ∧ (router.state index).occupancy < config.maxConcurrency := by
  simp only [eligible, Bool.and_eq_true, staticallyEligible_iff, Bool.not_eq_true',
    List.contains_eq_mem, decide_eq_true_eq, decide_eq_false_iff_not, and_assoc]

/-- An entry is admissible when it passes the filter and its breaker admits. -/
theorem admissible_iff :
    router.Admissible selection index config
      ↔ router.configs[index]? = some config
        ∧ router.eligible selection config index = true
        ∧ ((router.state index).breaker.allow selection.now).1 = true := by
  rw [eligible_iff]
  constructor
  · rintro ⟨hreg, henabled, hhealthy, hallowed, hexcl, hmodel, hclass, hslot, hadmits⟩
    exact ⟨hreg, ⟨henabled, hallowed, hmodel, hclass, hhealthy, hexcl,
      Breaker.stateAt_of_allow hadmits, hslot⟩, hadmits⟩
  · rintro ⟨hreg, ⟨henabled, hallowed, hmodel, hclass, hhealthy, hexcl, -, hslot⟩, hadmits⟩
    exact ⟨hreg, henabled, hhealthy, hallowed, hexcl, hmodel, hclass, hslot, hadmits⟩

end Admissible

/-! ## The order -/

/-- The weights of the entries, which `New` makes positive. -/
def weights (router : Router) (entries : List Nat) : List Nat :=
  entries.map fun index => (router.weight index).toNat

/-- What a strategy asks of the order in which the entries are tried. -/
def Arranged (router : Router) (entries : List Nat) (strategy : Strategy) (ordered : List Nat) :
    Prop :=
  match strategy with
  | .leastOutstanding =>
      ordered.Pairwise (ByKey (fun index => (router.state index).outstanding) (· < ·))
  | .leastLatency => ordered.Pairwise (ByKey router.latency (· < ·))
  | .priorityFallback => ordered.Pairwise (ByKey router.priority (· < ·))
  | .weightedRoundRobin =>
      -- while no sum wraps, the ticket falls into the interval of the first entry
      ∃ n < entries.length, ordered = entries.rotate n
        ∧ ((router.weights entries).sum ≤ maxInt64 → router.sequence < 2 ^ 63 →
          ((router.weights entries).take n).sum ≤ router.sequence % (router.weights entries).sum
          ∧ router.sequence % (router.weights entries).sum
            < ((router.weights entries).take (n + 1)).sum)

theorem order_perm (router : Router) (entries : List Nat) (strategy : Strategy) :
    (router.order entries strategy).Perm entries := by
  cases strategy with
  | leastOutstanding => exact List.perm_insertionSort _ _
  | leastLatency => exact List.perm_insertionSort _ _
  | priorityFallback => exact List.perm_insertionSort _ _
  | weightedRoundRobin =>
      unfold order
      dsimp only
      generalize (router.weightedStart _ entries).getD 0 = n
      have happend : (entries.drop n ++ entries.take n).Perm
          (entries.take n ++ entries.drop n) := List.perm_append_comm
      rw [List.take_append_drop] at happend
      exact happend

/-- The scan stops within the list. -/
theorem weightedStart_lt {router : Router} {position : Int} {entries : List Nat} {n : Nat}
    (h : router.weightedStart position entries = some n) : n < entries.length := by
  induction entries generalizing position n with
  | nil => cases h
  | cons index rest ih =>
      unfold weightedStart at h
      dsimp only at h
      split at h
      · cases h
        exact Nat.zero_lt_succ _
      · obtain ⟨m, hm, rfl⟩ := Option.map_eq_some_iff.mp h
        exact Nat.succ_lt_succ (ih hm)

/-- While no sum wraps, the scan finds the owner of the position. -/
theorem weightedStart_eq_pick {router : Router} {entries : List Nat} {p : Nat}
    (hweights : ∀ index ∈ entries, 0 < router.weight index)
    (htotal : ((router.weights entries).sum : Int) ≤ maxInt64)
    (hp : p < (router.weights entries).sum) :
    router.weightedStart p entries = pick (router.weights entries) p := by
  induction entries generalizing p with
  | nil => rfl
  | cons index rest ih =>
      have hindex : 0 < router.weight index := hweights index (List.mem_cons_self ..)
      have hcons : router.weights (index :: rest)
          = (router.weight index).toNat :: router.weights rest := rfl
      have hnat : ((router.weight index).toNat : Int) = router.weight index :=
        Int.toNat_of_nonneg hindex.le
      rw [hcons, List.sum_cons] at htotal hp
      have hmax : maxInt64 = 2 ^ 63 - 1 := rfl
      have hwrap : wrap64 (p - router.weight index) = p - router.weight index := by
        apply wrap64_of_isInt64
        apply decide_eq_true
        omega
      rw [hcons, weightedStart, pick, hwrap]
      by_cases hlt : p < (router.weight index).toNat
      · rw [if_pos hlt, if_pos (by omega)]
      · rw [if_neg hlt, if_neg (by omega)]
        have hsub : (p : Int) - router.weight index
            = ((p - (router.weight index).toNat : Nat)) := by
          omega
        rw [hsub, ih (fun i hi => hweights i (List.mem_cons_of_mem _ hi)) (by omega) (by omega)]

/-- The sum is wrapped at every addition; once at the end is the same. -/
theorem totalWeight_eq (router : Router) (entries : List Nat) :
    router.totalWeight entries = wrap64 (entries.map router.weight).sum := by
  have hfold : ∀ (entries : List Nat) (total : Int),
      entries.foldl (fun total index => wrap64 (total + router.weight index)) (wrap64 total)
        = wrap64 (total + (entries.map router.weight).sum) := by
    intro entries
    induction entries with
    | nil => simp
    | cons index rest ih =>
        intro total
        rw [List.foldl_cons, wrap64_wrap64_add, ih, List.map_cons, List.sum_cons, Int.add_assoc]
  have hzero := hfold entries 0
  rw [Int.zero_add] at hzero
  exact hzero

theorem totalWeight_eq_zero (router : Router) (entries : List Nat) :
    router.totalWeight entries = 0 ↔ (2 ^ 64 : Int) ∣ (entries.map router.weight).sum := by
  rw [totalWeight_eq]
  unfold wrap64
  omega

theorem sum_weights {router : Router} {entries : List Nat}
    (hweights : ∀ index ∈ entries, 0 < router.weight index) :
    ((router.weights entries).sum : Int) = (entries.map router.weight).sum := by
  induction entries with
  | nil => rfl
  | cons index rest ih =>
      have hindex : 0 < router.weight index := hweights index (List.mem_cons_self ..)
      have hrest := ih fun i hi => hweights i (List.mem_cons_of_mem _ hi)
      simp only [weights, List.map_cons, List.sum_cons] at hrest ⊢
      omega

/-- Positive weights, as `New` makes them, whose sum does not reach the next
    multiple of `2 ^ 64`. -/
def WeightsFit (configs : List ProviderConfig) : Prop :=
  (∀ config ∈ configs, 0 < config.weight) ∧ (configs.map ProviderConfig.weight).sum < 2 ^ 64

instance (configs : List ProviderConfig) : Decidable (WeightsFit configs) :=
  inferInstanceAs (Decidable (_ ∧ _))

theorem weights_sublist (router : Router) (selection : Selection) :
    ((router.eligibleEntries selection).map router.weight).Sublist
      (router.configs.map ProviderConfig.weight) := by
  have hweight : ∀ e ∈ router.configs.zipIdx, router.weight e.2 = e.1.weight := by
    intro e he
    unfold weight
    rw [List.mem_zipIdx_iff_getElem?.mp he]
    rfl
  have hall : router.configs.zipIdx.map (fun e => router.weight e.2)
      = router.configs.map ProviderConfig.weight := by
    rw [List.map_congr_left hweight, ← List.zipIdx_map_fst 0 router.configs, List.map_map]
    simp
  rw [eligibleEntries, List.map_map, ← hall]
  exact List.filter_sublist.map _

/-- Weights that fit do not sum up to zero. -/
theorem orderPanics_of_fit {router : Router} (h : WeightsFit router.configs)
    {selection : Selection} (hne : router.eligibleEntries selection ≠ []) :
    router.orderPanics (router.eligibleEntries selection) selection.strategy = false := by
  refine decide_eq_false ?_
  rintro ⟨-, hzero⟩
  rw [totalWeight_eq_zero] at hzero
  have hsublist := router.weights_sublist selection
  have hpositive : ∀ w ∈ router.configs.map ProviderConfig.weight, 0 < w :=
    List.forall_mem_map.mpr h.1
  have hpos : 0 < ((router.eligibleEntries selection).map router.weight).sum :=
    List.sum_pos _ (fun w hw => hpositive w (hsublist.subset hw)) (by simpa using hne)
  have hle : ((router.eligibleEntries selection).map router.weight).sum
      ≤ (router.configs.map ProviderConfig.weight).sum :=
    hsublist.sum_le_sum fun w hw => (hpositive w hw).le
  have hbound := Int.le_of_dvd hpos hzero
  have hsum := h.2
  omega

/-- How far `order` rotates the entries under weighted round robin. -/
def rotation (router : Router) (entries : List Nat) : Nat :=
  (router.weightedStart ((wrap64 router.sequence).tmod (router.totalWeight entries)) entries).getD 0

theorem rotation_lt {router : Router} {entries : List Nat} (hne : entries ≠ []) :
    router.rotation entries < entries.length := by
  unfold rotation
  cases hstart : router.weightedStart
      ((wrap64 router.sequence).tmod (router.totalWeight entries)) entries with
  | none => exact List.length_pos_iff.mpr hne
  | some n => exact weightedStart_lt hstart

theorem order_eq_rotate {router : Router} {entries : List Nat} (hne : entries ≠ []) :
    router.order entries .weightedRoundRobin = entries.rotate (router.rotation entries) :=
  (List.rotate_eq_drop_append_take (rotation_lt hne).le).symm

theorem sum_weights_pos {router : Router} {entries : List Nat}
    (hweights : ∀ index ∈ entries, 0 < router.weight index) (hne : entries ≠ []) :
    0 < (router.weights entries).sum := by
  obtain ⟨index, rest, rfl⟩ := List.exists_cons_of_ne_nil hne
  have hindex : 0 < router.weight index := hweights index (List.mem_cons_self ..)
  simp only [weights, List.map_cons, List.sum_cons]
  omega

/-- While no sum wraps, the ticket is taken modulo the sum of the weights, and
    its owner comes first. -/
theorem rotation_eq_pick {router : Router} {entries : List Nat}
    (hweights : ∀ index ∈ entries, 0 < router.weight index) (hne : entries ≠ [])
    (htotal : ((router.weights entries).sum : Int) ≤ maxInt64)
    (hsequence : router.sequence < 2 ^ 63) :
    pick (router.weights entries) (router.sequence % (router.weights entries).sum)
      = some (router.rotation entries) := by
  have hmax : maxInt64 = 2 ^ 63 - 1 := rfl
  have hsum : router.totalWeight entries = (router.weights entries).sum := by
    rw [totalWeight_eq, ← sum_weights hweights]
    apply wrap64_of_isInt64
    apply decide_eq_true
    omega
  have hticket : wrap64 router.sequence = router.sequence := by
    apply wrap64_of_isInt64
    apply decide_eq_true
    omega
  have hposition : (wrap64 router.sequence).tmod (router.totalWeight entries)
      = ((router.sequence % (router.weights entries).sum : Nat) : Int) := by
    rw [hsum, hticket, Int.tmod_eq_emod_of_nonneg (Int.natCast_nonneg _)]
    exact (Int.natCast_emod _ _).symm
  have hlt : router.sequence % (router.weights entries).sum < (router.weights entries).sum :=
    Nat.mod_lt _ (sum_weights_pos hweights hne)
  obtain ⟨n, -, hpick⟩ := Aegis.Lib.pick_isSome hlt
  unfold rotation
  rw [hposition, weightedStart_eq_pick hweights htotal hlt, hpick]
  rfl

/-- **The order of the entries.** -/
theorem order_arranged {router : Router} {selection : Selection}
    (hformed : ∀ config ∈ router.configs, 0 < config.weight)
    (hne : router.eligibleEntries selection ≠ []) :
    router.Arranged (router.eligibleEntries selection) selection.strategy
      (router.order (router.eligibleEntries selection) selection.strategy) := by
  have hregistration := router.eligibleEntries_pairwise selection
  cases selection.strategy with
  | leastOutstanding => exact Aegis.Lib.pairwise_insertionSort_key hregistration
  | leastLatency => exact Aegis.Lib.pairwise_insertionSort_key hregistration
  | priorityFallback => exact Aegis.Lib.pairwise_insertionSort_key hregistration
  | weightedRoundRobin =>
      have hweights : ∀ index ∈ router.eligibleEntries selection, 0 < router.weight index := by
        intro index hindex
        obtain ⟨config, hconfig, -⟩ := mem_eligibleEntries hindex
        unfold weight
        rw [hconfig]
        exact hformed config (List.mem_of_getElem? hconfig)
      refine ⟨_, rotation_lt hne, order_eq_rotate hne, fun htotal hsequence => ?_⟩
      exact Aegis.Lib.pick_eq_some (rotation_eq_pick hweights hne htotal hsequence)

/-! ## The acquisition -/

/-- The entry after its lease was taken at `now`. -/
def leasedState (entry : Managed) (now : Time) : Managed :=
  { entry with
    breaker := (entry.breaker.allow now).2
    occupancy := entry.occupancy + 1
    outstanding := entry.outstanding + 1 }

/-- Over registered entries with room and with breakers that permit probes, the
    acquisition passes over those that do not admit and leases the next. -/
theorem acquire_cases {router : Router} (now : Time) {entries : List Nat}
    (hroom : ∀ index ∈ entries, ∃ config, router.configs[index]? = some config
      ∧ (router.state index).occupancy < config.maxConcurrency)
    (hprobes : ∀ index, 0 < (router.state index).breaker.config.halfOpenProbes) :
    (∀ index ∈ entries, ((router.state index).breaker.allow now).1 = false)
        ∧ acquire now router entries = (.error (.ofSentinel .errNoEligibleProvider), router)
      ∨ ∃ before index after config, entries = before ++ index :: after
        ∧ (∀ i ∈ before, ((router.state i).breaker.allow now).1 = false)
        ∧ ((router.state index).breaker.allow now).1 = true
        ∧ router.configs[index]? = some config
        ∧ acquire now router entries = (.ok (Lease.of index config),
            router.setState index (leasedState (router.state index) now)) := by
  induction entries with
  | nil => exact Or.inl ⟨fun index hindex => absurd hindex List.not_mem_nil, rfl⟩
  | cons index rest ih =>
      obtain ⟨config, hconfig, hslot⟩ := hroom index (List.mem_cons_self ..)
      unfold acquire
      rw [hconfig]
      dsimp only
      cases hallow : ((router.state index).breaker.allow now).1 with
      | true =>
          refine Or.inr ⟨[], index, rest, config, rfl, ?_, hallow, hconfig, ?_⟩
          · intro i hi
            exact absurd hi List.not_mem_nil
          · have hpair : (router.state index).breaker.allow now
                = (true, ((router.state index).breaker.allow now).2) := Prod.ext hallow rfl
            rw [hpair]
            dsimp only
            rw [if_pos hslot]
            rfl
      | false =>
          -- the refusal leaves the breaker, so the router, as it was
          have hsame : router.setState index { router.state index with
              breaker := (router.state index).breaker } = router := by
            unfold setState
            rw [Function.update_eq_self]
          rw [Breaker.allow_refused (hprobes index) hallow]
          dsimp only
          rw [hsame]
          rcases ih fun i hi => hroom i (List.mem_cons_of_mem _ hi) with
            ⟨hnone, hacquire⟩ | ⟨before, i, after, config', rfl, hbefore, hadmits, hreg, hacquire⟩
          · refine Or.inl ⟨fun i hi => ?_, hacquire⟩
            rcases List.mem_cons.mp hi with rfl | hi
            · exact hallow
            · exact hnone i hi
          · refine Or.inr ⟨index :: before, i, after, config', rfl, fun j hj => ?_, hadmits, hreg,
              hacquire⟩
            rcases List.mem_cons.mp hj with rfl | hj
            · exact hallow
            · exact hbefore j hj

/-! ## Select -/

/-- What `Select` promises about its answer and the router it leaves. -/
structure Selected (router : Router) (selection : Selection) (result : Except GoError Lease)
    (router' : Router) : Prop where
  /-- sound and complete -/
  succeeds : (∃ lease, result = .ok lease)
    ↔ ∃ index config, router.Admissible selection index config
  /-- the lease is for the first entry that admits, in the order of the strategy -/
  first : ∀ lease, result = .ok lease →
    ∃ ordered before after config,
      ordered.Perm (router.eligibleEntries selection)
      ∧ router.Arranged (router.eligibleEntries selection) selection.strategy ordered
      ∧ ordered = before ++ lease.entry :: after
      ∧ (∀ index ∈ before, ((router.state index).breaker.allow selection.now).1 = false)
      ∧ router.Admissible selection lease.entry config
      ∧ lease = Lease.of lease.entry config
  configs : router'.configs = router.configs
  sequence : router'.sequence = router.sequence
    ∨ selection.strategy = .weightedRoundRobin
      ∧ router'.sequence = (router.sequence + 1) % 2 ^ 64
  /-- a lease changes nothing of the other providers -/
  others : ∀ lease, result = .ok lease → ∀ index, index ≠ lease.entry →
    router'.state index = router.state index
  /-- and of its own the slot, the counter and the breaker -/
  leased : ∀ lease, result = .ok lease →
    ∃ state probes,
      router'.state lease.entry = { router.state lease.entry with
        occupancy := (router.state lease.entry).occupancy + 1
        outstanding := (router.state lease.entry).outstanding + 1
        breaker := { (router.state lease.entry).breaker with state, halfOpenActive := probes } }
      ∧ (state = (router.state lease.entry).breaker.state
        ∨ (router.state lease.entry).breaker.state = .open ∧ state = .halfOpen)
  failed : ∀ err, result = .error err →
    err = .ofSentinel .errNoEligibleProvider ∧ router'.state = router.state

section Select

variable {router : Router} {selection : Selection}

/-- A failure: nothing is admissible, and the sequence alone may have moved. -/
theorem selected_error {router' : Router}
    (hnone : ∀ index config, ¬router.Admissible selection index config)
    (hconfigs : router'.configs = router.configs) (hstate : router'.state = router.state)
    (hsequence : router'.sequence = router.sequence
      ∨ selection.strategy = .weightedRoundRobin
        ∧ router'.sequence = (router.sequence + 1) % 2 ^ 64) :
    router.Selected selection (.error (.ofSentinel .errNoEligibleProvider)) router' where
  succeeds := by
    constructor
    · rintro ⟨lease, hlease⟩
      cases hlease
    · rintro ⟨index, config, hadmissible⟩
      exact absurd hadmissible (hnone index config)
  first := by
    intro lease hlease
    cases hlease
  configs := hconfigs
  sequence := hsequence
  others := by
    intro lease hlease
    cases hlease
  leased := by
    intro lease hlease
    cases hlease
  failed := by
    intro err herr
    cases herr
    exact ⟨rfl, hstate⟩

/-- A lease on the first entry of the order that admits. -/
theorem selected_ok {router' : Router} {ordered before after : List Nat} {index : Nat}
    {config : ProviderConfig} (hperm : ordered.Perm (router.eligibleEntries selection))
    (harranged : router.Arranged (router.eligibleEntries selection) selection.strategy ordered)
    (hsplit : ordered = before ++ index :: after)
    (hbefore : ∀ i ∈ before, ((router.state i).breaker.allow selection.now).1 = false)
    (hadmissible : router.Admissible selection index config)
    (hconfigs : router'.configs = router.configs)
    (hstate : router'.state
      = Function.update router.state index (leasedState (router.state index) selection.now))
    (hsequence : router'.sequence = router.sequence
      ∨ selection.strategy = .weightedRoundRobin
        ∧ router'.sequence = (router.sequence + 1) % 2 ^ 64) :
    router.Selected selection (.ok (Lease.of index config)) router' where
  succeeds := ⟨fun _ => ⟨index, config, hadmissible⟩, fun _ => ⟨_, rfl⟩⟩
  first := by
    intro lease hlease
    cases hlease
    exact ⟨ordered, before, after, config, hperm, harranged, hsplit, hbefore, hadmissible, rfl⟩
  configs := hconfigs
  sequence := hsequence
  others := by
    intro lease hlease i hne
    cases hlease
    rw [hstate]
    exact Function.update_of_ne hne _ _
  leased := by
    intro lease hlease
    cases hlease
    obtain ⟨state, probes, hbreaker, hchange⟩ := Breaker.allow_admits hadmissible.admits
    refine ⟨state, probes, ?_, hchange⟩
    have hself : router'.state index = leasedState (router.state index) selection.now := by
      rw [hstate]
      exact Function.update_self ..
    show router'.state index = _
    rw [hself, leasedState, hbreaker]
    rfl
  failed := by
    intro err herr
    cases herr

theorem takeTicket_sequence (router : Router) (strategy : Strategy) :
    (router.takeTicket strategy).sequence = router.sequence
      ∨ strategy = .weightedRoundRobin
        ∧ (router.takeTicket strategy).sequence = (router.sequence + 1) % 2 ^ 64 := by
  unfold takeTicket
  split
  · exact Or.inr ⟨rfl, rfl⟩
  · exact Or.inl rfl

/-- **Select, where it does not panic.** -/
theorem select_selected (hformed : router.WellFormed) {selection : Selection}
    (hcalm : ¬(router.eligibleEntries selection ≠ []
      ∧ router.orderPanics (router.eligibleEntries selection) selection.strategy = true)) :
    router.Selected selection (router.select selection).1 (router.select selection).2 := by
  unfold select selectFrom
  dsimp only
  by_cases hnil : router.eligibleEntries selection = []
  · rw [if_pos hnil]
    apply selected_error _ rfl rfl (Or.inl rfl)
    intro index config hadmissible
    obtain ⟨hreg, helig, -⟩ := admissible_iff.mp hadmissible
    have hmem : index ∈ router.eligibleEntries selection :=
      mem_eligibleEntries_iff.mpr ⟨config, hreg, helig⟩
    rw [hnil] at hmem
    exact absurd hmem List.not_mem_nil
  rw [if_neg hnil, if_neg fun hpanics => hcalm ⟨hnil, hpanics⟩]
  generalize hordered : router.order (router.eligibleEntries selection) selection.strategy = ordered
  have hperm : ordered.Perm (router.eligibleEntries selection) := by
    rw [← hordered]
    exact router.order_perm _ _
  have harranged := order_arranged hformed.weights hnil
  rw [hordered] at harranged
  generalize hticket : router.takeTicket selection.strategy = ticketed
  have hconfigs : ticketed.configs = router.configs := by
    rw [← hticket]
    exact takeTicket_configs ..
  have hstate : ticketed.state = router.state := by
    rw [← hticket]
    exact takeTicket_state ..
  have hsequence := takeTicket_sequence router selection.strategy
  rw [hticket] at hsequence
  have heligible : ∀ {index}, index ∈ ordered →
      ∃ config, router.configs[index]? = some config
        ∧ router.eligible selection config index = true :=
    fun hindex => mem_eligibleEntries (hperm.mem_iff.mp hindex)
  have hroom : ∀ index ∈ ordered, ∃ config, ticketed.configs[index]? = some config
      ∧ (ticketed.state index).occupancy < config.maxConcurrency := by
    intro index hindex
    obtain ⟨config, hreg, helig⟩ := heligible hindex
    refine ⟨config, by rw [hconfigs]; exact hreg, ?_⟩
    rw [hstate]
    exact (eligible_iff.mp helig).2.2.2.2.2.2.2
  have hprobes : ∀ index, 0 < (ticketed.state index).breaker.config.halfOpenProbes := by
    rw [hstate]
    exact hformed.probes
  rcases acquire_cases selection.now hroom hprobes with
    ⟨hnone, hacquire⟩ | ⟨before, index, after, config, hsplit, hbefore, hadmits, hreg, hacquire⟩
  · rw [hacquire]
    apply selected_error _ hconfigs hstate hsequence
    intro index config hadmissible
    obtain ⟨hreg, helig, hadmits⟩ := admissible_iff.mp hadmissible
    have hmem : index ∈ ordered :=
      hperm.mem_iff.mpr (mem_eligibleEntries_iff.mpr ⟨config, hreg, helig⟩)
    have hrefused := hnone index hmem
    rw [hstate, hadmits] at hrefused
    cases hrefused
  · rw [hacquire]
    have hmem : index ∈ ordered := by
      rw [hsplit]
      exact List.mem_append_right _ (List.mem_cons_self ..)
    obtain ⟨config', hreg', helig⟩ := heligible hmem
    rw [hconfigs, hreg'] at hreg
    cases hreg
    rw [hstate] at hbefore hadmits
    have hset : (ticketed.setState index (leasedState (ticketed.state index) selection.now)).state
        = Function.update router.state index
          (leasedState (router.state index) selection.now) := by
      unfold setState
      rw [hstate]
    have hleased : router.Selected selection (.ok (Lease.of index config))
        (ticketed.setState index (leasedState (ticketed.state index) selection.now)) :=
      selected_ok hperm harranged hsplit hbefore (admissible_iff.mpr ⟨hreg', helig, hadmits⟩)
        hconfigs hset hsequence
    exact hleased

theorem selectChecked_selected (hformed : router.WellFormed) {clock : Time}
    {result : Except GoError Lease} {router' : Router}
    (h : router.selectChecked clock selection = some (result, router')) :
    router.Selected (selection.timed clock) result router' := by
  unfold selectChecked at h
  dsimp only at h
  split at h
  · cases h
  · next hcalm =>
      have hselected := select_selected hformed hcalm
      rw [Option.some.injEq] at h
      rw [h] at hselected
      exact hselected

end Select

end Router

/-- Three providers with the largest weight, the largest weight and 2. -/
def overweight : Router where
  configs := [2 ^ 63 - 1, 2 ^ 63 - 1, 2].map fun weight =>
    { provider := ⟨"mock", ["model"], ["internal"]⟩, weight, maxConcurrency := 20,
      timeout := Time.seconds 30, enabled := true }
  state := fun _ => {
    occupancy := 0, breaker := Breaker.new {}, outstanding := 0, healthy := true, ewmaMS := 0 }
  sequence := 0

/-- A request for the model of these providers. -/
def anyProvider : Selection where
  model := "model"
  dataClassification := "internal"
  allowedProviders := none
  strategy := .weightedRoundRobin

end Aegis.Routing
