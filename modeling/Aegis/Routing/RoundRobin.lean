/-
  Aegis.Routing.RoundRobin

  The shares of weighted round robin over consecutive calls of `Select`.

  Each call takes the next ticket of the sequence and leases the entry that owns
  the ticket modulo the sum of the weights (`Turn.leased_eq`).  Over as many
  calls as the weights sum to, the tickets run once through all positions, from
  whichever position the first of them starts.
-/

import Aegis.Lib.Runs
import Aegis.Routing.Select

namespace Aegis.Routing

open Aegis.CircuitBreaker (Breaker)
open Aegis.Lib (pick trace trace_cons)

/-- A call of `Select`. -/
structure Turn where
  clock : Time
  selection : Selection
  /-- what reports and health checks have made of the providers by the next call -/
  later : Nat → Managed

namespace Turn

/-- The selection with the time that `Select` uses. -/
def request (turn : Turn) : Selection := turn.selection.timed turn.clock

/-- The entry that the call leases. -/
def leased (router : Router) (turn : Turn) : Option Nat :=
  match router.selectChecked turn.clock turn.selection with
  | some (.ok lease, _) => some lease.entry
  | _ => none

/-- The router at the next call. -/
def step (router : Router) (turn : Turn) : Router :=
  match router.selectChecked turn.clock turn.selection with
  | some (_, router') => { router' with state := turn.later }
  | none => router

/-- The call is made under weighted round robin, and finds exactly `entries`
    eligible (with a free slot, that is) and their breakers closed. -/
structure Steady (entries : List Nat) (router : Router) (turn : Turn) : Prop where
  strategy : turn.selection.strategy = .weightedRoundRobin
  eligible : router.eligibleEntries turn.request = entries
  closed : ∀ index ∈ entries, (router.state index).breaker.state = .closed

section Steady

variable {router : Router} {entries : List Nat} {turn : Turn}

/-- A closed breaker admits, so the first entry is leased. -/
theorem acquire_first (router : Router) {index : Nat} {config : ProviderConfig}
    (hconfig : router.configs[index]? = some config)
    (hslot : (router.state index).occupancy < config.maxConcurrency)
    (hclosed : (router.state index).breaker.state = .closed) (now : Time) (rest : List Nat) :
    ∃ router', Router.acquire now router (index :: rest) = (.ok (Lease.of index config), router')
      ∧ router'.configs = router.configs ∧ router'.sequence = router.sequence := by
  have hallow : (router.state index).breaker.allow now
      = (true, (router.state index).breaker) := by
    unfold Breaker.allow
    simp [hclosed]
  rw [Router.acquire, hconfig]
  dsimp only
  rw [hallow]
  dsimp only
  rw [if_pos hslot]
  exact ⟨_, rfl, rfl, rfl⟩

/-- The owner of the ticket comes first in the order. -/
theorem order_first (router : Router) (hne : entries ≠ []) :
    ∃ first rest, entries[router.rotation entries]? = some first
      ∧ router.order entries .weightedRoundRobin = first :: rest := by
  have hin : router.rotation entries < entries.length := Router.rotation_lt hne
  rw [Router.order_eq_rotate hne, List.rotate_eq_drop_append_take hin.le,
    List.drop_eq_getElem_cons hin]
  exact ⟨_, _, List.getElem?_eq_getElem hin, rfl⟩

theorem request_strategy (turn : Turn) : turn.request.strategy = turn.selection.strategy := by
  unfold request Selection.timed
  split <;> rfl

/-- The call does not panic while no sum wraps. -/
theorem selectChecked_eq (h : Steady entries router turn) (hne : entries ≠ [])
    (hweights : ∀ index ∈ entries, 0 < router.weight index)
    (htotal : ((router.weights entries).sum : Int) ≤ maxInt64) :
    router.selectChecked turn.clock turn.selection
      = some (Router.acquire turn.request.now (router.takeTicket .weightedRoundRobin)
        (router.order entries .weightedRoundRobin)) := by
  have hpos := Router.sum_weights_pos hweights hne
  have hmax : maxInt64 = 2 ^ 63 - 1 := rfl
  have hstrategy : turn.request.strategy = .weightedRoundRobin :=
    turn.request_strategy.trans h.strategy
  have hnopanic : ¬(router.eligibleEntries turn.request ≠ []
      ∧ router.orderPanics (router.eligibleEntries turn.request) turn.request.strategy = true) := by
    rintro ⟨-, hpanic⟩
    have hzero := (of_decide_eq_true hpanic).2
    rw [h.eligible, Router.totalWeight_eq_zero, ← Router.sum_weights hweights] at hzero
    omega
  have hnonempty : router.eligibleEntries turn.request ≠ [] := by
    rw [h.eligible]
    exact hne
  have hselect : router.selectChecked turn.clock turn.selection
      = some (router.select turn.request) := if_neg hnopanic
  rw [hselect, Router.select, Router.selectFrom, if_neg hnonempty,
    if_neg fun hpanics => hnopanic ⟨hnonempty, hpanics⟩, h.eligible, hstrategy]

/-- **One call** leases the owner of its ticket and leaves the next ticket. -/
theorem leased_eq (h : Steady entries router turn) (hne : entries ≠ [])
    (hweights : ∀ index ∈ entries, 0 < router.weight index)
    (htotal : ((router.weights entries).sum : Int) ≤ maxInt64)
    (hsequence : router.sequence < 2 ^ 63) :
    leased router turn
        = (pick (router.weights entries) (router.sequence % (router.weights entries).sum)).bind
          (entries[·]?)
      ∧ (step router turn).sequence = router.sequence + 1
      ∧ (step router turn).configs = router.configs := by
  obtain ⟨first, rest, hfirst, horder⟩ := order_first router hne
  have hmem : first ∈ entries := List.mem_of_getElem? hfirst
  have heligible : first ∈ router.eligibleEntries turn.request := by
    rw [h.eligible]
    exact hmem
  obtain ⟨config, hreg, helig⟩ := Router.mem_eligibleEntries heligible
  have hslot := (Router.eligible_iff.mp helig).2.2.2.2.2.2.2
  obtain ⟨router', hacquire, hconfigs, hticket⟩ :=
    acquire_first (router.takeTicket .weightedRoundRobin) hreg hslot
      (h.closed first hmem) turn.request.now rest
  have hselect := selectChecked_eq h hne hweights htotal
  rw [horder, hacquire] at hselect
  unfold leased step
  rw [hselect, Router.rotation_eq_pick hweights hne htotal hsequence]
  refine ⟨hfirst.symm, ?_, hconfigs⟩
  show router'.sequence = _
  rw [hticket]
  show (router.sequence + 1) % 2 ^ 64 = _
  omega

/-- **The calls of a run** lease the owners of consecutive tickets. -/
theorem leased_run {turns : List Turn} (hne : entries ≠ [])
    (hweights : ∀ index ∈ entries, 0 < router.weight index)
    (htotal : ((router.weights entries).sum : Int) ≤ maxInt64)
    (hstart : router.sequence + turns.length ≤ 2 ^ 63)
    (hsteady : ∀ x ∈ trace step router turns, Steady entries x.1 x.2.1) :
    (trace step router turns).map (fun x => leased x.1 x.2.1)
      = (List.range' router.sequence turns.length).map fun ticket =>
        (pick (router.weights entries) (ticket % (router.weights entries).sum)).bind
          (entries[·]?) := by
  induction turns generalizing router with
  | nil => rfl
  | cons turn turns ih =>
      rw [List.length_cons] at hstart
      have hfirst : Steady entries router turn :=
        hsteady (router, turn, step router turn) (List.mem_cons_self ..)
      obtain ⟨hleased, hsequence, hconfigs⟩ := leased_eq hfirst hne hweights htotal (by omega)
      -- the weights are those of the configurations, which stay
      have hweight : (step router turn).weight = router.weight := by
        funext index
        unfold Router.weight
        rw [hconfigs]
      have hsame : (step router turn).weights entries = router.weights entries := by
        unfold Router.weights
        rw [hweight]
      have hrest := @ih (step router turn) (by rw [hweight]; exact hweights)
        (by rw [hsame]; exact htotal) (by rw [hsequence]; omega)
        (fun x hx => hsteady x (List.mem_cons_of_mem _ hx))
      rw [hsame, hsequence] at hrest
      rw [trace_cons, List.map_cons, hrest, hleased, List.length_cons, List.range'_succ,
        List.map_cons]

end Steady

end Turn

/-- **Weighted round robin is exactly proportional.**  Over as many calls as the
    weights sum to, wherever the sequence stands at the first, each entry is
    leased as often as its weight says. -/
theorem roundRobin_proportional {router : Router} {entries : List Nat} {turns : List Turn}
    (hweights : ∀ index ∈ entries, 0 < router.weight index)
    (htotal : (entries.map router.weight).sum ≤ maxInt64)
    (hstart : router.sequence + (entries.map router.weight).sum ≤ 2 ^ 63)
    (hlength : (turns.length : Int) = (entries.map router.weight).sum)
    (hsteady : ∀ x ∈ trace Turn.step router turns, Turn.Steady entries x.1 x.2.1) :
    ∀ index ∈ entries,
      (((trace Turn.step router turns).countP fun x => Turn.leased x.1 x.2.1 = some index : Nat) :
        Int) = router.weight index := by
  intro index hindex
  have hne : entries ≠ [] := List.ne_nil_of_mem hindex
  rw [← Router.sum_weights hweights] at htotal hstart hlength
  have hturns : turns.length = (router.weights entries).sum := by omega
  have hrun := Turn.leased_run hne hweights htotal (by omega) hsteady
  -- the entries are distinct, since the filter keeps the registration order
  have hnodup : entries.Nodup := by
    have hpos := Router.sum_weights_pos hweights hne
    obtain ⟨turn, rest, rfl⟩ : ∃ turn rest, turns = turn :: rest :=
      List.exists_cons_of_length_pos (by omega)
    have hfirst := hsteady (router, turn, Turn.step router turn) (List.mem_cons_self ..)
    rw [← hfirst.eligible]
    exact router.eligibleEntries_nodup _
  obtain ⟨n, hn, rfl⟩ := List.getElem_of_mem hindex
  have howner : ∀ picked : Option Nat,
      picked.bind (entries[·]?) = some entries[n] ↔ picked = some n := by
    intro picked
    cases picked with
    | none => simp
    | some m =>
        rw [Option.bind_some, ← List.getElem?_eq_getElem hn, Option.some.injEq]
        refine ⟨fun heq => ?_, fun heq => by rw [heq]⟩
        exact ((List.getElem?_inj hn hnodup).mp heq.symm).symm
  have hcount : (trace Turn.step router turns).countP
        (fun x => Turn.leased x.1 x.2.1 = some entries[n])
      = ((trace Turn.step router turns).map fun x => Turn.leased x.1 x.2.1).countP
        (· = some entries[n]) := by
    rw [List.countP_map]
    rfl
  have hshare := Aegis.Lib.countP_pick_window (router.weights entries) router.sequence n
  rw [hcount, hrun, List.countP_map, hturns]
  simp only [Function.comp_def, howner]
  rw [hshare]
  have hweight : (router.weights entries)[n]? = some (router.weight entries[n]).toNat := by
    unfold Router.weights
    rw [List.getElem?_map, List.getElem?_eq_getElem hn]
    rfl
  rw [hweight, Option.getD_some]
  exact Int.toNat_of_nonneg (hweights _ hindex).le

/-- Two providers with the weights 2 and 1, at ticket 7. -/
def twoToOne : Router where
  configs := [2, 1].map fun weight =>
    { provider := ⟨"mock", ["model"], ["internal"]⟩, weight, maxConcurrency := 20,
      timeout := Time.seconds 30, enabled := true }
  state := overweight.state
  sequence := 7

/-- A call after which the providers are idle again. -/
def idleTurn : Turn := ⟨0, anyProvider, overweight.state⟩

theorem roundRobin_proportional_twoToOne :
    (∀ x ∈ trace Turn.step twoToOne [idleTurn, idleTurn, idleTurn],
        Turn.Steady [0, 1] x.1 x.2.1)
      ∧ ∀ index ∈ [0, 1],
        (((trace Turn.step twoToOne [idleTurn, idleTurn, idleTurn]).countP
          fun x => Turn.leased x.1 x.2.1 = some index : Nat) : Int) = twoToOne.weight index := by
  have hsteady : ∀ x ∈ trace Turn.step twoToOne [idleTurn, idleTurn, idleTurn],
      Turn.Steady [0, 1] x.1 x.2.1 := by
    simp only [trace_cons, Aegis.Lib.trace_nil, List.forall_mem_cons, List.not_mem_nil,
      false_implies, implies_true, and_true]
    refine ⟨⟨rfl, by decide +kernel, by decide +kernel⟩,
      ⟨rfl, by decide +kernel, by decide +kernel⟩,
      ⟨rfl, by decide +kernel, by decide +kernel⟩⟩
  refine ⟨hsteady, roundRobin_proportional ?_ ?_ ?_ ?_ hsteady⟩
  · decide +kernel
  · decide +kernel
  · decide +kernel
  · decide +kernel

end Aegis.Routing
