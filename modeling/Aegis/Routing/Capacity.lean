/-
  Aegis.Routing.Capacity

  The capacity of a provider when goroutines use the router at the same time.

  `Select` and the reports on a lease touch a semaphore, a counter and a
  breaker one after the other, and other goroutines run in between.  A `Usage`
  is one `Select` with the report on its lease, as the point before one of these
  operations; `Usage.step` performs it.  Each usage accounts for a part of the
  semaphore, of the counter and of the probes (`holdsSlot`, `isCounted`,
  `mayProbe`), by its point alone; a step changes the shared state by what it
  changes of that (`Usage.Accounts`), so the sums go on agreeing with it
  (`Balanced.moves`).

  A call that is not interrupted does what `Router.selectFrom`,
  `Router.success` and `Router.failure` say (`Usage.acquire_alone`,
  `Usage.report_alone`).
-/

import Aegis.Lib.Table
import Aegis.Routing

namespace Aegis.Routing

open Aegis.CircuitBreaker (Breaker)

/-- `Lease.Success` or `Lease.Failure` with its arguments. -/
inductive Report where
  | success (latencyMS : Int)
  | failure (retryable : Bool) (now : Time)
deriving DecidableEq, Repr

/-- Both reports. -/
def Router.report (router : Router) (lease : Lease) : Report → Lease × Router
  | .success latencyMS => router.success lease latencyMS
  | .failure retryable now => router.failure lease retryable now

/-- What a report tells the breaker. -/
def Report.tell (breaker : Breaker) : Report → Breaker
  | .success _ => breaker.success
  | .failure true now => breaker.failure now
  | .failure false _ => breaker.release

/-- A report ends the half-open state or takes one probe off. -/
theorem Report.tell_sound {breaker : Breaker} (h : breaker.Sound) (report : Report) :
    (report.tell breaker).Sound
      ∧ ((report.tell breaker).halfOpenActive = 0
        ∨ (report.tell breaker).halfOpenActive + 1 = breaker.halfOpenActive) := by
  cases report with
  | success latencyMS => exact ⟨h.success, Or.inl rfl⟩
  | failure retryable now =>
      cases retryable with
      | true => exact ⟨(h.failure now).1, Or.inl (h.failure now).2⟩
      | false => exact h.release

/-- `cap(semaphore)`. -/
def Router.capacity (router : Router) (index : Nat) : Int :=
  ((router.configs[index]?).map ProviderConfig.maxConcurrency).getD 0

/-- Where a goroutine is in its use of the router. -/
inductive Usage where
  | idle
  /-- in the acquisition loop: before `Allow` of the next entry -/
  | trying (now : Time) (rest : List Nat)
  /-- before the send on the semaphore -/
  | admitted (now : Time) (index : Nat) (rest : List Nat)
  /-- the semaphore is full: before the breaker's `Release` -/
  | refused (now : Time) (index : Nat) (rest : List Nat)
  /-- before `outstanding.Add(1)` -/
  | entered (index : Nat)
  /-- `Select` has returned the lease -/
  | leased (index : Nat)
  /-- the lease is marked released: before the receive from the semaphore -/
  | closing (index : Nat) (report : Report)
  /-- before `outstanding.Add(-1)` -/
  | leaving (index : Nat) (report : Report)
  /-- before the latency is updated -/
  | measuring (index : Nat) (latencyMS : Int)
  /-- before the breaker is told -/
  | telling (index : Nat) (report : Report)
deriving DecidableEq, Repr

namespace Usage

/-- `Select` up to its acquisition loop; `seen` is what the filter and the
    ordering read.  After a panic of `order` there is no loop. -/
def begin (seen : Nat → Managed) (selection : Selection) (router : Router) : Usage × Router :=
  let filter := { router with state := seen }
  let entries := filter.eligibleEntries selection
  if entries = [] then (.trying selection.now [], router)
  else if filter.orderPanics entries selection.strategy then
    (.idle, router.takeTicket selection.strategy)
  else
    (.trying selection.now (filter.order entries selection.strategy),
      router.takeTicket selection.strategy)

/-- The next operation.  A goroutine that is idle or holds a lease has none. -/
def step (router : Router) : Usage → Usage × Router
  | .idle => (.idle, router)
  | .trying _ [] => (.idle, router)
  | .trying now (index :: rest) =>
      match router.configs[index]? with
      | none => (.trying now rest, router)
      | some _ =>
          let entry := router.state index
          match entry.breaker.allow now with
          | (false, breaker) => (.trying now rest, router.setState index { entry with breaker })
          | (true, breaker) =>
              (.admitted now index rest, router.setState index { entry with breaker })
  | .admitted now index rest =>
      let entry := router.state index
      if entry.occupancy < router.capacity index then
        (.entered index, router.setState index { entry with occupancy := entry.occupancy + 1 })
      else (.refused now index rest, router)
  | .refused now index rest =>
      let entry := router.state index
      (.trying now rest, router.setState index { entry with breaker := entry.breaker.release })
  | .entered index =>
      let entry := router.state index
      (.leased index, router.setState index { entry with outstanding := entry.outstanding + 1 })
  | .leased index => (.leased index, router)
  | .closing index report =>
      let entry := router.state index
      -- a receive from an empty channel blocks
      if 0 < entry.occupancy then
        (.leaving index report,
          router.setState index { entry with occupancy := entry.occupancy - 1 })
      else (.closing index report, router)
  | .leaving index report =>
      let entry := router.state index
      let router := router.setState index { entry with outstanding := entry.outstanding - 1 }
      match report with
      | .success latencyMS => (.measuring index latencyMS, router)
      | .failure retryable now => (.telling index (.failure retryable now), router)
  | .measuring index latencyMS =>
      let entry := router.state index
      (.telling index (.success latencyMS), router.setState index { entry with
        ewmaMS :=
          if entry.ewmaMS = 0 then latencyMS
          else (1 / 5 : ℚ) * latencyMS + (4 / 5 : ℚ) * entry.ewmaMS })
  | .telling index report =>
      let entry := router.state index
      (.idle, router.setState index { entry with breaker := report.tell entry.breaker })

/-- A report on the lease: `CompareAndSwap` lets the first one go on. -/
def report (report : Report) : Usage → Usage
  | .leased index => .closing index report
  | u => u

/-- In `Select`. -/
def isSelecting : Usage → Bool
  | .trying .. | .admitted .. | .refused .. | .entered _ => true
  | _ => false

/-- In `Success` or `Failure`. -/
def isReporting : Usage → Bool
  | .closing .. | .leaving .. | .measuring .. | .telling .. => true
  | _ => false

/-- A call is in progress. -/
def inProgress (u : Usage) : Bool := u.isSelecting || u.isReporting

/-! ## What a usage accounts for -/

/-- It is in the semaphore. -/
def holdsSlot (index : Nat) : Usage → Bool
  | .entered i | .leased i | .closing i _ => i == index
  | _ => false

/-- It is in `outstanding`. -/
def isCounted (index : Nat) : Usage → Bool
  | .leased i | .closing i _ | .leaving i _ => i == index
  | _ => false

/-- The breaker admitted it and has not been told since. -/
def mayProbe (index : Nat) : Usage → Bool
  | .admitted _ i _ | .refused _ i _ | .entered i | .leased i | .closing i _ | .leaving i _
  | .measuring i _ | .telling i _ => i == index
  | _ => false

/-- It holds a lease that is not reported. -/
def holdsLease (index : Nat) : Usage → Bool
  | .leased i => i == index
  | _ => false

/-- The entry it is about. -/
def index? : Usage → Option Nat
  | .idle | .trying _ _ => none
  | .admitted _ i _ | .refused _ i _ | .entered i | .leased i | .closing i _ | .leaving i _
  | .measuring i _ | .telling i _ => some i

/-- It accounts for nothing of another entry. -/
theorem index?_ne {u : Usage} {index : Nat} (h : u.index? ≠ some index) :
    u.holdsSlot index = false ∧ u.isCounted index = false ∧ u.mayProbe index = false := by
  cases u with
  | idle | trying => exact ⟨rfl, rfl, rfl⟩
  | _ => simpa [index?, holdsSlot, isCounted, mayProbe] using h

/-- From `u` and `m` to `u'` and `m'`, the entry at `index` changes by what the
    usage accounts for. -/
structure Accounts (index : Nat) (capacity : Int) (u u' : Usage) (m m' : Managed) : Prop where
  occupancy : m'.occupancy + (u.holdsSlot index).toNat = m.occupancy + (u'.holdsSlot index).toNat
  outstanding :
    m'.outstanding + (u.isCounted index).toNat = m.outstanding + (u'.isCounted index).toNat
  bounded : m.occupancy ≤ capacity → m'.occupancy ≤ capacity
  sound : m.breaker.Sound → m'.breaker.Sound
  probes : m.breaker.Sound → m'.breaker.halfOpenActive ≤ 0
    ∨ m'.breaker.halfOpenActive + (u.mayProbe index).toNat
      ≤ m.breaker.halfOpenActive + (u'.mayProbe index).toNat

section Accounts

variable {index : Nat} {capacity : Int} {u u' : Usage} {m m' : Managed}

/-- Neither the entry nor what the usage accounts for changes. -/
theorem Accounts.same (hslot : u.holdsSlot index = u'.holdsSlot index)
    (hcounted : u.isCounted index = u'.isCounted index)
    (hprobe : u.mayProbe index = u'.mayProbe index) : Accounts index capacity u u' m m := by
  refine ⟨by rw [hslot], by rw [hcounted], fun h => h, fun h => h, fun _ => Or.inr ?_⟩
  rw [hprobe]

/-- Only the breaker changes. -/
theorem Accounts.breaker {breaker : Breaker} (hslot : u.holdsSlot index = u'.holdsSlot index)
    (hcounted : u.isCounted index = u'.isCounted index)
    (hsound : m.breaker.Sound → breaker.Sound
      ∧ (breaker.halfOpenActive ≤ 0
        ∨ breaker.halfOpenActive + (u.mayProbe index).toNat
          ≤ m.breaker.halfOpenActive + (u'.mayProbe index).toNat)) :
    Accounts index capacity u u' m { m with breaker } :=
  ⟨by rw [hslot], by rw [hcounted], fun h => h, fun h => (hsound h).1, fun h => (hsound h).2⟩

/-- The breaker stays. -/
theorem Accounts.counters
    (hoccupancy : m'.occupancy + (u.holdsSlot index).toNat
      = m.occupancy + (u'.holdsSlot index).toNat)
    (houtstanding : m'.outstanding + (u.isCounted index).toNat
      = m.outstanding + (u'.isCounted index).toNat)
    (hbounded : m.occupancy ≤ capacity → m'.occupancy ≤ capacity)
    (hbreaker : m'.breaker = m.breaker) (hprobe : u.mayProbe index = u'.mayProbe index) :
    Accounts index capacity u u' m m' := by
  refine ⟨hoccupancy, houtstanding, hbounded, fun h => by rw [hbreaker]; exact h,
    fun _ => Or.inr ?_⟩
  rw [hbreaker, hprobe]

end Accounts

/-- A step on one entry, seen from any. -/
theorem Accounts.setState {router : Router} {i : Nat} {u u' : Usage} {m' : Managed}
    (h : Accounts i (router.capacity i) u u' (router.state i) m')
    (hu : u.index? = none ∨ u.index? = some i) (hu' : u'.index? = none ∨ u'.index? = some i)
    (index : Nat) :
    Accounts index (router.capacity index) u u' (router.state index)
      ((router.setState i m').state index) := by
  by_cases hindex : index = i
  · subst hindex
    simp only [Router.setState, Function.update_self]
    exact h
  · simp only [Router.setState, Function.update_of_ne hindex]
    have hne : ∀ {v : Usage}, v.index? = none ∨ v.index? = some i → v.index? ≠ some index := by
      rintro v (hv | hv) he
      · cases hv.symm.trans he
      · exact hindex (Option.some.inj (hv.symm.trans he)).symm
    obtain ⟨hslot, hcounted, hprobe⟩ := index?_ne (hne hu)
    obtain ⟨hslot', hcounted', hprobe'⟩ := index?_ne (hne hu')
    exact .same (hslot.trans hslot'.symm) (hcounted.trans hcounted'.symm)
      (hprobe.trans hprobe'.symm)

/-- **One operation.** -/
theorem step_accounts (router : Router) (u : Usage) (index : Nat) :
    Accounts index (router.capacity index) u (u.step router).1 (router.state index)
      ((u.step router).2.state index) := by
  cases u with
  | idle | leased => exact .same rfl rfl rfl
  | trying now rest =>
      cases rest with
      | nil => exact .same rfl rfl rfl
      | cons i rest =>
          simp only [step]
          split
          · exact .same rfl rfl rfl
          · have hallow := fun h : (router.state i).breaker.Sound => h.allow now
            split
            · next breaker hresult =>
                rw [hresult] at hallow
                apply Accounts.setState
                · refine .breaker rfl rfl fun h => ⟨(hallow h).1, Or.inr ?_⟩
                  simpa [mayProbe] using (hallow h).2
                · exact .inl rfl
                · exact .inl rfl
            · next breaker hresult =>
                rw [hresult] at hallow
                apply Accounts.setState
                · refine .breaker rfl rfl fun h => ⟨(hallow h).1, Or.inr ?_⟩
                  simpa [mayProbe] using (hallow h).2
                · exact .inl rfl
                · exact .inr rfl
  | admitted now i rest =>
      simp only [step]
      split
      · next hroom =>
          apply Accounts.setState
          · refine .counters ?_ rfl (fun _ => ?_) rfl rfl
            · simp [holdsSlot]
            · dsimp only
              omega
          · exact .inr rfl
          · exact .inr rfl
      · exact .same rfl rfl rfl
  | refused now i rest =>
      apply Accounts.setState
      · refine .breaker rfl rfl fun h => ⟨h.release.1, ?_⟩
        rcases h.release.2 with hzero | hless
        · exact Or.inl (Int.le_of_eq hzero)
        · refine Or.inr ?_
          simp only [step, mayProbe, beq_self_eq_true, Bool.toNat_true, Bool.toNat_false]
          omega
      · exact .inr rfl
      · exact .inl rfl
  | entered i =>
      apply Accounts.setState
      · refine .counters rfl ?_ (fun h => h) rfl rfl
        simp [step, isCounted]
      · exact .inr rfl
      · exact .inr rfl
  | closing i report =>
      simp only [step]
      split
      · apply Accounts.setState
        · refine .counters ?_ rfl (fun h => ?_) rfl rfl
          · simp [holdsSlot]
          · dsimp only
            omega
        · exact .inr rfl
        · exact .inr rfl
      · exact .same rfl rfl rfl
  | leaving i report =>
      cases report with
      | success | failure =>
          apply Accounts.setState
          · refine .counters rfl ?_ (fun h => h) rfl rfl
            simp [step, isCounted]
          · exact .inr rfl
          · exact .inr rfl
  | measuring i latencyMS =>
      apply Accounts.setState
      · exact .counters rfl rfl (fun h => h) rfl rfl
      · exact .inr rfl
      · exact .inr rfl
  | telling i report =>
      apply Accounts.setState
      · refine .breaker rfl rfl fun h => ?_
        obtain ⟨hsound, hless⟩ := report.tell_sound h
        refine ⟨hsound, ?_⟩
        rcases hless with hzero | hless
        · exact Or.inl (Int.le_of_eq hzero)
        · refine Or.inr ?_
          simp only [step, mayProbe, beq_self_eq_true, Bool.toNat_true, Bool.toNat_false]
          omega
      · exact .inr rfl
      · exact .inl rfl

/-- `Select` up to its loop accounts for nothing and changes no entry. -/
theorem begin_accounts (seen : Nat → Managed) (selection : Selection) (router : Router)
    (index : Nat) :
    Accounts index (router.capacity index) .idle (begin seen selection router).1
      (router.state index) ((begin seen selection router).2.state index) := by
  unfold begin
  dsimp only
  split
  · exact .same rfl rfl rfl
  split
  all_goals
    dsimp only
    rw [Router.takeTicket_state]
    exact .same rfl rfl rfl

/-- A report that begins accounts for what the lease did. -/
theorem report_accounts (report : Report) (router : Router) (u : Usage) (index : Nat) :
    Accounts index (router.capacity index) u (u.report report) (router.state index)
      (router.state index) := by
  cases u <;> exact .same rfl rfl rfl

theorem begin_configs (seen : Nat → Managed) (selection : Selection) (router : Router) :
    (begin seen selection router).2.configs = router.configs := by
  unfold begin
  dsimp only
  split
  · rfl
  split
  · exact router.takeTicket_configs _
  · exact router.takeTicket_configs _

theorem step_configs (router : Router) (u : Usage) :
    (u.step router).2.configs = router.configs := by
  cases u with
  | idle | refused | entered | leased | measuring | telling => rfl
  | trying now rest =>
      cases rest with
      | nil => rfl
      | cons i rest =>
          simp only [step]
          split
          · rfl
          · split <;> rfl
  | admitted now i rest =>
      simp only [step]
      split <;> rfl
  | closing i report =>
      simp only [step]
      split <;> rfl
  | leaving i report => cases report <;> rfl

/-! ## The course of a usage -/

/-- `Select` goes on, fails, or returns a lease. -/
theorem step_selecting (router : Router) {u : Usage} (h : u.isSelecting = true) :
    (u.step router).1.isSelecting = true ∨ (u.step router).1 = .idle
      ∨ ∃ index, u.index? = some index ∧ (u.step router).1 = .leased index := by
  cases u with
  | idle | leased | closing | leaving | measuring | telling => cases h
  | trying now rest =>
      cases rest with
      | nil => exact Or.inr (Or.inl rfl)
      | cons i rest =>
          simp only [step]
          split
          · exact Or.inl rfl
          · split <;> exact Or.inl rfl
  | admitted now i rest =>
      simp only [step]
      split <;> exact Or.inl rfl
  | refused => exact Or.inl rfl
  | entered i => exact Or.inr (Or.inr ⟨i, rfl, rfl⟩)

/-- A report goes on or is done. -/
theorem step_reporting (router : Router) {u : Usage} (h : u.isReporting = true) :
    (u.step router).1.isReporting = true ∨ (u.step router).1 = .idle := by
  cases u with
  | idle | leased | trying | admitted | refused | entered => cases h
  | closing i report =>
      simp only [step]
      split <;> exact Or.inl rfl
  | leaving i report => cases report <;> exact Or.inl rfl
  | measuring => exact Or.inl rfl
  | telling => exact Or.inr rfl

/-- Only registered entries are tried. -/
def Registered (configs : List ProviderConfig) (u : Usage) : Prop :=
  ∀ index, u.index? = some index → ∃ config, configs[index]? = some config

theorem Registered.step {router : Router} {u : Usage} (h : u.Registered router.configs) :
    (u.step router).1.Registered router.configs := by
  have hsame : ∀ u' : Usage, u'.index? = u.index? → u'.Registered router.configs :=
    fun u' he index hindex => h index (he ▸ hindex)
  cases u with
  | idle | leased | entered | measuring => exact hsame _ rfl
  | refused | telling => exact fun index hindex => nomatch hindex
  | trying now rest =>
      cases rest with
      | nil => exact fun index hindex => nomatch hindex
      | cons i rest =>
          simp only [Usage.step]
          split
          · exact fun index hindex => nomatch hindex
          · next config hconfig =>
              split
              · exact fun index hindex => nomatch hindex
              · intro index hindex
                cases hindex
                exact ⟨config, hconfig⟩
  | admitted now i rest =>
      simp only [Usage.step]
      split <;> exact hsame _ rfl
  | closing i report =>
      simp only [Usage.step]
      split <;> exact hsame _ rfl
  | leaving i report => cases report <;> exact hsame _ rfl

theorem begin_selecting {seen : Nat → Managed} {selection : Selection} {router : Router}
    (h : (begin seen selection router).1 ≠ .idle) :
    (begin seen selection router).1.isSelecting = true
      ∧ (begin seen selection router).1.index? = none := by
  revert h
  unfold begin
  dsimp only
  split
  · exact fun _ => ⟨rfl, rfl⟩
  split
  · exact fun h => absurd rfl h
  · exact fun _ => ⟨rfl, rfl⟩

/-! ## A call that is not interrupted -/

/-- The next operation, without others in between. -/
def alone (x : Usage × Router) : Usage × Router := x.1.step x.2

theorem setState_setState (router : Router) (i : Nat) (m m' : Managed) :
    (router.setState i m).setState i m' = router.setState i m' := by
  simp only [Router.setState, Function.update_idem]

theorem setState_state (router : Router) (i : Nat) (m : Managed) :
    (router.setState i m).state i = m := by
  simp only [Router.setState, Function.update_self]

/-- Where `Select` leaves the goroutine. -/
def ofResult : Except GoError Lease → Usage
  | .ok lease => .leased lease.entry
  | .error _ => .idle

/-- The loop of `Select` alone is `Router.acquire`. -/
theorem acquire_alone (now : Time) (router : Router) (entries : List Nat) :
    ∃ n, alone^[n] (.trying now entries, router)
      = (ofResult (Router.acquire now router entries).1,
        (Router.acquire now router entries).2) := by
  induction entries generalizing router with
  | nil => exact ⟨1, rfl⟩
  | cons i rest ih =>
      cases hconfig : router.configs[i]? with
      | none =>
          obtain ⟨n, hn⟩ := ih router
          refine ⟨n + 1, ?_⟩
          simp only [Router.acquire, hconfig]
          rw [Function.iterate_succ_apply, ← hn]
          simp only [alone, step, hconfig]
      | some config =>
          have hcapacity : ∀ m, (router.setState i m).capacity i = config.maxConcurrency := by
            intro m
            simp only [Router.capacity, Router.setState, hconfig, Option.map_some,
              Option.getD_some]
          rcases hallow : (router.state i).breaker.allow now with ⟨admitted, breaker⟩
          cases admitted with
          | false =>
              obtain ⟨n, hn⟩ := ih (router.setState i { router.state i with breaker })
              refine ⟨n + 1, ?_⟩
              simp only [Router.acquire, hconfig, hallow]
              rw [Function.iterate_succ_apply, ← hn]
              simp only [alone, step, hconfig, hallow]
          | true =>
              have hadmit : alone (.trying now (i :: rest), router)
                  = (.admitted now i rest,
                    router.setState i { router.state i with breaker }) := by
                simp only [alone, step, hconfig, hallow]
              by_cases hroom : (router.state i).occupancy < config.maxConcurrency
              · refine ⟨3, ?_⟩
                simp only [Router.acquire, hconfig, hallow, hroom, if_true]
                rw [Function.iterate_succ_apply, hadmit]
                simp only [Function.iterate_succ_apply, Function.iterate_zero_apply, alone, step,
                  setState_state, setState_setState, hcapacity, hroom, if_true]
                rfl
              · obtain ⟨n, hn⟩ := ih (router.setState i
                  { router.state i with breaker := breaker.release })
                refine ⟨n + 3, ?_⟩
                simp only [Router.acquire, hconfig, hallow, hroom, if_false]
                rw [Function.iterate_succ_apply, hadmit, Function.iterate_succ_apply,
                  Function.iterate_succ_apply, ← hn]
                simp only [alone, step, setState_state, setState_setState, hcapacity, hroom,
                  if_false]

/-- `Select` alone is `Router.selectFrom`. -/
theorem select_alone (seen : Nat → Managed) (selection : Selection) (router : Router) :
    ∃ n, alone^[n] (begin seen selection router)
      = (ofResult (Router.selectFrom { router with state := seen } router selection).1,
        (Router.selectFrom { router with state := seen } router selection).2) := by
  unfold begin Router.selectFrom
  dsimp only
  split
  · exact acquire_alone selection.now router []
  split
  · exact ⟨0, rfl⟩
  · exact acquire_alone _ _ _

/-- A report alone is `Router.success` or `Router.failure`. -/
theorem report_alone {router : Router} {lease : Lease} (hlease : lease.released = false)
    (hoccupied : 0 < (router.state lease.entry).occupancy) (report : Report) :
    ∃ n, alone^[n] (.closing lease.entry report, router)
      = (.idle, (router.report lease report).2) := by
  cases report with
  | success latencyMS =>
      refine ⟨4, ?_⟩
      simp [Function.iterate_succ_apply, Router.report, Router.success, Router.release, hlease,
        alone, step, hoccupied, setState_state, setState_setState, Report.tell]
  | failure retryable now =>
      refine ⟨3, ?_⟩
      cases retryable <;>
      simp [Function.iterate_succ_apply, Router.report, Router.failure, Router.release, hlease,
        alone, step, hoccupied, setState_state, setState_setState, Report.tell]

end Usage

/-! ## Any number of usages -/

/-- One usage among others goes from `u` to `u'` while the router changes by
    what that accounts for.  A usage that begins was `idle`. -/
structure Moves (usages usages' : List Usage) (router router' : Router) (u u' : Usage) : Prop where
  count : ∀ p : Usage → Bool, p .idle = false →
    usages'.countP p + (p u).toNat = usages.countP p + (p u').toNat
  configs : router'.configs = router.configs
  accounts : ∀ index, Usage.Accounts index (router.capacity index) u u' (router.state index)
    (router'.state index)

/-- The shared state of an entry is the sum of what the usages account for. -/
structure Balanced (router : Router) (usages : List Usage) (index : Nat) : Prop where
  occupancy : (router.state index).occupancy = usages.countP (Usage.holdsSlot index)
  outstanding : (router.state index).outstanding = usages.countP (Usage.isCounted index)
  bounded : (router.state index).occupancy ≤ router.capacity index
  sound : (router.state index).breaker.Sound
  probes : (router.state index).breaker.halfOpenActive ≤ usages.countP (Usage.mayProbe index)

section Balanced

variable {router router' : Router} {usages usages' : List Usage} {index : Nat}

theorem Balanced.moves (h : Balanced router usages index) {u u' : Usage}
    (hmoves : Moves usages usages' router router' u u') : Balanced router' usages' index := by
  have hslot := hmoves.count (Usage.holdsSlot index) rfl
  have hcounted := hmoves.count (Usage.isCounted index) rfl
  have hprobe := hmoves.count (Usage.mayProbe index) rfl
  have hoccupancy := h.occupancy
  have houtstanding := h.outstanding
  have hprobes := h.probes
  have haccounts := hmoves.accounts index
  have hoccupancy' := haccounts.occupancy
  have houtstanding' := haccounts.outstanding
  have hcapacity : router'.capacity index = router.capacity index := by
    rw [Router.capacity, Router.capacity, hmoves.configs]
  refine ⟨by omega, by omega, ?_, haccounts.sound h.sound, ?_⟩
  · rw [hcapacity]
    exact haccounts.bounded h.bounded
  · rcases haccounts.probes h.sound with hzero | hless
    · omega
    · omega

/-- The same in terms of the leases: what is in the semaphore and in
    `outstanding` are the unreported leases and calls in progress. -/
theorem Balanced.leases (h : Balanced router usages index) :
    (router.state index).occupancy = usages.countP (Usage.holdsLease index)
        + usages.countP (fun u => u.holdsSlot index && u.inProgress)
      ∧ (router.state index).outstanding = usages.countP (Usage.holdsLease index)
        + usages.countP (fun u => u.isCounted index && u.inProgress) := by
  have hslot : (fun u : Usage => u.holdsSlot index && !u.inProgress)
      = Usage.holdsLease index := by
    funext u
    cases u <;> simp [Usage.holdsSlot, Usage.holdsLease, Usage.inProgress, Usage.isSelecting,
      Usage.isReporting]
  have hcounted : (fun u : Usage => u.isCounted index && !u.inProgress)
      = Usage.holdsLease index := by
    funext u
    cases u <;> simp [Usage.isCounted, Usage.holdsLease, Usage.inProgress, Usage.isSelecting,
      Usage.isReporting]
  rw [h.occupancy, h.outstanding, Lib.countP_split usages (Usage.holdsSlot index) Usage.inProgress,
    Lib.countP_split usages (Usage.isCounted index) Usage.inProgress, hslot, hcounted]
  omega

/-- A new router, not used yet. -/
theorem balanced_new {configs : List ProviderConfig} {breakerConfig : CircuitBreaker.Config}
    (hrouter : Router.new configs breakerConfig = .ok router) (index : Nat) :
    Balanced router [] index := by
  unfold Router.new at hrouter
  split at hrouter
  · cases hrouter
  · cases hrouter
    refine ⟨rfl, rfl, ?_, Breaker.sound_new breakerConfig, Int.le_refl _⟩
    simp only [Router.capacity, List.getElem?_map, Option.map_map]
    cases configs[index]? with
    | none => exact Int.le_refl _
    | some config =>
        simp only [Option.map_some, Function.comp_apply, Option.getD_some,
          ProviderConfig.withDefaults]
        split <;> omega

/-- Every semaphore of a new router has room. -/
theorem Router.new_maxConcurrency {configs : List ProviderConfig}
    {breakerConfig : CircuitBreaker.Config}
    (hrouter : Router.new configs breakerConfig = .ok router) {config : ProviderConfig}
    (hconfig : config ∈ router.configs) : 0 < config.maxConcurrency := by
  unfold Router.new at hrouter
  split at hrouter
  · cases hrouter
  · cases hrouter
    obtain ⟨given, -, rfl⟩ := List.mem_map.mp hconfig
    simp only [ProviderConfig.withDefaults]
    split <;> omega

/-- Without a call in progress and without an unreported lease, nothing is held. -/
theorem Balanced.of_idle (h : Balanced router usages index) (hidle : ∀ u ∈ usages, u = .idle) :
    (router.state index).occupancy = 0 ∧ (router.state index).outstanding = 0
      ∧ (router.state index).breaker.halfOpenActive = 0 := by
  have hnone : ∀ p : Usage → Bool, p .idle = false → usages.countP p = 0 := by
    intro p hp
    refine List.countP_eq_zero.mpr fun u hu => ?_
    rw [hidle u hu, hp]
    exact Bool.false_ne_true
  refine ⟨?_, ?_, Int.le_antisymm ?_ h.sound.nonneg⟩
  · rw [h.occupancy, hnone _ rfl]
    rfl
  · rw [h.outstanding, hnone _ rfl]
    rfl
  · have hprobes := h.probes
    rw [hnone _ rfl] at hprobes
    exact hprobes

/-- Then a provider is refused only for reasons of policy, health or an open
    circuit: the filter lets it pass, with room, and its breaker admits. -/
theorem Balanced.available (h : Balanced router usages index)
    (hidle : ∀ u ∈ usages, u = .idle) {config : ProviderConfig}
    (hmax : 0 < config.maxConcurrency) {selection : Selection}
    (hstatic : staticallyEligible selection config = true)
    (hhealthy : (router.state index).healthy = true)
    (hexcluded : config.provider.name ∉ selection.excludedProviders)
    (hclosed : (router.state index).breaker.stateAt selection.now ≠ .open) :
    router.eligible selection config index = true
      ∧ ((router.state index).breaker.allow selection.now).1 = true := by
  obtain ⟨hoccupancy, -, hactive⟩ := h.of_idle hidle
  refine ⟨?_, h.sound.allow_of_idle hactive hclosed⟩
  have hroom : (router.state index).occupancy < config.maxConcurrency := by
    rw [hoccupancy]
    exact hmax
  simp [Router.eligible, hstatic, hhealthy, hexcluded, hclosed, hroom]

end Balanced

end Aegis.Routing
