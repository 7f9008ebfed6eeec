/-
  Aegis.CircuitBreaker.Reports

  A breaker and its callers.  Every `Allow` that returns true is a ticket, and
  the caller reports on it once, with `Success`, `Failure` or `Release`.  Calls
  overlap: a report may arrive in another state than the one that admitted the
  call, and that is where the two guarantees below need a condition.

    * An open circuit stays open for `OpenDuration`, unless a call admitted
      earlier reports `Success`: `Success` closes the circuit from any state.
    * Half-open, at most `HalfOpenProbes` calls are out, unless a call admitted
      in an earlier episode reports `Release`: `halfOpenActive` does not tell
      the episodes apart.
-/

import Aegis.CircuitBreaker
import Aegis.Lib.Runs
import Aegis.Lib.Table

namespace Aegis.CircuitBreaker

/-- An `Allow` that returned true. -/
structure Ticket where
  /-- how often the breaker had become half-open by then -/
  episode : Nat
  reported : Bool := false
deriving DecidableEq, Repr

/-- A breaker with the calls it admitted. -/
structure Guarded where
  breaker : Breaker
  tickets : List Ticket
  /-- the latest timestamp so far -/
  clock : Time
  /-- how often the breaker has become half-open -/
  episode : Nat

/-- A call of one of the breaker's methods; reports name their ticket. -/
inductive Event where
  | allow (now : Time)
  | success (ticket : Nat)
  | failure (ticket : Nat) (now : Time)
  | release (ticket : Nat)
deriving DecidableEq, Repr

namespace Guarded

/-- A new breaker; no timestamp is earlier than `start`. -/
def new (config : Config) (start : Time) : Guarded where
  breaker := Breaker.new config
  tickets := []
  clock := start
  episode := 0

/-- The report on a ticket.  There is none on a call that was not admitted,
    and no second one. -/
def report (x : Guarded) (ticket : Nat) (method : Breaker → Breaker) : Guarded :=
  match x.tickets[ticket]? with
  | some ⟨episode, false⟩ =>
      { x with
        breaker := method x.breaker
        tickets := x.tickets.set ticket ⟨episode, true⟩ }
  | _ => x

/-- One call.  Timestamps do not decrease: an earlier one is not a call. -/
def step (x : Guarded) : Event → Guarded
  | .allow now =>
      if now < x.clock then x
      else
        let (admitted, breaker) := x.breaker.allow now
        let episode :=
          if x.breaker.state = .open ∧ breaker.state = .halfOpen then x.episode + 1
          else x.episode
        { breaker, episode, clock := now
          tickets := if admitted then x.tickets ++ [{ episode }] else x.tickets }
  | .success ticket => x.report ticket Breaker.success
  | .failure ticket now =>
      if now < x.clock then x
      else { x.report ticket (fun breaker => breaker.failure now) with clock := now }
  | .release ticket => x.report ticket Breaker.release

/-- The calls admitted since the breaker last became half-open that have not
    been reported. -/
def outstanding (x : Guarded) : Nat :=
  x.tickets.countP fun ticket => !ticket.reported && ticket.episode == x.episode

/-! ## One call -/

section Steps

variable {x : Guarded}

/-- A report that counts, or nothing. -/
theorem report_cases (x : Guarded) (ticket : Nat) (method : Breaker → Breaker) :
    x.report ticket method = x
      ∨ ∃ episode, x.tickets[ticket]? = some ⟨episode, false⟩
        ∧ x.report ticket method = { x with
            breaker := method x.breaker
            tickets := x.tickets.set ticket ⟨episode, true⟩ } := by
  unfold report
  split
  · next episode hticket => exact Or.inr ⟨episode, hticket, rfl⟩
  · exact Or.inl rfl

/-- A property of the breaker that a method keeps is kept by its report. -/
theorem report_breaker (ticket : Nat) (method : Breaker → Breaker) {P : Breaker → Prop}
    (h : P x.breaker) (hmethod : P (method x.breaker)) : P (x.report ticket method).breaker := by
  rcases x.report_cases ticket method with hsame | ⟨episode, -, hdone⟩
  · rw [hsame]
    exact h
  · rw [hdone]
    exact hmethod

theorem report_clock (ticket : Nat) (method : Breaker → Breaker) :
    (x.report ticket method).clock = x.clock := by
  rcases x.report_cases ticket method with hsame | ⟨episode, -, hdone⟩
  · rw [hsame]
  · rw [hdone]

theorem clock_le_step (x : Guarded) (event : Event) : x.clock ≤ (x.step event).clock := by
  cases event with
  | allow now =>
      simp only [step]
      split
      · exact Int.le_refl _
      · next hlate => exact Int.not_lt.mp hlate
  | failure ticket now =>
      simp only [step]
      split
      · exact Int.le_refl _
      · next hlate => exact Int.not_lt.mp hlate
  | success ticket => exact Int.le_of_eq (report_clock ticket _).symm
  | release ticket => exact Int.le_of_eq (report_clock ticket _).symm

theorem clock_le_run (x : Guarded) (events : List Event) :
    x.clock ≤ (Lib.run step x events).clock := by
  induction events generalizing x with
  | nil => exact Int.le_refl _
  | cons event events ih => exact Int.le_trans (x.clock_le_step event) (ih (x.step event))

theorem step_config (x : Guarded) (event : Event) :
    (x.step event).breaker.config = x.breaker.config := by
  cases event with
  | allow now =>
      simp only [step]
      split
      · rfl
      · exact x.breaker.allow_config now
  | success ticket =>
      exact report_breaker ticket _ (P := fun b => b.config = x.breaker.config) rfl rfl
  | failure ticket now =>
      simp only [step]
      split
      · rfl
      · exact report_breaker ticket _ (P := fun b => b.config = x.breaker.config) rfl
          (x.breaker.failure_config now)
  | release ticket =>
      exact report_breaker ticket _ (P := fun b => b.config = x.breaker.config) rfl
        x.breaker.release_config

theorem run_config (config : Config) (start : Time) (events : List Event) :
    (Lib.run step (new config start) events).breaker.config = config.withDefaults :=
  Lib.run_invariant' (I := fun x : Guarded => x.breaker.config = config.withDefaults)
    (fun x event h => (x.step_config event).trans h) events rfl

end Steps

/-! ## An open circuit -/

/-- The circuit is open and has been since `t` or a later opening. -/
structure OpenSince (t : Time) (x : Guarded) : Prop where
  state : x.breaker.state = .open
  opened : t ≤ x.breaker.openedAt
  past : t ≤ x.clock

/-- A circuit that is open was opened in the past. -/
theorem openedAt_le_clock (config : Config) (start : Time) (events : List Event)
    (hopen : (Lib.run step (new config start) events).breaker.state = .open) :
    (Lib.run step (new config start) events).breaker.openedAt
      ≤ (Lib.run step (new config start) events).clock := by
  revert hopen
  refine Lib.run_invariant'
    (I := fun x : Guarded => x.breaker.state = .open → x.breaker.openedAt ≤ x.clock)
    ?_ events (fun hopen => State.noConfusion hopen)
  intro x event h
  cases event with
  | allow now =>
      simp only [step]
      split
      · exact h
      · next hlate =>
          have hcases := x.breaker.allow_cases now
          generalize x.breaker.allow now = result at hcases ⊢
          intro hopen
          cases hcases with
          | waiting hstate => exact Int.le_trans (h hstate) (Int.not_lt.mp hlate)
          | closed hstate | full hstate | probe hstate =>
              exact State.noConfusion (hstate.symm.trans hopen)
          | barred | first => exact State.noConfusion hopen
  | success ticket =>
      rw [step, report_clock]
      exact report_breaker ticket _ (P := fun b => b.state = .open → b.openedAt ≤ x.clock) h
        (fun hopen => State.noConfusion hopen)
  | failure ticket now =>
      simp only [step]
      split
      · exact h
      · next hlate =>
          have hnow : x.clock ≤ now := Int.not_lt.mp hlate
          refine report_breaker ticket _ (P := fun b => b.state = .open → b.openedAt ≤ now)
            (fun hopen => Int.le_trans (h hopen) hnow) ?_
          intro hopen
          rcases x.breaker.failure_cases now with ⟨failures, hdone⟩ | ⟨-, failures, hdone⟩
          · rw [hdone]
            exact Int.le_refl _
          · rw [hdone] at hopen ⊢
            exact Int.le_trans (h hopen) hnow
  | release ticket =>
      rw [step, report_clock]
      refine report_breaker ticket _ (P := fun b => b.state = .open → b.openedAt ≤ x.clock) h ?_
      unfold Breaker.release
      split
      · exact h
      · exact h

/-- Until `OpenDuration` is over, no call but `Success` ends the open state. -/
theorem OpenSince.step {t : Time} {x : Guarded} (h : OpenSince t x) {event : Event}
    (hquiet : ∀ ticket, event ≠ .success ticket)
    (hwithin : (x.step event).clock < t + x.breaker.config.openDuration) :
    OpenSince t (x.step event) := by
  have hpast : t ≤ (x.step event).clock := Int.le_trans h.past (x.clock_le_step event)
  cases event with
  | success ticket => exact absurd rfl (hquiet ticket)
  | allow now =>
      by_cases hlate : now < x.clock
      · have hsame : x.step (.allow now) = x := by simp only [Guarded.step, hlate, if_true]
        rw [hsame]
        exact h
      · have hcases := x.breaker.allow_cases now
        simp only [Guarded.step, hlate, if_false] at hpast hwithin ⊢
        -- the timestamp is too early for the half-open state
        have hearly : now < x.breaker.openedAt + x.breaker.config.openDuration :=
          Int.lt_of_lt_of_le hwithin (Int.add_le_add_right h.opened _)
        generalize x.breaker.allow now = result at hcases hpast hwithin ⊢
        cases hcases with
        | waiting hstate => exact ⟨hstate, h.opened, hpast⟩
        | closed hstate | full hstate | probe hstate =>
            exact State.noConfusion (hstate.symm.trans h.state)
        | barred hstate hover | first hstate hover =>
            exact absurd hover (Int.not_le.mpr hearly)
  | failure ticket now =>
      by_cases hlate : now < x.clock
      · have hsame : x.step (.failure ticket now) = x := by
          simp only [Guarded.step, hlate, if_true]
        rw [hsame]
        exact h
      · simp only [Guarded.step, hlate, if_false] at hpast ⊢
        have hkept := report_breaker ticket (fun breaker => breaker.failure now)
          (P := fun b => b.state = .open ∧ t ≤ b.openedAt) ⟨h.state, h.opened⟩ ?_
        · exact ⟨hkept.1, hkept.2, hpast⟩
        · -- a late failure opens the circuit again or is only recorded
          rcases x.breaker.failure_cases now with ⟨failures, hdone⟩ | ⟨-, failures, hdone⟩
          · rw [hdone]
            exact ⟨rfl, hpast⟩
          · rw [hdone]
            exact ⟨h.state, h.opened⟩
  | release ticket =>
      have hrelease : x.breaker.release = x.breaker := by
        simp [Breaker.release, h.state]
      have hkept := report_breaker ticket Breaker.release
        (P := fun b => b.state = .open ∧ t ≤ b.openedAt) ⟨h.state, h.opened⟩
        (by rw [hrelease]; exact ⟨h.state, h.opened⟩)
      exact ⟨hkept.1, hkept.2, hpast⟩

theorem OpenSince.run {t : Time} {x : Guarded} (h : OpenSince t x) {events : List Event}
    (hquiet : ∀ ticket, Event.success ticket ∉ events)
    (hwithin : (Lib.run Guarded.step x events).clock < t + x.breaker.config.openDuration) :
    OpenSince t (Lib.run Guarded.step x events) := by
  induction events generalizing x with
  | nil => exact h
  | cons event events ih =>
      have hevent : ∀ ticket, event ≠ .success ticket := by
        rintro ticket rfl
        exact hquiet ticket (List.mem_cons_self ..)
      have hnext : OpenSince t (x.step event) :=
        h.step hevent (Int.lt_of_le_of_lt (clock_le_run _ events) hwithin)
      refine ih hnext (fun ticket hmem => hquiet ticket (List.mem_cons_of_mem _ hmem)) ?_
      rw [step_config]
      exact hwithin

/-- **An open circuit stays open**, as long as no call reports `Success`: once
    the breaker is open since `t`, whatever else is called, every
    `Allow(now)` with `now < t + OpenDuration` returns false. -/
theorem open_until_success (config : Config) (start : Time) (before after : List Event)
    (t now : Time) (hopen : (Lib.run step (new config start) before).breaker.state = .open)
    (ht : (Lib.run step (new config start) before).breaker.openedAt = t)
    (hquiet : ∀ ticket, Event.success ticket ∉ after)
    (hnow : (Lib.run step (new config start) (before ++ after)).clock ≤ now)
    (hwithin : now < t + config.withDefaults.openDuration) :
    ((Lib.run step (new config start) (before ++ after)).breaker.allow now).1 = false := by
  have hconfig := run_config config start before
  have hconfig' := run_config config start (before ++ after)
  have hpast := openedAt_le_clock config start before hopen
  rw [Lib.run_append] at hnow hconfig' ⊢
  rw [ht] at hpast
  have hsince : OpenSince t (Lib.run step (new config start) before) :=
    ⟨hopen, Int.le_of_eq ht.symm, hpast⟩
  have hstill := hsince.run hquiet
    (by rw [hconfig]; exact Int.lt_of_le_of_lt hnow hwithin)
  generalize Lib.run step (Lib.run step (new config start) before) after = x at *
  have hcases := x.breaker.allow_cases now
  generalize x.breaker.allow now = result at hcases
  cases hcases with
  | waiting => rfl
  | full | barred => rfl
  | closed hstate | probe hstate => exact State.noConfusion (hstate.symm.trans hstill.state)
  | first hstate hover =>
      rw [hconfig'] at hover
      have hlater := Int.add_le_add_right hstill.opened config.withDefaults.openDuration
      exact absurd hover (Int.not_le.mpr (Int.lt_of_lt_of_le hwithin hlater))

/-- Two calls are admitted, the first fails and opens the circuit at 1.  A late
    failure of the second and a refused `Allow` leave it open. -/
theorem open_until_success_lateFailure :
    ((Lib.run step (new { failureThreshold := 1, openDuration := 10 } 0)
      ([.allow 0, .allow 0, .failure 0 1] ++ [.failure 1 3, .allow 4])).breaker.allow 5).1
      = false :=
  open_until_success { failureThreshold := 1, openDuration := 10 } 0 _ _ 1 5 (by decide)
    (by decide) (by simp) (by decide) (by decide)

/-- **The condition is needed.** The first of two admitted calls fails and opens
    the circuit at 1 for 10; the second reports `Success`, and at 2 the breaker
    admits. -/
theorem late_success_closes :
    let before : List Event := [.allow 0, .allow 0, .failure 0 1]
    let start := new { failureThreshold := 1, openDuration := 10 } 0
    (Lib.run step start before).breaker.state = .open
      ∧ (Lib.run step start before).breaker.openedAt = 1
      ∧ (Lib.run step start before).breaker.config.openDuration = 10
      ∧ ((Lib.run step start (before ++ [.success 1])).breaker.allow 2).1 = true := by
  decide

/-! ## Half-open probes -/

/-- The condition: in the half-open state `Release` reports on a call that was
    admitted since the breaker last became half-open. -/
def Current (x : Guarded) : Event → Prop
  | .release ticket => x.breaker.state = .halfOpen →
      ∀ k ∈ x.tickets[ticket]?, k.reported = false → k.episode = x.episode
  | _ => True

instance (x : Guarded) (event : Event) : Decidable (Current x event) :=
  match event with
  | .release _ => inferInstanceAs (Decidable (_ → ∀ k ∈ _, _))
  | .allow _ => isTrue trivial
  | .success _ => isTrue trivial
  | .failure _ _ => isTrue trivial

/-- Half-open, `halfOpenActive` counts the calls that are out. -/
structure Counted (x : Guarded) : Prop where
  permitted : 0 < x.breaker.config.halfOpenProbes
  past : ∀ ticket ∈ x.tickets, ticket.episode ≤ x.episode
  active : x.breaker.state = .halfOpen → x.breaker.halfOpenActive = x.outstanding
  bounded : x.breaker.state = .halfOpen →
    x.breaker.halfOpenActive ≤ x.breaker.config.halfOpenProbes

/-- A report takes its own ticket out of the count. -/
theorem countP_report {tickets : List Ticket} {ticket episode : Nat} (current : Nat)
    (hticket : tickets[ticket]? = some ⟨episode, false⟩) :
    tickets.countP (fun k => !k.reported && k.episode == current)
      = (tickets.set ticket ⟨episode, true⟩).countP
          (fun k => !k.reported && k.episode == current)
        + if episode = current then 1 else 0 := by
  have hset := Lib.countP_set_add hticket (fun k => !k.reported && k.episode == current)
    ⟨episode, true⟩
  by_cases h : episode = current
  · simp only [h, Bool.not_false, beq_self_eq_true, Bool.and_self, Bool.toNat_true,
      Bool.not_true, Bool.false_and, Bool.toNat_false] at hset
    rw [if_pos h, h]
    omega
  · simp only [beq_false_of_ne h, Bool.and_false, Bool.toNat_false] at hset
    rw [if_neg h]
    omega

/-- No ticket belongs to an episode that is only beginning. -/
theorem countP_next {tickets : List Ticket} {current : Nat}
    (h : ∀ k ∈ tickets, k.episode ≤ current) :
    tickets.countP (fun k => !k.reported && k.episode == current + 1) = 0 := by
  rw [List.countP_eq_zero]
  intro k hk hnext
  have hle := h k hk
  simp only [Bool.and_eq_true, beq_iff_eq] at hnext
  omega

theorem episode_le_append {tickets : List Ticket} {current : Nat}
    (h : ∀ k ∈ tickets, k.episode ≤ current) :
    ∀ k ∈ tickets ++ [{ episode := current }], k.episode ≤ current := by
  intro k hk
  rcases List.mem_append.mp hk with hk | hk
  · exact h k hk
  · rw [List.mem_singleton.mp hk]

theorem episode_le_set {tickets : List Ticket} {ticket episode current : Nat}
    (hticket : tickets[ticket]? = some ⟨episode, false⟩)
    (h : ∀ k ∈ tickets, k.episode ≤ current) :
    ∀ k ∈ tickets.set ticket ⟨episode, true⟩, k.episode ≤ current := by
  intro k hk
  rcases List.mem_or_eq_of_mem_set hk with hk | rfl
  · exact h k hk
  · exact h ⟨episode, false⟩ (List.mem_of_getElem? hticket)

theorem Counted.allow {x : Guarded} (h : Counted x) (now : Time) :
    Counted (x.step (.allow now)) := by
  simp only [Guarded.step]
  split
  · exact h
  have hcases := x.breaker.allow_cases now
  generalize x.breaker.allow now = result at hcases ⊢
  cases hcases with
  | closed hstate =>
      simp only [hstate, reduceCtorEq, false_and, if_false, if_true]
      exact ⟨h.permitted, episode_le_append h.past,
        fun hhalf => State.noConfusion (hstate.symm.trans hhalf),
        fun hhalf => State.noConfusion (hstate.symm.trans hhalf)⟩
  | waiting hstate =>
      simp only [hstate, reduceCtorEq, and_false, if_false, Bool.false_eq_true]
      exact ⟨h.permitted, h.past, fun hhalf => State.noConfusion (hstate.symm.trans hhalf),
        fun hhalf => State.noConfusion (hstate.symm.trans hhalf)⟩
  | full hstate =>
      simp only [hstate, reduceCtorEq, false_and, if_false, Bool.false_eq_true]
      exact ⟨h.permitted, h.past, h.active, h.bounded⟩
  | probe hstate hroom =>
      simp only [hstate, reduceCtorEq, false_and, if_false, if_true]
      refine ⟨h.permitted, episode_le_append h.past, ?_, fun _ => hroom⟩
      intro _
      have hactive := h.active hstate
      unfold outstanding at hactive ⊢
      simp only [List.countP_append, List.countP_singleton, Bool.not_false, beq_self_eq_true,
        Bool.and_self, if_true]
      omega
  | barred hstate hover hnone => exact absurd h.permitted (Int.not_lt.mpr hnone)
  | first hstate hover hroom =>
      simp only [hstate, and_self, if_true]
      -- the tickets of earlier episodes no longer count
      have hpast : ∀ k ∈ x.tickets, k.episode ≤ x.episode + 1 := fun k hk =>
        Nat.le_succ_of_le (h.past k hk)
      refine ⟨h.permitted, episode_le_append hpast, ?_, fun _ => hroom⟩
      intro _
      have hnone := countP_next h.past
      unfold outstanding
      simp only [List.countP_append, List.countP_singleton, Bool.not_false, beq_self_eq_true,
        Bool.and_self, if_true, hnone]
      rfl

/-- After a report that ends the half-open state there is nothing to count. -/
theorem Counted.report {x : Guarded} (h : Counted x) (ticket : Nat) (method : Breaker → Breaker)
    (hconfig : (method x.breaker).config = x.breaker.config)
    (hends : (method x.breaker).state ≠ .halfOpen) : Counted (x.report ticket method) := by
  rcases x.report_cases ticket method with hsame | ⟨episode, hticket, hdone⟩
  · rw [hsame]
    exact h
  · rw [hdone]
    exact ⟨by rw [hconfig]; exact h.permitted, episode_le_set hticket h.past,
      fun hhalf => absurd hhalf hends, fun hhalf => absurd hhalf hends⟩

theorem Counted.release {x : Guarded} (h : Counted x) {ticket : Nat}
    (hcurrent : Current x (.release ticket)) : Counted (x.step (.release ticket)) := by
  by_cases hstate : x.breaker.state = .halfOpen
  · rcases x.report_cases ticket Breaker.release with hsame | ⟨episode, hticket, hdone⟩
    · rw [step, hsame]
      exact h
    · -- the ticket is one of those counted, so there is a probe to give back
      have hcount := countP_report x.episode hticket
      have hactive := h.active hstate
      rw [if_pos (hcurrent hstate _ hticket rfl)] at hcount
      have hpositive : x.breaker.halfOpenActive > 0 := by
        rw [hactive, outstanding, hcount]
        omega
      have hrelease : x.breaker.release
          = { x.breaker with halfOpenActive := x.breaker.halfOpenActive - 1 } := by
        rw [Breaker.release, if_pos ⟨hstate, hpositive⟩]
      rw [step, hdone, hrelease]
      refine ⟨h.permitted, episode_le_set hticket h.past, ?_, ?_⟩
      · intro _
        rw [outstanding, hcount] at hactive
        rw [outstanding]
        dsimp only
        omega
      · intro _
        have hbounded := h.bounded hstate
        dsimp only
        omega
  · have hrelease : x.breaker.release = x.breaker := by simp [Breaker.release, hstate]
    exact h.report ticket _ (by rw [hrelease]) (by rw [hrelease]; exact hstate)

theorem Counted.step {x : Guarded} (h : Counted x) (event : Event) (hcurrent : Current x event) :
    Counted (x.step event) := by
  cases event with
  | allow now => exact h.allow now
  | success ticket => exact h.report ticket _ rfl State.noConfusion
  | release ticket => exact h.release hcurrent
  | failure ticket now =>
      simp only [Guarded.step]
      split
      · exact h
      · have hends : (x.breaker.failure now).state ≠ .halfOpen := by
          rcases x.breaker.failure_cases now with ⟨failures, hdone⟩ | ⟨hstate, failures, hdone⟩
          · rw [hdone]
            exact State.noConfusion
          · rw [hdone]
            exact hstate
        obtain ⟨hpermitted, hpast, hactive, hbounded⟩ :=
          h.report ticket (fun b => b.failure now) (x.breaker.failure_config now) hends
        exact ⟨hpermitted, hpast, hactive, hbounded⟩

theorem counted_new (config : Config) (start : Time) : Counted (new config start) where
  permitted := by
    simp only [new, Breaker.new, Config.withDefaults]
    split <;> omega
  past := fun _ h => absurd h List.not_mem_nil
  active := fun h => State.noConfusion h
  bounded := fun h => State.noConfusion h

/-- **Half-open probe bound.** In every run in which `Release`, arriving in the
    half-open state, reports on a call of the current episode, at most
    `HalfOpenProbes` calls of that episode are out. -/
theorem probes_bounded (config : Config) (start : Time) (events : List Event)
    (hrun : ∀ s ∈ Lib.trace step (new config start) events, Current s.1 s.2.1)
    (hhalf : (Lib.run step (new config start) events).breaker.state = .halfOpen) :
    ((Lib.run step (new config start) events).outstanding : Int)
      ≤ config.withDefaults.halfOpenProbes := by
  have hcounted : Counted (Lib.run step (new config start) events) :=
    Lib.run_invariant (fun x event h hcurrent => h.step event hcurrent) events
      (counted_new config start) hrun
  have hbounded := hcounted.bounded hhalf
  rw [hcounted.active hhalf, run_config] at hbounded
  exact hbounded

/-- A probe is admitted, given back unused, and another one admitted. -/
theorem probes_bounded_released :
    ((Lib.run step (new { failureThreshold := 1, openDuration := 10 } 0)
      [.allow 0, .failure 0 1, .allow 11, .release 1, .allow 12]).outstanding : Int) ≤ 1 :=
  probes_bounded { failureThreshold := 1, openDuration := 10 } 0 _ (by decide) (by decide)

/-- **The condition is needed.** Of two calls admitted while closed the first
    fails and opens the circuit.  Half-open at 11, the one permitted probe is
    admitted; then the second old call reports `Release`, and a second probe is
    admitted beside the first. -/
theorem stale_release_admits :
    let x := Lib.run step (new { failureThreshold := 1, openDuration := 10 } 0)
      [.allow 0, .allow 0, .failure 0 1, .allow 11, .release 1, .allow 11]
    x.breaker.state = .halfOpen ∧ x.breaker.config.halfOpenProbes = 1 ∧ x.outstanding = 2 := by
  decide

end Guarded

end Aegis.CircuitBreaker
