/-
  Aegis.MonthlyBudget

  What the monthly budget bounds, in the open system of `Aegis.Projection`.

  Admission compares the limit with the usage ledger and the active
  reservations.  A reservation leaves the second sum when it is reconciled and
  its cost enters the first one only when the usage event has been consumed;
  between the two it is counted nowhere.  The bound therefore needs the cost
  of every reconciled reservation to be posted when the next one is admitted:

    * `monthSpend_le_of_posted` — what `ReserveBudget` reads then covers the
      month's spend;
    * `monthlyBudget_bounded` — runs in which this holds at every admission
      keep every month within the limit;
    * `monthlyBudget_oversubscribed` — a run in which it does not.
-/

import Aegis.Projection

namespace Aegis.Pipeline

open Aegis.Lib (sumOf)
open Aegis.Outbox (Relay)
open Aegis.Persistence

/-! ## Spend of a month -/

/-- What a reservation counts for. -/
def spend (r : ReservationRow) : Int :=
  if r.state = .reconciled then (r.actualMicroUSD.getD 0 : Nat) else r.reservedMicroUSD

/-- A tenant's reservations of a month. -/
def monthRows (db : Db) (tenantID : String) (month : Time) : List ReservationRow :=
  db.reservations.rows.filter fun r => r.tenantID == tenantID && r.periodMonth == month

def monthSpend (db : Db) (tenantID : String) (month : Time) : Int :=
  sumOf spend (monthRows db tenantID month)

/-- Every cost reconciled in the month is in the usage ledger. -/
def SpendPosted (db : Db) (tenantID : String) (month : Time) : Prop :=
  ∀ r ∈ monthRows db tenantID month, r.state = .reconciled → 0 < spend r →
    ∃ l ∈ db.ledger.rows, l.tenantID = tenantID ∧ month ≤ l.occurredAt
      ∧ l.requestID = r.requestID ∧ spend r ≤ l.costMicroUSD

/-- The request and the cost that a step reconciles. -/
def OpenAction.reconciles : OpenAction → Option (String × Int)
  | .call (.reconcileBudget requestID actual) _ => some (requestID, actual)
  | _ => none

/-- The tenant and the instant a step reserves for. -/
def OpenAction.reserves : OpenAction → Option (String × Time)
  | .call (.reserveBudget tenantID _ _ now) _ => some (tenantID, now)
  | _ => none

/-- No step reconciles more than was reserved. -/
def WithinReservation (db : Db) (action : OpenAction) : Prop :=
  ∀ c ∈ action.reconciles, ∀ r ∈ db.reservation? c.1, c.2 ≤ r.reservedMicroUSD

/-- When a step reserves for the tenant, the spend of that month is posted. -/
def PostedAtReserve (tenantID : String) (db : Db) (action : OpenAction) : Prop :=
  ∀ c ∈ action.reserves, c.1 = tenantID → SpendPosted db tenantID (Time.startOfMonth c.2)

instance (db : Db) (tenantID : String) (month : Time) :
    Decidable (SpendPosted db tenantID month) := List.decidableBAll ..

instance (db : Db) (action : OpenAction) : Decidable (WithinReservation db action) :=
  Option.decidableForallMem ..

instance (tenantID : String) (db : Db) (action : OpenAction) :
    Decidable (PostedAtReserve tenantID db action) := Option.decidableForallMem ..

/-! ## Admission covers the month -/

theorem reservationRequests_nodup (db : Db) :
    (db.reservations.rows.map ReservationRow.requestID).Nodup := by
  rw [List.Nodup, List.pairwise_map]
  exact db.reservations.unique.imp fun hclash heq => hclash (Or.inr heq)

/-- Reconciled spend is covered by the ledger once it is posted. -/
theorem reconciled_le_ledgerSince {db : Db} {tenantID : String} {month : Time}
    (hposted : SpendPosted db tenantID month) :
    sumOf spend ((monthRows db tenantID month).filter fun r => r.state == .reconciled)
      ≤ Postgres.ledgerSince db tenantID month := by
  refine Lib.sumOf_le_of_cover (k := ReservationRow.requestID) (j := LedgerRow.requestID)
    ?_ ?_ ?_
  · refine (reservationRequests_nodup db).sublist (List.Sublist.map _ ?_)
    exact List.filter_sublist.trans List.filter_sublist
  · intro l _
    exact Int.natCast_nonneg _
  · intro r hr hpos
    obtain ⟨hmonth, hstate⟩ := List.mem_filter.mp hr
    obtain ⟨l, hl, htenant, hsince, hreq, hle⟩ := hposted r hmonth (by simpa using hstate) hpos
    exact ⟨l, List.mem_filter.mpr ⟨hl, by simp [htenant, hsince]⟩, hreq, hle⟩

/-- What is not reconciled is reserved, as nothing is ever released. -/
theorem unreconciled_le_reservedInMonth {db : Db} (tenantID : String) (month : Time)
    (hunreleased : ∀ r ∈ db.reservations.rows, r.state ≠ .released) :
    sumOf spend ((monthRows db tenantID month).filter fun r => !(r.state == .reconciled))
      ≤ Postgres.reservedInMonth db tenantID month := by
  have hsame : (monthRows db tenantID month).filter (fun r => !(r.state == .reconciled))
      = db.reservations.rows.filter fun r =>
          r.tenantID == tenantID && r.periodMonth == month && r.state == .reserved := by
    rw [monthRows, List.filter_filter]
    refine List.filter_congr ?_
    intro r hr
    have hne := hunreleased r hr
    cases hstate : r.state with
    | reserved => simp
    | reconciled => simp
    | released => exact absurd hstate hne
  rw [hsame]
  refine Lib.sumOf_le_sumOf ?_
  intro r hr
  have hstate : r.state = .reserved := by
    have := (List.mem_filter.mp hr).2
    simp only [Bool.and_eq_true, beq_iff_eq] at this
    exact this.2
  simp [spend, hstate]

/-- **Coverage.** With the month's spend posted, the two sums `ReserveBudget`
    reads are at least the month's spend. -/
theorem monthSpend_le_of_posted {db : Db} {tenantID : String} {month : Time}
    (hunreleased : ∀ r ∈ db.reservations.rows, r.state ≠ .released)
    (hposted : SpendPosted db tenantID month) :
    monthSpend db tenantID month
      ≤ Postgres.ledgerSince db tenantID month + Postgres.reservedInMonth db tenantID month := by
  have hsplit := Lib.sumOf_split (f := spend) (l := monthRows db tenantID month)
    fun r => r.state == .reconciled
  have hledger := reconciled_le_ledgerSince hposted
  have hreserved := unreconciled_le_reservedInMonth tenantID month hunreleased
  unfold monthSpend
  omega

/-! ## The bound -/

/-- The invariant: no reservation is released, and each month is within the
    limit. -/
structure Bounded (tenantID : String) (limits : TenantLimits) (db : Db) : Prop where
  configured : db.catalog.limits.rows.find? (fun l => l.tenantID == tenantID) = some limits
  unreleased : ∀ r ∈ db.reservations.rows, r.state ≠ .released
  bound : ∀ month, monthSpend db tenantID month ≤ limits.monthlyBudget

section Steps

variable {tenantID : String} {limits : TenantLimits} {db db' : Db} {info : Info}

theorem Bounded.of_reservations (h : Bounded tenantID limits db)
    (hcatalog : db'.catalog = db.catalog) (hsame : db'.reservations = db.reservations) :
    Bounded tenantID limits db' := by
  refine ⟨by rw [hcatalog]; exact h.configured, by rw [hsame]; exact h.unreleased, ?_⟩
  intro month
  have hmonth : monthSpend db' tenantID month = monthSpend db tenantID month := by
    rw [monthSpend, monthRows, hsame]
    rfl
  rw [hmonth]
  exact h.bound month

/-- A reservation admitted with the month's spend posted keeps the bound. -/
theorem bounded_reserveBudget (h : Bounded tenantID limits db) (hlimit : 0 < limits.monthlyBudget)
    {tenant requestID : String} {amount : Int} {now : Time} {u : Unit}
    (hposted : tenant = tenantID → SpendPosted db tenantID (Time.startOfMonth now))
    (hok : Postgres.reserveBudget tenant requestID amount now info db = .ok (u, db')) :
    Bounded tenantID limits db' := by
  obtain ⟨found, hfound, hadmit, hins⟩ := Postgres.reserveBudget_ok hok
  rcases Postgres.insertReservation_ok hins with
    ⟨-, hdb⟩ | ⟨-, -, reserved, reservations, hreserved, hdb, hrows⟩
  · rw [hdb]
    exact h
  · subst hdb
    refine ⟨h.configured, ?_, ?_⟩
    · intro r hr
      rw [hrows] at hr
      rcases List.mem_append.mp hr with hr | hr
      · exact h.unreleased r hr
      · rw [List.mem_singleton.mp hr]
        simp
    · intro month
      have hbound := h.bound month
      simp only [monthSpend, monthRows, hrows, List.filter_append, Lib.sumOf_append]
      by_cases hmine : tenant = tenantID ∧ Time.startOfMonth now = month
      · -- the new row counts in this month, and admission left room for it
        obtain ⟨rfl, rfl⟩ := hmine
        have hsame : found = limits := Option.some.inj (hfound.symm.trans h.configured)
        rw [hsame] at hadmit
        have hroom := Budget.le_of_canReserve hadmit (by omega) limits.monthlyBudget_le
        have hcover := monthSpend_le_of_posted h.unreleased (hposted rfl)
        simp only [monthSpend, monthRows] at hcover
        simp only [beq_self_eq_true, Bool.and_self, List.filter_cons_of_pos, List.filter_nil,
          Lib.sumOf_cons, Lib.sumOf_nil, spend, reduceCtorEq, if_false]
        omega
      · have hother : (tenant == tenantID && Time.startOfMonth now == month) = false := by
          simpa using hmine
        simpa [hother, monthSpend, monthRows] using hbound

/-- Reconciling within the reservation only lowers the spend. -/
theorem bounded_reconcileBudget (h : Bounded tenantID limits db) {requestID : String}
    {actual : Int} {u : Unit}
    (hwithin : ∀ r ∈ db.reservation? requestID, actual ≤ r.reservedMicroUSD)
    (hok : Postgres.reconcileBudget requestID actual info db = .ok (u, db')) :
    Bounded tenantID limits db' := by
  obtain ⟨amount, hamount, -, hdb⟩ := Postgres.reconcileBudget_ok hok
  subst hdb
  refine ⟨h.configured, ?_, ?_⟩
  · intro r hr
    obtain ⟨r₀, hr₀, rfl⟩ := List.mem_map.mp hr
    by_cases hguard : Postgres.reservationGuard requestID r₀ = true
    · simp [hguard, ReservationRow.reconciled]
    · simpa [hguard] using h.unreleased r₀ hr₀
  · intro month
    refine Int.le_trans ?_ (h.bound month)
    have hrows : monthRows { db with
          reservations := db.reservations.updateWhere (Postgres.reservationGuard requestID)
            (.reconciled amount info.dbNow) (fun _ => rfl) } tenantID month
        = (monthRows db tenantID month).map fun r =>
            if Postgres.reservationGuard requestID r then r.reconciled amount info.dbNow else r :=
      Lib.filter_update fun _ => rfl
    rw [monthSpend, hrows, Lib.sumOf_map]
    refine Lib.sumOf_le_sumOf ?_
    intro r hr
    by_cases hguard : Postgres.reservationGuard requestID r = true
    · have hkey := Bool.and_eq_true_iff.mp hguard
      have hreq : r.requestID = requestID := by simpa using hkey.1
      have hstate : r.state = .reserved := by simpa using hkey.2
      have hle := hwithin r
        (db.reservation?_eq_some_iff.mpr ⟨(List.mem_filter.mp hr).1, hreq⟩)
      simp only [hguard, if_true, spend, ReservationRow.reconciled, hstate, reduceCtorEq,
        if_false, Option.getD_some]
      omega
    · simp [hguard]

/-- Every step that meets both conditions keeps the invariant. -/
theorem bounded_openStep (config : Config) (hlimit : 0 < limits.monthlyBudget) (x : State × Db)
    (action : OpenAction) (h : Bounded tenantID limits x.2)
    (hcond : WithinReservation x.2 action ∧ PostedAtReserve tenantID x.2 action) :
    Bounded tenantID limits (openStep config x action).2 := by
  cases action with
  | call call info =>
      rcases Postgres.store_reservations call info x.2 with
        hsame | ⟨tenant, requestID, amount, now, u, rfl, hok⟩ | ⟨requestID, actual, u, rfl, hok⟩
      · exact h.of_reservations (Postgres.store_frame call info x.2).catalog hsame
      · exact bounded_reserveBudget h hlimit (hcond.2 (tenant, now) rfl) hok
      · exact bounded_reconcileBudget h (hcond.1 (requestID, actual) rfl) hok
  | evaluation failed jobID tenant correlationID payload info =>
      refine transact_rule (P := Bounded tenantID limits) h ?_
      intro u db' hok
      simp only [recordEvaluation, bind_eq_ok] at hok
      obtain ⟨db₁, hins, hdb⟩ := hok
      obtain ⟨outbox, hdb₁, -⟩ := insertOutbox_ok hins
      rw [return_db hdb, hdb₁]
      exact h.of_reservations rfl rfl
  | pipeline action =>
      have hframe := step_frame config x action
      exact h.of_reservations hframe.catalog hframe.reservations

end Steps

/-- **Monthly budget.** For a tenant with a positive monthly limit, every run in
    which no request costs more than its reservation, and in which the month's
    reconciled costs are in the usage ledger whenever a reservation is
    requested, keeps each month's reservations and costs within the limit in
    every state. -/
theorem monthlyBudget_bounded (config : Config) (relays : Nat → Relay) (catalog : Catalog)
    (tenantID : String) (limits : TenantLimits)
    (hlimits : catalog.limits.rows.find? (fun l => l.tenantID == tenantID) = some limits)
    (hmonthly : 0 < limits.monthlyBudget) (as : List OpenAction)
    (hwithin : ∀ x ∈ Lib.trace (openStep config) (State.init relays, Db.init catalog) as,
      WithinReservation x.1.2 x.2.1)
    (hposted : ∀ x ∈ Lib.trace (openStep config) (State.init relays, Db.init catalog) as,
      PostedAtReserve tenantID x.1.2 x.2.1) :
    ∀ month, monthSpend (Lib.run (openStep config) (State.init relays, Db.init catalog) as).2
      tenantID month ≤ limits.monthlyBudget := by
  have hinit : Bounded tenantID limits (Db.init catalog) := by
    refine ⟨hlimits, fun r hr => absurd hr List.not_mem_nil, ?_⟩
    intro month
    exact Int.natCast_nonneg _
  have hrun := Lib.run_invariant (I := fun s => Bounded tenantID limits s.2)
    (C := fun s a => WithinReservation s.2 a ∧ PostedAtReserve tenantID s.2 a)
    (fun s a => bounded_openStep config hmonthly s a) as hinit
    (fun x hx => ⟨hwithin x hx, hposted x hx⟩)
  exact hrun.bound

/-! ## Runs of two requests against a limit of 100 -/

/-- A request runs through the gateway at the cost it reserved. -/
def firstRequest : List OpenAction :=
  let move (source target : Request.State) : OpenAction :=
    .call (.transitionRequest "t" "r1" source target) (stepInfo "" "" 2)
  [accepts "a" "r1" "e1" 1,
   move .received .validated,
   .call (.reserveBudget "t" "r1" 100 2) (stepInfo "b1" "" 2),
   move .validated .routing,
   move .routing .inProgress,
   .call (.startAttempt ⟨"r1", "t", 1, "p", "m", "c"⟩) (stepInfo "a1" "e2" 3),
   .call (.completeRequest {
      requestID := "r1", tenantID := "t", attemptNumber := 1, providerRequestID := "x"
      response := {
        id := "chatcmpl-r1", object := "chat.completion", created := 0, model := "m"
        choices := [], usage := ⟨10, 10, 20⟩, aegis := ⟨"r1", .completed⟩ }
      costMicroUSD := 100, startedAt := 3, correlationID := "c" }) (stepInfo "e3" "e4" 4),
   .call (.reconcileBudget "r1" 100) (stepInfo "" "" 5)]

/-- Its four facts are published and consumed. -/
def firstConsumed : List OpenAction :=
  let relayed : List OpenAction :=
    [.pipeline (.publish 0 (.acked 0)), .pipeline (.markPublished 0 6)]
  let consumed : List OpenAction :=
    [.pipeline (.fetch 0 0), .pipeline (.process 0 (stepInfo "l1" "" 7)), .pipeline (.commit 0)]
  .pipeline (.claim 0 ⟨["e1", "e2", "e3", "e4"], [], 5⟩)
    :: (List.replicate 4 relayed).flatten
    ++ .pipeline (.assign 0 0 0) :: (List.replicate 4 consumed).flatten

/-- A second request asks for as much again. -/
def secondRequest : List OpenAction :=
  [accepts "b" "r2" "e5" 8,
   .call (.transitionRequest "t" "r2" .received .validated) (stepInfo "" "" 9),
   .call (.reserveBudget "t" "r2" 100 9) (stepInfo "b2" "" 9)]

/-- With the first request's usage consumed in between, the second reservation
    is refused and the month stays at the limit. -/
theorem monthlyBudget_bounded_consumed :
    (monthRows (Lib.run sampleStep sampleInit (firstRequest ++ firstConsumed ++ secondRequest)).2
        "t" (Time.startOfMonth 9)).length = 1
      ∧ monthSpend (Lib.run sampleStep sampleInit
          (firstRequest ++ firstConsumed ++ secondRequest)).2 "t" (Time.startOfMonth 9)
        ≤ 100 := by
  refine ⟨by decide +kernel, ?_⟩
  exact monthlyBudget_bounded ⟨fun _ => 0, "audit-usage-v1"⟩ (fun _ => Relay.new "w" 100)
    (Catalog.sample 100 (by decide)) "t" ⟨"t", 60, 1000, 10, 100, by decide, none⟩ rfl
    (by decide) (firstRequest ++ firstConsumed ++ secondRequest) (by decide +kernel)
    (by decide +kernel) (Time.startOfMonth 9)

/-- Without it the second reservation is admitted: the month holds a cost of 100
    and a reservation of 100 against a limit of 100, although no request cost
    more than it reserved. -/
theorem monthlyBudget_oversubscribed :
    ∃ limits, (Catalog.sample 100 (by decide)).limits.rows.find? (fun l => l.tenantID == "t")
        = some limits
      ∧ 0 < limits.monthlyBudget ∧ limits.dailyBudget = none
      ∧ (∀ x ∈ Lib.trace sampleStep sampleInit (firstRequest ++ secondRequest),
          WithinReservation x.1.2 x.2.1)
      ∧ monthSpend (Lib.run sampleStep sampleInit (firstRequest ++ secondRequest)).2 "t"
          (Time.startOfMonth 9) = 200
      ∧ (limits.monthlyBudget : Int) < 200 := by
  refine ⟨⟨"t", 60, 1000, 10, 100, by decide, none⟩, rfl, by decide, rfl, ?_, ?_, by decide⟩
  · decide +kernel
  · decide +kernel

end Aegis.Pipeline
