/-
  Aegis.Gateway.Coverage

  What a request costs, against what was reserved for it.

  The reservation is the estimate at the highest prices of the providers that
  the policy allows; the cost is what a provider reports, at the prices of the
  lease.  Between the two lie the retry loop, other executions and cancellations.
  `charges_covered` says that a provider which keeps to the estimate is never
  paid more than was reserved, in every reachable state of the database.
-/

import Aegis.Gateway.Charging
import Aegis.Gateway.Policy

namespace Aegis.Gateway

open Aegis.Lib (run run_invariant trace)
open Aegis.Persistence (Call Catalog Db Info RequestRow ReservationRow Slice)
open Aegis.Persistence.Postgres (Write)
open Aegis.Provider (Completion)
open Aegis.Request (ChatInput Record State)
open Aegis.Routing (Lease ProviderConfig Router Selection)

/-! ## The cost of an answer -/

/-- What a provider reports keeps to the estimate of the job. -/
def Keeps (service : Service) (job : Job) (completion : Completion) : Prop :=
  completion.usage.promptTokens ≤ estimatePromptTokens job.input.messages
    ∧ completion.usage.completionTokens ≤ maxCompletion service job

instance (service : Service) (job : Job) (completion : Completion) :
    Decidable (Keeps service job completion) := inferInstanceAs (Decidable (_ ∧ _))

/-- At a lease of the selection, an answer that keeps to the estimate costs no
    more than was quoted. -/
theorem cost_le_quote {configs : List ProviderConfig} {service : Service} {job : Job}
    {selection : Selection} {lease : Lease} {completion : Completion} {cost amount : Int}
    (hlease : Leases configs selection lease) (hquote : Quotes configs service job selection amount)
    (hkeeps : Keeps service job completion)
    (hcost : Budget.costMicroUSD completion.usage.promptTokens completion.usage.completionTokens
      lease.inputCostPerMillionMicro lease.outputCostPerMillionMicro = .ok cost) :
    cost ≤ amount := by
  obtain ⟨config, hmem, heq, heligible⟩ := hlease
  obtain ⟨input, output, hhighest, hamount⟩ := hquote
  obtain ⟨input', output', hhighest', hinput, houtput⟩ :=
    Routing.highestPrices_of_mem hmem heligible
  cases hhighest.symm.trans hhighest'
  -- a cost is computed only of what is not negative
  obtain ⟨⟨hprompt, hcompletion, hin, hout⟩, -⟩ := Budget.costMicroUSD_eq_ok_iff.mp hcost
  have hleaseInput : lease.inputCostPerMillionMicro = config.inputCostPerMillionMicro := by
    rw [heq]
    rfl
  have hleaseOutput : lease.outputCostPerMillionMicro = config.outputCostPerMillionMicro := by
    rw [heq]
    rfl
  obtain ⟨lower, hlower, hle⟩ := Budget.costMicroUSD_mono hprompt hkeeps.1 hcompletion hkeeps.2
    hin (hleaseInput ▸ hinput) hout (hleaseOutput ▸ houtput) hamount
  cases hcost.symm.trans hlower
  exact hle

/-! ## The reservation by stage -/

section Stages

variable (configs : List ProviderConfig) (service : Service) (job : Job) (S : Slice)

/-- The amount that was quoted for the selection is reserved. -/
def Backed (selection : Selection) : Prop :=
  ∃ r, S.reservation = some r ∧ Quotes configs service job selection r.reservedMicroUSD

/-- The cost is within what is reserved. -/
def Affords (cost : Int) : Prop := ∃ r, S.reservation = some r ∧ cost ≤ r.reservedMicroUSD

def Stage.Reserves : Stage → Prop
  | .received | .validated | .abandoning _ | .admitting _ | .reserving _ _ =>
      S.reservation = none
  | .rejecting _ _ | .closing _ | .releasing _ => True
  | .reserved selection | .routed selection => Backed configs service job S selection
  | .selecting loop | .leased loop _ | .attempted loop _ | .calling loop _ _
  | .failing loop _ _ _ _ | .backingOff loop _ => Backed configs service job S loop.selection
  | .completing _ _ _ _ _ cost | .settling _ cost => Affords S cost

end Stages

section Steps

variable {configs : List ProviderConfig} {service : Service} {catalog : Catalog} {p p' : Process}
  {record : Record} {env : Env} {db db' : Db} {stage : Stage}

/-- Only two calls touch the reservations. -/
theorem perform_reservation {call : Call} {result : Except GoError call.Result}
    (h : perform Persistence.Postgres.store call env db = (result, db'))
    (hcall : Persistence.Postgres.reserves call = false) (id : String) :
    (db'.slice id).reservation = (db.slice id).reservation := by
  have hreservations : db'.reservations = db.reservations := by
    have hdb' : db' = (perform Persistence.Postgres.store call env db).2 := by rw [h]
    rcases perform_store Persistence.Postgres.store env call db with hsame | hdone
    · rw [hdb', hsame]
    · rw [hdb', hdone]
      exact (Persistence.Postgres.store_leaves call env.info db).2 hcall
  show db'.reservation? id = db.reservation? id
  unfold Db.reservation?
  rw [hreservations]

/-- A process with a new request makes the reservation; from then on it is there,
    and an answer that keeps to the estimate is within it. -/
theorem Branch.reserves
    (h : Branch Persistence.Postgres.store service p record env db stage p' db')
    (hgoverned : stage.Governed configs service catalog p.job)
    (hreserves : stage.Reserves configs service p.job (db.slice record.id))
    (hkeeps : ∀ loop lease started, stage = .calling loop lease started →
      ∀ completion, (p.called service env).completion = .ok completion →
      Keeps service p.job completion)
    {record' : Record} {stage' : Stage} (hphase' : p'.phase = .running record' stage') :
    stage'.Reserves configs service p.job (db'.slice record.id) := by
  cases h with
  | validate h | policy h | forbidden h | route h | progress h | start h | complete h | retry h =>
      obtain ⟨-, rfl⟩ := Phase.running.inj hphase'
      have hsame := perform_reservation h rfl record.id
      simp only [Stage.Reserves, Backed, Affords, hsame] at hreserves ⊢
      exact hreserves
  | refuse | quote | lease | begin | again =>
      obtain ⟨-, rfl⟩ := Phase.running.inj hphase'
      exact hreserves
  | fault =>
      obtain ⟨-, rfl⟩ := Phase.running.inj hphase'
      exact hreserves
  | exceeded | exhausted | fail | interrupted | close =>
      obtain ⟨-, rfl⟩ := Phase.running.inj hphase'
      exact trivial
  | @reserve selection reservation r db' h =>
      obtain ⟨-, rfl⟩ := Phase.running.inj hphase'
      have hwrite := perform_write h rfl
      have hnone : (db.slice record.id).reservation = none := hreserves
      generalize db'.slice record.id = S' at hwrite ⊢
      cases hwrite with
      | reserve hrow hfree hamount =>
          refine ⟨_, rfl, ?_⟩
          dsimp only
          rw [hamount]
          exact hgoverned.2
      | keep hsome =>
          rw [hnone] at hsome
          cases hsome
  | answer hcall hcost =>
      obtain ⟨-, rfl⟩ := Phase.running.inj hphase'
      obtain ⟨r, hr, hquote⟩ := hreserves
      exact ⟨r, hr, cost_le_quote hgoverned.2 hquote (hkeeps _ _ _ rfl _ hcall) hcost⟩
  | unvalidated | abandon | unquoted | unreserved | reject | unrouted | stalled | unstarted
  | unpriced | uncompleted | settle | unfailed | release | panic => cases hphase'

end Steps

/-! ## Requests and reservations -/

/-- What a slice says about cost and reservation. -/
structure Covered (S : Slice) : Prop where
  completed : ∀ row, S.row = some row → row.status = .completed →
    Affords S (row.actualCostMicroUSD.getD 0 : Nat)
  reconciled : ∀ r, S.reservation = some r → ∀ actual, r.actualMicroUSD = some actual →
    actual ≤ r.reservedMicroUSD

/-- A write that leaves the reservation alone and does not complete the request. -/
theorem Covered.kept {S S' : Slice} (h : Covered S) (hreservation : S'.reservation = S.reservation)
    (hrow : ∀ row, S'.row = some row → row.status = .completed → S.row = some row) :
    Covered S' := by
  constructor
  · intro row hrow' hstatus
    unfold Affords
    rw [hreservation]
    exact h.completed row (hrow row hrow' hstatus) hstatus
  · rw [hreservation]
    exact h.reconciled

/-- **Every write keeps within the reservation**, if a completion and a
    reconciliation are within it and no bare status update leads to COMPLETED. -/
theorem Covered.write {info : Info} {call : Call} {S S' : Slice} (h : Covered S)
    (hwrite : Write info call S S')
    (hmove : ∀ tenantID requestID source,
      call ≠ .transitionRequest tenantID requestID source .completed)
    (hcomplete : ∀ params, call = .completeRequest params → Affords S params.costMicroUSD)
    (hreconcile : ∀ requestID actual, call = .reconcileBudget requestID actual →
      ∀ r, S.reservation = some r → actual ≤ r.reservedMicroUSD) : Covered S' := by
  cases hwrite with
  | create =>
      refine h.kept rfl ?_
      intro row hrow hstatus
      cases hrow
      cases hstatus
  | move =>
      refine h.kept rfl ?_
      intro row hrow hstatus
      cases hrow
      exact absurd (congrArg _ (show _ = State.completed from hstatus)) (hmove _ _ _)
  | load | start | retry | keep => exact h.kept rfl fun _ hrow _ => hrow
  | fail | cancel | reject =>
      refine h.kept rfl ?_
      intro row hrow hstatus
      cases hrow
      cases hstatus
  | @complete params row prompt completion cost latency S hrow htenant hstatus _ _ hcost =>
      refine ⟨?_, h.reconciled⟩
      intro row' hrow' _
      cases hrow'
      obtain ⟨r, hr, hle⟩ := hcomplete params rfl
      refine ⟨r, hr, ?_⟩
      show ((cost : Nat) : Int) ≤ _
      rw [hcost]
      exact hle
  | reserve hrow hnone hamount =>
      constructor
      · intro row hrow' hstatus
        obtain ⟨r, hr, -⟩ := h.completed row hrow' hstatus
        cases hnone.symm.trans hr
      · intro r hr actual hactual
        cases hr
        cases hactual
  | @reconcile requestID actual amount reservation S hamount hsome hstate =>
      constructor
      · intro row hrow hstatus
        obtain ⟨r, hr, hle⟩ := h.completed row hrow hstatus
        cases hsome.symm.trans hr
        exact ⟨_, rfl, hle⟩
      · intro r hr actual' hactual
        cases hr
        cases hactual
        have hle := hreconcile requestID actual rfl reservation hsome
        show amount ≤ reservation.reservedMicroUSD
        omega

/-! ## Over whole runs -/

section Runs

variable {platform : Platform Db} {configs : Nat → List ProviderConfig} {catalog : Catalog}
  {x : System Db}

/-- A running execution has the reservation of its stage. -/
def Backing (platform : Platform Db) (configs : Nat → List ProviderConfig) (p : Process)
    (S : Slice) : Prop :=
  ∀ record stage, p.phase = .running record stage →
    stage.Reserves (configs p.job.replica) (platform.services p.job.replica) p.job S

theorem backing_local : Local (Backing platform configs) where
  opened := by
    intro p record row S hphase _ _ _ hreservation record' stage hphase'
    obtain ⟨rfl, rfl⟩ := Phase.running.inj (hphase.symm.trans hphase')
    exact hreservation
  cancelled := by
    intro p row S now _ h record stage hphase
    have hstage := h record stage hphase
    cases stage <;> exact hstage

/-- The completion that a process gets in its next step. -/
def Process.completion? (service : Service) (p : Process) (env : Env) : Option Completion :=
  match p.phase with
  | .running _ (.calling ..) => (p.called service env).completion.toOption
  | _ => none

/-- What the providers report keeps to the estimates. -/
def Estimated (platform : Platform Db) (x : System Db) : Action → Prop
  | .advance pid env => ∀ p ∈ x.procs pid,
      ∀ completion ∈ p.completion? (platform.services p.job.replica) env,
        Keeps (platform.services p.job.replica) p.job completion
  | _ => True

instance (x : System Db) (action : Action) : Decidable (Estimated platform x action) :=
  match action with
  | .advance pid env => inferInstanceAs (Decidable (∀ p ∈ x.procs pid,
      ∀ completion ∈ p.completion? (platform.services p.job.replica) env,
        Keeps (platform.services p.job.replica) p.job completion))
  | .submit _ _ | .cancel _ _ _ _ | .interfere _ _ => isTrue trivial

structure Affordable (platform : Platform Db) (configs : Nat → List ProviderConfig)
    (catalog : Catalog) (x : System Db) : Prop where
  governs : Governs platform configs catalog x
  owned : Owned (Backing platform configs) x
  covered : ∀ id, Covered (x.store.slice id)

theorem backing_step (hstore : platform.store = Persistence.Postgres.store)
    (h : Affordable platform configs catalog x) {action : Action}
    (hestimated : Estimated platform x action) :
    Owned (Backing platform configs) (x.step platform action) := by
  refine owned_step backing_local hstore h.owned action ?_
  intro pid env p record stage p' db' haction hp hphase hopened hbranch record' stage' hphase'
  subst haction
  rw [hbranch.kept.1]
  have hgoverned := (h.governs.procs pid p hp).running record stage hphase
  have hreserves := h.owned.holds hp hopened record stage hphase
  refine hbranch.reserves hgoverned hreserves ?_ hphase'
  rintro loop lease started rfl completion hcompletion
  refine hestimated p hp completion ?_
  rw [Process.completion?, hphase, hcompletion]
  rfl

theorem covered_step (hstore : platform.store = Persistence.Postgres.store)
    (h : Affordable platform configs catalog x) (action : Action) (id : String) :
    Covered ((x.step platform action).store.slice id) := by
  rcases System.step_store_call platform x action with hsame | ⟨call, info, hcall, hcalled, -⟩
  · rw [hsame]
    exact h.covered id
  rw [hcalled, hstore]
  rcases Persistence.Postgres.store_slice call info x.store id with hsame | ⟨hsubject, hwrite⟩
  · rw [hsame]
    exact h.covered id
  cases action with
  | submit | interfere => exact hcall.elim
  | cancel =>
      subst hcall
      refine (h.covered id).write hwrite ?_ ?_ ?_
      · intro _ _ _ heq
        cases heq
      · intro _ heq
        cases heq
      · intro _ _ heq
        cases heq
  | advance pid env =>
      obtain ⟨p, hp, hmakes⟩ := hcall
      -- the process knows what is reserved for its request
      have hstage : ∀ {record stage}, p.phase = .running record stage → record.id = id →
          stage.Reserves (configs p.job.replica) (platform.services p.job.replica) p.job
            (x.store.slice id) := by
        rintro record stage hphase rfl
        exact h.owned.holds hp (h.owned.custody.opened hp hphase) record stage hphase
      refine (h.covered id).write hwrite ?_ ?_ ?_
      · rintro tenantID requestID source rfl
        cases hmakes
      · rintro params rfl
        cases hmakes with
        | complete hphase => exact hstage hphase (Option.some.inj hsubject)
      · rintro requestID actual rfl r hr
        cases hmakes with
        | settle hphase =>
            obtain ⟨r', hr', hle⟩ := hstage hphase (Option.some.inj hsubject)
            cases hr.symm.trans hr'
            exact hle
        | release hphase => exact Int.natCast_nonneg _

theorem Affordable.step (hstore : platform.store = Persistence.Postgres.store)
    (h : Affordable platform configs catalog x) {action : Action}
    (hestimated : Estimated platform x action) :
    Affordable platform configs catalog (x.step platform action) where
  governs := h.governs.step hstore action
  owned := backing_step hstore h hestimated
  covered := covered_step hstore h action

theorem affordable_init (platform : Platform Db) (catalog : Catalog) (routers : Nat → Router) :
    Affordable platform (fun replica => (routers replica).configs) catalog
      (System.init (Db.init catalog) routers) where
  governs := governs_init platform catalog routers
  owned := owned_init catalog routers
  covered _ := by
    constructor
    · intro row hrow
      cases hrow
    · intro r hr
      cases hr

end Runs

/-- **Charges are covered.**  In every run in which the providers keep to the
    estimates, the cost of every completed request and every reconciled amount is
    within what was reserved for the request. -/
theorem charges_covered (hashChat : ChatInput → Except GoError (List UInt8))
    (services : Nat → Service) (catalog : Catalog) (routers : Nat → Router)
    (actions : List Action)
    (hestimated : ∀ t ∈ trace (System.step ⟨Persistence.Postgres.store, hashChat, services⟩)
      (System.init (Db.init catalog) routers) actions,
      Estimated ⟨Persistence.Postgres.store, hashChat, services⟩ t.1 t.2.1) :
    let db := (run (System.step ⟨Persistence.Postgres.store, hashChat, services⟩)
      (System.init (Db.init catalog) routers) actions).store
    (∀ row ∈ db.requests.rows, row.status = .completed →
        ∃ r ∈ db.reservations.rows, r.requestID = row.id
          ∧ row.actualCostMicroUSD.getD 0 ≤ r.reservedMicroUSD)
      ∧ ∀ r ∈ db.reservations.rows, ∀ actual, r.actualMicroUSD = some actual →
          actual ≤ r.reservedMicroUSD := by
  intro db
  let platform : Platform Db := ⟨Persistence.Postgres.store, hashChat, services⟩
  have haffordable : Affordable platform (fun replica => (routers replica).configs) catalog
      (run (System.step platform) (System.init (Db.init catalog) routers) actions) :=
    run_invariant (C := Estimated platform) (fun _ _ h hC => h.step rfl hC) actions
      (affordable_init platform catalog routers) hestimated
  constructor
  · intro row hrow hstatus
    have hslice : (db.slice row.id).row = some row := db.request?_eq_some_iff.mpr ⟨hrow, rfl⟩
    obtain ⟨r, hr, hle⟩ := (haffordable.covered row.id).completed row hslice hstatus
    obtain ⟨hmem, hid⟩ := db.reservation?_eq_some_iff.mp hr
    exact ⟨r, hmem, hid, by exact_mod_cast hle⟩
  · intro r hr actual hactual
    have hslice : (db.slice r.requestID).reservation = some r :=
      db.reservation?_eq_some_iff.mpr ⟨hr, rfl⟩
    exact (haffordable.covered r.requestID).reconciled r hslice actual hactual

/-- Twelve tokens were reserved and three used. -/
theorem charges_covered_completed :
    let db := (run (System.step (samplePlatform Persistence.Postgres.store)) sampleStart
      (upToCall ++ answerAndFinish)).store
    (∃ row ∈ db.requests.rows, row.status = .completed ∧ row.actualCostMicroUSD = some 3)
      ∧ (∃ r ∈ db.reservations.rows, r.reservedMicroUSD = 12)
      ∧ ∀ row ∈ db.requests.rows, row.status = .completed →
        ∃ r ∈ db.reservations.rows, r.requestID = row.id
          ∧ row.actualCostMicroUSD.getD 0 ≤ r.reservedMicroUSD := by
  refine ⟨by decide +kernel, by decide +kernel, ?_⟩
  exact (charges_covered (fun _ => .ok [1]) (fun _ => newService false {})
    (Catalog.sample 100 Catalog.hundred_fits) (fun _ => sampleRouter)
    (upToCall ++ answerAndFinish) (by decide +kernel)).1

end Aegis.Gateway
