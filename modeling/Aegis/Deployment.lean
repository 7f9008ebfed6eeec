/-
  Aegis.Deployment

  The platform as deployed: gateways, outbox relays and consumers on one
  database, in any order.

  A deployment is an instance of the open system of `Aegis.Projection`, in which
  the calls of the store are those that executions and cancellations make
  (`Deployment.run_open`).  What holds of the open system holds of it.

  A request is charged once from end to end.  In the database this is `Charged`
  (`Aegis.Gateway.Charging`); the topic carries only envelopes of outbox facts,
  as often as it likes; and every row of the usage ledger comes from one
  UsageRecorded fact (`Entered`), of which a request has at most one.
-/

import Aegis.Gateway.Charging
import Aegis.Projection

namespace Aegis

open Aegis.Events (EventType completionPayload decodeUsage decodeUsage_completionPayload)
open Aegis.Gateway (Charged Owned Platform Service System Tracking completionTypes factsOfType)
open Aegis.Outbox (Relay envelope)
open Aegis.Persistence
open Aegis.Pipeline (OpenAction PipelineFrame Projected Published openStep recordEvaluation)
open Aegis.Request (ChatInput Json)
open Aegis.Routing (Router)

/-- The gateways with their database, and the pipeline from the outbox on. -/
structure Deployment where
  gateway : System Db
  pipeline : Pipeline.State

namespace Deployment

inductive Action where
  | gateway (action : Gateway.Action)
  | pipeline (action : Pipeline.Action)
  /-- the evaluation worker records an outcome -/
  | evaluation (failed : Bool) (jobID tenantID correlationID : String) (payload : Json)
      (info : Info)

def init (catalog : Catalog) (routers : Nat → Router) (relays : Nat → Relay) : Deployment where
  gateway := System.init (Db.init catalog) routers
  pipeline := Pipeline.State.init relays

def db (d : Deployment) : Db := d.gateway.store

def step (platform : Platform Db) (config : Pipeline.Config) (d : Deployment) :
    Action → Deployment
  | .gateway action => { d with gateway := d.gateway.step platform action }
  | .pipeline action =>
      let (pipeline, db) := Pipeline.step config (d.pipeline, d.db) action
      { gateway := { d.gateway with store := db }, pipeline }
  | .evaluation failed jobID tenantID correlationID payload info =>
      let (_, db) := transact
        (recordEvaluation failed jobID tenantID correlationID payload info) d.db
      { d with gateway := { d.gateway with store := db } }

end Deployment

/-! ## The ledger -/

/-- A ledger row enters the usage that a fact reports. -/
def Entered (f : OutboxFact) (l : LedgerRow) : Prop :=
  f.eventType = .usageRecorded ∧ f.id = l.eventID ∧ f.tenantID = l.tenantID
    ∧ ∃ usage, decodeUsage f.payload = .ok usage ∧ usage.requestID = l.requestID
      ∧ usage.costMicroUSD = l.costMicroUSD

/-- Every ledger row enters a fact of the outbox. -/
def Ledgered (db : Db) : Prop :=
  ∀ l ∈ db.ledger.rows, ∃ f ∈ db.facts, Entered f l

theorem Ledgered.mono {db db' : Db} (h : Ledgered db) (hledger : db'.ledger = db.ledger)
    (hfacts : ∀ f ∈ db.facts, f ∈ db'.facts) : Ledgered db' := by
  intro l hl
  rw [hledger] at hl
  obtain ⟨f, hf, hentered⟩ := h l hl
  exact ⟨f, hfacts f hf, hentered⟩

/-- Facts are only added. -/
theorem mem_facts_of_frame {db db' : Db} (h : Postgres.Frame db db') :
    ∀ f ∈ db.facts, f ∈ db'.facts := by
  obtain ⟨new, hrows, -⟩ := h.outbox
  intro f hf
  simp only [Db.facts, hrows, List.map_append]
  exact List.mem_append_left _ hf

theorem Ledgered.of_frame {db db' : Db} (h : Ledgered db) (hframe : Postgres.Frame db db') :
    Ledgered db' :=
  h.mono hframe.ledger (mem_facts_of_frame hframe)

/-- Processing the envelope of a fact enters at most that fact. -/
theorem ledgered_process {db db' : Db} {consumerName : String} {f : OutboxFact} {info : Info}
    {fresh : Bool} (h : Ledgered db) (hf : f ∈ db.facts)
    (hok : Postgres.processKafkaEvent consumerName (envelope f) info db = .ok (fresh, db')) :
    Ledgered db' := by
  have hfacts : db'.facts = db.facts := by
    rw [Db.facts, (Postgres.processKafkaEvent_frame hok).outbox, Db.facts]
  rcases Postgres.processKafkaEvent_ok hok with
    ⟨hsame, -⟩ | ⟨processed, db₁, db₂, -, -, haudit, husage, hdb⟩
  · rw [hsame]
    exact h
  obtain ⟨audit, hdb₁, -⟩ := Postgres.insertAudit_ok haudit
  have hledger : db₁.ledger = db.ledger := by rw [hdb₁]
  rcases husage with ⟨htype, husage⟩ | ⟨-, hsame⟩
  · obtain ⟨ledger, usage, hdecode, hdb₂, hcases⟩ := Postgres.insertUsage_ok husage
    have hnew : db'.ledger = ledger := by rw [hdb, hdb₂]
    rcases hcases with ⟨-, hsame⟩ | ⟨prompt, completion, cost, -, -, hcost, -, hrows⟩
    · refine h.mono (by rw [hnew, hsame, hledger]) ?_
      rw [hfacts]
      exact fun _ hmem => hmem
    · intro l hl
      rw [hnew, hrows, hledger] at hl
      rw [hfacts]
      rcases List.mem_append.mp hl with hl | hl
      · exact h l hl
      · rw [List.mem_singleton.mp hl]
        exact ⟨f, hf, htype, rfl, rfl, usage, hdecode, rfl, hcost.symm⟩
  · refine h.mono (by rw [hdb, hsame, hledger]) ?_
    rw [hfacts]
    exact fun _ hmem => hmem

/-- Relays and the broker do not write the ledger. -/
theorem step_ledger {config : Pipeline.Config} {x : Pipeline.State × Db} {action : Pipeline.Action}
    (hother : ∀ j info, action ≠ .process j info) :
    (Pipeline.step config x action).2.ledger = x.2.ledger := by
  cases action with
  | process j info => exact absurd rfl (hother j info)
  | claim i result =>
      simp only [Pipeline.step]
      split
      · split <;> rfl
      · rfl
  | markFailed i now ok =>
      simp only [Pipeline.step]
      split
      · split <;> rfl
      · rfl
  | publish i outcome => simp only [Pipeline.step]; split <;> rfl
  | markPublished i now => simp only [Pipeline.step]; split <;> rfl
  | commit j => simp only [Pipeline.step]; split <;> rfl
  | assign j part start =>
      simp only [Pipeline.step]
      split
      · split <;> rfl
      · rfl
  | fetch j part =>
      simp only [Pipeline.step]
      split
      · split
        · rfl
        · split <;> rfl
      · rfl
  | stopRelay i => rfl
  | stopConsumer j => rfl

theorem ledgered_step {config : Pipeline.Config} {x : Pipeline.State × Db} (hpub : Published x)
    (hproj : Projected config x) (h : Ledgered x.2) (action : Pipeline.Action) :
    Ledgered (Pipeline.step config x action).2 := by
  by_cases hprocess : ∃ j info, action = .process j info
  · obtain ⟨j, info, rfl⟩ := hprocess
    simp only [Pipeline.step]
    split
    · next position part offset event hsession =>
        -- the message was fetched from the topic, which holds envelopes of facts
        obtain ⟨-, hevent⟩ := hproj.fetched j position part offset event hsession
        obtain ⟨f, hf, rfl⟩ := hpub.genuine event
          (List.mem_of_mem_filter (List.mem_of_getElem? hevent))
        split
        · next hok => exact ledgered_process h hf (transact_ok hok)
        · next herr =>
            rw [transact_error herr]
            exact h
    · exact h
  · refine h.mono (step_ledger fun j info heq => hprocess ⟨j, info, heq⟩) ?_
    rw [(Pipeline.step_frame config x action).facts]
    exact fun _ hmem => hmem

/-- In the open system every ledger row enters a fact. -/
theorem ledgered_open (config : Pipeline.Config) (relays : Nat → Relay) (catalog : Catalog)
    (as : List OpenAction) :
    Ledgered (Lib.run (openStep config) (Pipeline.State.init relays, Db.init catalog) as).2 := by
  have hinit : Ledgered (Db.init catalog) := fun _ h => absurd h List.not_mem_nil
  refine (Lib.run_invariant'
    (I := fun x => (Published x ∧ Projected config x) ∧ Ledgered x.2) ?_ as
    ⟨Pipeline.inv_init config relays catalog, hinit⟩).2
  rintro x action ⟨hinv, h⟩
  refine ⟨Pipeline.inv_openStep config x action hinv, ?_⟩
  cases action with
  | call call info => exact h.of_frame (Postgres.store_frame call info x.2)
  | evaluation failed jobID tenantID correlationID payload info =>
      exact h.of_frame
        (Pipeline.recordEvaluation_frame failed jobID tenantID correlationID payload info x.2)
  | pipeline action => exact ledgered_step hinv.1 hinv.2 h action

/-! ## The deployment and the open system -/

/-- A step of a deployment is a step of the open system, or none. -/
theorem Deployment.step_open {platform : Platform Db} (hstore : platform.store = Postgres.store)
    (config : Pipeline.Config) (d : Deployment) (action : Action) :
    ∃ bs, ((d.step platform config action).pipeline, (d.step platform config action).db)
      = Lib.run (openStep config) (d.pipeline, d.db) bs := by
  cases action with
  | gateway action =>
      rcases System.step_store_call platform d.gateway action with
        hsame | ⟨call, info, -, hcalled, -⟩
      · exact ⟨[], Prod.ext rfl hsame⟩
      · refine ⟨[.call call info], Prod.ext rfl ?_⟩
        rw [hstore] at hcalled
        exact hcalled
  | pipeline action => exact ⟨[.pipeline action], rfl⟩
  | evaluation failed jobID tenantID correlationID payload info =>
      exact ⟨[.evaluation failed jobID tenantID correlationID payload info], rfl⟩

/-- **Refinement.** What a deployment does to the database and the pipeline is
    a run of the open system. -/
theorem Deployment.run_open (platform : Platform Db) (hstore : platform.store = Postgres.store)
    (config : Pipeline.Config) (catalog : Catalog) (routers : Nat → Router)
    (relays : Nat → Relay) (actions : List Action) :
    let d := Lib.run (step platform config) (init catalog routers relays) actions
    ∃ bs, (d.pipeline, d.db)
      = Lib.run (openStep config) (Pipeline.State.init relays, Db.init catalog) bs :=
  Lib.run_simulation (fun d : Deployment => (d.pipeline, d.db))
    (fun d action => d.step_open hstore config action) (init catalog routers relays) actions

/-! ## Requests -/

/-- The slices of requests do not see the pipeline. -/
theorem slice_of_pipelineFrame {db db' : Db} (h : PipelineFrame db db') (id : String) :
    db'.slice id = db.slice id := by
  refine Slice.ext ?_ ?_ ?_ ?_
  · simp only [Db.slice, Db.request?, h.requests]
  · simp only [Db.slice, Db.attemptsOf, h.attempts]
  · simp only [Db.slice, Db.reservation?, h.reservations]
  · simp only [Db.slice, Db.factsOf, h.facts]

/-- The outcome of an evaluation is a fact of another type. -/
theorem slice_of_recordEvaluation (failed : Bool) (jobID tenantID correlationID : String)
    (payload : Json) (info : Info) (db : Db) (id : String) :
    ∃ facts, (transact (recordEvaluation failed jobID tenantID correlationID payload info)
        db).2.slice id = { db.slice id with facts }
      ∧ ∀ eventType ∈ completionTypes,
          factsOfType { db.slice id with facts } eventType
            = factsOfType (db.slice id) eventType := by
  refine transact_rule (P := fun db' => ∃ facts, db'.slice id = { db.slice id with facts }
    ∧ ∀ eventType ∈ completionTypes, factsOfType { db.slice id with facts } eventType
      = factsOfType (db.slice id) eventType) ⟨_, rfl, fun _ _ => rfl⟩ ?_
  intro u db' hok
  simp only [recordEvaluation, bind_eq_ok] at hok
  obtain ⟨db₁, hins, hdb⟩ := hok
  obtain ⟨outbox, hdb₁, hrows⟩ := insertOutbox_ok hins
  rw [return_db hdb, hdb₁]
  generalize hrow : outboxRow info 0 _ jobID tenantID correlationID payload = row at hrows
  have hnew : ∀ r ∈ [row], r.fact.aggregateID = jobID := by simp [← hrow, outboxRow]
  by_cases hid : id = jobID
  · subst hid
    have hfacts := Db.factsOf_append_self db { db with outbox } hnew hrows
    refine ⟨db.factsOf id ++ [row.fact], Slice.ext rfl rfl rfl hfacts,
      Gateway.factsOfType_append rfl ?_⟩
    cases failed <;> simp [← hrow, outboxRow, completionTypes]
  · have hfacts := Db.factsOf_append_of_ne db { db with outbox } hnew hrows hid
    exact ⟨db.factsOf id, Slice.ext rfl rfl rfl hfacts, fun _ _ => rfl⟩

namespace Deployment

/-- What holds of the requests in every state of a deployment. -/
structure Sound (d : Deployment) : Prop where
  owned : Owned Tracking d.gateway
  charged : ∀ id, Charged id (d.db.slice id)

section Steps

variable {platform : Platform Db} {config : Pipeline.Config} {d : Deployment}

theorem sound_init (catalog : Catalog) (routers : Nat → Router) (relays : Nat → Relay) :
    Sound (init catalog routers relays) where
  owned := Gateway.owned_init catalog routers
  charged := fun _ => ⟨fun _ h => (nomatch h), fun _ => ⟨rfl, fun _ _ => rfl⟩⟩

/-- A step that touches no request, attempt or reservation and adds no fact of
    a completion. -/
theorem Sound.of_store (h : Sound d) (pipeline : Pipeline.State) {db : Db}
    (hslice : ∀ id, ∃ facts, db.slice id = { d.db.slice id with facts }
      ∧ ∀ eventType ∈ completionTypes, factsOfType { d.db.slice id with facts } eventType
        = factsOfType (d.db.slice id) eventType) :
    Sound { gateway := { d.gateway with store := db }, pipeline } := by
  constructor
  · refine h.owned.of_store (fun id => ?_) (fun _ htracking => htracking)
    obtain ⟨facts, hfacts, -⟩ := hslice id
    exact ⟨facts, hfacts⟩
  · intro id
    obtain ⟨facts, hfacts, hsame⟩ := hslice id
    show Charged id (db.slice id)
    rw [hfacts]
    exact (h.charged id).kept (Or.inl rfl) rfl hsame

theorem sound_step (platform : Platform Db) (hstore : platform.store = Postgres.store)
    (h : Sound d) (action : Action) : Sound (d.step platform config action) := by
  cases action with
  | gateway action =>
      exact ⟨Gateway.tracking_step hstore h.owned action,
        Gateway.charged_step hstore h.owned h.charged action⟩
  | pipeline action =>
      have hframe := Pipeline.step_frame config (d.pipeline, d.db) action
      exact h.of_store _ fun id => ⟨_, slice_of_pipelineFrame hframe id, fun _ _ => rfl⟩
  | evaluation failed jobID tenantID correlationID payload info =>
      exact h.of_store _
        (slice_of_recordEvaluation failed jobID tenantID correlationID payload info d.db)

end Steps

end Deployment

/-! ## Exactly once -/

/-- A request is COMPLETED exactly if one of its attempts SUCCEEDED, and exactly
    if it has one RequestCompleted and one UsageRecorded fact; then all of them
    have the same token counts and cost. -/
def ChargedOnce (db : Db) (row : RequestRow) : Prop :=
  (row.status = .completed ↔ (db.attemptsOf row.id).countP (·.status == .succeeded) = 1)
    ∧ (row.status = .completed ↔ (db.slice row.id).count .requestCompleted = 1
        ∧ (db.slice row.id).count .usageRecorded = 1)
    ∧ (row.status = .completed → ∃ prompt completion cost : Nat,
        (row.promptTokens = some prompt ∧ row.completionTokens = some completion
          ∧ row.actualCostMicroUSD = some cost)
        ∧ (∀ a ∈ db.attemptsOf row.id, a.status = .succeeded → a.promptTokens = some prompt
            ∧ a.completionTokens = some completion ∧ a.costMicroUSD = some cost)
        ∧ ∀ f ∈ db.factsOf row.id,
            f.eventType = .requestCompleted ∨ f.eventType = .usageRecorded →
            ∃ model latency,
              f.payload = completionPayload row.id model prompt completion cost latency)

/-- The ledger has at most one row for a request, with the cost of that request,
    which is COMPLETED. -/
def LedgerOnce (db : Db) : Prop :=
  (∀ l ∈ db.ledger.rows, ∀ l' ∈ db.ledger.rows, l.requestID = l'.requestID → l = l')
    ∧ ∀ l ∈ db.ledger.rows, ∃ row ∈ db.requests.rows, row.id = l.requestID
        ∧ row.status = .completed ∧ row.actualCostMicroUSD = some l.costMicroUSD

theorem count_eq_length (S : Slice) (eventType : EventType) :
    S.count eventType = (factsOfType S eventType).length :=
  List.countP_eq_length_filter

theorem chargedOnce_of_charged {db : Db} {row : RequestRow}
    (h : Charged row.id (db.slice row.id)) (hrow : row ∈ db.requests.rows) :
    ChargedOnce db row := by
  have hfound : (db.slice row.id).row = some row := (db.request?_eq_some_iff).mpr ⟨hrow, rfl⟩
  have hsucceeded : (db.attemptsOf row.id).countP (·.status == .succeeded)
      = (Gateway.succeededOf (db.slice row.id)).length := List.countP_eq_length_filter
  rw [ChargedOnce, hsucceeded, count_eq_length, count_eq_length]
  by_cases hstatus : row.status = .completed
  · obtain ⟨prompt, completion, cost, hnumbers, ⟨a, hone, hattempt⟩, hfacts⟩ :=
      h.settled row hfound hstatus
    obtain ⟨f, hf, hpayload⟩ := hfacts .requestCompleted (by decide)
    obtain ⟨g, hg, hpayload'⟩ := hfacts .usageRecorded (by decide)
    rw [hone, hf, hg]
    refine ⟨by simp [hstatus], by simp [hstatus], fun _ => ?_⟩
    refine ⟨prompt, completion, cost, hnumbers, ?_, ?_⟩
    · intro b hb hsucc
      have hmem : b ∈ Gateway.succeededOf (db.slice row.id) :=
        List.mem_filter.mpr ⟨hb, by simp [hsucc]⟩
      rw [hone] at hmem
      rw [List.mem_singleton.mp hmem]
      exact hattempt
    · rintro e he (htype | htype)
      · have hmem : e ∈ factsOfType (db.slice row.id) .requestCompleted :=
          List.mem_filter.mpr ⟨he, by simp [htype]⟩
        rw [hf] at hmem
        rw [List.mem_singleton.mp hmem]
        exact hpayload
      · have hmem : e ∈ factsOfType (db.slice row.id) .usageRecorded :=
          List.mem_filter.mpr ⟨he, by simp [htype]⟩
        rw [hg] at hmem
        rw [List.mem_singleton.mp hmem]
        exact hpayload'
  · have hopen : (db.slice row.id).inState .completed = false := by
      rw [Slice.inState_of_row hfound]
      simpa using hstatus
    obtain ⟨hnone, hunrecorded⟩ := h.uncharged hopen
    rw [hnone, hunrecorded .requestCompleted (by decide)]
    exact ⟨by simp [hstatus], by simp [hstatus], fun hcompleted => absurd hcompleted hstatus⟩

/-- The request of a usage fact is completed, and the fact is its only one. -/
theorem settled_of_usage {db : Db} (h : ∀ id, Charged id (db.slice id)) {f : OutboxFact}
    (hf : f ∈ db.facts) (htype : f.eventType = .usageRecorded) :
    ∃ row ∈ db.requests.rows, row.id = f.aggregateID ∧ row.status = .completed
      ∧ factsOfType (db.slice f.aggregateID) .usageRecorded = [f]
      ∧ ∃ (model : String) (prompt completion cost : Nat) (latency : Int),
          row.actualCostMicroUSD = some cost
          ∧ f.payload = completionPayload f.aggregateID model prompt completion cost latency := by
  have hmem : f ∈ factsOfType (db.slice f.aggregateID) .usageRecorded :=
    List.mem_filter.mpr ⟨List.mem_filter.mpr ⟨hf, by simp⟩, by simp [htype]⟩
  have hcharged := h f.aggregateID
  have hcompleted : (db.slice f.aggregateID).inState .completed = true := by
    rw [← Bool.not_eq_false]
    intro hopen
    rw [(hcharged.uncharged hopen).2 .usageRecorded (by decide)] at hmem
    exact absurd hmem List.not_mem_nil
  obtain ⟨row, hrow, hstatus⟩ := (Option.any_eq_true _ _).mp hcompleted
  have hstatus' : row.status = .completed := by simpa using hstatus
  obtain ⟨hstored, hid⟩ := (db.request?_eq_some_iff).mp hrow
  obtain ⟨prompt, completion, cost, hnumbers, -, hfacts⟩ := hcharged.settled row hrow hstatus'
  obtain ⟨g, hg, model, latency, hpayload⟩ := hfacts .usageRecorded (by decide)
  rw [hg] at hmem
  obtain rfl := List.mem_singleton.mp hmem
  exact ⟨row, hstored, hid, hstatus', hg, model, prompt, completion, cost, latency,
    hnumbers.2.2, hpayload⟩

theorem ledgerOnce_of_ledgered {db : Db} (hcharged : ∀ id, Charged id (db.slice id))
    (h : Ledgered db) : LedgerOnce db := by
  -- a ledger row is about the request of the fact it enters
  have hrequest : ∀ {f l}, f ∈ db.facts → Entered f l → l.requestID = f.aggregateID
      ∧ ∃ row ∈ db.requests.rows, row.id = f.aggregateID ∧ row.status = .completed
        ∧ row.actualCostMicroUSD = some l.costMicroUSD
        ∧ factsOfType (db.slice f.aggregateID) .usageRecorded = [f] := by
    rintro f l hf ⟨htype, -, -, usage, hdecode, hid, hcost⟩
    obtain ⟨row, hrow, hrid, hstatus, hone, model, prompt, completion, cost, latency, hactual,
      hpayload⟩ := settled_of_usage hcharged hf htype
    rw [hpayload] at hdecode
    obtain rfl := decodeUsage_completionPayload hdecode
    have hsame : cost = l.costMicroUSD := Int.ofNat.inj hcost
    exact ⟨hid.symm, row, hrow, hrid, hstatus, by rw [hactual, hsame], hone⟩
  constructor
  · intro l hl l' hl' heq
    obtain ⟨f, hf, hentered⟩ := h l hl
    obtain ⟨f', hf', hentered'⟩ := h l' hl'
    obtain ⟨hid, -, -, -, -, -, hone⟩ := hrequest hf hentered
    obtain ⟨hid', -, -, -, -, -, hone'⟩ := hrequest hf' hentered'
    -- one request has one usage fact, and one fact one ledger row
    have hfact : f = f' := by
      rw [← hid, heq, hid', hone'] at hone
      exact (List.singleton_inj.mp hone).symm
    refine db.ledger.eq_of_clash (fun a b hab => hab.imp Eq.symm Eq.symm) hl hl' (Or.inr ?_)
    refine Prod.ext ?_ ?_
    · exact hentered.2.2.1.symm.trans (hfact ▸ hentered'.2.2.1)
    · exact hentered.2.1.symm.trans (hfact ▸ hentered'.2.1)
  · intro l hl
    obtain ⟨f, hf, hentered⟩ := h l hl
    obtain ⟨hid, row, hrow, hrid, hstatus, hactual, -⟩ := hrequest hf hentered
    exact ⟨row, hrow, hrid.trans hid.symm, hstatus, hactual⟩

/-- **Exactly-once charging.** Whatever gateways, cancellations, relays, brokers
    and consumers do and in whatever order, in every state reached every stored
    request is `ChargedOnce` and the usage ledger is `LedgerOnce`. -/
theorem charging_exactly_once (config : Pipeline.Config) (catalog : Catalog)
    (hashChat : ChatInput → Except GoError (List UInt8)) (services : Nat → Service)
    (routers : Nat → Router) (relays : Nat → Relay) (actions : List Deployment.Action) :
    let platform : Platform Db := { store := Postgres.store, hashChat, services }
    let d := Lib.run (Deployment.step platform config) (Deployment.init catalog routers relays)
      actions
    (∀ row ∈ d.db.requests.rows, ChargedOnce d.db row) ∧ LedgerOnce d.db := by
  intro platform d
  have hsound : Deployment.Sound d :=
    Lib.run_invariant' (I := Deployment.Sound)
      (fun d action h => Deployment.sound_step platform rfl h action) actions
      (Deployment.sound_init catalog routers relays)
  have hledgered : Ledgered d.db := by
    obtain ⟨bs, hopen⟩ := Deployment.run_open platform rfl config catalog routers relays actions
    rw [show d.db = _ from congrArg Prod.snd hopen]
    exact ledgered_open config relays catalog bs
  constructor
  · intro row hrow
    exact chargedOnce_of_charged (hsound.charged row.id) hrow
  · exact ledgerOnce_of_ledgered hsound.charged hledgered

/-- A request is completed, each of its four facts is published twice, and all
    eight messages are consumed. -/
def deliveredTwice : List Deployment.Action :=
  let relayed : List Deployment.Action :=
    [.pipeline (.publish 0 (.acked 1)), .pipeline (.markPublished 0 8)]
  let consumed : List Deployment.Action :=
    [.pipeline (.fetch 0 0), .pipeline (.process 0 (Pipeline.stepInfo "l" "" 9)),
      .pipeline (.commit 0)]
  (Gateway.upToCall ++ Gateway.answerAndFinish).map .gateway
    ++ .pipeline (.claim 0 ⟨["e", "f", "g", "h"], [], 7⟩) :: (List.replicate 4 relayed).flatten
    ++ .pipeline (.assign 0 0 0) :: (List.replicate 8 consumed).flatten

example :
    let d := Lib.run (Deployment.step (Gateway.samplePlatform Postgres.store)
        ⟨fun _ => 0, "audit-usage-v1"⟩)
      (Deployment.init (Catalog.sample 100 (by decide)) (fun _ => Gateway.sampleRouter)
        fun _ => Relay.new "w" 100) deliveredTwice
    d.pipeline.log.length = 8
      ∧ d.db.requests.rows.map (·.actualCostMicroUSD) = [some 3]
      ∧ d.db.ledger.rows.map (fun l => (l.requestID, l.costMicroUSD)) = [("r", 3)] := by
  decide +kernel

end Aegis
