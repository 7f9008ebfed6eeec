/-
  Aegis.Projection

  The outbox projection loses nothing and invents nothing.

  The system here is open: any store calls with any arguments and any
  evaluation events, interleaved with the pipeline.  The invariant comes in two
  halves that meet in the topic.

    * `Published` (outbox to topic): a relay holds only facts of the outbox, a
      row is marked only after its envelope was acknowledged, and the topic
      holds only envelopes of facts.
    * `Projected` (topic to audit trail): what lies below a committed or
      assigned offset has been processed, and what has been processed is in
      the audit trail as the outbox has it.
-/

import Aegis.Persistence.PostgresSpec
import Aegis.Pipeline

namespace Aegis.Pipeline

open Aegis.Events (Envelope EventType)
open Aegis.Outbox
open Aegis.Persistence
open Aegis.Request (Json)

/-! ## The open system -/

inductive OpenAction where
  /-- a call of the gateway's store -/
  | call (call : Call) (info : Info)
  /-- the fact that `CompleteEvaluation` or `FailEvaluation` records -/
  | evaluation (failed : Bool) (jobID tenantID correlationID : String) (payload : Json)
      (info : Info)
  | pipeline (action : Action)

/-- The fact of an evaluation outcome, in a transaction of its own. -/
def recordEvaluation (failed : Bool) (jobID tenantID correlationID : String) (payload : Json)
    (info : Info) : Tx Unit :=
  fun db => do
    let type := if failed then EventType.evaluationFailed else .evaluationComplete
    let db ← insertOutbox (outboxRow info 0 type jobID tenantID correlationID payload) db
    return ((), db)

def openStep (config : Config) (x : State × Db) : OpenAction → State × Db
  | .call call info => (x.1, (Postgres.store call info x.2).2)
  | .evaluation failed jobID tenantID correlationID payload info =>
      (x.1, (transact (recordEvaluation failed jobID tenantID correlationID payload info) x.2).2)
  | .pipeline action => step config x action

/-! ## Facts under updates of the bookkeeping -/

theorem facts_update {rows : List OutboxRow} {p : OutboxRow → Bool} {f : OutboxRow → OutboxRow}
    (hf : ∀ r, (f r).fact = r.fact) :
    (rows.map fun r => if p r then f r else r).map OutboxRow.fact = rows.map OutboxRow.fact := by
  rw [List.map_map]
  refine List.map_congr_left ?_
  intro r _
  by_cases hp : p r = true
  · simp [hp, hf]
  · simp [hp]

@[simp] theorem facts_claimRows (db : Db) (workerID : String) (claim : ClaimResult) :
    (claimRows db workerID claim).facts = db.facts := facts_update fun _ => rfl

@[simp] theorem facts_markPublished (db : Db) (eventID workerID : String) (now : Time) :
    (markPublished db eventID workerID now).facts = db.facts := facts_update fun _ => rfl

@[simp] theorem facts_markFailed (db : Db) (eventID workerID : String) (now : Time) :
    (markFailed db eventID workerID now).facts = db.facts := facts_update fun _ => rfl

/-- The tables that no step of the pipeline writes. -/
structure PipelineFrame (db db' : Db) : Prop where
  catalog : db'.catalog = db.catalog
  requests : db'.requests = db.requests
  attempts : db'.attempts = db.attempts
  reservations : db'.reservations = db.reservations
  facts : db'.facts = db.facts

/-- Relays and consumers leave the gateway's tables and the facts alone. -/
theorem step_frame (config : Config) (x : State × Db) (action : Action) :
    PipelineFrame x.2 (step config x action).2 := by
  have hrefl : PipelineFrame x.2 x.2 := ⟨rfl, rfl, rfl, rfl, rfl⟩
  cases action with
  | claim i result =>
      simp only [step]
      split
      · split
        · exact ⟨rfl, rfl, rfl, rfl, facts_claimRows ..⟩
        · exact hrefl
      · exact hrefl
  | publish i outcome => simp only [step]; split <;> exact hrefl
  | markPublished i now =>
      simp only [step]
      split
      · exact ⟨rfl, rfl, rfl, rfl, facts_markPublished ..⟩
      · exact hrefl
  | markFailed i now ok =>
      simp only [step]
      split
      · split
        · exact ⟨rfl, rfl, rfl, rfl, facts_markFailed ..⟩
        · exact hrefl
      · exact hrefl
  | process j info =>
      simp only [step]
      split
      · next position part offset event _ =>
          have hframe : PipelineFrame x.2
              (transact (Postgres.processKafkaEvent config.consumerName event info) x.2).2 := by
            refine transact_rule hrefl ?_
            intro fresh db' hok
            have h := Postgres.processKafkaEvent_frame hok
            exact ⟨h.catalog, h.requests, h.attempts, h.reservations, by
              rw [Db.facts, h.outbox, Db.facts]⟩
          split
          · next hrun => rw [hrun] at hframe; exact hframe
          · next hrun => rw [hrun] at hframe; exact hframe
      · exact hrefl
  | assign j part start =>
      simp only [step]
      split
      · split <;> exact hrefl
      · exact hrefl
  | fetch j part =>
      simp only [step]
      split
      · split
        · exact hrefl
        · split <;> exact hrefl
      · exact hrefl
  | commit j => simp only [step]; split <;> exact hrefl
  | stopRelay i => exact hrefl
  | stopConsumer j => exact hrefl

/-- Facts are determined by their identifier. -/
theorem fact_eq_of_id {db : Db} {f g : OutboxFact} (hf : f ∈ db.facts) (hg : g ∈ db.facts)
    (hid : f.id = g.id) : f = g := by
  obtain ⟨r, hr, rfl⟩ := List.mem_map.mp hf
  obtain ⟨t, ht, rfl⟩ := List.mem_map.mp hg
  rw [db.outbox.eq_of_clash (fun _ _ h => h.symm) hr ht hid]

theorem mem_factsNamed {db : Db} {ids : List String} {f : OutboxFact}
    (h : f ∈ factsNamed db ids) : f ∈ db.facts ∧ f.id ∈ ids := by
  obtain ⟨id, hid, hfind⟩ := List.mem_filterMap.mp h
  have hkey : f.id = id := by simpa using List.find?_some hfind
  exact ⟨List.mem_of_find?_eq_some hfind, by rw [hkey]; exact hid⟩

/-! ## Outbox to topic -/

/-- The half of the invariant between the outbox and the topic. -/
structure Published (x : State × Db) : Prop where
  uncaused : ∀ f ∈ x.2.facts, f.causationID = none
  inHand : ∀ i, ∀ f ∈ (x.1.relays i).phase.facts, f ∈ x.2.facts
  marking : ∀ i f rest, (x.1.relays i).phase = .marking f rest → envelope f ∈ x.1.acked
  marked : ∀ r ∈ x.2.outbox.rows, r.publishedAt.isSome = true → envelope r.fact ∈ x.1.acked
  acked : ∀ e ∈ x.1.acked, e ∈ x.1.log
  genuine : ∀ e ∈ x.1.log, ∃ f ∈ x.2.facts, envelope f = e

namespace Published

variable {x : State × Db} {db : Db}

/-- Adding unpublished facts keeps the half. -/
theorem of_frame (h : Published x) (hframe : Postgres.Frame x.2 db) : Published (x.1, db) := by
  obtain ⟨new, hrows, hnew⟩ := hframe.outbox
  have hfacts : db.facts = x.2.facts ++ new.map OutboxRow.fact := by
    simp only [Db.facts, hrows, List.map_append]
  have hmono : ∀ f ∈ x.2.facts, f ∈ db.facts := fun f hf => by
    rw [hfacts]
    exact List.mem_append_left _ hf
  refine ⟨?_, fun i f hf => hmono f (h.inHand i f hf), h.marking, ?_, h.acked, ?_⟩
  · intro f hf
    rw [hfacts] at hf
    rcases List.mem_append.mp hf with hf | hf
    · exact h.uncaused f hf
    · obtain ⟨r, hr, rfl⟩ := List.mem_map.mp hf
      exact (hnew r hr).2
  · intro r hr hpub
    rw [show db.outbox.rows = _ from hrows] at hr
    rcases List.mem_append.mp hr with hr | hr
    · exact h.marked r hr hpub
    · rw [(hnew r hr).1] at hpub
      exact absurd hpub (by simp)
  · intro e he
    obtain ⟨f, hf, hfe⟩ := h.genuine e he
    exact ⟨f, hmono f hf, hfe⟩

/-- A relay moves on; rows keep their facts, and those newly marked carry an
    acknowledged envelope. -/
theorem setPhase (h : Published x) {i : Nat} {phase : Phase} (hfacts : db.facts = x.2.facts)
    (hhand : ∀ f ∈ phase.facts, f ∈ x.2.facts)
    (hmarking : ∀ f rest, phase = .marking f rest → envelope f ∈ x.1.acked)
    (hmarked : ∀ r ∈ db.outbox.rows, r.publishedAt.isSome = true → envelope r.fact ∈ x.1.acked) :
    Published (x.1.setPhase i phase, db) := by
  refine ⟨by rw [hfacts]; exact h.uncaused, ?_, ?_, hmarked, h.acked,
    by rw [hfacts]; exact h.genuine⟩
  · intro k f hf
    rw [hfacts]
    by_cases hk : k = i
    · subst hk
      simp only [State.setPhase, Function.update_self] at hf
      exact hhand f hf
    · simp only [State.setPhase, Function.update_of_ne hk] at hf
      exact h.inHand k f hf
  · intro k f rest hphase
    by_cases hk : k = i
    · subst hk
      simp only [State.setPhase, Function.update_self] at hphase
      exact hmarking f rest hphase
    · simp only [State.setPhase, Function.update_of_ne hk] at hphase
      exact h.marking k f rest hphase

/-- The broker appends copies of the envelope of a fact. -/
theorem append (h : Published x) {f : OutboxFact} (hf : f ∈ x.2.facts) (copies : Nat) :
    Published ({ x.1 with log := x.1.log ++ List.replicate copies (envelope f) }, x.2) := by
  refine ⟨h.uncaused, h.inHand, h.marking, h.marked, ?_, ?_⟩
  · intro e he
    exact List.mem_append_left _ (h.acked e he)
  · intro e he
    rcases List.mem_append.mp he with he | he
    · exact h.genuine e he
    · exact ⟨f, hf, (List.eq_of_mem_replicate he).symm⟩

/-- The broker acknowledges an envelope of the topic. -/
theorem acknowledge (h : Published x) {e : Envelope} (he : e ∈ x.1.log) :
    Published ({ x.1 with acked := x.1.acked ++ [e] }, x.2) := by
  refine ⟨h.uncaused, h.inHand, ?_, ?_, ?_, h.genuine⟩
  · intro i f rest hphase
    exact List.mem_append_left _ (h.marking i f rest hphase)
  · intro r hr hpub
    exact List.mem_append_left _ (h.marked r hr hpub)
  · intro e' he'
    rcases List.mem_append.mp he' with he' | he'
    · exact h.acked e' he'
    · rw [List.mem_singleton.mp he']
      exact he

end Published

/-- Publishing keeps the first half. -/
theorem published_publish {x : State × Db} (h : Published x) {i : Nat} {fact : OutboxFact}
    {rest : List OutboxFact} (hphase : (x.1.relays i).phase = .publishing (fact :: rest))
    (outcome : Outcome) : Published (publish x.1 i fact rest outcome, x.2) := by
  have hhand : ∀ f ∈ fact :: rest, f ∈ x.2.facts := by
    intro f hf
    refine h.inHand i f ?_
    rw [hphase]
    exact hf
  have hfact : fact ∈ x.2.facts := hhand fact (List.mem_cons_self ..)
  unfold publish
  dsimp only
  split
  · exact h.setPhase rfl hhand (fun f rest' hp => nomatch hp) h.marked
  · cases outcome with
    | acked extra =>
        have hlog := h.append hfact (extra + 1)
        have hacked := hlog.acknowledge (e := envelope fact)
          (List.mem_append_right _ (by simp))
        refine hacked.setPhase rfl hhand ?_ hacked.marked
        intro f rest' hp
        cases hp
        exact List.mem_append_right _ (List.mem_singleton_self _)
    | failed copies =>
        have hlog := h.append hfact copies
        exact hlog.setPhase rfl hhand (fun f rest' hp => nomatch hp) hlog.marked

/-- A statement that leaves facts and publication marks alone. -/
theorem marked_update {x : State × Db} (h : Published x) {p : OutboxRow → Bool}
    {f : OutboxRow → OutboxRow} (hfact : ∀ r, (f r).fact = r.fact)
    (hpub : ∀ r, (f r).publishedAt = r.publishedAt) :
    ∀ r ∈ x.2.outbox.rows.map (fun r => if p r then f r else r),
      r.publishedAt.isSome = true → envelope r.fact ∈ x.1.acked := by
  intro r hr hsome
  obtain ⟨r₀, hr₀, rfl⟩ := List.mem_map.mp hr
  have hsame : (if p r₀ then f r₀ else r₀).fact = r₀.fact
      ∧ (if p r₀ then f r₀ else r₀).publishedAt = r₀.publishedAt := by
    by_cases hp : p r₀ = true
    · simp [hp, hfact, hpub]
    · simp [hp]
  rw [hsame.2] at hsome
  rw [hsame.1]
  exact h.marked r₀ hr₀ hsome

/-- Only the row whose envelope was acknowledged is marked. -/
theorem marked_markPublished {x : State × Db} (h : Published x) {i : Nat} {fact : OutboxFact}
    {rest : List OutboxFact} (hphase : (x.1.relays i).phase = .marking fact rest)
    (workerID : String) (now : Time) :
    ∀ r ∈ (markPublished x.2 fact.id workerID now).outbox.rows,
      r.publishedAt.isSome = true → envelope r.fact ∈ x.1.acked := by
  have hfact : fact ∈ x.2.facts := by
    refine h.inHand i fact ?_
    rw [hphase]
    exact List.mem_cons_self ..
  intro r hr hsome
  obtain ⟨r₀, hr₀, rfl⟩ := List.mem_map.mp hr
  by_cases hheld : heldBy fact.id workerID r₀ = true
  · simp only [hheld, if_true]
    have hid : r₀.fact.id = fact.id := by
      simp only [heldBy, Bool.and_eq_true, beq_iff_eq] at hheld
      exact hheld.1.1
    rw [fact_eq_of_id (List.mem_map_of_mem hr₀) hfact hid]
    exact h.marking i fact rest hphase
  · simp only [hheld, if_false, Bool.false_eq_true] at hsome ⊢
    exact h.marked r₀ hr₀ hsome

/-- What a consumer does to its own session does not concern the first half. -/
theorem Published.of_consumer {x : State × Db} (h : Published x) {s : State} {db : Db}
    (hrelays : s.relays = x.1.relays) (hlog : s.log = x.1.log) (hacked : s.acked = x.1.acked)
    (houtbox : db.outbox = x.2.outbox) : Published (s, db) := by
  have hfacts : db.facts = x.2.facts := by rw [Db.facts, houtbox, Db.facts]
  refine ⟨?_, ?_, ?_, ?_, ?_, ?_⟩
  · rw [hfacts]; exact h.uncaused
  · rw [hfacts, hrelays]; exact h.inHand
  · rw [hrelays, hacked]; exact h.marking
  · rw [houtbox, hacked]; exact h.marked
  · rw [hacked, hlog]; exact h.acked
  · rw [hlog, hfacts]; exact h.genuine

/-- Every step of the pipeline keeps the first half. -/
theorem published_step (config : Config) {x : State × Db} (h : Published x) (action : Action) :
    Published (step config x action) := by
  cases action with
  | claim i result =>
      simp only [step]
      split
      · split
        · refine h.setPhase (facts_claimRows ..) ?_ (fun f rest hp => nomatch hp) ?_
          · intro f hf
            exact (mem_factsNamed hf).1
          · exact marked_update h (fun _ => rfl) (fun _ => rfl)
        · exact h
      · exact h
  | publish i outcome =>
      simp only [step]
      split
      · next fact rest hphase => exact published_publish h hphase outcome
      · exact h
  | markPublished i now =>
      simp only [step]
      split
      · next fact rest hphase =>
          refine h.setPhase (facts_markPublished ..) ?_ (fun f rest hp => nomatch hp)
            (marked_markPublished h hphase _ now)
          intro f hf
          refine h.inHand i f ?_
          rw [hphase]
          exact List.mem_cons_of_mem _ hf
      · exact h
  | markFailed i now ok =>
      simp only [step]
      split
      · next fact rest hphase =>
          have hhand : ∀ f ∈ (Phase.publishing rest).facts, f ∈ x.2.facts := by
            intro f hf
            refine h.inHand i f ?_
            rw [hphase]
            exact List.mem_cons_of_mem _ hf
          cases ok with
          | true =>
              exact h.setPhase (facts_markFailed ..) hhand (fun f rest hp => nomatch hp)
                (marked_update h (fun _ => rfl) (fun _ => rfl))
          | false => exact h.setPhase rfl hhand (fun f rest hp => nomatch hp) h.marked
      · exact h
  | stopRelay i =>
      exact h.setPhase rfl (fun f hf => absurd hf (List.not_mem_nil))
        (fun f rest hp => nomatch hp) h.marked
  | assign j part start =>
      simp only [step]
      split
      · split
        · exact h.of_consumer rfl rfl rfl rfl
        · exact h
      · exact h
  | fetch j part =>
      simp only [step]
      split
      · split
        · exact h
        · split
          · exact h
          · exact h.of_consumer rfl rfl rfl rfl
      · exact h
  | process j info =>
      simp only [step]
      split
      · split
        · next hok =>
            have hframe := Postgres.processKafkaEvent_frame (transact_ok hok)
            exact h.of_consumer rfl rfl rfl hframe.outbox
        · next herr => exact h.of_consumer rfl rfl rfl (by rw [transact_error herr])
      · exact h
  | commit j =>
      simp only [step]
      split
      · exact h.of_consumer rfl rfl rfl rfl
      · exact h
  | stopConsumer j => exact h.of_consumer rfl rfl rfl rfl

/-! ## Topic to audit trail -/

/-- The columns that `outbox_events` and `audit_events` share. -/
structure Content where
  id : String
  tenantID : String
  eventType : EventType
  eventVersion : Int
  aggregateID : String
  correlationID : String
  causationID : Option String
  payload : Json
  timestamp : Time

def factContent (f : OutboxFact) : Content where
  id := f.id
  tenantID := f.tenantID
  eventType := f.eventType
  eventVersion := f.eventVersion
  aggregateID := f.aggregateID
  correlationID := f.correlationID
  causationID := f.causationID
  payload := f.payload
  timestamp := f.occurredAt

def auditContent (a : AuditRow) : Content where
  id := a.id
  tenantID := a.tenantID
  eventType := a.eventType
  eventVersion := a.eventVersion
  aggregateID := a.aggregateID
  correlationID := a.correlationID
  causationID := a.causationID
  payload := a.payload
  timestamp := a.occurredAt

/-- The audit row of a fact's envelope has the fact's content.  A fact without
    a cause travels with an empty causation identifier and is stored without. -/
theorem auditContent_envelope {f : OutboxFact} (hcause : f.causationID = none) (info : Info) :
    auditContent (Postgres.auditRow (envelope f) info) = factContent f := by
  simp [auditContent, Postgres.auditRow, envelope, factContent, hcause]

section Consumer

variable (config : Config)

/-- The message at an offset has been processed by the consumer. -/
def Done (x : State × Db) (part offset : Nat) : Prop :=
  ∃ event, (partition config x.1.log part)[offset]? = some event
    ∧ ∃ p ∈ x.2.processed.rows, p.key = (config.consumerName, event.eventID)

/-- The half of the invariant between the topic and the audit trail. -/
structure Projected (x : State × Db) : Prop where
  committed : ∀ part offset, offset < x.1.committed part → Done config x part offset
  position : ∀ j part next, (x.1.consumers j).position part = some next →
    ∀ offset < next, Done config x part offset
  fetched : ∀ j position part offset event,
    x.1.consumers j = .fetched position part offset event →
    position part = some offset ∧ (partition config x.1.log part)[offset]? = some event
  handled : ∀ j position part offset, x.1.consumers j = .processed position part offset →
    position part = some offset ∧ Done config x part offset
  audited : ∀ p ∈ x.2.processed.rows, p.consumerName = config.consumerName →
    ∃ a ∈ x.2.audit.rows, a.id = p.eventID
  faithful : ∀ a ∈ x.2.audit.rows, ∃ f ∈ x.2.facts, factContent f = auditContent a

variable {config}

theorem partition_append (log new : List Envelope) (part : Nat) :
    partition config (log ++ new) part
      = partition config log part ++ partition config new part :=
  List.filter_append ..

theorem getElem?_partition_append {log new : List Envelope} {part offset : Nat}
    {event : Envelope} (h : (partition config log part)[offset]? = some event) :
    (partition config (log ++ new) part)[offset]? = some event := by
  obtain ⟨hlt, -⟩ := List.getElem?_eq_some_iff.mp h
  rw [partition_append, List.getElem?_append_left hlt]
  exact h

/-- What has been processed stays processed. -/
theorem Done.mono {x y : State × Db} {part offset : Nat} (h : Done config x part offset)
    (hlog : ∃ new, y.1.log = x.1.log ++ new)
    (hprocessed : ∀ p ∈ x.2.processed.rows, p ∈ y.2.processed.rows) :
    Done config y part offset := by
  obtain ⟨event, hevent, p, hp, hkey⟩ := h
  obtain ⟨new, hnew⟩ := hlog
  refine ⟨event, ?_, p, hprocessed p hp, hkey⟩
  rw [hnew]
  exact getElem?_partition_append hevent

/-- A step of anyone but a consumer keeps the second half. -/
theorem Projected.of_producer {x y : State × Db} (h : Projected config x)
    (hlog : ∃ new, y.1.log = x.1.log ++ new) (hcommitted : y.1.committed = x.1.committed)
    (hconsumers : y.1.consumers = x.1.consumers) (hprocessed : y.2.processed = x.2.processed)
    (haudit : y.2.audit = x.2.audit) (hfacts : ∀ f ∈ x.2.facts, f ∈ y.2.facts) :
    Projected config y := by
  have hdone : ∀ {part offset}, Done config x part offset → Done config y part offset :=
    fun hd => hd.mono hlog fun p hp => by rw [hprocessed]; exact hp
  refine ⟨?_, ?_, ?_, ?_, ?_, ?_⟩
  · intro part offset hlt
    rw [hcommitted] at hlt
    exact hdone (h.committed part offset hlt)
  · intro j part next hnext offset hlt
    rw [hconsumers] at hnext
    exact hdone (h.position j part next hnext offset hlt)
  · intro j position part offset event hj
    rw [hconsumers] at hj
    obtain ⟨hpos, hevent⟩ := h.fetched j position part offset event hj
    obtain ⟨new, hnew⟩ := hlog
    refine ⟨hpos, ?_⟩
    rw [hnew]
    exact getElem?_partition_append hevent
  · intro j position part offset hj
    rw [hconsumers] at hj
    obtain ⟨hpos, hd⟩ := h.handled j position part offset hj
    exact ⟨hpos, hdone hd⟩
  · rw [hprocessed, haudit]
    exact h.audited
  · intro a ha
    rw [haudit] at ha
    obtain ⟨f, hf, hcontent⟩ := h.faithful a ha
    exact ⟨f, hfacts f hf, hcontent⟩

/-- A consumer changes its session; the database, the topic and the committed
    offsets stay. -/
theorem Projected.setSession {x : State × Db} (h : Projected config x) {j : Nat}
    {session : Session}
    (hposition : ∀ part next, session.position part = some next →
      ∀ offset < next, Done config x part offset)
    (hfetched : ∀ position part offset event, session = .fetched position part offset event →
      position part = some offset ∧ (partition config x.1.log part)[offset]? = some event)
    (hhandled : ∀ position part offset, session = .processed position part offset →
      position part = some offset ∧ Done config x part offset) :
    Projected config (x.1.setSession j session, x.2) := by
  refine ⟨h.committed, ?_, ?_, ?_, h.audited, h.faithful⟩
  · intro k part next hnext
    by_cases hk : k = j
    · subst hk
      simp only [State.setSession, Function.update_self] at hnext
      exact hposition part next hnext
    · simp only [State.setSession, Function.update_of_ne hk] at hnext
      exact h.position k part next hnext
  · intro k position part offset event hsession
    by_cases hk : k = j
    · subst hk
      simp only [State.setSession, Function.update_self] at hsession
      exact hfetched position part offset event hsession
    · simp only [State.setSession, Function.update_of_ne hk] at hsession
      exact h.fetched k position part offset event hsession
  · intro k position part offset hsession
    by_cases hk : k = j
    · subst hk
      simp only [State.setSession, Function.update_self] at hsession
      exact hhandled position part offset hsession
    · simp only [State.setSession, Function.update_of_ne hk] at hsession
      exact h.handled k position part offset hsession

/-- What processing an event does to the markers and the audit trail. -/
structure Recorded (consumerName : String) (event : Envelope) (info : Info) (db db' : Db) :
    Prop where
  grows : ∀ p ∈ db.processed.rows, p ∈ db'.processed.rows
  marker : ∃ p ∈ db'.processed.rows, p.key = (consumerName, event.eventID)
  audited : ∀ p ∈ db'.processed.rows,
    p ∈ db.processed.rows ∨ ∃ a ∈ db'.audit.rows, a.id = p.eventID
  kept : ∀ a ∈ db.audit.rows, a ∈ db'.audit.rows
  added : ∀ a ∈ db'.audit.rows, a ∈ db.audit.rows ∨ a = Postgres.auditRow event info

theorem processKafkaEvent_recorded {consumerName : String} {event : Envelope} {info : Info}
    {fresh : Bool} {db db' : Db}
    (hok : Postgres.processKafkaEvent consumerName event info db = .ok (fresh, db')) :
    Recorded consumerName event info db db' := by
  rcases Postgres.processKafkaEvent_ok hok with
    ⟨rfl, hmarker⟩ | ⟨processed, db₁, db₂, hrows, -, haudit, husage, hdb⟩
  · exact ⟨fun p hp => hp, hmarker, fun p hp => Or.inl hp, fun a ha => ha, fun a ha => Or.inl ha⟩
  · obtain ⟨audit, hdb₁, hcases⟩ := Postgres.insertAudit_ok haudit
    -- the ledger row does not matter here
    obtain ⟨hprocessed, rfl⟩ : db'.processed.rows = db.processed.rows
        ++ [Postgres.markerRow consumerName event info] ∧ db'.audit = audit := by
      rcases husage with ⟨-, husage⟩ | ⟨-, hsame⟩
      · obtain ⟨ledger, usage, -, hdb₂, -⟩ := Postgres.insertUsage_ok husage
        rw [hdb, hdb₂, hdb₁]
        exact ⟨hrows, rfl⟩
      · rw [hdb, hsame, hdb₁]
        exact ⟨hrows, rfl⟩
    have hnew : ∃ a ∈ db'.audit.rows, a.id = event.eventID := by
      rcases hcases with ⟨⟨a, ha, hid⟩, hsame⟩ | hrow
      · exact ⟨a, by rw [hsame]; exact ha, hid⟩
      · exact ⟨_, by rw [hrow]; exact List.mem_append_right _ (List.mem_singleton_self _), rfl⟩
    refine ⟨?_, ?_, ?_, ?_, ?_⟩
    · intro p hp
      rw [hprocessed]
      exact List.mem_append_left _ hp
    · refine ⟨Postgres.markerRow consumerName event info, ?_, rfl⟩
      rw [hprocessed]
      exact List.mem_append_right _ (List.mem_singleton_self _)
    · intro p hp
      rw [hprocessed] at hp
      rcases List.mem_append.mp hp with hp | hp
      · exact Or.inl hp
      · rw [List.mem_singleton.mp hp]
        exact Or.inr hnew
    · intro a ha
      rcases hcases with ⟨-, hsame⟩ | hrow
      · rw [hsame]
        exact ha
      · rw [hrow]
        exact List.mem_append_left _ ha
    · intro a ha
      rcases hcases with ⟨-, hsame⟩ | hrow
      · rw [hsame] at ha
        exact Or.inl ha
      · rw [hrow] at ha
        exact (List.mem_append.mp ha).imp id List.mem_singleton.mp

/-- Processing the message a consumer has fetched keeps the second half. -/
theorem projected_process {x : State × Db} (hpub : Published x) (h : Projected config x)
    {j : Nat} {position : Nat → Option Nat} {part offset : Nat} {event : Envelope} {info : Info}
    {fresh : Bool} {db : Db} (hsession : x.1.consumers j = .fetched position part offset event)
    (hok : Postgres.processKafkaEvent config.consumerName event info x.2 = .ok (fresh, db)) :
    Projected config (x.1.setSession j (.processed position part offset), db) := by
  obtain ⟨hpos, hevent⟩ := h.fetched j position part offset event hsession
  have hrecorded := processKafkaEvent_recorded hok
  have hfacts : db.facts = x.2.facts := by
    rw [Db.facts, (Postgres.processKafkaEvent_frame hok).outbox, Db.facts]
  have hdone : ∀ {p o}, Done config x p o → Done config (x.1, db) p o :=
    fun hd => hd.mono ⟨[], by simp⟩ hrecorded.grows
  have hbase : Projected config (x.1, db) := by
    refine ⟨fun p o hlt => hdone (h.committed p o hlt),
      fun k p n hn o hlt => hdone (h.position k p n hn o hlt), h.fetched, ?_, ?_, ?_⟩
    · intro k pos p o hk
      obtain ⟨hp, hd⟩ := h.handled k pos p o hk
      exact ⟨hp, hdone hd⟩
    · intro p hp hname
      rcases hrecorded.audited p hp with hold | hnew
      · obtain ⟨a, ha, hid⟩ := h.audited p hold hname
        exact ⟨a, hrecorded.kept a ha, hid⟩
      · exact hnew
    · intro a ha
      rw [hfacts]
      rcases hrecorded.added a ha with hold | rfl
      · exact h.faithful a hold
      · -- the event on the topic is a fact of the outbox
        obtain ⟨f, hf, henv⟩ := hpub.genuine event (List.mem_of_mem_filter
          (List.mem_of_getElem? hevent))
        rw [← henv]
        exact ⟨f, hf, (auditContent_envelope (hpub.uncaused f hf) info).symm⟩
  have hposition := h.position j
  rw [hsession] at hposition
  refine hbase.setSession (fun p n hn o hlt => hdone (hposition p n hn o hlt))
    (by rintro _ _ _ _ ⟨⟩) ?_
  intro pos p o hs
  cases hs
  exact ⟨hpos, event, hevent, hrecorded.marker⟩

/-- A session with nothing assigned claims nothing. -/
theorem Projected.unassign {x : State × Db} (h : Projected config x) (j : Nat) :
    Projected config (x.1.setSession j (.polling fun _ => none), x.2) :=
  h.setSession (by rintro _ _ ⟨⟩) (by rintro _ _ _ _ ⟨⟩) (by rintro _ _ _ ⟨⟩)

/-- A consumer goes on at an offset below which everything is done. -/
theorem Projected.poll {x : State × Db} (h : Projected config x) {j part offset : Nat}
    {position : Nat → Option Nat}
    (hposition : ∀ p next, position p = some next → ∀ o < next, Done config x p o)
    (hbelow : ∀ o < offset, Done config x part o) :
    Projected config
      (x.1.setSession j (.polling (Function.update position part (some offset))), x.2) := by
  refine h.setSession ?_ (by rintro _ _ _ _ ⟨⟩) (by rintro _ _ _ ⟨⟩)
  intro p next hnext o hlt
  by_cases hp : p = part
  · subst hp
    simp only [Session.position, Function.update_self, Option.some.injEq] at hnext
    exact hbelow o (by omega)
  · simp only [Session.position, Function.update_of_ne hp] at hnext
    exact hposition p next hnext o hlt

/-- An offset is committed when everything below it is done. -/
theorem Projected.setCommitted {x : State × Db} (h : Projected config x) {part offset : Nat}
    (hbelow : ∀ o < offset, Done config x part o) :
    Projected config
      ({ x.1 with committed := Function.update x.1.committed part offset }, x.2) := by
  refine ⟨?_, h.position, h.fetched, h.handled, h.audited, h.faithful⟩
  intro p o hlt
  by_cases hp : p = part
  · subst hp
    simp only [Function.update_self] at hlt
    exact hbelow o hlt
  · simp only [Function.update_of_ne hp] at hlt
    exact h.committed p o hlt

/-- A relay moves on, with or without an update of the outbox. -/
theorem Projected.setPhase {x : State × Db} (h : Projected config x) (i : Nat) (phase : Phase)
    {db : Db} (hprocessed : db.processed = x.2.processed) (haudit : db.audit = x.2.audit)
    (hfacts : db.facts = x.2.facts) : Projected config (x.1.setPhase i phase, db) := by
  refine h.of_producer ⟨[], by simp [State.setPhase]⟩ rfl rfl hprocessed haudit ?_
  intro f hf
  rw [hfacts]
  exact hf

/-- A publication only adds to the topic. -/
theorem publish_extends (s : State) (i : Nat) (fact : OutboxFact) (rest : List OutboxFact)
    (outcome : Outcome) :
    (∃ new, (publish s i fact rest outcome).log = s.log ++ new)
      ∧ (publish s i fact rest outcome).committed = s.committed
      ∧ (publish s i fact rest outcome).consumers = s.consumers := by
  unfold publish
  dsimp only
  split
  · exact ⟨⟨[], by simp [State.setPhase]⟩, rfl, rfl⟩
  · cases outcome with
    | acked extra => exact ⟨⟨_, rfl⟩, rfl, rfl⟩
    | failed copies => exact ⟨⟨_, rfl⟩, rfl, rfl⟩

/-- Every step of the pipeline keeps the second half. -/
theorem projected_step {x : State × Db} (hpub : Published x) (h : Projected config x)
    (action : Action) : Projected config (step config x action) := by
  cases action with
  | claim i result =>
      simp only [step]
      split
      · split
        · exact h.setPhase i _ rfl rfl (facts_claimRows ..)
        · exact h
      · exact h
  | publish i outcome =>
      simp only [step]
      split
      · next fact rest _ =>
          obtain ⟨hlog, hcommitted, hconsumers⟩ := publish_extends x.1 i fact rest outcome
          exact h.of_producer hlog hcommitted hconsumers rfl rfl (fun f hf => hf)
      · exact h
  | markPublished i now =>
      simp only [step]
      split
      · exact h.setPhase i _ rfl rfl (facts_markPublished ..)
      · exact h
  | markFailed i now ok =>
      simp only [step]
      split
      · cases ok with
        | true => exact h.setPhase i _ rfl rfl (facts_markFailed ..)
        | false => exact h.setPhase i _ rfl rfl rfl
      · exact h
  | stopRelay i => exact h.setPhase i _ rfl rfl rfl
  | assign j part start =>
      simp only [step]
      split
      · next position hsession =>
          split
          · next hstart =>
              have hposition := h.position j
              rw [hsession] at hposition
              refine h.poll hposition ?_
              intro o hlt
              exact h.committed part o (by omega)
          · exact h
      · exact h
  | fetch j part =>
      simp only [step]
      split
      · next position hsession =>
          split
          · exact h
          · next offset hoffset =>
              split
              · exact h
              · next event hevent =>
                  have hposition := h.position j
                  rw [hsession] at hposition
                  refine h.setSession hposition ?_ (by rintro _ _ _ ⟨⟩)
                  intro pos p o e hs
                  cases hs
                  exact ⟨hoffset, hevent⟩
      · exact h
  | process j info =>
      simp only [step]
      split
      · next position part offset event hsession =>
          split
          · next hok => exact projected_process hpub h hsession (transact_ok hok)
          · next herr =>
              rw [transact_error herr]
              exact h.unassign j
      · exact h
  | commit j =>
      simp only [step]
      split
      · next position part offset hsession =>
          obtain ⟨hpos, hdone⟩ := h.handled j position part offset hsession
          have hposition := h.position j
          rw [hsession] at hposition
          -- everything below the new offset is done: the message itself, and
          -- what lay below its position
          have hbelow : ∀ o < offset + 1, Done config x part o := by
            intro o hlt
            rcases Nat.lt_succ_iff_lt_or_eq.mp hlt with hlt | rfl
            · exact hposition part offset hpos o hlt
            · exact hdone
          exact (h.setCommitted hbelow).poll hposition hbelow
      · exact h
  | stopConsumer j => exact h.unassign j

end Consumer

/-! ## Whole runs -/

/-- Both halves hold initially. -/
theorem inv_init (config : Config) (relays : Nat → Relay) (catalog : Catalog) :
    Published (State.init relays, Db.init catalog)
      ∧ Projected config (State.init relays, Db.init catalog) := by
  constructor
  · refine ⟨?_, ?_, ?_, ?_, ?_, ?_⟩
    · intro f hf; exact absurd hf (List.not_mem_nil)
    · intro i f hf; exact absurd hf (List.not_mem_nil)
    · intro i f rest hp; cases hp
    · intro r hr; exact absurd hr (List.not_mem_nil)
    · intro e he; exact absurd he (List.not_mem_nil)
    · intro e he; exact absurd he (List.not_mem_nil)
  · refine ⟨?_, ?_, ?_, ?_, ?_, ?_⟩
    · intro part offset hlt; exact absurd hlt (Nat.not_lt_zero _)
    · intro j part next hn; cases hn
    · intro j position part offset event hs; cases hs
    · intro j position part offset hs; cases hs
    · intro p hp; exact absurd hp (List.not_mem_nil)
    · intro a ha; exact absurd ha (List.not_mem_nil)

theorem recordEvaluation_frame (failed : Bool) (jobID tenantID correlationID : String)
    (payload : Json) (info : Info) (db : Db) :
    Postgres.Frame db
      (transact (recordEvaluation failed jobID tenantID correlationID payload info) db).2 := by
  refine transact_rule (Postgres.Frame.refl db) ?_
  intro u db' hok
  simp only [recordEvaluation, bind_eq_ok] at hok
  obtain ⟨db₁, hins, hdb⟩ := hok
  rw [return_db hdb]
  exact Postgres.insertOutbox_frame rfl rfl hins

/-- Adding facts keeps the second half. -/
theorem Projected.of_frame {config : Config} {x : State × Db} {db : Db}
    (h : Projected config x) (hframe : Postgres.Frame x.2 db) : Projected config (x.1, db) := by
  refine h.of_producer ⟨[], by simp⟩ rfl rfl hframe.processed hframe.audit ?_
  intro f hf
  obtain ⟨new, hrows, -⟩ := hframe.outbox
  simp only [Db.facts, hrows, List.map_append]
  exact List.mem_append_left _ hf

/-- Every step of the open system keeps both halves. -/
theorem inv_openStep (config : Config) (x : State × Db) (action : OpenAction)
    (h : Published x ∧ Projected config x) :
    Published (openStep config x action) ∧ Projected config (openStep config x action) := by
  cases action with
  | call call info =>
      have hframe := Postgres.store_frame call info x.2
      exact ⟨h.1.of_frame hframe, h.2.of_frame hframe⟩
  | evaluation failed jobID tenantID correlationID payload info =>
      have hframe := recordEvaluation_frame failed jobID tenantID correlationID payload info x.2
      exact ⟨h.1.of_frame hframe, h.2.of_frame hframe⟩
  | pipeline action => exact ⟨published_step config h.1 action, projected_step h.1 h.2 action⟩

/-- The audit trail has one row for each identifier. -/
theorem auditContents_nodup (db : Db) : (db.audit.rows.map auditContent).Nodup := by
  rw [List.Nodup, List.pairwise_map]
  exact db.audit.unique.imp fun hne heq => hne (congrArg Content.id heq)

theorem factContents_nodup (db : Db) : (db.facts.map factContent).Nodup := by
  rw [Db.facts, List.map_map, List.Nodup, List.pairwise_map]
  exact db.outbox.unique.imp fun hne heq => hne (congrArg Content.id heq)

/-- A fact whose row is published, once every offset is committed, is in the
    audit trail. -/
theorem audited_of_drained {config : Config} {x : State × Db} (hpub : Published x)
    (hproj : Projected config x)
    (hcommitted : ∀ part, x.1.committed part = (partition config x.1.log part).length)
    {r : OutboxRow} (hr : r ∈ x.2.outbox.rows) (hpublished : r.publishedAt.isSome = true) :
    factContent r.fact ∈ x.2.audit.rows.map auditContent := by
  have hlog := hpub.acked _ (hpub.marked r hr hpublished)
  have hmem : envelope r.fact
      ∈ partition config x.1.log (config.partitionOf r.fact.tenantID) :=
    List.mem_filter.mpr ⟨hlog, by simp [envelope]⟩
  obtain ⟨offset, hoffset⟩ := List.mem_iff_getElem?.mp hmem
  obtain ⟨hlt, -⟩ := List.getElem?_eq_some_iff.mp hoffset
  obtain ⟨event, hevent, p, hp, hkey⟩ := hproj.committed _ offset (by rw [hcommitted]; exact hlt)
  rw [hoffset] at hevent
  obtain ⟨a, ha, hid⟩ := hproj.audited p hp (congrArg Prod.fst hkey)
  obtain ⟨f, hf, hcontent⟩ := hproj.faithful a ha
  -- the audit row carries the identifier of the fact, hence the fact itself
  have hfid : f.id = r.fact.id := by
    have h1 : f.id = a.id := congrArg Content.id hcontent
    have h2 : p.eventID = event.eventID := congrArg Prod.snd hkey
    rw [h1, hid, h2, ← Option.some.inj hevent]
    rfl
  have hsame : f = r.fact := fact_eq_of_id hf (List.mem_map_of_mem hr) hfid
  rw [← hsame, hcontent]
  exact List.mem_map_of_mem ha

/-- **Outbox projection.** For any number of relays and consumers and any
    interleaving of their steps with the writers of the outbox, in every state
    reached: (a) only rows whose envelope the broker acknowledged are marked;
    (b) every committed offset holds an event that was processed; (c) the audit
    trail has at most one row for each outbox row, with the same content, and
    no other rows; and once every row is published and every offset committed
    it equals the outbox. -/
theorem outbox_projection (config : Config) (relays : Nat → Relay) (catalog : Catalog)
    (as : List OpenAction) :
    let x := Lib.run (openStep config) (State.init relays, Db.init catalog) as
    (∀ r ∈ x.2.outbox.rows, r.publishedAt.isSome = true →
        envelope r.fact ∈ x.1.acked ∧ envelope r.fact ∈ x.1.log)
      ∧ (∀ part offset, offset < x.1.committed part →
          ∃ event, (partition config x.1.log part)[offset]? = some event
            ∧ ∃ p ∈ x.2.processed.rows, p.key = (config.consumerName, event.eventID))
      ∧ (x.2.audit.rows.map auditContent).Nodup
      ∧ (x.2.audit.rows.map auditContent) ⊆ (x.2.facts.map factContent)
      ∧ ((∀ r ∈ x.2.outbox.rows, r.publishedAt.isSome = true) →
          (∀ part, x.1.committed part = (partition config x.1.log part).length) →
          (x.2.audit.rows.map auditContent).Perm (x.2.facts.map factContent)) := by
  intro x
  have hinv : Published x ∧ Projected config x :=
    Lib.run_invariant' (fun s a h => inv_openStep config s a h) as
      (inv_init config relays catalog)
  obtain ⟨hpub, hproj⟩ := hinv
  have hsub : (x.2.audit.rows.map auditContent) ⊆ (x.2.facts.map factContent) := by
    intro c hc
    obtain ⟨a, ha, rfl⟩ := List.mem_map.mp hc
    obtain ⟨f, hf, hcontent⟩ := hproj.faithful a ha
    rw [← hcontent]
    exact List.mem_map_of_mem hf
  refine ⟨?_, hproj.committed, auditContents_nodup x.2, hsub, ?_⟩
  · intro r hr hsome
    have hacked := hpub.marked r hr hsome
    exact ⟨hacked, hpub.acked _ hacked⟩
  · intro hpublished hcommitted
    rw [List.perm_ext_iff_of_nodup (auditContents_nodup x.2) (factContents_nodup x.2)]
    intro c
    constructor
    · intro hc
      exact hsub hc
    · intro hc
      obtain ⟨f, hf, rfl⟩ := List.mem_map.mp hc
      obtain ⟨r, hr, rfl⟩ := List.mem_map.mp hf
      exact audited_of_drained hpub hproj hcommitted hr (hpublished r hr)

/-! ## Concrete runs -/

/-- The identifiers and the clock of a step. -/
def stepInfo (first second : String) (now : Time) : Info :=
  { now, dbNow := now, ids := fun slot => if slot = 0 then first else second }

/-- A request under an idempotency key is created. -/
def accepts (key requestID eventID : String) (now : Time) : OpenAction :=
  .call (.createOrGetRequest {
    tenantID := "t", apiKeyID := "k", userID := "", idempotencyKey := key, canonicalHash := [1]
    input := { model := "m", messages := [] }, correlationID := "c" })
    (stepInfo requestID eventID now)

/-- One partition and one relay, before anything happened. -/
def sampleInit : State × Db :=
  (State.init fun _ => Relay.new "w" 100, Db.init (Catalog.sample 100 Catalog.hundred_fits))

def sampleStep : State × Db → OpenAction → State × Db :=
  openStep ⟨fun _ => 0, "audit-usage-v1"⟩

/-- A request is accepted, its fact published twice by one `Publish`, and both
    messages are consumed. -/
def projectedRun : List OpenAction :=
  [accepts "a" "r" "e" 1,
   .pipeline (.claim 0 ⟨["e"], [], 2⟩),
   .pipeline (.publish 0 (.acked 1)),
   .pipeline (.markPublished 0 3),
   .pipeline (.assign 0 0 0),
   .pipeline (.fetch 0 0), .pipeline (.process 0 (stepInfo "" "" 4)), .pipeline (.commit 0),
   .pipeline (.fetch 0 0), .pipeline (.process 0 (stepInfo "" "" 5)), .pipeline (.commit 0)]

theorem outbox_projection_projectedRun :
    let x := Lib.run sampleStep sampleInit projectedRun
    x.2.audit.rows.length = 1 ∧ x.1.log.length = 2
      ∧ (x.2.audit.rows.map auditContent).Perm (x.2.facts.map factContent) := by
  refine ⟨by decide +kernel, by decide +kernel, ?_⟩
  refine (outbox_projection _ _ _ projectedRun).2.2.2.2 (by decide +kernel) ?_
  intro part
  cases part with
  | zero => decide +kernel
  | succ part => rfl

end Aegis.Pipeline
