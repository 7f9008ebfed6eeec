/-
  Aegis.Persistence.Slice

  What PostgreSQL holds about one request, and what a call does to it.

  A `Slice` is a request's row with its attempts, its reservation and its facts
  in the outbox.  A call is about at most one request (`Call.subject`).  A
  successful call leaves the slices of all other requests alone and does to its
  own what `Write` lists (`store_ok_slice`); a failed call does nothing.  The
  invariants of later modules go over the constructors of `Write` and never
  open the operations again.
-/

import Aegis.Persistence.PostgresSpec

namespace Aegis.Persistence

open Aegis.Events (completionPayload)
open Aegis.Request (State canTransition)

@[ext] structure Slice where
  row : Option RequestRow
  attempts : List AttemptRow
  reservation : Option ReservationRow
  facts : List OutboxFact

namespace Slice

/-- How many facts of a type there are about the request. -/
def count (S : Slice) (eventType : Events.EventType) : Nat :=
  S.facts.countP fun f => f.eventType == eventType

def inState (S : Slice) (state : State) : Bool :=
  S.row.any fun row => row.status == state

theorem inState_of_row {S : Slice} {row : RequestRow} (hrow : S.row = some row) (state : State) :
    S.inState state = (row.status == state) := by
  rw [inState, hrow]
  rfl

/-- A request that is not yet terminal is in none of the terminal states. -/
theorem not_inState_of_open {S : Slice} {row : RequestRow} (hrow : S.row = some row)
    (hopen : row.status.terminal = false) {state : State} (hterminal : state.terminal = true) :
    S.inState state = false := by
  rw [inState_of_row hrow, beq_eq_false_iff_ne]
  rintro rfl
  exact absurd (hopen.symm.trans hterminal) Bool.false_ne_true

end Slice

namespace Db

def slice (db : Db) (id : String) : Slice where
  row := db.request? id
  attempts := db.attemptsOf id
  reservation := db.reservation? id
  facts := db.factsOf id

/-! ## The parts of a slice after a write -/

section

variable {db db' : Db} {tenantID requestID id : String}

/-- The row that a guarded update finds is the one set. -/
theorem request?_updateRequest_self {status : State → Bool} {set : RequestRow → RequestRow}
    {row : RequestRow} (hset : ∀ r, (set r).key = r.key)
    (hrow : db.request? requestID = some row) (htenant : row.tenantID = tenantID)
    (hstatus : status row.status = true) :
    (db.updateRequest tenantID requestID status set hset).request? requestID
      = some (set row) := by
  have hguard : requestGuard tenantID requestID status row = true :=
    requestGuard_iff.mpr ⟨((db.request?_eq_some_iff).mp hrow).2, htenant, hstatus⟩
  rw [request?_updateRequest, hrow]
  simp only [Option.map_some, hguard, if_true]

theorem request?_updateRequest_of_ne {status : State → Bool} {set : RequestRow → RequestRow}
    (hset : ∀ r, (set r).key = r.key) (hid : id ≠ requestID) :
    (db.updateRequest tenantID requestID status set hset).request? id = db.request? id := by
  rw [request?_updateRequest]
  cases hother : db.request? id with
  | none => rfl
  | some other =>
      have hguard : requestGuard tenantID requestID status other = false := by
        rw [Bool.eq_false_iff]
        intro hg
        have hown := ((db.request?_eq_some_iff).mp hother).2
        exact hid (hown.symm.trans (requestGuard_iff.mp hg).1)
      simp only [Option.map_some, hguard, Bool.false_eq_true, if_false]

/-- Facts about a request were added to the outbox. -/
theorem factsOf_append_self (db db' : Db) {new : List OutboxRow}
    (hnew : ∀ r ∈ new, r.fact.aggregateID = requestID)
    (h : db'.outbox.rows = db.outbox.rows ++ new) :
    db'.factsOf requestID = db.factsOf requestID ++ new.map OutboxRow.fact := by
  simp only [factsOf, facts, h, List.map_append, List.filter_append]
  congr 1
  refine List.filter_eq_self.mpr ?_
  intro f hf
  obtain ⟨r, hr, rfl⟩ := List.mem_map.mp hf
  simpa using hnew r hr

theorem factsOf_append_of_ne (db db' : Db) {new : List OutboxRow}
    (hnew : ∀ r ∈ new, r.fact.aggregateID = requestID)
    (h : db'.outbox.rows = db.outbox.rows ++ new) (hid : id ≠ requestID) :
    db'.factsOf id = db.factsOf id := by
  simp only [factsOf, facts, h, List.map_append, List.filter_append]
  refine List.append_right_eq_self.mpr (List.filter_eq_nil_iff.mpr ?_)
  intro f hf
  obtain ⟨r, hr, rfl⟩ := List.mem_map.mp hf
  simpa [hnew r hr] using Ne.symm hid

theorem requestID_of_attemptGuard {number : Int} {a : AttemptRow}
    (h : attemptGuard tenantID requestID number a = true) : a.requestID = requestID := by
  simp only [attemptGuard, Bool.and_eq_true, beq_iff_eq] at h
  exact h.1.1.1

/-- The attempts of a request after an update of attempts of one request. -/
theorem attemptsOf_update {p : AttemptRow → Bool} {f : AttemptRow → AttemptRow}
    (h : db'.attempts.rows = db.attempts.rows.map fun a => if p a then f a else a)
    (hf : ∀ a, (f a).requestID = a.requestID) (id : String) :
    db'.attemptsOf id = (db.attemptsOf id).map fun a => if p a then f a else a := by
  rw [attemptsOf, h]
  refine Lib.filter_update ?_
  intro a
  rw [hf]

theorem attemptsOf_update_of_ne {p : AttemptRow → Bool} {f : AttemptRow → AttemptRow}
    (h : db'.attempts.rows = db.attempts.rows.map fun a => if p a then f a else a)
    (hp : ∀ a, p a = true → a.requestID = requestID) (hf : ∀ a, (f a).requestID = a.requestID)
    (hid : id ≠ requestID) : db'.attemptsOf id = db.attemptsOf id := by
  rw [attemptsOf_update h hf]
  refine Lib.map_update_of_disjoint ?_
  intro a ha
  rw [Bool.eq_false_iff]
  intro hpa
  have hown : a.requestID = id := by simpa using (List.mem_filter.mp ha).2
  exact hid (hown.symm.trans (hp a hpa))

end

/-- A request's slice changed by `R`, and no other slice changed. -/
def Written (id : String) (R : Slice → Slice → Prop) (db db' : Db) : Prop :=
  R (db.slice id) (db'.slice id) ∧ ∀ other, other ≠ id → db'.slice other = db.slice other

/-- A transaction whose first statement wrote to the same slice. -/
theorem Written.after {id : String} {R : Slice → Slice → Prop} {db db₁ db' : Db}
    (h : Written id (fun _ => R (db.slice id)) db₁ db')
    (hfirst : ∀ other, other ≠ id → db₁.slice other = db.slice other) : Written id R db db' :=
  ⟨h.1, fun other hne => (h.2 other hne).trans (hfirst other hne)⟩

end Db

/-! ## The writes -/

/-- The request that a call is about. -/
def Call.subject (info : Info) : Call → Option String
  | .createOrGetRequest _ => some (info.ids 0)
  | .getRequest _ _ => none
  | .transitionRequest _ requestID _ _ => some requestID
  | .startAttempt params => some params.requestID
  | .completeRequest params => some params.requestID
  | .failAttempt params => some params.requestID
  | .cancelRequest _ requestID _ => some requestID
  | .tenantPolicy _ _ => none
  | .reserveBudget _ requestID _ _ => some requestID
  | .rejectBudget _ requestID _ _ => some requestID
  | .reconcileBudget requestID _ => some requestID

namespace Postgres

/-- The row that `StartAttempt` inserts. -/
def newAttempt (params : AttemptParams) (providerID modelID : String) (info : Info) :
    AttemptRow where
  id := info.ids 0
  requestID := params.requestID
  tenantID := params.tenantID
  attemptNumber := params.number
  providerID := providerID
  modelID := modelID
  startedAt := info.dbNow

/-- The attempt that a `FailAttempt` names; number 0 names none. -/
def failureGuard (params : FailureParams) (a : AttemptRow) : Bool :=
  decide (0 < params.attemptNumber)
    && Db.attemptGuard params.tenantID params.requestID params.attemptNumber a

/-- The attempts after `CompleteRequest`. -/
def succeedAll (params : CompletionParams) (prompt completion cost latency : Nat) (info : Info)
    (attempts : List AttemptRow) : List AttemptRow :=
  attempts.map fun a =>
    if Db.attemptGuard params.tenantID params.requestID params.attemptNumber a then
      a.succeeded params.providerRequestID prompt completion cost latency info.dbNow
    else a

/-- The attempts after `FailAttempt`. -/
def failAll (params : FailureParams) (latency : Nat) (info : Info) (attempts : List AttemptRow) :
    List AttemptRow :=
  attempts.map fun a =>
    if failureGuard params a then a.failed params.category params.retryable latency info.dbNow
    else a

/-- What a successful call does to the slice of its subject. -/
inductive Write (info : Info) : Call → Slice → Slice → Prop
  | create {params : CreateRequestParams} {modelID : String} {payload : Request.Json} {S : Slice}
      (hrow : S.row = none) :
      Write info (.createOrGetRequest params) S { S with
        row := some (newRequest params modelID info)
        facts := S.facts ++ [(outboxRow info 1 .requestAccepted (info.ids 0) params.tenantID
          params.correlationID payload).fact] }
  /-- the key was in use -/
  | load {params : CreateRequestParams} (S : Slice) : Write info (.createOrGetRequest params) S S
  | move {tenantID requestID : String} {source target : State} {row : RequestRow} {S : Slice}
      (hrow : S.row = some row) (htenant : row.tenantID = tenantID)
      (hstatus : row.status = source) (hcan : canTransition source target = true) :
      Write info (.transitionRequest tenantID requestID source target) S
        { S with row := some (row.moved target info.dbNow) }
  | start {params : AttemptParams} {providerID modelID : String} {payload : Request.Json}
      {S : Slice} (hrow : S.row.isSome = true) (hpos : 0 < params.number)
      (hnew : ∀ a ∈ S.attempts, a.attemptNumber ≠ params.number) :
      Write info (.startAttempt params) S { S with
        attempts := S.attempts ++ [newAttempt params providerID modelID info]
        facts := S.facts ++ [(outboxRow info 1 .providerSelected params.requestID
          params.tenantID params.correlationID payload).fact] }
  | complete {params : CompletionParams} {row : RequestRow} {prompt completion cost latency : Nat}
      {S : Slice} (hrow : S.row = some row) (htenant : row.tenantID = params.tenantID)
      (hstatus : row.status = .inProgress)
      (hprompt : (prompt : Int) = params.response.usage.promptTokens)
      (hcompletion : (completion : Int) = params.response.usage.completionTokens)
      (hcost : (cost : Int) = params.costMicroUSD) :
      Write info (.completeRequest params) S { S with
        row := some (row.completed params.response prompt completion cost info.dbNow)
        attempts := succeedAll params prompt completion cost latency info S.attempts
        facts := S.facts ++
          [(outboxRow info 0 .requestCompleted params.requestID params.tenantID
            params.correlationID (completionPayload params.requestID params.response.model
              prompt completion cost (Time.sinceMillis params.startedAt info.now))).fact,
           (outboxRow info 1 .usageRecorded params.requestID params.tenantID
            params.correlationID (completionPayload params.requestID params.response.model
              prompt completion cost (Time.sinceMillis params.startedAt info.now))).fact] }
  | retry {params : FailureParams} {latency : Nat} {S : Slice} (hfinal : params.final = false) :
      Write info (.failAttempt params) S { S with
        attempts := failAll params latency info S.attempts }
  | fail {params : FailureParams} {row : RequestRow} {latency : Nat} {payload : Request.Json}
      {S : Slice} (hfinal : params.final = true) (hrow : S.row = some row)
      (htenant : row.tenantID = params.tenantID) (hstatus : row.status = .inProgress) :
      Write info (.failAttempt params) S { S with
        row := some (row.failed params.category params.isPartial info.dbNow)
        attempts := failAll params latency info S.attempts
        facts := S.facts ++ [(outboxRow info 0 .requestFailed params.requestID params.tenantID
          params.correlationID payload).fact] }
  | cancel {tenantID requestID correlationID : String} {row : RequestRow} {S : Slice}
      (hrow : S.row = some row) (htenant : row.tenantID = tenantID)
      (hstatus : cancellable row.status = true) :
      Write info (.cancelRequest tenantID requestID correlationID) S
        { S with row := some (row.cancelled info.dbNow) }
  | reserve {tenantID requestID : String} {amount : Int} {now : Time} {reserved : Nat} {S : Slice}
      (hrow : S.row.isSome = true) (hnone : S.reservation = none)
      (hamount : (reserved : Int) = amount) :
      Write info (.reserveBudget tenantID requestID amount now) S { S with
        reservation := some {
          id := info.ids 0, tenantID, requestID, periodMonth := Time.startOfMonth now
          periodDay := Time.startOfDay now, reservedMicroUSD := reserved
          state := .reserved, createdAt := info.dbNow, updatedAt := info.dbNow } }
  /-- the request had a reservation -/
  | keep {tenantID requestID : String} {amount : Int} {now : Time} {S : Slice}
      (hsome : S.reservation.isSome = true) :
      Write info (.reserveBudget tenantID requestID amount now) S S
  | reject {tenantID requestID correlationID : String} {requested : Int} {row : RequestRow}
      {payload : Request.Json} {S : Slice} (hrow : S.row = some row)
      (htenant : row.tenantID = tenantID) (hstatus : row.status = .validated) :
      Write info (.rejectBudget tenantID requestID correlationID requested) S { S with
        row := some (row.budgetRejected info.dbNow)
        facts := S.facts ++ [(outboxRow info 0 .budgetExceeded requestID tenantID correlationID
          payload).fact] }
  | reconcile {requestID : String} {actual : Int} {amount : Nat} {reservation : ReservationRow}
      {S : Slice} (hamount : (amount : Int) = actual) (hsome : S.reservation = some reservation)
      (hstate : reservation.state = .reserved) :
      Write info (.reconcileBudget requestID actual) S { S with
        reservation := some (reservation.reconciled amount info.dbNow) }

/-! ## The operations write as listed -/

section Operations

variable {db db' : Db} {info : Info}

/-- A guarded update of a request with facts about it, as the slices see it. -/
theorem written_updateRequest {R : Slice → Slice → Prop} {tenantID requestID : String}
    {status : State → Bool} {set : RequestRow → RequestRow} {row : RequestRow}
    (hset : ∀ r, (set r).key = r.key) (hrow : db.request? requestID = some row)
    (htenant : row.tenantID = tenantID) (hstatus : status row.status = true)
    {outbox : Lib.Table OutboxRow.key Eq} (new : List OutboxRow)
    (hnew : ∀ r ∈ new, r.fact.aggregateID = requestID)
    (houtbox : outbox.rows = db.outbox.rows ++ new)
    (hR : R (db.slice requestID) { db.slice requestID with
      row := some (set row), facts := db.factsOf requestID ++ new.map OutboxRow.fact }) :
    Db.Written requestID R db
      { db.updateRequest tenantID requestID status set hset with outbox } := by
  constructor
  · have hslice : Db.slice { db.updateRequest tenantID requestID status set hset with outbox }
        requestID = { db.slice requestID with
          row := some (set row), facts := db.factsOf requestID ++ new.map OutboxRow.fact } := by
      refine Slice.ext (db.request?_updateRequest_self hset hrow htenant hstatus) rfl rfl ?_
      exact Db.factsOf_append_self db _ hnew houtbox
    rw [hslice]
    exact hR
  · intro other hne
    refine Slice.ext (db.request?_updateRequest_of_ne hset hne) rfl rfl ?_
    exact Db.factsOf_append_of_ne db _ hnew houtbox hne

/-- The same without a fact. -/
theorem written_updateRequest_only {R : Slice → Slice → Prop} {tenantID requestID : String}
    {status : State → Bool} {set : RequestRow → RequestRow} {row : RequestRow}
    (hset : ∀ r, (set r).key = r.key) (hrow : db.request? requestID = some row)
    (htenant : row.tenantID = tenantID) (hstatus : status row.status = true)
    (hR : R (db.slice requestID) { db.slice requestID with row := some (set row) }) :
    Db.Written requestID R db (db.updateRequest tenantID requestID status set hset) := by
  refine written_updateRequest hset hrow htenant hstatus [] ?_
    (List.append_nil _).symm ?_
  · exact fun _ h => absurd h List.not_mem_nil
  · rw [List.map_nil, List.append_nil]
    exact hR

theorem createOrGetRequest_written {params : CreateRequestParams} {record : Request.Record}
    {created : Bool} (h : createOrGetRequest params info db = .ok ((record, created), db')) :
    Db.Written (info.ids 0) (Write info (.createOrGetRequest params)) db db' := by
  rcases createOrGetRequest_ok h with
    ⟨-, modelID, requests, outbox, payload, -, hfree, -, hdb, hrows, hfacts, -⟩ | ⟨-, hdb, -⟩
  · have hnone : db.request? (info.ids 0) = none := by
      rw [Db.request?, List.find?_eq_none]
      intro r hr
      simpa using hfree r hr
    have houtbox := (congrArg (fun d => d.outbox.rows) hdb).trans hfacts
    constructor
    · have hslice : db'.slice (info.ids 0) = { db.slice (info.ids 0) with
          row := some (newRequest params modelID info)
          facts := db.factsOf (info.ids 0) ++ [(outboxRow info 1 .requestAccepted (info.ids 0)
            params.tenantID params.correlationID payload).fact] } := by
        refine Slice.ext ?_ ?_ ?_ ?_
        · rw [hdb]
          simp only [Db.slice, Db.request?, hrows, List.find?_append]
          rw [show db.requests.rows.find? (fun r => r.id == info.ids 0) = none from hnone,
            List.find?_cons_of_pos (by simp [newRequest])]
          rfl
        · rw [hdb]; rfl
        · rw [hdb]; rfl
        · exact Db.factsOf_append_self db db' (by simp [outboxRow]) houtbox
      rw [hslice]
      exact .create hnone
    · intro other hne
      refine Slice.ext ?_ ?_ ?_ ?_
      · rw [hdb]
        simp only [Db.slice, Db.request?, hrows, List.find?_append]
        rw [List.find?_cons_of_neg (by simpa [newRequest] using Ne.symm hne), List.find?_nil,
          Option.or_none]
      · rw [hdb]; rfl
      · rw [hdb]; rfl
      · exact Db.factsOf_append_of_ne db db' (by simp [outboxRow]) houtbox hne
  · rw [hdb]
    exact ⟨.load _, fun _ _ => rfl⟩

theorem transitionRequest_written {tenantID requestID : String} {source target : State} {u : Unit}
    (h : transitionRequest tenantID requestID source target info db = .ok (u, db')) :
    Db.Written requestID (Write info (.transitionRequest tenantID requestID source target))
      db db' := by
  obtain ⟨hcan, ⟨row, hrow, htenant, hstatus⟩, hdb⟩ := transitionRequest_ok h
  rw [hdb]
  exact written_updateRequest_only _ hrow htenant (by simpa using hstatus)
    (.move hrow htenant hstatus hcan)

theorem startAttempt_written {params : AttemptParams} {u : Unit}
    (h : startAttempt params info db = .ok (u, db')) :
    Db.Written params.requestID (Write info (.startAttempt params)) db db' := by
  obtain ⟨provider, -, model, -, attempts, outbox, payload, -, hreq, hpos, hdb, hfree, hattempts,
    hfacts⟩ := startAttempt_ok h
  have houtbox := (congrArg (fun d => d.outbox.rows) hdb).trans hfacts
  constructor
  · have hslice : db'.slice params.requestID = { db.slice params.requestID with
        attempts := db.attemptsOf params.requestID ++ [newAttempt params provider.id model.id info]
        facts := db.factsOf params.requestID ++ [(outboxRow info 1 .providerSelected
          params.requestID params.tenantID params.correlationID payload).fact] } := by
      refine Slice.ext ?_ ?_ ?_ ?_
      · rw [hdb]; rfl
      · rw [hdb]
        simp [Db.slice, Db.attemptsOf, hattempts, newAttempt]
      · rw [hdb]; rfl
      · exact Db.factsOf_append_self db db' (by simp [outboxRow]) houtbox
    rw [hslice]
    refine .start ?_ hpos ?_
    · simpa [Db.slice, Db.request?, Db.hasRequest] using hreq
    · intro a ha hnumber
      obtain ⟨hmem, hown⟩ := List.mem_filter.mp ha
      exact hfree a hmem ⟨by simpa using hown, hnumber⟩
  · intro other hne
    refine Slice.ext ?_ ?_ ?_ ?_
    · rw [hdb]; rfl
    · rw [hdb]
      simpa [Db.slice, Db.attemptsOf, hattempts] using Ne.symm hne
    · rw [hdb]; rfl
    · exact Db.factsOf_append_of_ne db db' (by simp [outboxRow]) houtbox hne

/-- The attempts of the subject after `CompleteRequest`'s first statement. -/
theorem succeedAttempt_slice {params : CompletionParams} {prompt completion cost : Nat}
    (hprompt : (prompt : Int) = params.response.usage.promptTokens)
    (hcompletion : (completion : Int) = params.response.usage.completionTokens)
    (hcost : (cost : Int) = params.costMicroUSD) (h : succeedAttempt params info db = .ok db') :
    (∃ latency, db'.slice params.requestID = { db.slice params.requestID with
        attempts := succeedAll params prompt completion cost latency info
          (db.attemptsOf params.requestID) })
      ∧ ∀ other, other ≠ params.requestID → db'.slice other = db.slice other := by
  obtain ⟨attempts, hdb, ⟨hnone, hsame⟩ | ⟨p, c, k, latency, hp, hc, hk, hrows⟩⟩ :=
    succeedAttempt_ok h
  · -- no attempt was hit, so the update of the listed attempts changes none
    rw [hsame] at hdb
    rw [hdb]
    refine ⟨⟨0, Slice.ext rfl ?_ rfl rfl⟩, fun _ _ => rfl⟩
    refine (Lib.map_update_of_disjoint ?_).symm
    intro a ha
    exact hnone a (List.mem_filter.mp ha).1
  · -- the three numbers are those of the parameters
    obtain rfl : prompt = p := by omega
    obtain rfl : completion = c := by omega
    obtain rfl : cost = k := by omega
    rw [hdb]
    refine ⟨⟨latency, Slice.ext rfl ?_ rfl rfl⟩, fun other hne => Slice.ext rfl ?_ rfl rfl⟩
    · refine Db.attemptsOf_update hrows ?_ params.requestID
      exact fun _ => rfl
    · refine Db.attemptsOf_update_of_ne hrows (fun _ => Db.requestID_of_attemptGuard) ?_ hne
      exact fun _ => rfl

theorem completeRequest_written {params : CompletionParams} {u : Unit}
    (h : completeRequest params info db = .ok (u, db')) :
    Db.Written params.requestID (Write info (.completeRequest params)) db db' := by
  obtain ⟨prompt, completion, cost, db₁, outbox, hprompt, hcompletion, hcost, hattempt,
    ⟨row, hrow, htenant, hstatus⟩, hdb, hfacts⟩ := completeRequest_ok h
  obtain ⟨⟨latency, hself⟩, hother⟩ := succeedAttempt_slice hprompt hcompletion hcost hattempt
  have hrow₀ : db.request? params.requestID = some row :=
    (congrArg Slice.row hself).symm.trans hrow
  have hsame : db₁.outbox = db.outbox := by
    obtain ⟨attempts, hdb₁, -⟩ := succeedAttempt_ok hattempt
    rw [hdb₁]
  rw [← hsame] at hfacts
  refine Db.Written.after ?_ hother
  rw [hdb]
  refine written_updateRequest _ hrow htenant ?_ _ ?_ hfacts ?_
  · simpa using hstatus
  · simp [outboxRow]
  · rw [hself, show db₁.factsOf params.requestID = db.factsOf params.requestID from
      congrArg Slice.facts hself]
    exact .complete (S := db.slice _) hrow₀ htenant hstatus hprompt hcompletion hcost

/-- The attempts of the subject after `FailAttempt`'s first statement. -/
theorem recordFailure_slice {params : FailureParams} (h : recordFailure params info db = .ok db') :
    (∃ latency, db'.slice params.requestID = { db.slice params.requestID with
        attempts := failAll params latency info (db.attemptsOf params.requestID) })
      ∧ ∀ other, other ≠ params.requestID → db'.slice other = db.slice other := by
  obtain ⟨attempts, hdb, ⟨hnone, hsame⟩ | ⟨latency, hpos, hrows⟩⟩ := recordFailure_ok h
  · rw [hsame] at hdb
    rw [hdb]
    refine ⟨⟨0, Slice.ext rfl ?_ rfl rfl⟩, fun _ _ => rfl⟩
    refine (Lib.map_update_of_disjoint ?_).symm
    intro a ha
    rw [failureGuard, Bool.and_eq_false_iff, decide_eq_false_iff_not]
    -- the call names no attempt, or none that is started
    rcases hnone with hzero | hnone
    · exact Or.inl (by omega)
    · exact Or.inr (hnone a (List.mem_filter.mp ha).1)
  · rw [hdb]
    have hguard : failureGuard params
        = Db.attemptGuard params.tenantID params.requestID params.attemptNumber := by
      funext a
      simp [failureGuard, hpos]
    refine ⟨⟨latency, Slice.ext rfl ?_ rfl rfl⟩, fun other hne => Slice.ext rfl ?_ rfl rfl⟩
    · simp only [failAll, hguard]
      refine Db.attemptsOf_update hrows ?_ params.requestID
      exact fun _ => rfl
    · refine Db.attemptsOf_update_of_ne hrows (fun _ => Db.requestID_of_attemptGuard) ?_ hne
      exact fun _ => rfl

theorem failAttempt_written {params : FailureParams} {u : Unit}
    (h : failAttempt params info db = .ok (u, db')) :
    Db.Written params.requestID (Write info (.failAttempt params)) db db' := by
  obtain ⟨db₁, hrecord, hcase⟩ := failAttempt_ok h
  obtain ⟨⟨latency, hself⟩, hother⟩ := recordFailure_slice hrecord
  rcases hcase with ⟨hfinal, hdb⟩ | ⟨hfinal, ⟨row, hrow, htenant, hstatus⟩, outbox, payload, hdb,
    houtbox⟩
  · rw [hdb]
    refine ⟨?_, hother⟩
    rw [hself]
    exact .retry hfinal
  · have hrow₀ : db.request? params.requestID = some row :=
      (congrArg Slice.row hself).symm.trans hrow
    refine Db.Written.after ?_ hother
    rw [hdb]
    refine written_updateRequest _ hrow htenant ?_ _ ?_ houtbox ?_
    · simpa using hstatus
    · simp [outboxRow]
    · rw [hself, show db₁.factsOf params.requestID = db.factsOf params.requestID from
        congrArg Slice.facts hself]
      exact .fail (S := db.slice _) hfinal hrow₀ htenant hstatus

theorem cancelRequest_written {tenantID requestID : String} {u : Unit} (correlationID : String)
    (h : cancelRequest tenantID requestID info db = .ok (u, db')) :
    Db.Written requestID (Write info (.cancelRequest tenantID requestID correlationID)) db db' := by
  obtain ⟨⟨row, hrow, htenant, hstatus⟩, hdb⟩ := cancelRequest_ok h
  rw [hdb]
  exact written_updateRequest_only _ hrow htenant hstatus (.cancel hrow htenant hstatus)

theorem rejectBudget_written {tenantID requestID correlationID : String} {requested : Int}
    {u : Unit} (h : rejectBudget tenantID requestID correlationID requested info db
      = .ok (u, db')) :
    Db.Written requestID (Write info (.rejectBudget tenantID requestID correlationID requested))
      db db' := by
  obtain ⟨⟨row, hrow, htenant, hstatus⟩, outbox, payload, hdb, houtbox⟩ := rejectBudget_ok h
  rw [hdb]
  exact written_updateRequest _ hrow htenant (by simpa using hstatus) _ (by simp [outboxRow])
    houtbox (.reject hrow htenant hstatus)

theorem reserveBudget_written {tenantID requestID : String} {amount : Int} {now : Time} {u : Unit}
    (h : reserveBudget tenantID requestID amount now info db = .ok (u, db')) :
    Db.Written requestID (Write info (.reserveBudget tenantID requestID amount now)) db db' := by
  obtain ⟨_, -, -, hins⟩ := reserveBudget_ok h
  rcases insertReservation_ok hins with
    ⟨hsome, hdb⟩ | ⟨hnone, hreq, reserved, reservations, hamount, hdb, hrows⟩
  · rw [hdb]
    exact ⟨.keep hsome, fun _ _ => rfl⟩
  · have hnone' : db.reservations.rows.find? (fun r => r.requestID == requestID) = none := hnone
    rw [hdb]
    constructor
    · have hslice : Db.slice { db with reservations } requestID = { db.slice requestID with
          reservation := some {
            id := info.ids 0, tenantID, requestID, periodMonth := Time.startOfMonth now
            periodDay := Time.startOfDay now, reservedMicroUSD := reserved
            state := .reserved, createdAt := info.dbNow, updatedAt := info.dbNow } } := by
        refine Slice.ext rfl rfl ?_ rfl
        simp only [Db.slice, Db.reservation?, hrows, List.find?_append, hnone', Option.none_or]
        exact List.find?_cons_of_pos (by simp)
      rw [hslice]
      refine .reserve ?_ hnone hamount
      simpa [Db.slice, Db.request?, Db.hasRequest] using hreq
    · intro other hne
      refine Slice.ext rfl rfl ?_ rfl
      simp only [Db.slice, Db.reservation?, hrows, List.find?_append]
      rw [List.find?_cons_of_neg (by simpa using Ne.symm hne), List.find?_nil, Option.or_none]

theorem reconcileBudget_written {requestID : String} {actual : Int} {u : Unit}
    (h : reconcileBudget requestID actual info db = .ok (u, db')) :
    Db.Written requestID (Write info (.reconcileBudget requestID actual)) db db' := by
  obtain ⟨amount, hamount, ⟨reservation, hsome, hstate⟩, hdb⟩ := reconcileBudget_ok h
  have hafter : ∀ id, db'.reservation? id = (db.reservation? id).map fun r =>
      if reservationGuard requestID r then r.reconciled amount info.dbNow else r := by
    intro id
    rw [hdb]
    exact Lib.find?_update fun _ => rfl
  constructor
  · have hslice : db'.slice requestID = { db.slice requestID with
        reservation := some (reservation.reconciled amount info.dbNow) } := by
      refine Slice.ext (by rw [hdb]; rfl) (by rw [hdb]; rfl) ?_ (by rw [hdb]; rfl)
      refine (hafter requestID).trans ?_
      have hown := ((db.reservation?_eq_some_iff).mp hsome).2
      simp [hsome, reservationGuard, hown, hstate]
    rw [hslice]
    exact .reconcile hamount hsome hstate
  · intro other hne
    refine Slice.ext (by rw [hdb]; rfl) (by rw [hdb]; rfl) ?_ (by rw [hdb]; rfl)
    refine (hafter other).trans ?_
    cases hrow : db.reservation? other with
    | none => exact hrow.symm
    | some r =>
        have hown := ((db.reservation?_eq_some_iff).mp hrow).2
        have hskip : reservationGuard requestID r = false := by simp [reservationGuard, hown, hne]
        simp only [Option.map_some, hskip, Bool.false_eq_true, if_false]
        exact hrow.symm

end Operations

/-! ## The store -/

variable {db db' : Db} {call : Call} {info : Info}

theorem store_error {err : GoError} (h : store call info db = (.error err, db')) : db' = db := by
  cases call <;> exact transact_error h

/-- **Writes.** A successful call writes to the slice of its subject as `Write`
    says, and to no other slice. -/
theorem store_ok_slice {r : call.Result} (h : store call info db = (.ok r, db')) (id : String) :
    call.subject info = some id ∧ Write info call (db.slice id) (db'.slice id)
      ∨ call.subject info ≠ some id ∧ db'.slice id = db.slice id := by
  have hsplit : ∀ {subject}, call.subject info = some subject →
      Db.Written subject (Write info call) db db' →
      call.subject info = some id ∧ Write info call (db.slice id) (db'.slice id)
        ∨ call.subject info ≠ some id ∧ db'.slice id = db.slice id := by
    intro subject hsubject hwritten
    by_cases hid : id = subject
    · rw [hid]
      exact Or.inl ⟨hsubject, hwritten.1⟩
    · refine Or.inr ⟨?_, hwritten.2 id hid⟩
      rw [hsubject]
      exact fun hsome => hid (Option.some.inj hsome).symm
  cases call with
  | createOrGetRequest params => exact hsplit rfl (createOrGetRequest_written (transact_ok h))
  | getRequest tenantID requestID =>
      obtain ⟨_, -, hdb⟩ := bind_eq_ok.mp (transact_ok h)
      rw [return_db hdb]
      exact Or.inr ⟨nofun, rfl⟩
  | transitionRequest tenantID requestID source target =>
      exact hsplit rfl (transitionRequest_written (transact_ok h))
  | startAttempt params => exact hsplit rfl (startAttempt_written (transact_ok h))
  | completeRequest params => exact hsplit rfl (completeRequest_written (transact_ok h))
  | failAttempt params => exact hsplit rfl (failAttempt_written (transact_ok h))
  | cancelRequest tenantID requestID correlationID =>
      exact hsplit rfl (cancelRequest_written correlationID (transact_ok h))
  | tenantPolicy tenantID model =>
      rw [tenantPolicy_ok (transact_ok h)]
      exact Or.inr ⟨nofun, rfl⟩
  | reserveBudget tenantID requestID amount now =>
      exact hsplit rfl (reserveBudget_written (transact_ok h))
  | rejectBudget tenantID requestID correlationID requested =>
      exact hsplit rfl (rejectBudget_written (transact_ok h))
  | reconcileBudget requestID actual => exact hsplit rfl (reconcileBudget_written (transact_ok h))

/-- Whatever its result, a call leaves a slice as it was or writes to it. -/
theorem store_slice (call : Call) (info : Info) (db : Db) (id : String) :
    (store call info db).2.slice id = db.slice id
      ∨ call.subject info = some id
        ∧ Write info call (db.slice id) ((store call info db).2.slice id) := by
  cases hresult : store call info db with
  | mk result db' =>
      cases result with
      | error err =>
          rw [store_error hresult]
          exact Or.inl rfl
      | ok r =>
          rcases store_ok_slice hresult id with hwrite | ⟨-, hsame⟩
          · exact Or.inr hwrite
          · exact Or.inl hsame

/-- Attempts and reservations are only kept for requests that are there. -/
def Rooted (S : Slice) : Prop :=
  S.row = none → S.attempts = [] ∧ S.reservation = none

theorem Write.rooted {S S' : Slice} (h : Write info call S S') (hS : Rooted S) : Rooted S' := by
  cases h with
  | load | keep => exact hS
  | start hrow =>
      intro hnone
      rw [hnone] at hrow
      cases hrow
  | retry =>
      intro hnone
      obtain ⟨hattempts, hreservation⟩ := hS hnone
      refine ⟨?_, hreservation⟩
      dsimp only
      rw [hattempts]
      rfl
  | reserve hrow =>
      intro hnone
      rw [hnone] at hrow
      cases hrow
  | reconcile hamount hsome =>
      intro hnone
      rw [(hS hnone).2] at hsome
      cases hsome
  | create | move | complete | fail | cancel | reject => exact fun hnone => nomatch hnone

/-- No write removes a row or changes its key. -/
theorem Write.key {S S' : Slice} {row : RequestRow} (h : Write info call S S')
    (hrow : S.row = some row) : ∃ row', S'.row = some row' ∧ row'.key = row.key := by
  cases h with
  | create hnone => exact absurd (hnone.symm.trans hrow) (by simp)
  | move hsome | complete hsome | fail _ hsome | cancel hsome | reject hsome =>
      obtain rfl := Option.some.inj (hsome.symm.trans hrow)
      exact ⟨_, rfl, rfl⟩
  | load | start | retry | reserve | keep | reconcile => exact ⟨row, hrow, rfl⟩

theorem store_rooted (call : Call) (info : Info) {db : Db} (h : ∀ id, Rooted (db.slice id))
    (id : String) : Rooted ((store call info db).2.slice id) := by
  rcases store_slice call info db id with hsame | ⟨-, hwrite⟩
  · rw [hsame]
    exact h id
  · exact hwrite.rooted (h id)

end Postgres

end Aegis.Persistence
