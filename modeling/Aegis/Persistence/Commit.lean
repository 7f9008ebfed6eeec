/-
  Aegis.Persistence.Commit

  When a transaction of PostgreSQL commits: the converse of `PostgresSpec`.
  Let the catalog have what a call names, let the generated identifiers be new
  and the values fit their columns (`Catalog.Names`, `FreshIDs`,
  `Postgres.Regular`).  Then the call succeeds exactly when `Postgres.Accepts`
  holds (`Postgres.store_ok_iff`).
-/

import Aegis.Persistence.Keys
import Aegis.Persistence.TenantView

namespace Aegis.Persistence

open Aegis.Request (Record State canTransition)

/-! ## What is assumed of a call -/

/-- The tenant exists, is active, and has limits without a daily budget. -/
structure Catalog.Ready (catalog : Catalog) (tenantID : String) : Prop where
  nulFree : Memory.NulFree tenantID
  active : ∃ tenant ∈ catalog.tenants.rows, tenant.id = tenantID ∧ tenant.status = .active
  limits : ∃ limits ∈ catalog.limits.rows, limits.tenantID = tenantID
    ∧ limits.dailyBudget = none

/-- The catalog has what the call names, enabled. -/
def Catalog.Names (catalog : Catalog) : Call → Prop
  | .createOrGetRequest params =>
      (authorizeModel catalog params.tenantID params.input.model).isSome = true
        ∧ params.apiKeyID ∈ catalog.apiKeys
        ∧ (params.userID = "" ∨ params.userID ∈ catalog.users)
  | .startAttempt params =>
      (∃ provider ∈ catalog.providers.rows,
          provider.name = params.providerName ∧ provider.enabled = true)
        ∧ ∃ model ∈ catalog.models.rows, model.publicName = params.model ∧ model.enabled = true
  | .tenantPolicy tenantID model => (authorizeModel catalog tenantID model).isSome = true
  | _ => True

/-- `gen_random_uuid` does not return an identifier that is in use. -/
structure FreshIDs (db : Db) (info : Info) : Prop where
  distinct : info.ids 0 ≠ info.ids 1
  requests : ∀ r ∈ db.requests.rows, r.id ≠ info.ids 0
  attempts : ∀ a ∈ db.attempts.rows, a.id ≠ info.ids 0
  reservations : ∀ r ∈ db.reservations.rows, r.id ≠ info.ids 0
  outbox : ∀ slot, ∀ o ∈ db.outbox.rows, o.fact.id ≠ info.ids slot

/-- Counts, costs and amounts are not negative, and all budgets are reserved in
    one month. -/
def Call.Sensible (month : Time) : Call → Prop
  | .startAttempt params => 1 ≤ params.number
  | .completeRequest params => 0 ≤ params.response.usage.promptTokens
      ∧ 0 ≤ params.response.usage.completionTokens ∧ 0 ≤ params.costMicroUSD
  | .reserveBudget _ _ amount now => 0 ≤ amount ∧ Time.startOfMonth now = month
  | .reconcileBudget _ actual => 0 ≤ actual
  | _ => True

/-! ## Statements that succeed -/

namespace Db

variable {db : Db}

theorem hasTenant_of_ready {tenantID : String} (h : db.catalog.Ready tenantID) :
    db.hasTenant tenantID = true := by
  obtain ⟨tenant, hmem, hid, -⟩ := h.active
  exact List.any_eq_true.mpr ⟨tenant, hmem, by simpa using hid⟩

theorem hasRequest_iff {id : String} :
    db.hasRequest id = true ↔ (db.request? id).isSome = true := by
  rw [hasRequest, request?, List.find?_isSome, List.any_eq_true]

/-- The tenant's row, as `queryRequest` looks it up. -/
theorem find?_tenant (db : Db) (tenantID requestID : String) :
    (db.requests.rows.find? fun r => r.tenantID == tenantID && r.id == requestID)
      = (db.request? requestID).filter fun r => r.tenantID == tenantID := by
  have hunique : Lib.Unique db.requests.rows
      fun r => r.tenantID == tenantID && r.id == requestID := by
    refine (db.requests_unique requestID).imp ?_
    intro a b hnot hboth
    exact hnot ⟨(Bool.and_eq_true_iff.mp hboth.1).2, (Bool.and_eq_true_iff.mp hboth.2).2⟩
  apply Option.ext
  intro row
  rw [hunique.find?_eq_some_iff, Option.filter_eq_some_iff, request?_eq_some_iff]
  simp only [Bool.and_eq_true, beq_iff_eq]
  tauto

end Db

section Statements

variable {db : Db} {info : Info}

theorem checkNonneg_of_nonneg (column : String) {value : Int} (h : 0 ≤ value) :
    ∃ n, checkNonneg column value = .ok n :=
  ⟨value.toNat, checkNonneg_eq_ok.mpr (Int.toNat_of_nonneg h)⟩

theorem insertOutbox_commits (row : OutboxRow) (db : Db)
    (htenant : db.hasTenant row.fact.tenantID = true)
    (hfresh : ∀ o ∈ db.outbox.rows, o.fact.id ≠ row.fact.id) :
    ∃ db', insertOutbox row db = .ok db' := by
  obtain ⟨outbox, hinsert⟩ := Lib.Table.exists_insert? hfresh
  refine ⟨{ db with outbox }, ?_⟩
  simp only [insertOutbox, wrapErr_eq_ok, bind_eq_ok, require_eq_ok, orViolation_eq_ok]
  exact ⟨(), htenant, outbox, hinsert, rfl⟩

theorem queryRequest_of_row {tenantID requestID : String} {row : RequestRow} {model : Model}
    (hrow : db.request? requestID = some row) (htenant : row.tenantID = tenantID)
    (hmodel : db.catalog.models.rows.find? (fun m => m.id == row.modelID) = some model) :
    queryRequest db tenantID requestID = .ok (row.toRecord model) := by
  unfold queryRequest
  rw [db.find?_tenant, hrow, Option.filter_some_pos (by simpa using htenant)]
  dsimp only
  rw [hmodel]

end Statements

namespace Postgres

/-- What a call asks for. -/
def Accepts (db : Db) : Call → Prop
  | .createOrGetRequest params => ∀ id ∈ db.binding params.tenantID params.idempotencyKey,
      ∀ row ∈ db.request? id, row.canonicalRequestHash = params.canonicalHash
  | .getRequest tenantID requestID => ∃ row ∈ db.request? requestID, row.tenantID = tenantID
  | .transitionRequest tenantID requestID source target =>
      canTransition source target = true ∧ ∃ row, db.request? requestID = some row
        ∧ row.tenantID = tenantID ∧ row.status = source
  | .startAttempt params => (db.request? params.requestID).isSome = true
      ∧ ∀ a ∈ db.attemptsOf params.requestID, a.attemptNumber ≠ params.number
  | .completeRequest params => ∃ row, db.request? params.requestID = some row
      ∧ row.tenantID = params.tenantID ∧ row.status = .inProgress
  | .failAttempt params => params.final = true → ∃ row, db.request? params.requestID = some row
      ∧ row.tenantID = params.tenantID ∧ row.status = .inProgress
  | .cancelRequest tenantID requestID _ => ∃ row, db.request? requestID = some row
      ∧ row.tenantID = tenantID ∧ cancellable row.status = true
  | .tenantPolicy _ _ => True
  | .reserveBudget tenantID requestID amount now => (db.request? requestID).isSome = true
      ∧ ∃ limits ∈ db.catalog.limits.rows, limits.tenantID = tenantID
        ∧ Budget.canReserve limits.monthlyBudget 0
            (reservedInMonth db tenantID (Time.startOfMonth now)) amount = .ok ()
  | .rejectBudget tenantID requestID _ _ => ∃ row, db.request? requestID = some row
      ∧ row.tenantID = tenantID ∧ row.status = .validated
  | .reconcileBudget requestID _ => ∃ r, db.reservation? requestID = some r
      ∧ r.state = .reserved

/-- Numbers fit their columns and a key its index, no hash is nil, no clock runs
    backwards, and no budget is reserved twice for a request. -/
def Regular (db : Db) (info : Info) : Call → Prop
  | .createOrGetRequest params => params.canonicalHash ≠ []
      ∧ params.idempotencyKey.utf8ByteSize ≤ 2048
  | .startAttempt params => params.number < 2 ^ 31
  | .completeRequest params => 0 ≤ Time.sinceMillis params.startedAt info.now
  | .failAttempt params => params.attemptNumber < 2 ^ 31
      ∧ 0 ≤ Time.sinceMillis params.startedAt info.now
  | .reserveBudget tenantID requestID _ now => db.reservation? requestID = none
      ∧ isInt64 (reservedInMonth db tenantID (Time.startOfMonth now)) = true
  | _ => True

/-- Nothing has been charged, all reservations are of one month, and the model
    of each request is known. -/
structure Tidy (month : Time) (db : Db) : Prop where
  ledger : db.ledger.rows = []
  months : ∀ r ∈ db.reservations.rows, r.periodMonth = month
  models : ∀ id, ∀ row ∈ db.request? id, ∃ model,
    db.catalog.models.rows.find? (fun m => m.id == row.modelID) = some model

section Operations

variable {db : Db} {info : Info} {month : Time}

theorem transact_ok_iff {α : Type} {tx : Tx α} :
    (∃ r db', transact tx db = (.ok r, db')) ↔ ∃ r db', tx db = .ok (r, db') := by
  constructor
  · rintro ⟨r, db', h⟩
    exact ⟨r, db', transact_ok h⟩
  · rintro ⟨r, db', h⟩
    refine ⟨r, db', ?_⟩
    unfold transact
    rw [h]

theorem insertRequest_commits {params : CreateRequestParams} (modelID : String)
    (hready : db.catalog.Ready params.tenantID) (hkey : params.apiKeyID ∈ db.catalog.apiKeys)
    (huser : params.userID = "" ∨ params.userID ∈ db.catalog.users) (hfresh : FreshIDs db info)
    (hfree : ∀ r ∈ db.requests.rows,
      ¬ (r.tenantID = params.tenantID ∧ r.idempotencyKey = params.idempotencyKey)) :
    ∃ requests, insertRequest params modelID info db = .ok { db with requests }
      ∧ requests.rows = db.requests.rows ++ [newRequest params modelID info] := by
  have hclash : ∀ r ∈ db.requests.rows,
      ¬ RequestRow.Clash r.key (newRequest params modelID info).key := by
    rintro r hr (hid | hbound)
    · exact hfresh.requests r hr hid
    · exact hfree r hr ⟨congrArg Prod.fst hbound, congrArg Prod.snd hbound⟩
  obtain ⟨requests, hinsert⟩ := Lib.Table.exists_insert? hclash
  refine ⟨requests, ?_, (Lib.Table.insert?_eq_some hinsert).2⟩
  simp only [insertRequest, wrapErr_eq_ok, bind_eq_ok, require_eq_ok, orViolation_eq_ok]
  refine ⟨(), Db.hasTenant_of_ready hready, (), by simpa using hkey, (), ?_, requests, hinsert, rfl⟩
  simpa using huser

theorem createOrGetRequest_commits {params : CreateRequestParams} (htidy : Tidy month db)
    (hready : db.catalog.Ready params.tenantID)
    (hnames : db.catalog.Names (.createOrGetRequest params)) (hfresh : FreshIDs db info) :
    (∃ r db', createOrGetRequest params info db = .ok (r, db'))
      ↔ Accepts db (.createOrGetRequest params) := by
  obtain ⟨hmodel, hkey, huser⟩ := hnames
  obtain ⟨model, hmodel⟩ := Option.isSome_iff_exists.mp hmodel
  have hknown : model ∈ db.catalog.models.rows := List.mem_of_find?_eq_some hmodel
  unfold createOrGetRequest
  rw [hmodel]
  dsimp only
  cases hfind : db.requests.rows.find? fun r =>
      r.tenantID == params.tenantID && r.idempotencyKey == params.idempotencyKey with
  | none =>
      have hnone : db.binding params.tenantID params.idempotencyKey = none := by
        rw [Db.binding, hfind]
        rfl
      refine iff_of_true ?_ (fun id hid => absurd (hnone.symm.trans hid) (by simp))
      -- the row is inserted, read back with its model, and announced
      obtain ⟨requests, hinsert, hrows⟩ := insertRequest_commits model.id hready hkey huser hfresh
        (fun r hr hbound => by simpa [hbound] using List.find?_eq_none.mp hfind r hr)
      have hrow : Db.request? { db with requests } (info.ids 0)
          = some (newRequest params model.id info) := by
        rw [Db.request?_eq_some_iff, hrows]
        exact ⟨List.mem_append_right _ (List.mem_singleton_self _), rfl⟩
      obtain ⟨model', hmodel'⟩ := Option.isSome_iff_exists.mp
        (List.find?_isSome.mpr ⟨model, hknown, by simp⟩ :
          (db.catalog.models.rows.find? fun m => m.id == model.id).isSome = true)
      have hquery := queryRequest_of_row hrow rfl hmodel'
      have hfacts : ∀ o ∈ db.outbox.rows, o.fact.id ≠ info.ids 1 := hfresh.outbox 1
      obtain ⟨db₂, hout⟩ := insertOutbox_commits
        (outboxRow info 1 .requestAccepted (info.ids 0) params.tenantID params.correlationID
          (.obj [("request_id", .str (info.ids 0)), ("model", .str params.input.model),
            ("stream", .bool params.input.stream)]))
        { db with requests } (Db.hasTenant_of_ready hready) hfacts
      refine ⟨((newRequest params model.id info).toRecord model', true), db₂, ?_⟩
      simp only [bind_eq_ok]
      exact ⟨_, hinsert, _, hquery, db₂, hout, rfl⟩
  | some existing =>
      have hmem := List.mem_of_find?_eq_some hfind
      have hbound := List.find?_some hfind
      simp only [Bool.and_eq_true, beq_iff_eq] at hbound
      have hrow : db.request? existing.id = some existing :=
        db.request?_eq_some_iff.mpr ⟨hmem, rfl⟩
      have hbinding : db.binding params.tenantID params.idempotencyKey = some existing.id := by
        rw [Db.binding, hfind]
        rfl
      obtain ⟨model', hmodel'⟩ := htidy.models existing.id existing hrow
      have hquery := queryRequest_of_row hrow hbound.1 hmodel'
      simp only [hquery, bind_eq_ok, guard_eq_ok, not_not, Accepts, hbinding, Option.mem_def,
        Option.some.injEq, forall_eq', hrow]
      constructor
      · rintro ⟨r, db', record, hrecord, hhash, -⟩
        cases hrecord
        exact hhash
      · intro hhash
        exact ⟨_, _, _, rfl, hhash, rfl⟩

theorem transitionRequest_commits {tenantID requestID : String} {source target : State} :
    (∃ r db', transitionRequest tenantID requestID source target info db = .ok (r, db'))
      ↔ Accepts db (.transitionRequest tenantID requestID source target) := by
  simp only [transitionRequest, bind_eq_ok, transition_eq_ok, guard_eq_ok, not_not,
    db.requestsHit_eq_one_iff, beq_iff_eq, Accepts]
  constructor
  · rintro ⟨r, db', u, hcan, hrow, -⟩
    exact ⟨hcan, hrow⟩
  · rintro ⟨hcan, hrow⟩
    exact ⟨(), _, (), hcan, hrow, rfl⟩

theorem startAttempt_commits {params : AttemptParams}
    (hready : db.catalog.Ready params.tenantID)
    (hnames : db.catalog.Names (.startAttempt params)) (hfresh : FreshIDs db info)
    (hpos : 1 ≤ params.number) (hfits : params.number < 2 ^ 31) :
    (∃ r db', startAttempt params info db = .ok (r, db'))
      ↔ Accepts db (.startAttempt params) := by
  constructor
  · rintro ⟨r, db', hok⟩
    obtain ⟨_, -, _, -, _, _, _, -, hrequest, -, -, hnew, -, -⟩ := startAttempt_ok hok
    refine ⟨Db.hasRequest_iff.mp hrequest, ?_⟩
    intro a ha hnumber
    obtain ⟨hmem, hid⟩ := List.mem_filter.mp ha
    exact hnew a hmem ⟨by simpa using hid, hnumber⟩
  · rintro ⟨hrequest, hnew⟩
    obtain ⟨⟨provider, hprovider, hname, -⟩, model, hmodel, hpublic, -⟩ := hnames
    obtain ⟨provider', hprovider'⟩ := Option.isSome_iff_exists.mp
      (List.find?_isSome.mpr ⟨provider, hprovider, by simpa using hname⟩ :
        (db.catalog.providers.rows.find? fun p => p.name == params.providerName).isSome = true)
    obtain ⟨model', hmodel'⟩ := Option.isSome_iff_exists.mp
      (List.find?_isSome.mpr ⟨model, hmodel, by simpa using hpublic⟩ :
        (db.catalog.models.rows.find? fun m => m.publicName == params.model).isSome = true)
    have hclash : ∀ a ∈ db.attempts.rows,
        ¬ AttemptRow.Clash a.key (newAttempt params provider'.id model'.id info).key := by
      rintro a ha (hid | hsame)
      · exact hfresh.attempts a ha hid
      · have hid : a.requestID = params.requestID := congrArg Prod.fst hsame
        exact hnew a (List.mem_filter.mpr ⟨ha, by simpa using hid⟩) (congrArg Prod.snd hsame)
    obtain ⟨attempts, hinsert⟩ := Lib.Table.exists_insert? hclash
    obtain ⟨db₂, hout⟩ := insertOutbox_commits
      (outboxRow info 1 .providerSelected params.requestID params.tenantID params.correlationID
        (.obj [("request_id", .str params.requestID), ("provider", .str params.providerName),
          ("model", .str params.model), ("attempt_number", .num params.number)]))
      { db with attempts } (Db.hasTenant_of_ready hready) (hfresh.outbox 1)
    refine ⟨(), db₂, ?_⟩
    unfold startAttempt
    rw [hprovider', hmodel']
    simp only [bind_eq_ok, wrapErr_eq_ok, require_eq_ok, orViolation_eq_ok, decide_eq_true_eq]
    exact ⟨attempts, ⟨(), Db.hasRequest_iff.mpr hrequest, (), Db.hasTenant_of_ready hready, (),
      ⟨by omega, hfits⟩, hinsert⟩, db₂, hout, rfl⟩

theorem succeedAttempt_commits {params : CompletionParams}
    (hsensible : Call.Sensible month (.completeRequest params))
    (hlatency : 0 ≤ Time.sinceMillis params.startedAt info.now) :
    ∃ attempts, succeedAttempt params info db = .ok { db with attempts } := by
  unfold succeedAttempt
  split
  · obtain ⟨prompt, hprompt⟩ := checkNonneg_of_nonneg "prompt_tokens" hsensible.1
    obtain ⟨completion, hcompletion⟩ := checkNonneg_of_nonneg "completion_tokens" hsensible.2.1
    obtain ⟨cost, hcost⟩ := checkNonneg_of_nonneg "cost_micro_usd" hsensible.2.2
    obtain ⟨latency, hlatency⟩ := checkNonneg_of_nonneg "latency_ms" hlatency
    refine ⟨(db.updateAttempt params.tenantID params.requestID params.attemptNumber
      (.succeeded params.providerRequestID prompt completion cost latency info.dbNow)
      (fun _ => rfl)).attempts, ?_⟩
    simp only [wrapErr_eq_ok, bind_eq_ok]
    exact ⟨prompt, hprompt, completion, hcompletion, cost, hcost, latency, hlatency, rfl⟩
  · exact ⟨db.attempts, rfl⟩

theorem finalizeRequest_commits {params : CompletionParams}
    (hsensible : Call.Sensible month (.completeRequest params))
    (hrow : Accepts db (.completeRequest params)) :
    ∃ requests, finalizeRequest params info db = .ok { db with requests } := by
  obtain ⟨prompt, hprompt⟩ := checkNonneg_of_nonneg "prompt_tokens" hsensible.1
  obtain ⟨completion, hcompletion⟩ := checkNonneg_of_nonneg "completion_tokens" hsensible.2.1
  obtain ⟨cost, hcost⟩ := checkNonneg_of_nonneg "actual_cost_micro_usd" hsensible.2.2
  refine ⟨(db.updateRequest params.tenantID params.requestID (· == .inProgress)
    (.completed params.response prompt completion cost info.dbNow) (fun _ => rfl)).requests, ?_⟩
  simp only [finalizeRequest, guard_eq_ok, not_not, db.requestsHit_eq_one_iff, beq_iff_eq,
    wrapErr_eq_ok, bind_eq_ok]
  exact ⟨hrow, prompt, hprompt, completion, hcompletion, cost, hcost, rfl⟩

theorem completeRequest_commits {params : CompletionParams}
    (hready : db.catalog.Ready params.tenantID) (hfresh : FreshIDs db info)
    (hsensible : Call.Sensible month (.completeRequest params))
    (hlatency : 0 ≤ Time.sinceMillis params.startedAt info.now) :
    (∃ r db', completeRequest params info db = .ok (r, db'))
      ↔ Accepts db (.completeRequest params) := by
  constructor
  · rintro ⟨r, db', hok⟩
    obtain ⟨_, _, _, db₁, _, -, -, -, hattempt, hrow, -, -⟩ := completeRequest_ok hok
    obtain ⟨attempts, rfl, -⟩ := succeedAttempt_ok hattempt
    exact hrow
  · intro hrow
    obtain ⟨attempts, hattempt⟩ :
        ∃ attempts, succeedAttempt params info db = .ok { db with attempts } :=
      succeedAttempt_commits hsensible hlatency
    have hrow₁ : Accepts { db with attempts } (.completeRequest params) := hrow
    obtain ⟨requests, hfinal⟩ : ∃ requests, finalizeRequest params info { db with attempts }
        = .ok { db with attempts, requests } := finalizeRequest_commits hsensible hrow₁
    generalize hpayload : Events.completionPayload params.requestID params.response.model
      params.response.usage.promptTokens params.response.usage.completionTokens
      params.costMicroUSD (Time.sinceMillis params.startedAt info.now) = payload
    obtain ⟨db₃, hfirst⟩ := insertOutbox_commits
      (outboxRow info 0 .requestCompleted params.requestID params.tenantID params.correlationID
        payload)
      { db with attempts, requests } (Db.hasTenant_of_ready hready) (hfresh.outbox 0)
    obtain ⟨outbox, hdb₃, hrows⟩ := insertOutbox_ok hfirst
    -- the second fact has another identifier than the first
    have hfresh' : ∀ o ∈ outbox.rows, o.fact.id ≠ info.ids 1 := by
      intro o ho
      rw [hrows] at ho
      rcases List.mem_append.mp ho with hold | hnew
      · exact hfresh.outbox 1 o hold
      · rw [List.mem_singleton.mp hnew]
        exact hfresh.distinct
    obtain ⟨db₄, hsecond⟩ := insertOutbox_commits
      (outboxRow info 1 .usageRecorded params.requestID params.tenantID params.correlationID
        payload)
      { db with attempts, requests, outbox } (Db.hasTenant_of_ready hready) hfresh'
    refine ⟨(), db₄, ?_⟩
    simp only [completeRequest, bind_eq_ok, hpayload]
    rw [hdb₃] at hfirst
    exact ⟨_, hattempt, _, hfinal, _, hfirst, db₄, hsecond, rfl⟩

theorem recordFailure_commits {params : FailureParams}
    (hlatency : 0 ≤ Time.sinceMillis params.startedAt info.now) :
    ∃ attempts, recordFailure params info db = .ok { db with attempts } := by
  unfold recordFailure
  split
  · obtain ⟨latency, hlatency⟩ := checkNonneg_of_nonneg "latency_ms" hlatency
    refine ⟨(db.updateAttempt params.tenantID params.requestID params.attemptNumber
      (.failed params.category params.retryable latency info.dbNow) (fun _ => rfl)).attempts, ?_⟩
    simp only [wrapErr_eq_ok, bind_eq_ok]
    exact ⟨latency, hlatency, rfl⟩
  · exact ⟨db.attempts, rfl⟩

theorem failAttempt_commits {params : FailureParams}
    (hready : db.catalog.Ready params.tenantID) (hfresh : FreshIDs db info)
    (hlatency : 0 ≤ Time.sinceMillis params.startedAt info.now) :
    (∃ r db', failAttempt params info db = .ok (r, db'))
      ↔ Accepts db (.failAttempt params) := by
  constructor
  · rintro ⟨r, db', hok⟩ hfinal
    obtain ⟨db₁, hrecord, ⟨hnot, -⟩ | ⟨-, hrow, -⟩⟩ := failAttempt_ok hok
    · rw [hfinal] at hnot
      cases hnot
    · obtain ⟨attempts, rfl, -⟩ := recordFailure_ok hrecord
      exact hrow
  · intro haccepts
    obtain ⟨attempts, hrecord⟩ :
        ∃ attempts, recordFailure params info db = .ok { db with attempts } :=
      recordFailure_commits hlatency
    by_cases hfinal : params.final = true
    · obtain ⟨db₂, hout⟩ := insertOutbox_commits
        (outboxRow info 0 .requestFailed params.requestID params.tenantID params.correlationID
          (.obj [("request_id", .str params.requestID),
            ("error_category", .str params.category),
            ("partial_streamed", .bool params.isPartial)]))
        (Db.updateRequest { db with attempts } params.tenantID params.requestID (· == .inProgress)
          (.failed params.category params.isPartial info.dbNow) (fun _ => rfl))
        (Db.hasTenant_of_ready hready) (hfresh.outbox 0)
      have hrow : ∃ row, Db.request? { db with attempts } params.requestID = some row
          ∧ row.tenantID = params.tenantID ∧ row.status = .inProgress := haccepts hfinal
      refine ⟨(), db₂, ?_⟩
      simp only [failAttempt, bind_eq_ok]
      refine ⟨_, hrecord, ?_⟩
      rw [if_pos hfinal]
      simp only [guard_eq_ok, not_not, Db.requestsHit_eq_one_iff, beq_iff_eq, bind_eq_ok]
      exact ⟨hrow, db₂, hout, rfl⟩
    · refine ⟨(), { db with attempts }, ?_⟩
      simp only [failAttempt, bind_eq_ok]
      refine ⟨_, hrecord, ?_⟩
      rw [if_neg hfinal]
      rfl

theorem cancelRequest_commits {tenantID requestID correlationID : String} :
    (∃ r db', cancelRequest tenantID requestID info db = .ok (r, db'))
      ↔ Accepts db (.cancelRequest tenantID requestID correlationID) := by
  simp only [cancelRequest, guard_eq_ok, not_not, db.requestsHit_eq_one_iff, Accepts]
  constructor
  · rintro ⟨r, db', hrow, -⟩
    exact hrow
  · intro hrow
    exact ⟨(), _, hrow, rfl⟩

theorem rejectBudget_commits {tenantID requestID correlationID : String} {requested : Int}
    (hready : db.catalog.Ready tenantID) (hfresh : FreshIDs db info) :
    (∃ r db', rejectBudget tenantID requestID correlationID requested info db = .ok (r, db'))
      ↔ Accepts db (.rejectBudget tenantID requestID correlationID requested) := by
  constructor
  · rintro ⟨r, db', hok⟩
    exact (rejectBudget_ok hok).1
  · intro hrow
    obtain ⟨db₂, hout⟩ := insertOutbox_commits
      (outboxRow info 0 .budgetExceeded requestID tenantID correlationID
        (.obj [("request_id", .str requestID), ("requested_micro_usd", .num requested)]))
      (db.updateRequest tenantID requestID (· == .validated) (.budgetRejected info.dbNow)
        (fun _ => rfl))
      (Db.hasTenant_of_ready hready) (hfresh.outbox 0)
    refine ⟨(), db₂, ?_⟩
    simp only [rejectBudget, guard_eq_ok, not_not, db.requestsHit_eq_one_iff, beq_iff_eq,
      bind_eq_ok]
    exact ⟨hrow, db₂, hout, rfl⟩

theorem reconcileBudget_commits {requestID : String} {actual : Int} (hnonneg : 0 ≤ actual) :
    (∃ r db', reconcileBudget requestID actual info db = .ok (r, db'))
      ↔ Accepts db (.reconcileBudget requestID actual) := by
  constructor
  · rintro ⟨r, db', hok⟩
    obtain ⟨-, -, hrow, -⟩ := reconcileBudget_ok hok
    exact hrow
  · rintro ⟨row, hrow, hstate⟩
    have hone : db.reservations.rows.countP (reservationGuard requestID) = 1 := by
      refine ((db.reservations_unique requestID).countP_eq_one_iff ?_).mpr ⟨row, hrow, ?_⟩
      · intro a ha
        exact (Bool.and_eq_true_iff.mp ha).1
      · simp [reservationGuard, (db.reservation?_eq_some_iff.mp hrow).2, hstate]
    obtain ⟨amount, hamount⟩ := checkNonneg_of_nonneg "actual_micro_usd" hnonneg
    refine ⟨(), { db with
      reservations := db.reservations.updateWhere (reservationGuard requestID)
        (.reconciled amount info.dbNow) (fun _ => rfl) }, ?_⟩
    simp only [reconcileBudget, guard_eq_ok, not_not, bind_eq_ok, wrapErr_eq_ok]
    exact ⟨hone, amount, hamount, rfl⟩

theorem limits_of_ready {tenantID : String} (hready : db.catalog.Ready tenantID) :
    ∃ limits, db.catalog.limits.rows.find? (fun l => l.tenantID == tenantID) = some limits
      ∧ limits.dailyBudget = none
      ∧ ∀ other ∈ db.catalog.limits.rows, other.tenantID = tenantID → other = limits := by
  obtain ⟨limits, hmem, htenant, hdaily⟩ := hready.limits
  have hunique : ∀ other ∈ db.catalog.limits.rows, other.tenantID = tenantID → other = limits :=
    fun other hother hsame => db.catalog.limits.eq_of_clash (fun _ _ => Eq.symm) hother hmem
      (hsame.trans htenant.symm)
  obtain ⟨found, hfound⟩ := Option.isSome_iff_exists.mp
    (List.find?_isSome.mpr ⟨limits, hmem, by simpa using htenant⟩ :
      (db.catalog.limits.rows.find? fun l => l.tenantID == tenantID).isSome = true)
  have hsame : found = limits := hunique found (List.mem_of_find?_eq_some hfound)
    (by simpa using List.find?_some hfound)
  rw [hsame] at hfound
  exact ⟨limits, hfound, hdaily, hunique⟩

theorem ledgerSince_of_tidy (htidy : Tidy month db) (tenantID : String) (since : Time) :
    ledgerSince db tenantID since = 0 := by
  unfold ledgerSince
  rw [htidy.ledger]
  rfl

theorem reservedInMonth_nonneg (tenantID : String) (since : Time) :
    0 ≤ reservedInMonth db tenantID since :=
  Lib.sumOf_nonneg fun _ _ => Int.natCast_nonneg _

theorem reservedOnDay_le (htidy : Tidy month db) (tenantID : String) (day : Time) :
    reservedOnDay db tenantID day ≤ reservedInMonth db tenantID month := by
  refine Lib.sumOf_filter_le (fun _ _ => Int.natCast_nonneg _) ?_
  intro r hr hday
  simp only [Bool.and_eq_true, beq_iff_eq] at hday ⊢
  exact ⟨⟨hday.1.1, htidy.months r hr⟩, hday.2⟩

theorem insertReservation_commits {tenantID requestID : String} {amount : Int} (now : Time)
    (hready : db.catalog.Ready tenantID) (hfresh : FreshIDs db info) (hnonneg : 0 ≤ amount)
    (hnone : db.reservation? requestID = none)
    (hrequest : (db.request? requestID).isSome = true) :
    ∃ db', insertReservation tenantID requestID amount now info db = .ok db' := by
  obtain ⟨reserved, hreserved⟩ := checkNonneg_of_nonneg "reserved_micro_usd" hnonneg
  have hclash : ∀ r ∈ db.reservations.rows, ∀ row : ReservationRow,
      row.id = info.ids 0 → row.requestID = requestID → ¬ ReservationRow.Clash r.key row.key := by
    rintro r hr row hid hrow (hsame | hsame)
    · exact hfresh.reservations r hr (Eq.trans hsame hid)
    · have hnot := List.find?_eq_none.mp hnone r hr
      have hsame' : r.requestID = requestID := Eq.trans hsame hrow
      simp [hsame'] at hnot
  obtain ⟨reservations, hinsert⟩ := Lib.Table.exists_insert?
    (fun r hr => hclash r hr {
      id := info.ids 0, tenantID, requestID, periodMonth := Time.startOfMonth now
      periodDay := Time.startOfDay now, reservedMicroUSD := reserved, state := .reserved
      createdAt := info.dbNow, updatedAt := info.dbNow } rfl rfl)
  refine ⟨{ db with reservations }, ?_⟩
  unfold insertReservation
  rw [hnone, if_neg (by simp)]
  simp only [wrapErr_eq_ok, bind_eq_ok, require_eq_ok, orViolation_eq_ok]
  exact ⟨(), Db.hasTenant_of_ready hready, (), Db.hasRequest_iff.mpr hrequest, reserved, hreserved,
    reservations, hinsert, rfl⟩

theorem reserveBudget_commits {tenantID requestID : String} {amount : Int} {now : Time}
    (htidy : Tidy month db) (hready : db.catalog.Ready tenantID) (hfresh : FreshIDs db info)
    (hsensible : Call.Sensible month (.reserveBudget tenantID requestID amount now))
    (hregular : Regular db info (.reserveBudget tenantID requestID amount now)) :
    (∃ r db', reserveBudget tenantID requestID amount now info db = .ok (r, db'))
      ↔ Accepts db (.reserveBudget tenantID requestID amount now) := by
  obtain ⟨hnone, hfits⟩ := hregular
  obtain ⟨limits, hlimits, hdaily, hunique⟩ := limits_of_ready hready
  constructor
  · rintro ⟨r, db', hok⟩
    obtain ⟨limits', hlimits', hcan, hinsert⟩ := reserveBudget_ok hok
    rw [ledgerSince_of_tidy htidy] at hcan
    rcases insertReservation_ok hinsert with ⟨hsome, -⟩ | ⟨-, hrequest, -⟩
    · rw [hnone] at hsome
      cases hsome
    · exact ⟨Db.hasRequest_iff.mp hrequest, limits', List.mem_of_find?_eq_some hlimits',
        by simpa using List.find?_some hlimits', hcan⟩
  · rintro ⟨hrequest, limits', hmem, htenant, hcan⟩
    obtain rfl := hunique limits' hmem htenant
    obtain ⟨db₁, hinsert⟩ :=
      insertReservation_commits now hready hfresh hsensible.1 hnone hrequest
    obtain ⟨-, hmonth⟩ := hsensible
    -- nothing is charged, and a day has no more reserved than the month
    have hday := reservedOnDay_le htidy tenantID (Time.startOfDay now)
    have hday' : 0 ≤ reservedOnDay db tenantID (Time.startOfDay now) :=
      Lib.sumOf_nonneg fun _ _ => Int.natCast_nonneg _
    have hfits' : isInt64 (reservedOnDay db tenantID (Time.startOfDay now)) = true := by
      rw [hmonth] at hfits
      have hrange := of_decide_eq_true hfits
      exact decide_eq_true ⟨by omega, by omega⟩
    have hall : ([ledgerSince db tenantID (Time.startOfMonth now),
        reservedInMonth db tenantID (Time.startOfMonth now),
        ledgerSince db tenantID (Time.startOfDay now),
        reservedOnDay db tenantID (Time.startOfDay now)].all isInt64) = true := by
      simp only [List.all_cons, List.all_nil, ledgerSince_of_tidy htidy, hfits, hfits']
      decide
    refine ⟨(), db₁, ?_⟩
    unfold reserveBudget
    rw [hlimits]
    dsimp only
    rw [if_pos hall]
    simp only [bind_eq_ok, ledgerSince_of_tidy htidy, hdaily]
    exact ⟨(), hcan, (), rfl, db₁, hinsert, rfl⟩

theorem getRequest_commits {tenantID requestID : String} (htidy : Tidy month db) :
    (∃ r db', getRequest tenantID requestID db = .ok (r, db'))
      ↔ Accepts db (.getRequest tenantID requestID) := by
  simp only [getRequest, bind_eq_ok]
  constructor
  · rintro ⟨r, db', record, hquery, -⟩
    obtain ⟨row, hmem, -, hid, htenant, -⟩ := queryRequest_ok hquery
    exact ⟨row, db.request?_eq_some_iff.mpr ⟨hmem, hid⟩, htenant⟩
  · rintro ⟨row, hrow, htenant⟩
    obtain ⟨model, hmodel⟩ := htidy.models requestID row hrow
    exact ⟨_, db, _, queryRequest_of_row hrow htenant hmodel, rfl⟩

theorem tenantPolicy_commits {tenantID model : String} (hready : db.catalog.Ready tenantID)
    (hnames : db.catalog.Names (.tenantPolicy tenantID model)) :
    ∃ r db', tenantPolicy tenantID model db = .ok (r, db') := by
  obtain ⟨limits, hlimits, -, -⟩ := limits_of_ready hready
  obtain ⟨authorized, hmodel⟩ := Option.isSome_iff_exists.mp hnames
  obtain ⟨tenant, hmem, hid, hactive⟩ := hready.active
  obtain ⟨found, hfound⟩ := Option.isSome_iff_exists.mp
    (List.find?_isSome.mpr ⟨tenant, hmem, by simp [hid, hactive]⟩ :
      (db.catalog.tenants.rows.find? fun t => t.id == tenantID && t.status == .active).isSome
        = true)
  unfold tenantPolicy
  rw [hfound, hlimits, hmodel]
  exact ⟨_, db, rfl⟩

/-- **When a call of the PostgreSQL store succeeds.** -/
theorem store_ok_iff {call : Call} (htidy : Tidy month db)
    (hready : ∀ tenantID ∈ call.tenantID?, db.catalog.Ready tenantID)
    (hnames : db.catalog.Names call) (hfresh : FreshIDs db info)
    (hsensible : call.Sensible month) (hregular : Regular db info call) :
    (∃ r db', store call info db = (.ok r, db')) ↔ Accepts db call := by
  cases call with
  | createOrGetRequest params =>
      exact transact_ok_iff.trans (createOrGetRequest_commits htidy (hready _ rfl) hnames hfresh)
  | getRequest tenantID requestID => exact transact_ok_iff.trans (getRequest_commits htidy)
  | transitionRequest tenantID requestID source target =>
      exact transact_ok_iff.trans transitionRequest_commits
  | startAttempt params =>
      exact transact_ok_iff.trans
        (startAttempt_commits (hready _ rfl) hnames hfresh hsensible hregular)
  | completeRequest params =>
      exact transact_ok_iff.trans
        (completeRequest_commits (hready _ rfl) hfresh hsensible hregular)
  | failAttempt params =>
      exact transact_ok_iff.trans (failAttempt_commits (hready _ rfl) hfresh hregular.2)
  | cancelRequest tenantID requestID correlationID =>
      exact transact_ok_iff.trans cancelRequest_commits
  | tenantPolicy tenantID model =>
      exact transact_ok_iff.trans
        (iff_of_true (tenantPolicy_commits (hready _ rfl) hnames) trivial)
  | reserveBudget tenantID requestID amount now =>
      exact transact_ok_iff.trans
        (reserveBudget_commits htidy (hready _ rfl) hfresh hsensible hregular)
  | rejectBudget tenantID requestID correlationID requested =>
      exact transact_ok_iff.trans (rejectBudget_commits (hready _ rfl) hfresh)
  | reconcileBudget requestID actual =>
      exact transact_ok_iff.trans (reconcileBudget_commits hsensible)

/-! ## The database stays tidy -/

theorem Write.months {call : Call} {S S' : Slice} (h : Write info call S S')
    (hsensible : call.Sensible month) (hS : ∀ r ∈ S.reservation, r.periodMonth = month) :
    ∀ r ∈ S'.reservation, r.periodMonth = month := by
  cases h with
  | reserve =>
      rintro r ⟨⟩
      exact hsensible.2
  | reconcile hamount hsome =>
      rintro r ⟨⟩
      have hmonth := hS _ hsome
      exact hmonth
  | _ => exact hS

/-- A row keeps its model. -/
theorem Write.modelID {call : Call} {S S' : Slice} (h : Write info call S S')
    (hcall : ∀ params, call ≠ .createOrGetRequest params) :
    ∀ row' ∈ S'.row, ∃ row ∈ S.row, row'.modelID = row.modelID := by
  cases h with
  | create => exact absurd rfl (hcall _)
  | load => exact absurd rfl (hcall _)
  | move hrow | complete hrow | fail _ hrow | cancel hrow | reject hrow =>
      rintro row' ⟨⟩
      exact ⟨_, hrow, rfl⟩
  | start | retry | reserve | keep | reconcile => exact fun row' hrow' => ⟨row', hrow', rfl⟩

theorem store_models {call : Call} {r : call.Result} {db' : Db}
    (h : store call info db = (.ok r, db'))
    (hmodels : ∀ id, ∀ row ∈ db.request? id, ∃ model,
      db.catalog.models.rows.find? (fun m => m.id == row.modelID) = some model) :
    ∀ id, ∀ row ∈ db'.request? id, ∃ model,
      db.catalog.models.rows.find? (fun m => m.id == row.modelID) = some model := by
  intro id row hrow
  by_cases hcall : ∀ params, call ≠ .createOrGetRequest params
  · rcases store_ok_slice h id with ⟨-, hwrite⟩ | ⟨-, hsame⟩
    · obtain ⟨old, hold, hmodel⟩ := hwrite.modelID hcall row hrow
      rw [hmodel]
      exact hmodels id old hold
    · exact hmodels id row ((congrArg Slice.row hsame).symm.trans hrow)
  · simp only [not_forall, not_not] at hcall
    obtain ⟨params, rfl⟩ := hcall
    obtain ⟨record, created⟩ := r
    rcases createOrGetRequest_ok (transact_ok h) with
      ⟨-, modelID, requests, outbox, payload, -, -, -, rfl, hrows, -, model, hmodel, hid⟩
        | ⟨-, rfl, -⟩
    · have hmem := (Db.request?_eq_some_iff _).mp hrow
      rw [show ({ db with requests, outbox } : Db).requests.rows = _ from hrows] at hmem
      rcases List.mem_append.mp hmem.1 with hold | hnew
      · exact hmodels id row (db.request?_eq_some_iff.mpr ⟨hold, hmem.2⟩)
      · rw [List.mem_singleton.mp hnew]
        apply Option.isSome_iff_exists.mp
        exact List.find?_isSome.mpr ⟨model, hmodel, beq_iff_eq.mpr hid⟩
    · exact hmodels id row hrow

theorem Tidy.store_ok {call : Call} {r : call.Result} {db' : Db} (htidy : Tidy month db)
    (h : store call info db = (.ok r, db')) (hsensible : call.Sensible month) :
    Tidy month db' := by
  have hframe : Frame db db' := by
    have := store_frame call info db
    rwa [h] at this
  refine ⟨by rw [hframe.ledger]; exact htidy.ledger, ?_, ?_⟩
  · intro reservation hmem
    have hfound : db'.reservation? reservation.requestID = some reservation :=
      db'.reservation?_eq_some_iff.mpr ⟨hmem, rfl⟩
    have hold : ∀ r ∈ (db.slice reservation.requestID).reservation, r.periodMonth = month :=
      fun r hr => htidy.months r (db.reservation?_eq_some_iff.mp hr).1
    rcases store_ok_slice h reservation.requestID with ⟨-, hwrite⟩ | ⟨-, hsame⟩
    · exact hwrite.months hsensible hold reservation hfound
    · exact hold reservation ((congrArg Slice.reservation hsame).symm.trans hfound)
  · rw [hframe.catalog]
    exact store_models h htidy.models

end Operations

end Postgres

end Aegis.Persistence
