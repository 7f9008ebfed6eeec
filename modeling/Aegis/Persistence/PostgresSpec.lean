/-
  Aegis.Persistence.PostgresSpec

  What a committed transaction has done.  For each operation of the store
  there is one inversion lemma: from its success it derives the guards that
  held and every table that changed.  A failed transaction changes nothing
  (`transact_error`).  Results about the database cite these lemmas and do not
  unfold the operations.
-/

import Aegis.Persistence.Postgres

namespace Aegis.Persistence

open Aegis.Events (Envelope completionPayload decodeUsage)
open Aegis.Request (Record State canTransition transition)

/-! ## Statements -/

section Statements

variable {α β : Type}

@[simp] theorem wrapErr_eq_ok {message : String} {x : Except GoError α} {a : α} :
    wrapErr message x = .ok a ↔ x = .ok a := by
  cases x <;> simp [wrapErr]

@[simp] theorem require_eq_ok {name : String} {holds : Bool} {u : Unit} :
    require name holds = .ok u ↔ holds = true := by
  cases holds <;> simp [require]

@[simp] theorem checkNonneg_eq_ok {column : String} {value : Int} {n : Nat} :
    checkNonneg column value = .ok n ↔ (n : Int) = value := by
  unfold checkNonneg
  split
  · simp only [Except.ok.injEq]
    omega
  · simp only [reduceCtorEq, false_iff]
    omega

@[simp] theorem orViolation_eq_ok {name : String} {o : Option α} {a : α} :
    orViolation name o = .ok a ↔ o = some a := by
  cases o <;> simp [orViolation]

/-- The database a transaction returns is the one it commits. -/
theorem return_db {a b : α} {db db' : Db}
    (h : (pure (a, db) : Except GoError (α × Db)) = .ok (b, db')) : db' = db :=
  (congrArg Prod.snd (Except.ok.inj h)).symm

/-- A committed transaction is a successful one. -/
theorem transact_ok {tx : Tx α} {db db' : Db} {a : α} (h : transact tx db = (.ok a, db')) :
    tx db = .ok (a, db') := by
  unfold transact at h
  split at h
  · next a' db'' htx =>
      obtain ⟨ha, hdb⟩ := Prod.mk.inj h
      rw [htx, Except.ok.inj ha, hdb]
  · exact absurd (congrArg Prod.fst h) (by simp)

/-- A failed transaction leaves the database as it was. -/
theorem transact_error {tx : Tx α} {db db' : Db} {err : GoError}
    (h : transact tx db = (.error err, db')) : db' = db := by
  unfold transact at h
  split at h
  · exact absurd (congrArg Prod.fst h) (by simp)
  · exact (congrArg Prod.snd h).symm

/-- To show something of the database after a transaction, show it of the
    database before and of the one a success commits. -/
theorem transact_rule {P : Db → Prop} {tx : Tx α} {db : Db} (hsame : P db)
    (hok : ∀ a db', tx db = .ok (a, db') → P db') : P (transact tx db).2 := by
  unfold transact
  split
  · next a db' htx => exact hok a db' htx
  · exact hsame

end Statements

/-- A fact is appended to the outbox and nothing else changes. -/
theorem insertOutbox_ok {row : OutboxRow} {db db' : Db} (h : insertOutbox row db = .ok db') :
    ∃ outbox, db' = { db with outbox } ∧ outbox.rows = db.outbox.rows ++ [row] := by
  simp only [insertOutbox, wrapErr_eq_ok, bind_eq_ok, require_eq_ok, orViolation_eq_ok] at h
  obtain ⟨-, -, outbox, hins, hdb⟩ := h
  exact ⟨outbox, (Except.ok.inj hdb).symm, (Lib.Table.insert?_eq_some hins).2⟩

/-! ## Guarded updates -/

namespace Db

@[simp] theorem requestGuard_iff {tenantID requestID : String} {status : State → Bool}
    {r : RequestRow} : requestGuard tenantID requestID status r = true
      ↔ r.id = requestID ∧ r.tenantID = tenantID ∧ status r.status = true := by
  simp [requestGuard, and_assoc]

/-- One row is hit exactly when the request has that tenant and status. -/
theorem requestsHit_eq_one_iff (db : Db) {tenantID requestID : String} {status : State → Bool} :
    db.requestsHit tenantID requestID status = 1
      ↔ ∃ row, db.request? requestID = some row ∧ row.tenantID = tenantID
          ∧ status row.status = true := by
  rw [requestsHit, (db.requests_unique requestID).countP_eq_one_iff
    (fun a ha => by simpa using (requestGuard_iff.mp ha).1)]
  constructor
  · rintro ⟨row, hfind, hguard⟩
    exact ⟨row, hfind, (requestGuard_iff.mp hguard).2⟩
  · rintro ⟨row, hfind, htenant, hstatus⟩
    have hid : row.id = requestID := ((db.request?_eq_some_iff).mp hfind).2
    exact ⟨row, hfind, requestGuard_iff.mpr ⟨hid, htenant, hstatus⟩⟩

/-- The request that a guarded update hits is the one set; others stay. -/
theorem request?_updateRequest (db : Db) {tenantID requestID : String} {status : State → Bool}
    {set : RequestRow → RequestRow} (hset : ∀ r, (set r).key = r.key) (id : String) :
    (db.updateRequest tenantID requestID status set hset).request? id
      = (db.request? id).map fun r =>
          if requestGuard tenantID requestID status r then set r else r := by
  refine Lib.find?_update ?_
  intro r
  have hid : (set r).id = r.id := congrArg Prod.fst (hset r)
  rw [hid]

end Db

/-! ## Operations -/

namespace Postgres

variable {db db' : Db} {info : Info}

theorem transition_eq_ok {source target : State} {u : Unit} :
    transition source target = .ok u ↔ canTransition source target = true := by
  unfold transition
  split
  · simp [*]
  · simp [*]

theorem transitionRequest_ok {tenantID requestID : String} {source target : State} {u : Unit}
    (h : transitionRequest tenantID requestID source target info db = .ok (u, db')) :
    canTransition source target = true
      ∧ (∃ row, db.request? requestID = some row ∧ row.tenantID = tenantID ∧ row.status = source)
      ∧ db' = db.updateRequest tenantID requestID (· == source) (.moved target info.dbNow)
          (fun _ => rfl) := by
  simp only [transitionRequest, bind_eq_ok, transition_eq_ok, guard_eq_ok, not_not,
    db.requestsHit_eq_one_iff, beq_iff_eq] at h
  obtain ⟨-, hcan, hrow, hdb⟩ := h
  exact ⟨hcan, hrow, return_db hdb⟩

theorem startAttempt_ok {params : AttemptParams} {u : Unit}
    (h : startAttempt params info db = .ok (u, db')) :
    ∃ provider ∈ db.catalog.providers.rows, ∃ model ∈ db.catalog.models.rows,
      ∃ attempts outbox payload,
        provider.name = params.providerName
          ∧ db.hasRequest params.requestID = true
          ∧ 0 < params.number
          ∧ db' = { db with attempts, outbox }
          ∧ (∀ a ∈ db.attempts.rows,
              ¬ (a.requestID = params.requestID ∧ a.attemptNumber = params.number))
          ∧ attempts.rows = db.attempts.rows ++ [{
              id := info.ids 0, requestID := params.requestID, tenantID := params.tenantID
              attemptNumber := params.number, providerID := provider.id, modelID := model.id
              startedAt := info.dbNow }]
          ∧ outbox.rows = db.outbox.rows ++ [outboxRow info 1 .providerSelected
              params.requestID params.tenantID params.correlationID payload] := by
  unfold startAttempt at h
  split at h
  · next provider model hprovider hmodel =>
      simp only [bind_eq_ok, wrapErr_eq_ok, require_eq_ok, orViolation_eq_ok,
        decide_eq_true_eq] at h
      obtain ⟨attempts, ⟨-, hreq, -, -, -, hnum, hins⟩, db'', hout, hdb⟩ := h
      obtain ⟨outbox, hdb'', hrows⟩ := insertOutbox_ok hout
      obtain ⟨hfree, hattempts⟩ := Lib.Table.insert?_eq_some hins
      refine ⟨provider, List.mem_of_find?_eq_some hprovider, model,
        List.mem_of_find?_eq_some hmodel, attempts, outbox, _,
        by simpa using List.find?_some hprovider, hreq, hnum.1, ?_, ?_, hattempts, hrows⟩
      · rw [return_db hdb, hdb'']
      · rintro a ha ⟨hid, hnumber⟩
        exact hfree a ha (Or.inr (Prod.ext hid hnumber))
  · exact absurd h (by simp)

/-- The started attempt the call names, if there is one, has succeeded. -/
theorem succeedAttempt_ok {params : CompletionParams}
    (h : succeedAttempt params info db = .ok db') :
    ∃ attempts, db' = { db with attempts }
      ∧ ((∀ a ∈ db.attempts.rows,
            Db.attemptGuard params.tenantID params.requestID params.attemptNumber a = false)
          ∧ attempts = db.attempts
        ∨ ∃ prompt completion cost latency : Nat,
            (prompt : Int) = params.response.usage.promptTokens
              ∧ (completion : Int) = params.response.usage.completionTokens
              ∧ (cost : Int) = params.costMicroUSD
              ∧ attempts.rows = db.attempts.rows.map fun a =>
                  if Db.attemptGuard params.tenantID params.requestID params.attemptNumber a then
                    a.succeeded params.providerRequestID prompt completion cost latency info.dbNow
                  else a) := by
  unfold succeedAttempt at h
  split at h
  · simp only [wrapErr_eq_ok, bind_eq_ok, checkNonneg_eq_ok] at h
    obtain ⟨prompt, hprompt, completion, hcompletion, cost, hcost, latency, -, hdb⟩ := h
    refine ⟨_, (Except.ok.inj hdb).symm, Or.inr ?_⟩
    exact ⟨prompt, completion, cost, latency, hprompt, hcompletion, hcost, rfl⟩
  · next hnone =>
      refine ⟨db.attempts, (Except.ok.inj h).symm, Or.inl ⟨?_, rfl⟩⟩
      simpa using hnone

theorem finalizeRequest_ok {params : CompletionParams}
    (h : finalizeRequest params info db = .ok db') :
    ∃ prompt completion cost : Nat,
      (prompt : Int) = params.response.usage.promptTokens
        ∧ (completion : Int) = params.response.usage.completionTokens
        ∧ (cost : Int) = params.costMicroUSD
        ∧ (∃ row, db.request? params.requestID = some row ∧ row.tenantID = params.tenantID
            ∧ row.status = .inProgress)
        ∧ db' = db.updateRequest params.tenantID params.requestID (· == .inProgress)
            (.completed params.response prompt completion cost info.dbNow) (fun _ => rfl) := by
  simp only [finalizeRequest, guard_eq_ok, not_not, db.requestsHit_eq_one_iff, beq_iff_eq,
    wrapErr_eq_ok, bind_eq_ok, checkNonneg_eq_ok] at h
  obtain ⟨hrow, prompt, hprompt, completion, hcompletion, cost, hcost, hdb⟩ := h
  exact ⟨prompt, completion, cost, hprompt, hcompletion, hcost, hrow, (Except.ok.inj hdb).symm⟩

/-- The started attempt the call names, if there is one, has failed. -/
theorem recordFailure_ok {params : FailureParams} (h : recordFailure params info db = .ok db') :
    ∃ attempts, db' = { db with attempts }
      ∧ ((params.attemptNumber ≤ 0 ∨ ∀ a ∈ db.attempts.rows,
            Db.attemptGuard params.tenantID params.requestID params.attemptNumber a = false)
          ∧ attempts = db.attempts
        ∨ ∃ latency : Nat, 0 < params.attemptNumber
          ∧ attempts.rows = db.attempts.rows.map fun a =>
            if Db.attemptGuard params.tenantID params.requestID params.attemptNumber a then
              a.failed params.category params.retryable latency info.dbNow
            else a) := by
  unfold recordFailure at h
  split at h
  · next hhit =>
      simp only [wrapErr_eq_ok, bind_eq_ok] at h
      obtain ⟨latency, -, hdb⟩ := h
      exact ⟨_, (Except.ok.inj hdb).symm, Or.inr ⟨latency, hhit.1, rfl⟩⟩
  · next hnone =>
      refine ⟨db.attempts, (Except.ok.inj h).symm, Or.inl ⟨?_, rfl⟩⟩
      by_cases hpos : 0 < params.attemptNumber
      · exact Or.inr (by simpa [hpos] using hnone)
      · exact Or.inl (by omega)

theorem cancelRequest_ok {tenantID requestID : String} {u : Unit}
    (h : cancelRequest tenantID requestID info db = .ok (u, db')) :
    (∃ row, db.request? requestID = some row ∧ row.tenantID = tenantID
        ∧ cancellable row.status = true)
      ∧ db' = db.updateRequest tenantID requestID cancellable (.cancelled info.dbNow)
          (fun _ => rfl) := by
  simp only [cancelRequest, guard_eq_ok, not_not, db.requestsHit_eq_one_iff] at h
  exact ⟨h.1, return_db h.2⟩

/-- Everything `CompleteRequest` writes: the attempt, the request, two facts. -/
theorem completeRequest_ok {params : CompletionParams} {u : Unit}
    (h : completeRequest params info db = .ok (u, db')) :
    ∃ (prompt completion cost : Nat) (db₁ : Db) (outbox : _),
      (prompt : Int) = params.response.usage.promptTokens
        ∧ (completion : Int) = params.response.usage.completionTokens
        ∧ (cost : Int) = params.costMicroUSD
        ∧ succeedAttempt params info db = .ok db₁
        ∧ (∃ row, db₁.request? params.requestID = some row ∧ row.tenantID = params.tenantID
            ∧ row.status = .inProgress)
        ∧ db' = { db₁.updateRequest params.tenantID params.requestID (· == .inProgress)
            (.completed params.response prompt completion cost info.dbNow) (fun _ => rfl) with
            outbox }
        ∧ outbox.rows = db.outbox.rows ++
            [outboxRow info 0 .requestCompleted params.requestID params.tenantID
              params.correlationID (completionPayload params.requestID params.response.model
                prompt completion cost (Time.sinceMillis params.startedAt info.now)),
             outboxRow info 1 .usageRecorded params.requestID params.tenantID
              params.correlationID (completionPayload params.requestID params.response.model
                prompt completion cost (Time.sinceMillis params.startedAt info.now))] := by
  simp only [completeRequest, bind_eq_ok] at h
  obtain ⟨db₁, hattempt, db₂, hrequest, db₃, hfirst, db₄, hsecond, hdb⟩ := h
  obtain ⟨prompt, completion, cost, hp, hc, hcost, hrow, hdb₂⟩ := finalizeRequest_ok hrequest
  obtain ⟨attempts, hdb₁, -⟩ := succeedAttempt_ok hattempt
  obtain ⟨outbox₁, hdb₃, hrows₁⟩ := insertOutbox_ok hfirst
  obtain ⟨outbox₂, hdb₄, hrows₂⟩ := insertOutbox_ok hsecond
  refine ⟨prompt, completion, cost, db₁, outbox₂, hp, hc, hcost, hattempt, hrow, ?_, ?_⟩
  · rw [return_db hdb, hdb₄, hdb₃, hdb₂]
  · have hsame : db₂.outbox = db.outbox := by rw [hdb₂, hdb₁]; rfl
    rw [hrows₂, hdb₃, hp, hc, hcost]
    simp only [hrows₁, hsame, List.append_assoc, List.cons_append, List.nil_append]

/-- `FailAttempt` records the attempt and, when final, fails the request with
    its fact. -/
theorem failAttempt_ok {params : FailureParams} {u : Unit}
    (h : failAttempt params info db = .ok (u, db')) :
    ∃ db₁, recordFailure params info db = .ok db₁
      ∧ (params.final = false ∧ db' = db₁
        ∨ params.final = true
          ∧ (∃ row, db₁.request? params.requestID = some row ∧ row.tenantID = params.tenantID
              ∧ row.status = .inProgress)
          ∧ ∃ outbox payload,
              db' = { db₁.updateRequest params.tenantID params.requestID (· == .inProgress)
                (.failed params.category params.isPartial info.dbNow) (fun _ => rfl) with outbox }
              ∧ outbox.rows = db₁.outbox.rows ++ [outboxRow info 0 .requestFailed
                  params.requestID params.tenantID params.correlationID payload]) := by
  simp only [failAttempt, bind_eq_ok] at h
  obtain ⟨db₁, hrecord, h⟩ := h
  refine ⟨db₁, hrecord, ?_⟩
  split at h
  · next hfinal =>
      simp only [guard_eq_ok, not_not, db₁.requestsHit_eq_one_iff, beq_iff_eq, bind_eq_ok] at h
      obtain ⟨hrow, db₂, hout, hdb⟩ := h
      obtain ⟨outbox, hdb₂, hrows⟩ := insertOutbox_ok hout
      exact Or.inr ⟨hfinal, hrow, outbox, _, by rw [return_db hdb, hdb₂], hrows⟩
  · next hfinal => exact Or.inl ⟨by simpa using hfinal, return_db h⟩

theorem rejectBudget_ok {tenantID requestID correlationID : String} {requested : Int} {u : Unit}
    (h : rejectBudget tenantID requestID correlationID requested info db = .ok (u, db')) :
    (∃ row, db.request? requestID = some row ∧ row.tenantID = tenantID
        ∧ row.status = .validated)
      ∧ ∃ outbox payload,
          db' = { db.updateRequest tenantID requestID (· == .validated)
            (.budgetRejected info.dbNow) (fun _ => rfl) with outbox }
          ∧ outbox.rows = db.outbox.rows ++ [outboxRow info 0 .budgetExceeded requestID tenantID
              correlationID payload] := by
  simp only [rejectBudget, guard_eq_ok, not_not, db.requestsHit_eq_one_iff, beq_iff_eq,
    bind_eq_ok] at h
  obtain ⟨hrow, db₁, hout, hdb⟩ := h
  obtain ⟨outbox, hdb₁, hrows⟩ := insertOutbox_ok hout
  exact ⟨hrow, outbox, _, by rw [return_db hdb, hdb₁], hrows⟩

theorem reconcileBudget_ok {requestID : String} {actual : Int} {u : Unit}
    (h : reconcileBudget requestID actual info db = .ok (u, db')) :
    ∃ amount : Nat, (amount : Int) = actual
      ∧ (∃ row, db.reservation? requestID = some row ∧ row.state = .reserved)
      ∧ db' = { db with
          reservations := db.reservations.updateWhere (reservationGuard requestID)
            (.reconciled amount info.dbNow) (fun _ => rfl) } := by
  simp only [reconcileBudget, guard_eq_ok, not_not, bind_eq_ok, wrapErr_eq_ok,
    checkNonneg_eq_ok] at h
  obtain ⟨hone, amount, hamount, hdb⟩ := h
  refine ⟨amount, hamount, ?_, return_db hdb⟩
  obtain ⟨row, hfind, hguard⟩ := ((db.reservations_unique requestID).countP_eq_one_iff
    (fun a ha => by simpa using (Bool.and_eq_true_iff.mp ha).1)).mp hone
  exact ⟨row, hfind, by simpa using (Bool.and_eq_true_iff.mp hguard).2⟩

/-- `TenantPolicy` only reads. -/
theorem tenantPolicy_ok {tenantID model : String} {policy : TenantPolicy}
    (h : tenantPolicy tenantID model db = .ok (policy, db')) : db' = db := by
  unfold tenantPolicy at h
  split at h
  · exact return_db h
  · exact absurd h (by simp)

/-- The catalog has the model and every provider of a policy. -/
def Serves (catalog : Catalog) (model : String) (allowedProviders : Option (List String)) : Prop :=
  (∃ m ∈ catalog.models.rows, m.publicName = model)
    ∧ ∃ names, allowedProviders = some names
      ∧ ∀ name ∈ names, ∃ provider ∈ catalog.providers.rows, provider.name = name

/-- `TenantPolicy` names only what the catalog has. -/
theorem tenantPolicy_serves {tenantID model : String} {policy : TenantPolicy}
    (h : tenantPolicy tenantID model db = .ok (policy, db')) :
    Serves db.catalog model policy.allowedProviders := by
  unfold tenantPolicy at h
  split at h
  · next tenant limits authorized _ _ hauthorized =>
      have hmodel := List.find?_some hauthorized
      simp only [Bool.and_eq_true, beq_iff_eq] at hmodel
      obtain ⟨rfl, -⟩ := Prod.mk.inj (Except.ok.inj h)
      refine ⟨⟨authorized, List.mem_of_find?_eq_some hauthorized, hmodel.1.1⟩, _, rfl, ?_⟩
      intro name hname
      obtain ⟨provider, hprovider, rfl⟩ := List.mem_map.mp hname
      exact ⟨provider, (List.mem_filter.mp hprovider).1, rfl⟩
  · exact absurd h (by simp)

/-- Either the request already had a reservation, or one is appended. -/
theorem insertReservation_ok {tenantID requestID : String} {amount : Int} {now : Time}
    (h : insertReservation tenantID requestID amount now info db = .ok db') :
    (db.reservation? requestID).isSome = true ∧ db' = db
      ∨ db.reservation? requestID = none ∧ db.hasRequest requestID = true
        ∧ ∃ (reserved : Nat) (reservations : _), (reserved : Int) = amount
          ∧ db' = { db with reservations }
          ∧ reservations.rows = db.reservations.rows ++ [{
              id := info.ids 0, tenantID, requestID, periodMonth := Time.startOfMonth now
              periodDay := Time.startOfDay now, reservedMicroUSD := reserved
              state := .reserved, createdAt := info.dbNow, updatedAt := info.dbNow }] := by
  unfold insertReservation at h
  split at h
  · next hsome => exact Or.inl ⟨hsome, (Except.ok.inj h).symm⟩
  · next hnone =>
      simp only [wrapErr_eq_ok, bind_eq_ok, require_eq_ok, checkNonneg_eq_ok,
        orViolation_eq_ok] at h
      obtain ⟨-, -, -, hreq, reserved, hreserved, reservations, hins, hdb⟩ := h
      refine Or.inr ⟨by simpa using hnone, hreq, reserved, reservations, hreserved,
        (Except.ok.inj hdb).symm, (Lib.Table.insert?_eq_some hins).2⟩

/-- `ReserveBudget` admits only what `CanReserve` allows on the sums it read. -/
theorem reserveBudget_ok {tenantID requestID : String} {amount : Int} {now : Time} {u : Unit}
    (h : reserveBudget tenantID requestID amount now info db = .ok (u, db')) :
    ∃ limits, db.catalog.limits.rows.find? (fun l => l.tenantID == tenantID) = some limits
      ∧ Budget.canReserve limits.monthlyBudget (ledgerSince db tenantID (Time.startOfMonth now))
          (reservedInMonth db tenantID (Time.startOfMonth now)) amount = .ok ()
      ∧ insertReservation tenantID requestID amount now info db = .ok db' := by
  unfold reserveBudget at h
  split at h
  · exact absurd h (by simp)
  · next limits hlimits =>
      refine ⟨limits, hlimits, ?_⟩
      dsimp only at h
      split at h
      · simp only [bind_eq_ok] at h
        obtain ⟨_, hmonth, _, -, db₁, hins, hdb⟩ := h
        exact ⟨hmonth, by rw [hins, return_db hdb]⟩
      · exact absurd h (by simp [bind, Except.bind, throw, throwThe, MonadExceptOf.throw])

/-- `queryRequest` reads the tenant's row. -/
theorem queryRequest_ok {tenantID requestID : String} {record : Record}
    (h : queryRequest db tenantID requestID = .ok record) :
    ∃ row ∈ db.requests.rows, ∃ model, row.id = requestID ∧ row.tenantID = tenantID
      ∧ record = row.toRecord model := by
  unfold queryRequest at h
  split at h
  · exact absurd h (by simp)
  · next row hrow =>
      split at h
      · exact absurd h (by simp)
      · next model _ =>
          have hkey := List.find?_some hrow
          simp only [Bool.and_eq_true, beq_iff_eq] at hkey
          exact ⟨row, List.mem_of_find?_eq_some hrow, model, hkey.2, hkey.1,
            (Except.ok.inj h).symm⟩

/-- `CreateOrGetRequest` inserts a request under a key that no row holds, or
    reads the row that holds the key. -/
theorem createOrGetRequest_ok {params : CreateRequestParams} {record : Record} {created : Bool}
    (h : createOrGetRequest params info db = .ok ((record, created), db')) :
    (created = true ∧ ∃ modelID requests outbox payload,
        (∀ r ∈ db.requests.rows,
          ¬ (r.tenantID = params.tenantID ∧ r.idempotencyKey = params.idempotencyKey))
        ∧ (∀ r ∈ db.requests.rows, r.id ≠ info.ids 0)
        ∧ record.id = info.ids 0
        ∧ db' = { db with requests, outbox }
        ∧ requests.rows = db.requests.rows ++ [newRequest params modelID info]
        ∧ outbox.rows = db.outbox.rows ++ [outboxRow info 1 .requestAccepted (info.ids 0)
            params.tenantID params.correlationID payload]
        ∧ ∃ model ∈ db.catalog.models.rows, model.id = modelID)
      ∨ (created = false ∧ db' = db ∧ ∃ row ∈ db.requests.rows, ∃ model,
          row.tenantID = params.tenantID ∧ row.idempotencyKey = params.idempotencyKey
          ∧ record = row.toRecord model) := by
  unfold createOrGetRequest at h
  split at h
  · exact absurd h (by simp)
  · next model hmodel =>
      split at h
      · -- the key is free: insert, read back, and record the fact
        next hfree =>
          simp only [bind_eq_ok] at h
          obtain ⟨db₁, hins, record', hquery, db₂, hout, hret⟩ := h
          have hret' := Except.ok.inj hret
          simp only [Prod.mk.injEq] at hret'
          obtain ⟨⟨rfl, hcreated⟩, rfl⟩ := hret'
          simp only [insertRequest, wrapErr_eq_ok, bind_eq_ok, require_eq_ok,
            orViolation_eq_ok] at hins
          obtain ⟨-, -, -, -, -, -, requests, hrow, hdb₁⟩ := hins
          obtain ⟨hnoclash, hrows⟩ := Lib.Table.insert?_eq_some hrow
          obtain ⟨outbox, hdb₂, hfacts⟩ := insertOutbox_ok hout
          obtain ⟨row, -, m, hid, -, hrecord⟩ := queryRequest_ok hquery
          have hrid : record'.id = info.ids 0 := by rw [hrecord]; exact hid
          have hdb₁' := Except.ok.inj hdb₁
          rw [← hdb₁', hrid] at hfacts
          refine Or.inl ⟨hcreated.symm, model.id, requests, outbox, _, ?_, ?_, hrid, ?_,
            hrows, hfacts, model, List.mem_of_find?_eq_some hmodel, rfl⟩
          · intro r hr hkey
            have := List.find?_eq_none.mp hfree r hr
            simp [hkey.1, hkey.2] at this
          · intro r hr hid'
            exact hnoclash r hr (Or.inl hid')
          · rw [hdb₂, ← hdb₁']
      · next existing hexisting =>
          simp only [bind_eq_ok, guard_eq_ok, not_not] at h
          obtain ⟨record', hquery, -, hret⟩ := h
          have hret' := Except.ok.inj hret
          simp only [Prod.mk.injEq] at hret'
          obtain ⟨⟨rfl, hcreated⟩, rfl⟩ := hret'
          have hkey := List.find?_some hexisting
          simp only [Bool.and_eq_true, beq_iff_eq] at hkey
          obtain ⟨row, hrow, m, hid, -, hrecord⟩ := queryRequest_ok hquery
          -- the row read back by identifier is the conflicting one
          have hsame : row = existing :=
            db.requests.eq_of_clash (fun a b hab => hab.imp Eq.symm Eq.symm) hrow
              (List.mem_of_find?_eq_some hexisting) (Or.inl hid)
          rw [hsame] at hrow hrecord
          exact Or.inr ⟨hcreated.symm, rfl, existing, hrow, m, hkey.1, hkey.2, hrecord⟩

/-! ## The event consumer -/

/-- The event is in the audit trail, under its own identifier. -/
theorem insertAudit_ok {event : Envelope} (h : insertAudit event info db = .ok db') :
    ∃ audit, db' = { db with audit }
      ∧ ((∃ a ∈ db.audit.rows, a.id = event.eventID) ∧ audit = db.audit
        ∨ audit.rows = db.audit.rows ++ [auditRow event info]) := by
  unfold insertAudit at h
  split at h
  · next hany =>
      refine ⟨db.audit, (Except.ok.inj h).symm, Or.inl ⟨?_, rfl⟩⟩
      simpa using hany
  · simp only [wrapErr_eq_ok, bind_eq_ok, require_eq_ok, orViolation_eq_ok] at h
    obtain ⟨-, -, audit, hins, hdb⟩ := h
    exact ⟨audit, (Except.ok.inj hdb).symm, Or.inr (Lib.Table.insert?_eq_some hins).2⟩

/-- A usage event is in the ledger before, or is entered as it decodes. -/
theorem insertUsage_ok {event : Envelope} (h : insertUsage event info db = .ok db') :
    ∃ ledger usage, decodeUsage event.payload = .ok usage ∧ db' = { db with ledger }
      ∧ ((∃ l ∈ db.ledger.rows, l.tenantID = event.tenantID ∧ l.eventID = event.eventID)
          ∧ ledger = db.ledger
        ∨ ∃ prompt completion cost : Nat,
            (prompt : Int) = usage.promptTokens ∧ (completion : Int) = usage.completionTokens
            ∧ (cost : Int) = usage.costMicroUSD
            ∧ (∀ l ∈ db.ledger.rows,
                ¬ (l.tenantID = event.tenantID ∧ l.eventID = event.eventID))
            ∧ ledger.rows = db.ledger.rows ++ [{
                id := info.ids 0, tenantID := event.tenantID, requestID := usage.requestID
                eventID := event.eventID, promptTokens := prompt, completionTokens := completion
                costMicroUSD := cost, occurredAt := event.timestamp
                recordedAt := info.dbNow }]) := by
  simp only [insertUsage, bind_eq_ok, wrapErr_eq_ok] at h
  obtain ⟨usage, husage, h⟩ := h
  split at h
  · next hany =>
      refine ⟨db.ledger, usage, husage, (Except.ok.inj h).symm, Or.inl ⟨?_, rfl⟩⟩
      simpa using hany
  · next hnone =>
      simp only [wrapErr_eq_ok, bind_eq_ok, require_eq_ok, checkNonneg_eq_ok,
        orViolation_eq_ok] at h
      obtain ⟨-, -, -, -, prompt, hp, completion, hc, cost, hcost, ledger, hins, hdb⟩ := h
      refine ⟨ledger, usage, husage, (Except.ok.inj hdb).symm, Or.inr ⟨prompt, completion, cost,
        hp, hc, hcost, ?_, (Lib.Table.insert?_eq_some hins).2⟩⟩
      simpa using hnone

/-- The marker of an event for a consumer. -/
def markerRow (consumerName : String) (event : Envelope) (info : Info) : ProcessedRow where
  consumerName := consumerName
  eventID := event.eventID
  eventType := event.eventType
  eventVersion := event.version
  processedAt := info.dbNow

/-- `ProcessKafkaEvent` has committed the event before, or commits the marker,
    the audit row and, for usage, the ledger row together. -/
theorem processKafkaEvent_ok {consumerName : String} {event : Envelope} {fresh : Bool}
    (h : processKafkaEvent consumerName event info db = .ok (fresh, db')) :
    (db' = db ∧ ∃ p ∈ db.processed.rows, p.key = (consumerName, event.eventID))
      ∨ ∃ processed db₁ db₂,
          processed.rows = db.processed.rows ++ [markerRow consumerName event info]
          ∧ (∀ p ∈ db.processed.rows, p.key ≠ (consumerName, event.eventID))
          ∧ insertAudit event info { db with processed } = .ok db₁
          ∧ (event.eventType = .usageRecorded ∧ insertUsage event info db₁ = .ok db₂
            ∨ event.eventType ≠ .usageRecorded ∧ db₂ = db₁)
          ∧ db' = db₂ := by
  simp only [processKafkaEvent, bind_eq_ok] at h
  obtain ⟨_, -, h⟩ := h
  split at h
  · -- the marker is there: the event was committed before
    next hnone =>
      obtain ⟨p, hp, hkey⟩ := Lib.Table.insert?_eq_none hnone
      exact Or.inl ⟨return_db h, p, hp, hkey⟩
  · next processed hins =>
      simp only [bind_eq_ok] at h
      obtain ⟨db₁, haudit, h⟩ := h
      obtain ⟨hfree, hrows⟩ := Lib.Table.insert?_eq_some hins
      split at h
      · next htype =>
          obtain ⟨db₂, husage, hdb⟩ := bind_eq_ok.mp h
          exact Or.inr ⟨processed, db₁, db₂, hrows, hfree, haudit, Or.inl ⟨htype, husage⟩,
            return_db hdb⟩
      · next htype =>
          obtain ⟨db₂, hsame, hdb⟩ := bind_eq_ok.mp h
          exact Or.inr ⟨processed, db₁, db₂, hrows, hfree, haudit,
            Or.inr ⟨htype, (Except.ok.inj hsame).symm⟩, return_db hdb⟩

/-- The tables that the event consumer does not write. -/
structure ConsumerFrame (db db' : Db) : Prop where
  catalog : db'.catalog = db.catalog
  requests : db'.requests = db.requests
  attempts : db'.attempts = db.attempts
  reservations : db'.reservations = db.reservations
  outbox : db'.outbox = db.outbox

theorem processKafkaEvent_frame {consumerName : String} {event : Envelope} {fresh : Bool}
    (h : processKafkaEvent consumerName event info db = .ok (fresh, db')) :
    ConsumerFrame db db' := by
  rcases processKafkaEvent_ok h with ⟨hdb, -⟩ | ⟨processed, db₁, db₂, -, -, haudit, husage, hdb⟩
  · rw [hdb]
    exact ⟨rfl, rfl, rfl, rfl, rfl⟩
  · obtain ⟨audit, hdb₁, -⟩ := insertAudit_ok haudit
    rcases husage with ⟨-, husage⟩ | ⟨-, hsame⟩
    · obtain ⟨ledger, usage, -, hdb₂, -⟩ := insertUsage_ok husage
      rw [hdb, hdb₂, hdb₁]
      exact ⟨rfl, rfl, rfl, rfl, rfl⟩
    · rw [hdb, hsame, hdb₁]
      exact ⟨rfl, rfl, rfl, rfl, rfl⟩

/-! ## What the store's calls leave alone -/

/-- A step that only adds unpublished facts to the outbox and does not touch
    the consumer's tables. -/
structure Frame (db db' : Db) : Prop where
  catalog : db'.catalog = db.catalog
  ledger : db'.ledger = db.ledger
  processed : db'.processed = db.processed
  audit : db'.audit = db.audit
  outbox : ∃ new : List OutboxRow, db'.outbox.rows = db.outbox.rows ++ new
    ∧ ∀ r ∈ new, r.publishedAt = none ∧ r.fact.causationID = none

/-- Nothing happened. -/
theorem Frame.refl (db : Db) : Frame db db :=
  ⟨rfl, rfl, rfl, rfl, [], (List.append_nil _).symm, fun _ h => absurd h (List.not_mem_nil)⟩

theorem insertOutbox_frame {row : OutboxRow} (hpub : row.publishedAt = none)
    (hcause : row.fact.causationID = none) (h : insertOutbox row db = .ok db') : Frame db db' := by
  obtain ⟨outbox, hdb, hrows⟩ := insertOutbox_ok h
  subst hdb
  refine ⟨rfl, rfl, rfl, rfl, [row], hrows, ?_⟩
  intro r hr
  rw [List.mem_singleton.mp hr]
  exact ⟨hpub, hcause⟩

/-- The calls that write the reservations. -/
def reserves : Call → Bool
  | .reserveBudget _ _ _ _ | .reconcileBudget _ _ => true
  | _ => false

/-- What a call of the store leaves alone. -/
def Leaves (call : Call) (db db' : Db) : Prop :=
  Frame db db' ∧ (reserves call = false → db'.reservations = db.reservations)

theorem Leaves.refl (call : Call) (db : Db) : Leaves call db db :=
  ⟨Frame.refl db, fun _ => rfl⟩

theorem store_leaves (call : Call) (info : Info) (db : Db) :
    Leaves call db (store call info db).2 := by
  cases call with
  | createOrGetRequest params =>
      refine transact_rule (Leaves.refl _ db) ?_
      rintro ⟨record, created⟩ db' hok
      rcases createOrGetRequest_ok hok with
        ⟨-, _, _, _, _, -, -, -, hdb, -, hrows, -⟩ | ⟨-, hdb, -⟩
      · subst hdb
        exact ⟨⟨rfl, rfl, rfl, rfl, _, hrows, by simp [outboxRow]⟩, fun _ => rfl⟩
      · rw [hdb]
        exact Leaves.refl _ db
  | getRequest tenantID requestID =>
      refine transact_rule (Leaves.refl _ db) ?_
      intro record db' hok
      simp only [getRequest, bind_eq_ok] at hok
      obtain ⟨_, -, hdb⟩ := hok
      rw [return_db hdb]
      exact Leaves.refl _ db
  | transitionRequest tenantID requestID source target =>
      refine transact_rule (Leaves.refl _ db) ?_
      intro u db' hok
      obtain ⟨-, -, hdb⟩ := transitionRequest_ok hok
      subst hdb
      exact ⟨⟨rfl, rfl, rfl, rfl, (Frame.refl db).outbox⟩, fun _ => rfl⟩
  | startAttempt params =>
      refine transact_rule (Leaves.refl _ db) ?_
      intro u db' hok
      obtain ⟨_, -, _, -, _, _, _, -, -, -, hdb, -, -, hrows⟩ := startAttempt_ok hok
      subst hdb
      exact ⟨⟨rfl, rfl, rfl, rfl, _, hrows, by simp [outboxRow]⟩, fun _ => rfl⟩
  | completeRequest params =>
      refine transact_rule (Leaves.refl _ db) ?_
      intro u db' hok
      obtain ⟨_, _, _, db₁, _, -, -, -, hattempt, -, hdb, hrows⟩ := completeRequest_ok hok
      obtain ⟨_, hdb₁, -⟩ := succeedAttempt_ok hattempt
      subst hdb hdb₁
      exact ⟨⟨rfl, rfl, rfl, rfl, _, hrows, by simp [outboxRow]⟩, fun _ => rfl⟩
  | failAttempt params =>
      refine transact_rule (Leaves.refl _ db) ?_
      intro u db' hok
      obtain ⟨db₁, hrecord, hfinal⟩ := failAttempt_ok hok
      obtain ⟨_, hdb₁, -⟩ := recordFailure_ok hrecord
      subst hdb₁
      rcases hfinal with ⟨-, hdb⟩ | ⟨-, -, _, _, hdb, hrows⟩
      · subst hdb
        exact ⟨⟨rfl, rfl, rfl, rfl, (Frame.refl db).outbox⟩, fun _ => rfl⟩
      · subst hdb
        exact ⟨⟨rfl, rfl, rfl, rfl, _, hrows, by simp [outboxRow]⟩, fun _ => rfl⟩
  | cancelRequest tenantID requestID correlationID =>
      -- unlike the other endings, a cancellation adds no fact
      refine transact_rule (Leaves.refl _ db) ?_
      intro u db' hok
      obtain ⟨-, hdb⟩ := cancelRequest_ok hok
      subst hdb
      exact ⟨⟨rfl, rfl, rfl, rfl, (Frame.refl db).outbox⟩, fun _ => rfl⟩
  | tenantPolicy tenantID model =>
      refine transact_rule (Leaves.refl _ db) ?_
      intro policy db' hok
      rw [tenantPolicy_ok hok]
      exact Leaves.refl _ db
  | reserveBudget tenantID requestID amount now =>
      refine transact_rule (Leaves.refl _ db) ?_
      intro u db' hok
      obtain ⟨_, -, -, hins⟩ := reserveBudget_ok hok
      rcases insertReservation_ok hins with ⟨-, hdb⟩ | ⟨-, -, _, _, -, hdb, -⟩
      · rw [hdb]
        exact Leaves.refl _ db
      · subst hdb
        exact ⟨⟨rfl, rfl, rfl, rfl, (Frame.refl db).outbox⟩, nofun⟩
  | rejectBudget tenantID requestID correlationID requested =>
      refine transact_rule (Leaves.refl _ db) ?_
      intro u db' hok
      obtain ⟨-, _, _, hdb, hrows⟩ := rejectBudget_ok hok
      subst hdb
      exact ⟨⟨rfl, rfl, rfl, rfl, _, hrows, by simp [outboxRow]⟩, fun _ => rfl⟩
  | reconcileBudget requestID actual =>
      refine transact_rule (Leaves.refl _ db) ?_
      intro u db' hok
      obtain ⟨_, -, -, hdb⟩ := reconcileBudget_ok hok
      subst hdb
      exact ⟨⟨rfl, rfl, rfl, rfl, (Frame.refl db).outbox⟩, nofun⟩

/-- **Frame.** No call of the store writes the consumer's tables or publishes. -/
theorem store_frame (call : Call) (info : Info) (db : Db) : Frame db (store call info db).2 :=
  (store_leaves call info db).1

/-- Only `ReserveBudget` and `ReconcileBudget` write the reservations. -/
theorem store_reservations (call : Call) (info : Info) (db : Db) :
    (store call info db).2.reservations = db.reservations
      ∨ (∃ tenantID requestID amount now u,
          call = .reserveBudget tenantID requestID amount now
          ∧ reserveBudget tenantID requestID amount now info db
              = .ok (u, (store call info db).2))
      ∨ ∃ requestID actual u, call = .reconcileBudget requestID actual
          ∧ reconcileBudget requestID actual info db = .ok (u, (store call info db).2) := by
  cases call with
  | reserveBudget tenantID requestID amount now =>
      refine transact_rule (P := fun d => d.reservations = db.reservations ∨
        (∃ t r a n u, Call.reserveBudget tenantID requestID amount now = .reserveBudget t r a n
          ∧ reserveBudget t r a n info db = .ok (u, d)) ∨ _) (Or.inl rfl) ?_
      intro u db' hok
      exact Or.inr (Or.inl ⟨_, _, _, _, u, rfl, hok⟩)
  | reconcileBudget requestID actual =>
      refine transact_rule (P := fun d => d.reservations = db.reservations ∨ _ ∨
        ∃ r a u, Call.reconcileBudget requestID actual = .reconcileBudget r a
          ∧ reconcileBudget r a info db = .ok (u, d)) (Or.inl rfl) ?_
      intro u db' hok
      exact Or.inr (Or.inr ⟨_, _, u, rfl, hok⟩)
  | _ => exact Or.inl ((store_leaves _ info db).2 rfl)

end Postgres

end Aegis.Persistence
