/-
  Aegis.Persistence.Keys

  Idempotency keys.  A store binds a tenant's key to the request created under
  it, for good: `KeyLaw` says that a binding is kept by every call, that
  `CreateOrGetRequest` creates only where there is none, and that it otherwise
  returns the bound request.  Both stores meet it.
-/

import Aegis.Persistence.Effects

namespace Aegis.Persistence

open Aegis.Request (Record State)

/-- How a store binds keys.  `Valid` is an invariant of its states. -/
structure KeyLaw {σ : Type} (store : Store σ) (binding : σ → String → String → Option String)
    (Valid : σ → Prop) : Prop where
  valid : ∀ {s} call info, Valid s → Valid (store call info s).2
  kept : ∀ {s tenantID key id} call info, binding s tenantID key = some id →
    binding (store call info s).2 tenantID key = some id
  created : ∀ {s params info record s'}, Valid s →
    store (.createOrGetRequest params) info s = (.ok (record, true), s') →
    binding s params.tenantID params.idempotencyKey = none
      ∧ binding s' params.tenantID params.idempotencyKey = some record.id
  loaded : ∀ {s params info record s'}, Valid s →
    store (.createOrGetRequest params) info s = (.ok (record, false), s') →
    binding s params.tenantID params.idempotencyKey = some record.id

/-! ## The in-memory store -/

namespace Memory

def binding (memory : Memory) (tenantID key : String) : Option String :=
  memory.idempotency (idempotencyKey tenantID key)

/-- A bound key leads to a stored record. -/
def Bound (memory : Memory) : Prop :=
  ∀ key id, memory.idempotency key = some id → (memory.requests id).isSome = true

theorem isSome_putRequest {memory : Memory} (record : Record) (id : String)
    (h : (memory.requests id).isSome = true) :
    ((memory.putRequest record).requests id).isSome = true := by
  by_cases hid : id = record.id
  · subst hid
    rw [putRequest_requests_self]
    rfl
  · rwa [putRequest_requests_of_ne _ _ hid]

/-- Only `CreateOrGetRequest` writes the keys, and no call removes a record. -/
theorem store_keys (call : Call) (info : Info) (memory : Memory)
    (hcall : ∀ params, call ≠ .createOrGetRequest params) :
    (store call info memory).2.idempotency = memory.idempotency
      ∧ ∀ id, (memory.requests id).isSome = true →
          ((store call info memory).2.requests id).isSome = true := by
  cases hedge : call.edge with
  | none =>
      obtain ⟨hrequests, hkeys⟩ := store_aside info memory hedge hcall
      rw [hrequests]
      exact ⟨hkeys, fun _ h => h⟩
  | some edge =>
      obtain ⟨requestID, accepts, target⟩ := edge
      have halong := store_along info memory hedge
      generalize store call info memory = answer at halong ⊢
      cases halong with
      | refused err => exact ⟨rfl, fun _ h => h⟩
      | moved result hmoved =>
          refine ⟨hmoved.keys, ?_⟩
          intro id h
          rw [hmoved.stored]
          by_cases hid : id = requestID
          · rw [hid, Function.update_self]
            rfl
          · rw [Function.update_of_ne hid]
            exact h

/-- What `CreateOrGetRequest` does to the keys. -/
theorem createOrGetRequest_cases (params : CreateRequestParams) (info : Info) (memory : Memory) :
    (∃ id, memory.idempotency (idempotencyKey params.tenantID params.idempotencyKey) = some id
        ∧ (createOrGetRequest params info memory).2 = memory
        ∧ ∀ record created, (createOrGetRequest params info memory).1 = .ok (record, created) →
            created = false ∧ (memory.requests id = some record ∨ memory.requests id = none))
      ∨ (memory.idempotency (idempotencyKey params.tenantID params.idempotencyKey) = none
        ∧ ∃ record, record.id = info.ids 0
          ∧ createOrGetRequest params info memory = (.ok (record, true),
            { memory.putRequest record with
              idempotency := Function.update memory.idempotency
                (idempotencyKey params.tenantID params.idempotencyKey) (some record.id) })) := by
  unfold createOrGetRequest
  dsimp only
  cases hkey : memory.idempotency (idempotencyKey params.tenantID params.idempotencyKey) with
  | none => exact Or.inr ⟨rfl, _, rfl, rfl⟩
  | some id =>
      refine Or.inl ⟨id, rfl, ?_⟩
      dsimp only
      cases hrequest : memory.requests id with
      | none =>
          dsimp only
          split
          · exact ⟨rfl, fun _ _ h => nomatch h⟩
          · refine ⟨rfl, fun record created h => ?_⟩
            exact ⟨(congrArg Prod.snd (Except.ok.inj h)).symm, Or.inr rfl⟩
      | some existing =>
          dsimp only
          split
          · exact ⟨rfl, fun _ _ h => nomatch h⟩
          · refine ⟨rfl, fun record created h => ?_⟩
            have hpair := Prod.mk.inj (Except.ok.inj h)
            exact ⟨hpair.2.symm, Or.inl (by rw [hpair.1])⟩

theorem keyLaw : KeyLaw store binding Bound where
  valid := by
    intro memory call info hbound
    by_cases hcall : ∀ params, call ≠ .createOrGetRequest params
    · obtain ⟨hkeys, hkept⟩ := store_keys call info memory hcall
      intro key id hid
      rw [hkeys] at hid
      exact hkept id (hbound key id hid)
    · simp only [not_forall, not_not] at hcall
      obtain ⟨params, rfl⟩ := hcall
      rcases createOrGetRequest_cases params info memory with
        ⟨id, -, hsame, -⟩ | ⟨-, record, -, hnew⟩
      · rw [show (store (.createOrGetRequest params) info memory).2 = memory from hsame]
        exact hbound
      · rw [show store (.createOrGetRequest params) info memory = _ from hnew]
        intro key id hid
        refine if hkey : key = idempotencyKey params.tenantID params.idempotencyKey then ?_ else ?_
        · subst hkey
          dsimp only at hid
          rw [Function.update_self] at hid
          rw [← Option.some.inj hid]
          simp only [putRequest, Function.update_self, Option.isSome_some]
        · dsimp only at hid
          rw [Function.update_of_ne hkey] at hid
          exact isSome_putRequest record id (hbound key id hid)
  kept := by
    intro memory tenantID key id call info hid
    by_cases hcall : ∀ params, call ≠ .createOrGetRequest params
    · rw [binding, (store_keys call info memory hcall).1]
      exact hid
    · simp only [not_forall, not_not] at hcall
      obtain ⟨params, rfl⟩ := hcall
      rcases createOrGetRequest_cases params info memory with
        ⟨id, -, hsame, -⟩ | ⟨hfree, record, -, hnew⟩
      · rw [show (store (.createOrGetRequest params) info memory).2 = memory from hsame]
        exact hid
      · rw [show store (.createOrGetRequest params) info memory = _ from hnew]
        have hne : idempotencyKey tenantID key
            ≠ idempotencyKey params.tenantID params.idempotencyKey := by
          intro heq
          rw [binding, heq, hfree] at hid
          cases hid
        simp only [binding, Function.update_of_ne hne]
        exact hid
  created := by
    intro memory params info record memory' _ h
    rcases createOrGetRequest_cases params info memory with
      ⟨id, -, -, hloaded⟩ | ⟨hfree, record', -, hnew⟩
    · exact absurd (hloaded record true (congrArg Prod.fst h)).1 (by simp)
    · obtain ⟨hrecord, hmemory⟩ := Prod.mk.inj (hnew.symm.trans h)
      have hrec : record' = record := congrArg Prod.fst (Except.ok.inj hrecord)
      refine ⟨hfree, ?_⟩
      rw [← hmemory, hrec]
      simp only [binding, Function.update_self]
  loaded := by
    intro memory params info record memory' hbound h
    rcases createOrGetRequest_cases params info memory with
      ⟨id, hid, -, hloaded⟩ | ⟨-, record', -, hnew⟩
    · rcases (hloaded record false (congrArg Prod.fst h)).2 with hrequest | hnone
      · rw [binding, hid, memory.keyed id record hrequest]
      · -- a bound key without a record is excluded
        have hsome := hbound _ id hid
        rw [hnone] at hsome
        exact absurd hsome (by simp)
    · have hfalse := congrArg Prod.snd (Except.ok.inj (Prod.mk.inj (hnew.symm.trans h)).1)
      exact absurd hfalse (by simp)

end Memory

/-! ## PostgreSQL -/

namespace Db

def binding (db : Db) (tenantID key : String) : Option String :=
  (db.requests.rows.find? fun r => r.tenantID == tenantID && r.idempotencyKey == key).map (·.id)

theorem keys_unique (db : Db) (tenantID key : String) :
    Lib.Unique db.requests.rows fun r => r.tenantID == tenantID && r.idempotencyKey == key := by
  refine db.requests.unique.imp ?_
  intro a b hclash hboth
  simp only [Bool.and_eq_true, beq_iff_eq] at hboth
  obtain ⟨⟨ha, ha'⟩, hb, hb'⟩ := hboth
  exact hclash (Or.inr (Prod.ext (ha.trans hb.symm) (ha'.trans hb'.symm)))

/-- The unique constraint determines the bound request. -/
theorem binding_eq_some_iff (db : Db) {tenantID key id : String} :
    db.binding tenantID key = some id
      ↔ ∃ row, db.request? id = some row ∧ row.tenantID = tenantID ∧ row.idempotencyKey = key := by
  simp only [binding, Option.map_eq_some_iff, (db.keys_unique tenantID key).find?_eq_some_iff,
    request?_eq_some_iff, Bool.and_eq_true, beq_iff_eq]
  constructor
  · rintro ⟨row, ⟨hrow, hkey⟩, hid⟩
    exact ⟨row, ⟨hrow, hid⟩, hkey⟩
  · rintro ⟨row, ⟨hrow, hid⟩, hkey⟩
    exact ⟨row, ⟨hrow, hkey⟩, hid⟩

end Db

namespace Postgres

/-- PostgreSQL needs no invariant: the constraint is part of the table. -/
theorem keyLaw : KeyLaw store Db.binding fun _ => True where
  valid := fun _ _ _ => trivial
  kept := by
    intro db tenantID key id call info hid
    obtain ⟨row, hrow, htenant, hkey⟩ := db.binding_eq_some_iff.mp hid
    rw [Db.binding_eq_some_iff]
    rcases store_slice call info db id with hsame | ⟨-, hwrite⟩
    · exact ⟨row, (congrArg Slice.row hsame).trans hrow, htenant, hkey⟩
    · obtain ⟨row', hrow', hsame⟩ := hwrite.key hrow
      obtain ⟨-, htenant', hkey'⟩ := by simpa [RequestRow.key] using hsame
      exact ⟨row', hrow', htenant'.trans htenant, hkey'.trans hkey⟩
  created := by
    intro db params info record db' _ h
    rcases createOrGetRequest_ok (transact_ok h) with
      ⟨-, modelID, requests, outbox, payload, hfree, -, hid, hdb, hrows, -⟩ | ⟨hfalse, -⟩
    · constructor
      · rw [Db.binding, Option.map_eq_none_iff, List.find?_eq_none]
        intro r hr
        simpa using hfree r hr
      · rw [Db.binding_eq_some_iff]
        refine ⟨newRequest params modelID info, ?_, rfl, rfl⟩
        rw [Db.request?_eq_some_iff, hdb, hid]
        refine ⟨?_, rfl⟩
        rw [hrows]
        exact List.mem_append_right _ (List.mem_singleton_self _)
    · exact absurd hfalse (by simp)
  loaded := by
    intro db params info record db' _ h
    rcases createOrGetRequest_ok (transact_ok h) with
      ⟨htrue, -⟩ | ⟨-, -, row, hrow, model, htenant, hkey, hrecord⟩
    · exact absurd htrue (by simp)
    · rw [Db.binding_eq_some_iff, hrecord]
      exact ⟨row, db.request?_eq_some_iff.mpr ⟨hrow, rfl⟩, htenant, hkey⟩

end Postgres

end Aegis.Persistence
