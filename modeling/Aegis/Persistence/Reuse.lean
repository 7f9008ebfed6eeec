/-
  Aegis.Persistence.Reuse

  Idempotency keys that are used again.  Under a key a store holds a request
  together with the hash of the input it was created for, and no call changes
  that (`ReuseLaw.kept`).  A later `CreateOrGetRequest` under the key compares
  its own hash with the one that is held: the same hash leads to the request,
  any other to `ErrConflict`, and neither changes the store (`ReuseLaw.found`,
  `ReuseLaw.conflict`).  Both stores meet the law, PostgreSQL for inputs whose
  texts it can hold.

  Whether inputs that mean the same have the same hash is another matter: the
  encoding tells the two zeros of `float64` apart.
-/

import Aegis.Idempotency
import Aegis.JsonText.WholeFormat
import Aegis.Persistence.Commit
import Aegis.Persistence.Lifecycle
import Aegis.Persistence.MemorySlice

namespace Aegis.Persistence

open Aegis.Idempotency (Decoded Identical Same hashChat marshal marshal_eq_iff)
open Aegis.JsonText (Format wholeFormat)
open Aegis.Lib (run trace)
open Aegis.Request (ChatInput Record State)

/-- How a store answers when a key is used again.  `Valid` is an invariant of
    its states, `Fresh` what it assumes about the identifiers it generates, and
    `Enabled` says that a model may be used by a tenant. -/
structure ReuseLaw {σ : Type} (store : Store σ)
    (holding : σ → String → String → Option (String × List UInt8)) (Valid : σ → Prop)
    (Fresh : σ → Call × Info → Prop) (Enabled : σ → String → String → Prop) : Prop where
  valid : ∀ {s a}, Valid s → Fresh s a → Valid (store.step s a)
  kept : ∀ {s a tenantID key held}, Valid s → Fresh s a →
    holding s tenantID key = some held → holding (store.step s a) tenantID key = some held
  submitted : ∀ {s params info record created s'}, Valid s →
    store (.createOrGetRequest params) info s = (.ok (record, created), s') →
    holding s' params.tenantID params.idempotencyKey = some (record.id, params.canonicalHash)
  found : ∀ {s} {params : CreateRequestParams} {info id}, Valid s →
    Enabled s params.tenantID params.input.model →
    holding s params.tenantID params.idempotencyKey = some (id, params.canonicalHash) →
    ∃ record, record.id = id
      ∧ store (.createOrGetRequest params) info s = (.ok (record, false), s)
  conflict : ∀ {s} {params : CreateRequestParams} {info id hash}, Valid s →
    Enabled s params.tenantID params.input.model →
    holding s params.tenantID params.idempotencyKey = some (id, hash) →
    hash ≠ params.canonicalHash →
    store (.createOrGetRequest params) info s = (.error (.ofSentinel .errConflict), s)

/-! ## The in-memory store -/

namespace Memory

/-- The hash a request was created with. -/
def hash? (memory : Memory) (id : String) : Option (List UInt8) :=
  (memory.requests id).map Record.canonicalHash

/-- The request under a key, with its hash. -/
def holding (memory : Memory) (tenantID key : String) : Option (String × List UInt8) :=
  (memory.binding tenantID key).bind fun id => (memory.hash? id).map fun hash => (id, hash)

section Hashes

variable {memory : Memory} {info : Info}

/-- Replacing the tenant's own record by one with the same hash. -/
theorem hash?_putRequest {tenantID requestID : String} {record next : Record}
    (hown : memory.ownRequest tenantID requestID = some record) (hid : next.id = record.id)
    (hhash : next.canonicalHash = record.canonicalHash) :
    (memory.putRequest next).hash? = memory.hash? := by
  obtain ⟨hrecord, hrecordID, -⟩ := ownRequest_eq_some hown
  funext id
  unfold hash?
  by_cases hne : id = next.id
  · rw [hne, putRequest_requests_self, hid, hrecordID, hrecord, Option.map_some, Option.map_some,
      hhash]
  · rw [putRequest_requests_of_ne _ _ hne]

theorem transitionRequest_hash? (tenantID requestID : String) (source target : State) :
    (transitionRequest tenantID requestID source target info memory).2.hash? = memory.hash? := by
  unfold transitionRequest
  split
  · rfl
  · next record hown =>
      split
      · rfl
      · split
        · rfl
        · exact hash?_putRequest hown rfl rfl

/-- No call but `CreateOrGetRequest` changes the hash of a request. -/
theorem store_hash? {call : Call} (hcall : ∀ params, call ≠ .createOrGetRequest params) :
    (store call info memory).2.hash? = memory.hash? := by
  cases call with
  | createOrGetRequest params => exact absurd rfl (hcall params)
  | transitionRequest tenantID requestID source target =>
      exact transitionRequest_hash? tenantID requestID source target
  | rejectBudget tenantID requestID correlationID requested =>
      exact transitionRequest_hash? tenantID requestID .validated .budgetRejected
  | completeRequest params =>
      simp only [store, completeRequest]
      split
      · rfl
      · next record hown =>
          split
          · rfl
          · -- the record is stored before the attempt is marked
            split
            · exact hash?_putRequest hown rfl rfl
            · exact hash?_putRequest hown rfl rfl
  | failAttempt params =>
      simp only [store, failAttempt]
      split
      · rfl
      · next record hown =>
          split
          · split
            · rfl
            · exact hash?_putRequest hown rfl rfl
          · rfl
  | cancelRequest tenantID requestID correlationID =>
      simp only [store, cancelRequest]
      split
      · rfl
      · next record hown =>
          split
          · rfl
          · exact hash?_putRequest hown rfl rfl
  | getRequest tenantID requestID =>
      simp only [store, getRequest]
      split <;> rfl
  | startAttempt params =>
      simp only [store, startAttempt]
      split
      · rfl
      · split <;> rfl
  | tenantPolicy tenantID model =>
      simp only [store, tenantPolicy]
      split <;> rfl
  | reserveBudget tenantID requestID amount now =>
      simp only [store, reserveBudget]
      split
      · rfl
      · split <;> rfl
  | reconcileBudget requestID actual =>
      simp only [store, reconcileBudget]
      split <;> rfl

end Hashes

/-- What is held under a key, by the key and the hash. -/
theorem holding_eq_some_iff {memory : Memory} {tenantID key id : String} {hash : List UInt8} :
    memory.holding tenantID key = some (id, hash)
      ↔ memory.binding tenantID key = some id ∧ memory.hash? id = some hash := by
  simp only [holding, Option.bind_eq_some_iff, Option.map_eq_some_iff, Prod.mk.injEq]
  constructor
  · rintro ⟨id', hid, hash', hhash, rfl, rfl⟩
    exact ⟨hid, hhash⟩
  · rintro ⟨hid, hhash⟩
    exact ⟨id, hid, hash, hhash, rfl, rfl⟩

/-- What `CreateOrGetRequest` does under a key in use. -/
theorem createOrGetRequest_of_holding {memory : Memory} {params : CreateRequestParams}
    {id : String} {hash : List UInt8} (info : Info)
    (h : memory.holding params.tenantID params.idempotencyKey = some (id, hash)) :
    ∃ record, memory.requests id = some record ∧ record.canonicalHash = hash ∧ record.id = id
      ∧ createOrGetRequest params info memory
        = if hash ≠ params.canonicalHash then (.error (.ofSentinel .errConflict), memory)
          else (.ok (record, false), memory) := by
  obtain ⟨hid, hhash⟩ := holding_eq_some_iff.mp h
  obtain ⟨record, hrecord, rfl⟩ := Option.map_eq_some_iff.mp hhash
  have hkey : memory.idempotency (idempotencyKey params.tenantID params.idempotencyKey)
      = some id := hid
  refine ⟨record, hrecord, rfl, memory.keyed id record hrecord, ?_⟩
  unfold createOrGetRequest
  dsimp only
  rw [hkey]
  dsimp only
  rw [hrecord]

/-- The bound keys are those under which something is held. -/
theorem holding_of_binding {memory : Memory} (hbound : memory.Bound) {tenantID key id : String}
    (h : memory.binding tenantID key = some id) :
    ∃ hash, memory.holding tenantID key = some (id, hash) := by
  obtain ⟨record, hrecord⟩ := Option.isSome_iff_exists.mp (hbound _ id h)
  refine ⟨record.canonicalHash, holding_eq_some_iff.mpr ⟨h, ?_⟩⟩
  rw [hash?, hrecord, Option.map_some]

theorem reuseLaw : ReuseLaw store holding Bound FreshID fun _ _ _ => True where
  valid := fun hbound _ => keyLaw.valid _ _ hbound
  kept := by
    rintro memory ⟨call, info⟩ tenantID key ⟨id, hash⟩ - hfresh h
    obtain ⟨hid, hhash⟩ := holding_eq_some_iff.mp h
    refine holding_eq_some_iff.mpr ⟨keyLaw.kept call info hid, ?_⟩
    by_cases hcall : ∀ params, call ≠ .createOrGetRequest params
    · rw [Store.step, store_hash? hcall]
      exact hhash
    · simp only [not_forall, not_not] at hcall
      obtain ⟨params, rfl⟩ := hcall
      cases hfree : memory.binding params.tenantID params.idempotencyKey with
      | none =>
          -- the new record has another identifier
          have hne : id ≠ info.ids 0 := by
            rintro rfl
            rw [hash?, show memory.requests (info.ids 0) = none from hfresh] at hhash
            cases hhash
          have hother : ((store (.createOrGetRequest params) info memory).2.requests id)
              = memory.requests id := by
            rw [show store (.createOrGetRequest params) info memory = _
              from createOrGetRequest_of_free hfree]
            exact putRequest_requests_of_ne memory (newRecord params info) hne
          rw [Store.step, hash?, hother]
          exact hhash
      | some bound =>
          rcases createOrGetRequest_cases params info memory with ⟨-, -, hsame, -⟩ | ⟨hnone, -⟩
          · rw [Store.step, show (store (.createOrGetRequest params) info memory).2 = memory
              from hsame]
            exact hhash
          · cases hfree.symm.trans hnone
  submitted := by
    intro memory params info record created memory' hbound h
    have hrun : createOrGetRequest params info memory = (.ok (record, created), memory') := h
    cases hfree : memory.binding params.tenantID params.idempotencyKey with
    | none =>
        rw [createOrGetRequest_of_free hfree] at hrun
        obtain ⟨hrecord, hmemory⟩ := Prod.mk.inj hrun
        obtain ⟨rfl, -⟩ := Prod.mk.inj (Except.ok.inj hrecord)
        rw [← hmemory, holding_eq_some_iff]
        refine ⟨?_, ?_⟩
        · exact Function.update_self ..
        · exact congrArg (Option.map Record.canonicalHash)
            (putRequest_requests_self memory (newRecord params info))
    | some id =>
        obtain ⟨hash, hheld⟩ := holding_of_binding hbound hfree
        obtain ⟨found, -, rfl, hid, hresult⟩ := createOrGetRequest_of_holding info hheld
        rw [hresult] at hrun
        split at hrun
        · cases congrArg Prod.fst hrun
        · next hsame =>
            obtain ⟨hrecord, rfl⟩ := Prod.mk.inj hrun
            obtain ⟨rfl, -⟩ := Prod.mk.inj (Except.ok.inj hrecord)
            rw [hheld, hid, not_not.mp hsame]
  found := by
    intro memory params info id _ _ h
    obtain ⟨record, -, -, hid, hresult⟩ := createOrGetRequest_of_holding info h
    refine ⟨record, hid, ?_⟩
    rw [show store (.createOrGetRequest params) info memory = _ from hresult,
      if_neg (not_not.mpr rfl)]
  conflict := by
    intro memory params info id hash _ _ h hne
    obtain ⟨record, -, -, -, hresult⟩ := createOrGetRequest_of_holding info h
    rw [show store (.createOrGetRequest params) info memory = _ from hresult, if_pos hne]

end Memory

/-! ## PostgreSQL -/

namespace Db

/-- The hash a request was created with. -/
def hash? (db : Db) (id : String) : Option (List UInt8) :=
  (db.request? id).map RequestRow.canonicalRequestHash

/-- The request under a key, with its hash. -/
def holding (db : Db) (tenantID key : String) : Option (String × List UInt8) :=
  (db.binding tenantID key).bind fun id => (db.hash? id).map fun hash => (id, hash)

theorem holding_eq_some_iff {db : Db} {tenantID key id : String} {hash : List UInt8} :
    db.holding tenantID key = some (id, hash)
      ↔ db.binding tenantID key = some id ∧ db.hash? id = some hash := by
  simp only [holding, Option.bind_eq_some_iff, Option.map_eq_some_iff, Prod.mk.injEq]
  constructor
  · rintro ⟨id', hid, hash', hhash, rfl, rfl⟩
    exact ⟨hid, hhash⟩
  · rintro ⟨hid, hhash⟩
    exact ⟨id, hid, hash, hhash, rfl, rfl⟩

/-- The foreign key of `model_id`. -/
def Modelled (db : Db) : Prop :=
  ∀ id, ∀ row ∈ db.request? id, ∃ model,
    db.catalog.models.rows.find? (fun m => m.id == row.modelID) = some model

/-- The tenant may use the model. -/
def Enabled (db : Db) (tenantID model : String) : Prop :=
  (authorizeModel db.catalog tenantID model).isSome = true

end Db

namespace Postgres

variable {db : Db} {info : Info}

theorem Write.hash {call : Call} {S S' : Slice} {row : RequestRow} (h : Write info call S S')
    (hrow : S.row = some row) :
    ∃ row', S'.row = some row' ∧ row'.canonicalRequestHash = row.canonicalRequestHash := by
  cases h with
  | create hnone => cases hnone.symm.trans hrow
  | move hsome | complete hsome | fail _ hsome | cancel hsome | reject hsome =>
      obtain rfl := Option.some.inj (hsome.symm.trans hrow)
      exact ⟨_, rfl, rfl⟩
  | load | start | retry | reserve | keep | reconcile => exact ⟨row, hrow, rfl⟩

/-- No call changes the hash of a request. -/
theorem store_hash? {call : Call} {id : String} {hash : List UInt8} (h : db.hash? id = some hash) :
    (store call info db).2.hash? id = some hash := by
  obtain ⟨row, hrow, rfl⟩ := Option.map_eq_some_iff.mp h
  rw [Db.hash?, Option.map_eq_some_iff]
  rcases store_slice call info db id with hsame | ⟨-, hwrite⟩
  · exact ⟨row, (congrArg Slice.row hsame).trans hrow, rfl⟩
  · exact hwrite.hash hrow

theorem store_modelled (hmodelled : db.Modelled) (call : Call) :
    (store call info db).2.Modelled := by
  have hframe := store_frame call info db
  cases hresult : store call info db with
  | mk result db' =>
      rw [hresult] at hframe
      cases result with
      | error err =>
          rw [store_error hresult]
          exact hmodelled
      | ok r =>
          unfold Db.Modelled
          rw [show db'.catalog = db.catalog from hframe.catalog]
          exact store_models hresult hmodelled

/-- What `CreateOrGetRequest` does under a key in use. -/
theorem createOrGetRequest_of_holding {params : CreateRequestParams} {id : String}
    {hash : List UInt8} (info : Info) (hmodelled : db.Modelled)
    (henabled : db.Enabled params.tenantID params.input.model)
    (h : db.holding params.tenantID params.idempotencyKey = some (id, hash)) :
    ∃ row model, db.request? id = some row ∧ row.id = id ∧ row.canonicalRequestHash = hash
      ∧ createOrGetRequest params info db
        = if hash ≠ params.canonicalHash then .error (.ofSentinel .errConflict)
          else .ok ((row.toRecord model, false), db) := by
  obtain ⟨hid, hhash⟩ := Db.holding_eq_some_iff.mp h
  obtain ⟨row, hrow, rfl⟩ := Option.map_eq_some_iff.mp hhash
  obtain ⟨model, hmodel⟩ := hmodelled id row hrow
  obtain ⟨authorized, hauthorized⟩ := Option.isSome_iff_exists.mp henabled
  obtain ⟨row', hrow', htenant, hkey⟩ := db.binding_eq_some_iff.mp hid
  obtain rfl : row = row' := Option.some.inj (hrow.symm.trans hrow')
  have hrowID : row.id = id := (db.request?_eq_some_iff.mp hrow).2
  have hfind : db.requests.rows.find?
      (fun r => r.tenantID == params.tenantID && r.idempotencyKey == params.idempotencyKey)
        = some row := by
    rw [(db.keys_unique params.tenantID params.idempotencyKey).find?_eq_some_iff]
    refine ⟨(db.request?_eq_some_iff.mp hrow).1, ?_⟩
    simp only [htenant, hkey, beq_self_eq_true, Bool.and_self]
  have hquery : queryRequest db params.tenantID row.id = .ok (row.toRecord model) := by
    rw [hrowID]
    exact queryRequest_of_row hrow htenant hmodel
  refine ⟨row, model, hrow, hrowID, rfl, ?_⟩
  unfold createOrGetRequest
  rw [hauthorized]
  dsimp only
  rw [hfind]
  dsimp only
  rw [hquery]
  show (do
    if row.canonicalRequestHash ≠ params.canonicalHash then
      throw (.ofSentinel .errConflict)
    return ((row.toRecord model, false), db) : Except GoError ((Record × Bool) × Db)) = _
  split <;> rfl

theorem enabled_of_ok {params : CreateRequestParams} {r : Record × Bool} {db' : Db}
    (h : createOrGetRequest params info db = .ok (r, db')) :
    db.Enabled params.tenantID params.input.model := by
  unfold createOrGetRequest at h
  rw [Db.Enabled]
  split at h
  · cases h
  · next model hmodel =>
      rw [hmodel]
      rfl

theorem reuseLaw :
    ReuseLaw store Db.holding Db.Modelled (fun _ _ => True) Db.Enabled where
  valid := fun hmodelled _ => store_modelled hmodelled _
  kept := by
    rintro db ⟨call, info⟩ tenantID key ⟨id, hash⟩ - - h
    obtain ⟨hid, hhash⟩ := Db.holding_eq_some_iff.mp h
    exact Db.holding_eq_some_iff.mpr ⟨keyLaw.kept call info hid, store_hash? hhash⟩
  submitted := by
    intro db params info record created db' hmodelled h
    have hrun := transact_ok h
    rcases createOrGetRequest_ok hrun with
      ⟨rfl, modelID, requests, outbox, payload, -, -, hid, rfl, hrows, -⟩
        | ⟨rfl, hsame, row, hmem, model, -, -, hrecord⟩
    · have hbinding := (keyLaw.created trivial h).2
      refine Db.holding_eq_some_iff.mpr ⟨hbinding, ?_⟩
      have hnew : ({ db with requests, outbox } : Db).request? record.id
          = some (newRequest params modelID info) := by
        rw [Db.request?_eq_some_iff, hid]
        refine ⟨?_, rfl⟩
        rw [hrows]
        exact List.mem_append_right _ (List.mem_singleton_self _)
      rw [Db.hash?, hnew]
      rfl
    · have hbinding := keyLaw.loaded trivial h
      have hrow : db.request? record.id = some row := by
        rw [Db.request?_eq_some_iff, hrecord]
        exact ⟨hmem, rfl⟩
      have hheld : db.holding params.tenantID params.idempotencyKey
          = some (record.id, row.canonicalRequestHash) := by
        refine Db.holding_eq_some_iff.mpr ⟨hbinding, ?_⟩
        rw [Db.hash?, hrow]
        rfl
      have henabled : db.Enabled params.tenantID params.input.model := enabled_of_ok hrun
      obtain ⟨found, model', -, -, -, hresult⟩ :=
        createOrGetRequest_of_holding info hmodelled henabled hheld
      rw [hresult] at hrun
      split at hrun
      · cases hrun
      · next heq => rw [hsame, hheld, not_not.mp heq]
  found := by
    intro db params info id hmodelled henabled h
    obtain ⟨row, model, -, hid, -, hresult⟩ :=
      createOrGetRequest_of_holding info hmodelled henabled h
    rw [if_neg (not_not.mpr rfl)] at hresult
    refine ⟨row.toRecord model, hid, ?_⟩
    show transact (createOrGetRequest params info) db = _
    unfold transact
    rw [hresult]
  conflict := by
    intro db params info id hash hmodelled henabled h hne
    obtain ⟨row, model, -, -, -, hresult⟩ :=
      createOrGetRequest_of_holding info hmodelled henabled h
    rw [if_pos hne] at hresult
    show transact (createOrGetRequest params info) db = _
    unfold transact
    rw [hresult]

end Postgres

/-! ## What is loaded -/

/-- A record that `CreateOrGetRequest` loads shows the request as it is stored.
    A model that the tenant could use stays usable. -/
structure LoadLaw {σ : Type} (store : Store σ) (view : σ → String → Option RequestView)
    (Valid : σ → Prop) (Enabled : σ → String → String → Prop) : Prop where
  loaded : ∀ {s params info record s'}, Valid s →
    store (.createOrGetRequest params) info s = (.ok (record, false), s') →
    ∃ v, view s record.id = some v ∧ v.state = record.state ∧ v.response = record.response
  enabled : ∀ {s params info r s'}, store (.createOrGetRequest params) info s = (.ok r, s') →
    Enabled s params.tenantID params.input.model
  usable : ∀ {s a tenantID model}, Enabled s tenantID model →
    Enabled (store.step s a) tenantID model

theorem Memory.loadLaw : LoadLaw Memory.store Memory.view Memory.Bound fun _ _ _ => True where
  loaded := by
    intro memory params info record memory' hbound h
    have hrun : createOrGetRequest params info memory = (.ok (record, false), memory') := h
    cases hfree : memory.binding params.tenantID params.idempotencyKey with
    | none =>
        rw [createOrGetRequest_of_free hfree] at hrun
        cases congrArg Prod.fst hrun
    | some id =>
        obtain ⟨hash, hheld⟩ := holding_of_binding hbound hfree
        obtain ⟨found, hfound, -, hid, hresult⟩ := createOrGetRequest_of_holding info hheld
        rw [hresult] at hrun
        split at hrun
        · cases congrArg Prod.fst hrun
        · obtain ⟨rfl, -⟩ := Prod.mk.inj (Except.ok.inj (congrArg Prod.fst hrun))
          refine ⟨viewRecord found, ?_, rfl, rfl⟩
          rw [Memory.view, hid, hfound, Option.map_some]
  enabled := fun _ => trivial
  usable := fun _ => trivial

theorem Postgres.loadLaw : LoadLaw Postgres.store Db.view Db.Modelled Db.Enabled where
  loaded := by
    intro db params info record db' _ h
    rcases createOrGetRequest_ok (transact_ok h) with ⟨hcreated, -⟩
      | ⟨-, -, row, hmem, model, -, -, rfl⟩
    · cases hcreated
    · have hrow : db.request? row.id = some row := db.request?_eq_some_iff.mpr ⟨hmem, rfl⟩
      refine ⟨Db.viewRow row, ?_, rfl, rfl⟩
      show (db.request? row.id).map Db.viewRow = _
      rw [hrow, Option.map_some]
  enabled := by
    intro db params info r db' h
    exact enabled_of_ok (transact_ok h)
  usable := by
    intro db a tenantID model h
    rw [Db.Enabled, show (Store.step Postgres.store db a).catalog = db.catalog
      from (store_frame a.1 a.2 db).catalog]
    exact h

/-! ## Two submissions under one key -/

section Submissions

variable {σ : Type} {store : Store σ}
  {holding : σ → String → String → Option (String × List UInt8)} {Valid : σ → Prop}
  {Fresh : σ → Call × Info → Prop} {Enabled : σ → String → String → Prop}

/-- The parameters with which `execute` submits an input. -/
structure Submits (format : Format) (input : ChatInput) (params : CreateRequestParams) : Prop where
  sent : params.input = input
  hashed : hashChat format input = .ok params.canonicalHash

/-- The call answers with the request `id` exactly for the same input, and with
    `ErrConflict` for any other, without a change of the store. -/
structure Faithful (store : Store σ) (s : σ) (params : CreateRequestParams) (info : Info)
    (id : String) (same : Prop) : Prop where
  returns : (∃ record created s', record.id = id
    ∧ store (.createOrGetRequest params) info s = (.ok (record, created), s')) ↔ same
  otherwise : ¬same →
    store (.createOrGetRequest params) info s = (.error (.ofSentinel .errConflict), s)

theorem Faithful.iff_of_eq {store' : Store σ} {s : σ} {params : CreateRequestParams} {info : Info}
    {id : String} {same : Prop}
    (h : store (.createOrGetRequest params) info s = store' (.createOrGetRequest params) info s) :
    Faithful store s params info id same ↔ Faithful store' s params info id same := by
  constructor
  · rintro ⟨hreturns, hotherwise⟩
    rw [h] at hreturns hotherwise
    exact ⟨hreturns, hotherwise⟩
  · rintro ⟨hreturns, hotherwise⟩
    rw [← h] at hreturns hotherwise
    exact ⟨hreturns, hotherwise⟩

/-- What a key holds stays there, whatever is called. -/
theorem ReuseLaw.run_kept (law : ReuseLaw store holding Valid Fresh Enabled) {s : σ}
    {tenantID key : String} {held : String × List UInt8} (hvalid : Valid s)
    (hheld : holding s tenantID key = some held) (as : List (Call × Info))
    (hfresh : ∀ e ∈ trace store.step s as, Fresh e.1 e.2.1) :
    Valid (run store.step s as) ∧ holding (run store.step s as) tenantID key = some held := by
  refine Lib.run_invariant
    (I := fun t => Valid t ∧ holding t tenantID key = some held) ?_ as ⟨hvalid, hheld⟩ hfresh
  rintro t a ⟨ht, hkept⟩ ha
  exact ⟨law.valid ht ha, law.kept ht ha hkept⟩

/-- **Key reuse.** After an input was submitted under a key, and whatever was
    called since, a submission of another input is answered faithfully unless
    the two mean the same and differ in the sign of a zero. -/
theorem ReuseLaw.faithful_iff (law : ReuseLaw store holding Valid Fresh Enabled) (format : Format)
    {x y : ChatInput} (hx : Decoded x) (hy : Decoded y)
    (hsha : hashChat format x = hashChat format y → marshal format x = marshal format y)
    {first second : CreateRequestParams} (hfirst : Submits format x first)
    (hsecond : Submits format y second) (htenant : second.tenantID = first.tenantID)
    (hkey : second.idempotencyKey = first.idempotencyKey) {s s' : σ} {info : Info}
    {record : Record} {created : Bool} (hvalid : Valid s)
    (hfresh : Fresh s (.createOrGetRequest first, info))
    (hrun : store (.createOrGetRequest first) info s = (.ok (record, created), s'))
    (between : List (Call × Info)) (hbetween : ∀ e ∈ trace store.step s' between, Fresh e.1 e.2.1)
    (henabled : Enabled (run store.step s' between) second.tenantID y.model) (info' : Info) :
    Faithful store (run store.step s' between) second info' record.id (Same x y)
      ↔ (Same x y → Identical x y) := by
  have hvalid' : Valid s' := by
    have := law.valid hvalid hfresh
    rwa [Store.step, hrun] at this
  obtain ⟨hafter, hheld⟩ := law.run_kept hvalid' (law.submitted hvalid hrun) between hbetween
  rw [← htenant, ← hkey] at hheld
  rw [← hsecond.sent] at henabled
  have hhash : first.canonicalHash = second.canonicalHash ↔ Identical x y := by
    rw [← marshal_eq_iff format hx hy]
    constructor
    · intro h
      apply hsha
      rw [hfirst.hashed, hsecond.hashed, h]
    · intro h
      apply Except.ok.inj
      rw [← hfirst.hashed, ← hsecond.hashed]
      unfold hashChat
      rw [h]
  by_cases hidentical : Identical x y
  · -- the same hash: the request is found
    rw [hhash.mpr hidentical] at hheld
    obtain ⟨found, hid, hanswer⟩ := law.found hafter henabled hheld
    have hsame : Same x y := hidentical.same hx hy
    refine iff_of_true ⟨?_, fun h => absurd hsame h⟩ fun _ => hidentical
    exact iff_of_true ⟨found, false, _, hid, hanswer⟩ hsame
  · have hconflict : store (.createOrGetRequest second) info' (run store.step s' between) = _ :=
      law.conflict hafter henabled hheld fun h => hidentical (hhash.mp h)
    have hnone : ¬∃ found created t, Record.id found = record.id
        ∧ store (.createOrGetRequest second) info' (run store.step s' between)
          = (.ok (found, created), t) := by
      rintro ⟨found, created, t, -, hanswer⟩
      cases congrArg Prod.fst (hconflict.symm.trans hanswer)
    constructor
    · intro hfaithful hsame
      exact absurd (hfaithful.returns.mpr hsame) hnone
    · intro h
      have hdiffer : ¬Same x y := fun hsame => hidentical (h hsame)
      exact ⟨iff_of_false hnone hdiffer, fun _ => hconflict⟩

end Submissions

/-- No run of either store starts with a key in use. -/
theorem Memory.bound_withPolicies (policies : String → Option TenantPolicy) :
    (Memory.withPolicies policies).Bound := by
  rintro key id ⟨⟩

theorem Db.modelled_init (catalog : Catalog) : (Db.init catalog).Modelled := by
  rintro id row ⟨⟩

/-- The calls that PostgreSQL refuses for their texts leave no trace. -/
theorem Postgres.run_server (db : Db) (as : List (Call × Info)) :
    run (Store.step server) db as
      = run (Store.step store) db (as.filter fun a => holdsTexts a.1) := by
  induction as generalizing db with
  | nil => rfl
  | cons a as ih =>
      rw [Lib.run_cons, ih, List.filter_cons]
      unfold Store.step server
      split
      · rfl
      · rfl

theorem Db.catalog_run (catalog : Catalog) (as : List (Call × Info)) :
    (run (Store.step Postgres.store) (Db.init catalog) as).catalog = catalog := by
  refine Lib.run_invariant' (I := fun db : Db => db.catalog = catalog) ?_ as rfl
  intro db a h
  rw [← h]
  exact (Postgres.store_frame a.1 a.2 db).catalog

/-- **Key reuse is accepted exactly for the same semantic input**, on both
    stores, after any calls before and between the two submissions, exactly when
    inputs that mean the same do not differ in the sign of a zero.  PostgreSQL
    has to be able to hold the texts of the second submission: it inserts before
    it compares. -/
theorem key_reuse_iff (format : Format) {x y : ChatInput} (hx : Decoded x) (hy : Decoded y)
    (hsha : hashChat format x = hashChat format y → marshal format x = marshal format y)
    {first second : CreateRequestParams} (hfirst : Submits format x first)
    (hsecond : Submits format y second) (htenant : second.tenantID = first.tenantID)
    (hkey : second.idempotencyKey = first.idempotencyKey) (before between : List (Call × Info))
    (info info' : Info) (record : Record) (created : Bool) :
    (∀ (policies : String → Option TenantPolicy) (memory : Memory),
      let step := Store.step Memory.store
      let start := Memory.withPolicies policies
      (∀ e ∈ trace step start (before ++ (.createOrGetRequest first, info) :: between),
        Memory.FreshID e.1 e.2.1) →
      Memory.store (.createOrGetRequest first) info (run step start before)
        = (.ok (record, created), memory) →
      (Faithful Memory.store (run step memory between) second info' record.id (Same x y)
        ↔ (Same x y → Identical x y)))
    ∧ ∀ (catalog : Catalog) (db : Db),
      let step := Store.step Postgres.server
      (authorizeModel catalog second.tenantID y.model).isSome = true →
      Postgres.holdsTexts (.createOrGetRequest second) = true →
      Postgres.server (.createOrGetRequest first) info (run step (Db.init catalog) before)
        = (.ok (record, created), db) →
      (Faithful Postgres.server (run step db between) second info' record.id (Same x y)
        ↔ (Same x y → Identical x y)) := by
  constructor
  · intro policies memory step start hfresh hrun
    have hnext : step (run step start before) (.createOrGetRequest first, info) = memory :=
      congrArg Prod.snd hrun
    rw [Lib.trace_append, List.forall_mem_append, Lib.trace_cons, List.forall_mem_cons,
      hnext] at hfresh
    obtain ⟨hbefore, hfirstFresh, hbetween⟩ := hfresh
    have hvalid : (run step start before).Bound :=
      Lib.run_invariant (fun _ _ h hf => Memory.reuseLaw.valid h hf) before
        (Memory.bound_withPolicies policies) hbefore
    exact Memory.reuseLaw.faithful_iff format hx hy hsha hfirst hsecond htenant hkey hvalid
      hfirstFresh hrun between hbetween trivial info'
  · intro catalog db step henabled hsecondTexts hrun
    have hfirstTexts : Postgres.holdsTexts (.createOrGetRequest first) = true :=
      Postgres.holdsTexts_of_ok (congrArg Prod.fst hrun)
    -- what is left of the run are calls that reach the tables
    rw [Faithful.iff_of_eq (Postgres.server_of_holdsTexts hsecondTexts info' _),
      Postgres.run_server]
    rw [Postgres.server_of_holdsTexts hfirstTexts, Postgres.run_server] at hrun
    generalize before.filter _ = before at hrun
    generalize between.filter _ = between
    have hnext : Store.step Postgres.store (run _ (Db.init catalog) before)
        (.createOrGetRequest first, info) = db := congrArg Prod.snd hrun
    have hvalid : (run (Store.step Postgres.store) (Db.init catalog) before).Modelled :=
      Lib.run_invariant' (fun _ _ h => Postgres.reuseLaw.valid h trivial) before
        (Db.modelled_init catalog)
    have hcatalog : (run (Store.step Postgres.store) db between).catalog = catalog := by
      have hall := Db.catalog_run catalog (before ++ (.createOrGetRequest first, info) :: between)
      rwa [Lib.run_append, Lib.run_cons, hnext] at hall
    refine Postgres.reuseLaw.faithful_iff format hx hy hsha hfirst hsecond htenant hkey hvalid
      trivial hrun between (fun _ _ => trivial) ?_ info'
    rw [Db.Enabled, hcatalog]
    exact henabled

/-- A greeting under the key `i`. -/
def greeting (temperature : Option Float64) (metadata : List (String × Request.Json)) :
    ChatInput where
  model := "m"
  messages := [⟨"user", "hi"⟩]
  temperature := temperature
  metadata := metadata

def submission (input : ChatInput) : CreateRequestParams where
  tenantID := "t"
  apiKeyID := "k"
  userID := ""
  idempotencyKey := "i"
  canonicalHash := Lib.Sha256.sum256 (marshal wholeFormat input)
  input := input
  correlationID := "c"

theorem submits_submission (input : ChatInput) :
    Submits wholeFormat input (submission input) := ⟨rfl, rfl⟩

def keyInfo (id : String) : Info := ⟨1, 1, fun slot => if slot = 0 then id else "e" ++ id⟩

/-- Two members in either order. -/
def tags : List (String × Request.Json) := [("a", .num (1 : Int)), ("b", .arr [.null])]

theorem decoded_greeting {temperature : Option Float64} {metadata : List (String × Request.Json)}
    (hnames : (metadata.map Prod.fst).Nodup)
    (h : ∀ member ∈ metadata, Idempotency.Distinct member.2) :
    Decoded (greeting temperature metadata) := .obj hnames h

/-- The same tags in the other order are accepted, on both stores. -/
theorem key_reuse_tags :
    let x := greeting none tags
    let y := greeting none tags.reverse
    let memory := (Memory.store (.createOrGetRequest (submission x)) (keyInfo "r")
      (Memory.withPolicies fun _ => none)).2
    let db := (Postgres.server (.createOrGetRequest (submission x)) (keyInfo "r")
      (Db.init (Catalog.sample 100 Catalog.hundred_fits))).2
    Same x y
      ∧ Faithful Memory.store memory (submission y) (keyInfo "s") "r" (Same x y)
      ∧ Faithful Postgres.server db (submission y) (keyInfo "s") "r" (Same x y) := by
  intro x y memory db
  have hnames : (tags.map Prod.fst).Nodup := by decide
  have hdistinct : ∀ member ∈ tags, Idempotency.Distinct member.2 := by
    simp only [tags, List.forall_mem_cons]
    refine ⟨.num _, .arr ?_, List.forall_mem_nil _⟩
    simp only [List.forall_mem_cons]
    exact ⟨.null, List.forall_mem_nil _⟩
  have hx : Decoded x := decoded_greeting hnames hdistinct
  have hy : Decoded y := by
    refine decoded_greeting ?_ ?_
    · rw [List.map_reverse, List.nodup_reverse]
      exact hnames
    · intro member hmember
      exact hdistinct member (List.mem_reverse.mp hmember)
  have hmeaning : ∀ {ν : Type} (number : Float64 → ν),
      Idempotency.meaning number x = Idempotency.meaning number y := by
    intro ν number
    exact congrArg (fun metadata => { Idempotency.meaning number x with metadata })
      (Idempotency.denoteMembers_perm hnames (List.reverse_perm tags).symm)
  have hidentical : Identical x y := hmeaning id
  have hsha : hashChat wholeFormat x = hashChat wholeFormat y →
      marshal wholeFormat x = marshal wholeFormat y :=
    fun _ => (marshal_eq_iff wholeFormat hx hy).mpr hidentical
  have htexts : Postgres.holdsTexts (.createOrGetRequest (submission x)) = true
      ∧ Postgres.holdsTexts (.createOrGetRequest (submission y)) = true := by decide +kernel
  refine ⟨hmeaning Float64.value, ?_, ?_⟩
  · refine ((key_reuse_iff wholeFormat hx hy hsha (submits_submission x) (submits_submission y)
      rfl rfl [] [] (keyInfo "r") (keyInfo "s")
      (Memory.newRecord (submission x) (keyInfo "r")) true).1 _ memory ?_ rfl).mpr
      fun _ => hidentical
    simp only [List.nil_append, Lib.trace_cons, Lib.trace_nil, List.forall_mem_cons]
    exact ⟨rfl, List.forall_mem_nil _⟩
  · refine ((key_reuse_iff wholeFormat hx hy hsha (submits_submission x) (submits_submission y)
      rfl rfl [] [] (keyInfo "r") (keyInfo "s")
      ((Postgres.newRequest (submission x) "m" (keyInfo "r")).toRecord ⟨"m", "m", true⟩) true).2
      (Catalog.sample 100 Catalog.hundred_fits) db rfl htexts.2 ?_).mpr fun _ => hidentical
    show Postgres.server _ _ (Db.init _) = (_, (Postgres.server _ _ _).2)
    rw [Postgres.server_of_holdsTexts htexts.1]
    rfl

/-- `0` and `-0` are the same temperature, and `Validate` accepts both, but the
    second submission is a conflict. -/
theorem minusZero_conflicts :
    let x := greeting (some (.ofRat 0)) []
    let y := greeting (some .minusZero) []
    let memory := (Memory.store (.createOrGetRequest (submission x)) (keyInfo "r")
      (Memory.withPolicies fun _ => none)).2
    Decoded x ∧ Decoded y ∧ x.validate = .ok () ∧ y.validate = .ok () ∧ Same x y
      ∧ Memory.store (.createOrGetRequest (submission y)) (keyInfo "s") memory
        = (.error (.ofSentinel .errConflict), memory) := by
  intro x y memory
  have hdecoded : ∀ temperature, Decoded (greeting temperature []) :=
    fun _ => decoded_greeting List.nodup_nil (List.forall_mem_nil _)
  have hne : (submission x).canonicalHash ≠ (submission y).canonicalHash := by decide +kernel
  have hbound := Memory.bound_withPolicies fun _ => none
  have hrun : Memory.store (.createOrGetRequest (submission x)) (keyInfo "r")
      (Memory.withPolicies fun _ => none)
        = (.ok (Memory.newRecord (submission x) (keyInfo "r"), true), memory) := rfl
  have hafter : memory.Bound := Memory.keyLaw.valid (.createOrGetRequest (submission x)) _ hbound
  have hheld := Memory.reuseLaw.submitted hbound hrun
  have hvalid : (greeting (some (.ofRat 0)) []).validate = .ok ()
      ∧ (greeting (some .minusZero) []).validate = .ok () := by decide +kernel
  refine ⟨hdecoded _, hdecoded _, hvalid.1, hvalid.2, rfl, ?_⟩
  exact Memory.reuseLaw.conflict hafter trivial hheld hne

end Aegis.Persistence
