/-
  Aegis.Persistence.Agreement

  The two stores side by side: the same calls are made on an in-memory store and
  on a PostgreSQL database.  Under the condition `Comparable` both accept the
  same calls (`Agreed.accepts_iff`) and hold the same about every request
  afterwards (`Agreed.step`), so they agree along every run.

  Without that condition they part.  `Memory.RejectBudget` sets the state only,
  `Memory.CompleteRequest` panics for a request without attempts, and only
  `Memory.ReconcileBudget` charges the tenant; PostgreSQL does not check that an
  attempt is started by the owner of the request, keeps the first reservation of
  a request, and refuses a text with U+0000.
-/

import Aegis.Lib.Runs
import Aegis.Persistence.Commit
import Aegis.Persistence.Mirror

namespace Aegis.Persistence

open Aegis.Request (Record State canTransition)

/-! ## Both stores -/

structure Stores where
  memory : Memory
  db : Db

/-- The same call, with the same generated identifiers, on both stores. -/
def Stores.step (x : Stores) (operation : Call × Info) : Stores where
  memory := (Memory.store operation.1 operation.2 x.memory).2
  db := (Postgres.server operation.1 operation.2 x.db).2

/-- The in-memory store has a policy for each row of `tenant_limits`, with the
    same monthly budget. -/
def SamePolicies (catalog : Catalog) (policies : String → Option TenantPolicy) : Prop :=
  ∀ limits ∈ catalog.limits.rows, ∃ policy, policies limits.tenantID = some policy
    ∧ policy.monthlyBudget = limits.monthlyBudget

/-- The keys of tenants lead to the records under them, and to no others. -/
def Memory.Keyed (memory : Memory) : Prop :=
  ∀ tenantID key id, NulFree tenantID → (memory.binding tenantID key = some id
    ↔ ∃ record, memory.requests id = some record
      ∧ record.tenantID = tenantID ∧ record.idempotencyKey = key)

structure Agreed (catalog : Catalog) (policies : String → Option TenantPolicy) (month : Time)
    (x : Stores) : Prop where
  catalog_eq : x.db.catalog = catalog
  policies_eq : x.memory.policies = policies
  tidy : Postgres.Tidy month x.db
  bound : x.memory.Bound
  keyed : x.memory.Keyed
  mirrors : ∀ id, Mirrors (x.memory.slice id) (x.db.slice id)

section Accepting

variable {memory : Memory} {db : Db}

/-- A tenant's own record with a property is a row of the tenant with it. -/
theorem own_iff {tenantID id : String} {P : Record → Prop} {Q : RequestRow → Prop}
    (h : Mirrors (memory.slice id) (db.slice id))
    (hPQ : ∀ record row, SameRequest record row → (P record ↔ Q row)) :
    (∃ record ∈ memory.ownRequest tenantID id, P record)
      ↔ ∃ row, db.request? id = some row ∧ row.tenantID = tenantID ∧ Q row := by
  constructor
  · rintro ⟨record, hown, hP⟩
    obtain ⟨hrecord, htenant⟩ := Memory.mem_own_iff.mp hown
    obtain ⟨row, hrow, hsame⟩ := h.row_of_record hrecord
    exact ⟨row, hrow, hsame.tenantID.symm.trans htenant, (hPQ record row hsame).mp hP⟩
  · rintro ⟨row, hrow, htenant, hQ⟩
    obtain ⟨record, hrecord, hsame⟩ := h.record_of_row hrow
    refine ⟨record, ?_, (hPQ record row hsame).mpr hQ⟩
    exact Memory.mem_own_iff.mpr ⟨hrecord, hsame.tenantID.trans htenant⟩

theorem requests_isSome_iff {id : String} (h : Mirrors (memory.slice id) (db.slice id)) :
    (memory.requests id).isSome = true ↔ (db.request? id).isSome = true := by
  rw [Option.isSome_iff_exists, Option.isSome_iff_exists]
  constructor
  · rintro ⟨record, hrecord⟩
    obtain ⟨row, hrow, -⟩ := h.row_of_record hrecord
    exact ⟨row, hrow⟩
  · rintro ⟨row, hrow⟩
    obtain ⟨record, hrecord, -⟩ := h.record_of_row hrow
    exact ⟨record, hrecord⟩

theorem lookup_eq_some_iff {id : String} {amount : Int}
    (h : Mirrors (memory.slice id) (db.slice id)) :
    memory.reservations.lookup id = some amount
      ↔ ∃ r, db.reservation? id = some r ∧ r.state = .reserved
          ∧ (r.reservedMicroUSD : Int) = amount := by
  have hreserved : memory.reservations.lookup id = (db.slice id).active := h.reserved
  rw [hreserved, Slice.active, Option.map_eq_some_iff]
  simp only [Option.filter_eq_some_iff, beq_iff_eq, and_assoc]
  rfl

/-- What the tenant has reserved is the same in both. -/
theorem reservedFor_eq {month : Time} (hmirrors : ∀ id, Mirrors (memory.slice id) (db.slice id))
    (hmonths : ∀ r ∈ db.reservations.rows, r.periodMonth = month) (tenantID : String) :
    memory.reservedFor tenantID = Postgres.reservedInMonth db tenantID month := by
  have hactive : memory.reservations.entries.Perm
      ((db.reservations.rows.filter fun r => r.state == .reserved).map
        fun r => ⟨r.requestID, (r.reservedMicroUSD : Int)⟩) := by
    apply (List.perm_ext_iff_of_nodup memory.reservations.nodupKeys.nodup ?_).mpr
    · rintro ⟨id, amount⟩
      rw [← AList.mem_lookup_iff, Option.mem_def, lookup_eq_some_iff (hmirrors id)]
      simp only [List.mem_map, List.mem_filter, db.reservation?_eq_some_iff, beq_iff_eq,
        Sigma.mk.injEq, heq_eq_eq]
      constructor
      · rintro ⟨r, ⟨hr, hid⟩, hstate, hamount⟩
        exact ⟨r, ⟨hr, hstate⟩, hid, hamount⟩
      · rintro ⟨r, ⟨hr, hstate⟩, hid, hamount⟩
        exact ⟨r, ⟨hr, hid⟩, hstate, hamount⟩
    · refine (db.reservations.unique.filter _).map _ ?_
      intro a b hclash heq
      exact hclash (Or.inr (congrArg Sigma.fst heq))
  -- each entry counts for the tenant of its row
  have hshare : ∀ r ∈ db.reservations.rows.filter fun r => r.state == .reserved,
      memory.share tenantID ⟨r.requestID, (r.reservedMicroUSD : Int)⟩
        = if r.tenantID == tenantID then (r.reservedMicroUSD : Int) else 0 := by
    intro r hr
    have hrow : db.reservation? r.requestID = some r :=
      db.reservation?_eq_some_iff.mpr ⟨List.mem_of_mem_filter hr, rfl⟩
    obtain ⟨record, hrecord, htenant⟩ := (hmirrors r.requestID).owner r hrow
    have howner : memory.owner? r.requestID = some r.tenantID := by
      unfold Memory.owner?
      rw [show memory.requests r.requestID = some record from hrecord, Option.map_some, htenant]
    unfold Memory.share
    simp only [howner, Option.getD_some, beq_iff_eq]
  unfold Memory.reservedFor Postgres.reservedInMonth
  rw [Lib.sumOf_perm hactive, Lib.sumOf_map, Lib.sumOf_congr hshare, ← Lib.sumOf_filter,
    List.filter_filter]
  congr 1
  apply List.filter_congr
  intro r hr
  rw [hmonths r hr]
  simp

end Accepting

/-! ## When both stores accept a call -/

/-- What is assumed of a call: the tenant, and what the call names, exist and
    are enabled, generated identifiers are new, and no number is negative. -/
structure Applies (catalog : Catalog) (month : Time) (x : Stores) (operation : Call × Info) :
    Prop where
  ready : ∀ tenantID ∈ operation.1.tenantID?, catalog.Ready tenantID
  names : catalog.Names operation.1
  fresh : FreshIDs x.db operation.2
  sensible : operation.1.Sensible month

/-- Attempts are started and failed by the owner of the request, or for no
    request, and completed once started; a budget is reserved by the owner,
    while what was charged leaves room for it, and reconciled while it is
    reserved; and none is rejected. -/
def Memory.Orderly (memory : Memory) : Call → Prop
  | .startAttempt params => memory.owns params.tenantID params.requestID = true
      ∨ memory.requests params.requestID = none
  | .completeRequest params => ∀ record ∈ memory.ownRequest params.tenantID params.requestID,
      record.state = .inProgress →
        (memory.slice params.requestID).started params.attemptNumber = true
  | .failAttempt params => params.final = true
      ∨ memory.owns params.tenantID params.requestID = true
  | .reserveBudget tenantID requestID amount _ => memory.owns tenantID requestID = true
      ∧ ∀ policy ∈ memory.policies tenantID, memory.used tenantID = 0 ∨ policy.monthlyBudget = 0
        ∨ 0 ≤ memory.used tenantID
          ∧ memory.used tenantID + memory.sumMap tenantID + amount ≤ policy.monthlyBudget
  | .rejectBudget tenantID requestID _ _ => ∀ record ∈ memory.ownRequest tenantID requestID,
      record.state ≠ .validated
  | .reconcileBudget requestID _ => memory.requests requestID = none
      ∨ (memory.reservations.lookup requestID).isSome = true
  | _ => True

structure Comparable (x : Stores) (operation : Call × Info) : Prop where
  texts : Postgres.holdsTexts operation.1 = true
  regular : Postgres.Regular x.db operation.2 operation.1
  orderly : x.memory.Orderly operation.1

section Agreement

variable {catalog : Catalog} {policies : String → Option TenantPolicy} {month : Time} {x : Stores}
  {info : Info}

theorem Agreed.binding_eq (h : Agreed catalog policies month x) {tenantID : String}
    (hnul : Memory.NulFree tenantID) (key : String) :
    x.memory.binding tenantID key = x.db.binding tenantID key := by
  apply Option.ext
  intro id
  rw [h.keyed tenantID key id hnul, x.db.binding_eq_some_iff]
  constructor
  · rintro ⟨record, hrecord, htenant, hkey⟩
    obtain ⟨row, hrow, hsame⟩ := (h.mirrors id).row_of_record hrecord
    exact ⟨row, hrow, hsame.tenantID.symm.trans htenant, hsame.idempotencyKey.symm.trans hkey⟩
  · rintro ⟨row, hrow, htenant, hkey⟩
    obtain ⟨record, hrecord, hsame⟩ := (h.mirrors id).record_of_row hrow
    exact ⟨record, hrecord, hsame.tenantID.trans htenant, hsame.idempotencyKey.trans hkey⟩

theorem cancellable_iff (state : State) :
    state.terminal = false ↔ Postgres.cancellable state = true := by
  cases state <;> decide

/-- The records under a key have a hash exactly when the rows do. -/
theorem Agreed.hash_iff (h : Agreed catalog policies month x) (id : String) (hash : List UInt8) :
    (∀ record ∈ x.memory.requests id, record.canonicalHash = hash)
      ↔ ∀ row ∈ x.db.request? id, row.canonicalRequestHash = hash := by
  constructor
  · intro hall row hrow
    obtain ⟨record, hrecord, hsame⟩ := (h.mirrors id).record_of_row hrow
    exact hsame.canonicalHash.symm.trans (hall record hrecord)
  · intro hall record hrecord
    obtain ⟨row, hrow, hsame⟩ := (h.mirrors id).row_of_record hrecord
    exact hsame.canonicalHash.trans (hall row hrow)

theorem Agreed.sumMap_eq (h : Agreed catalog policies month x) (tenantID : String)
    (hfits : isInt64 (Postgres.reservedInMonth x.db tenantID month) = true) :
    x.memory.sumMap tenantID = Postgres.reservedInMonth x.db tenantID month := by
  rw [Memory.sumMap_eq_wrap64, reservedFor_eq h.mirrors h.tidy.months tenantID]
  exact wrap64_of_isInt64 hfits

/-- Costs that leave room do not matter to `CanReserve`. -/
theorem canReserve_iff_uncharged {limit used active amount : Int} (hmax : limit ≤ maxInt64)
    (hactive : 0 ≤ active) (hamount : 0 ≤ amount)
    (hroom : used = 0 ∨ limit = 0 ∨ 0 ≤ used ∧ used + active + amount ≤ limit) :
    Budget.canReserve limit used active amount = .ok ()
      ↔ Budget.canReserve limit 0 active amount = .ok () := by
  rcases hroom with rfl | rfl | ⟨hused, hle⟩
  · rfl
  · exact iff_of_true rfl rfl
  · apply iff_of_true
    · exact Budget.canReserve_of_le hmax hused hactive hamount hle
    · exact Budget.canReserve_of_le hmax (Int.le_refl 0) hactive hamount (by omega)

theorem Agreed.reserve_iff (h : Agreed catalog policies month x)
    (hpolicies : SamePolicies catalog policies) {tenantID requestID : String} {amount : Int}
    {now : Time} (hready : catalog.Ready tenantID)
    (hsensible : Call.Sensible month (.reserveBudget tenantID requestID amount now))
    (hregular : Postgres.Regular x.db info (.reserveBudget tenantID requestID amount now))
    (horderly : x.memory.Orderly (.reserveBudget tenantID requestID amount now)) :
    x.memory.Accepts (.reserveBudget tenantID requestID amount now)
      ↔ Postgres.Accepts x.db (.reserveBudget tenantID requestID amount now) := by
  obtain ⟨hamount, hmonth⟩ := hsensible
  obtain ⟨-, hfits⟩ := hregular
  obtain ⟨hown, hroom⟩ := horderly
  rw [hmonth] at hfits
  have hsum := h.sumMap_eq tenantID hfits
  have hactive : 0 ≤ Postgres.reservedInMonth x.db tenantID month :=
    Postgres.reservedInMonth_nonneg tenantID month
  have hrequest : (x.db.request? requestID).isSome = true := by
    obtain ⟨record, hrecord⟩ := Memory.owns_iff.mp hown
    obtain ⟨row, hrow, -⟩ :=
      (h.mirrors requestID).row_of_record (Memory.mem_own_iff.mp hrecord).1
    exact Option.isSome_iff_exists.mpr ⟨row, hrow⟩
  -- the policy and the limits set one budget, and no charge decides
  have hdecide : ∀ (limits : TenantLimits) (policy : TenantPolicy),
      x.memory.policies tenantID = some policy → policy.monthlyBudget = limits.monthlyBudget →
      (Budget.canReserve policy.monthlyBudget (x.memory.used tenantID)
          (x.memory.sumMap tenantID) amount = .ok ()
        ↔ Budget.canReserve limits.monthlyBudget 0
            (Postgres.reservedInMonth x.db tenantID month) amount = .ok ()) := by
    intro limits policy hpolicy hbudget
    have hroom' := hroom policy hpolicy
    rw [hsum, hbudget] at hroom' ⊢
    exact canReserve_iff_uncharged limits.monthlyBudget_le hactive hamount hroom'
  have hpolicyOf : ∀ limits ∈ catalog.limits.rows, limits.tenantID = tenantID →
      ∃ policy, x.memory.policies tenantID = some policy
        ∧ policy.monthlyBudget = limits.monthlyBudget := by
    intro limits hlimits htenant
    obtain ⟨policy, hpolicy, hbudget⟩ := hpolicies limits hlimits
    rw [htenant, ← h.policies_eq] at hpolicy
    exact ⟨policy, hpolicy, hbudget⟩
  simp only [Memory.Accepts, Postgres.Accepts, h.catalog_eq, hmonth]
  constructor
  · rintro ⟨policy, hpolicy, hcan⟩
    obtain ⟨limits, hlimits, htenant, -⟩ := hready.limits
    obtain ⟨policy', hpolicy', hbudget⟩ := hpolicyOf limits hlimits htenant
    obtain rfl : policy = policy' := Option.some.inj (hpolicy.symm.trans hpolicy')
    refine ⟨hrequest, limits, hlimits, htenant, ?_⟩
    exact (hdecide limits policy hpolicy hbudget).mp hcan
  · rintro ⟨-, limits, hlimits, htenant, hcan⟩
    obtain ⟨policy, hpolicy, hbudget⟩ := hpolicyOf limits hlimits htenant
    exact ⟨policy, hpolicy, (hdecide limits policy hpolicy hbudget).mpr hcan⟩

theorem Agreed.start_iff (h : Agreed catalog policies month x) {params : AttemptParams}
    (horderly : x.memory.Orderly (.startAttempt params)) :
    x.memory.Accepts (.startAttempt params) ↔ Postgres.Accepts x.db (.startAttempt params) := by
  have hmirrors := h.mirrors params.requestID
  have hnew : (x.memory.slice params.requestID).started params.number = false
      ↔ ∀ a ∈ x.db.attemptsOf params.requestID, a.attemptNumber ≠ params.number := by
    rw [← Bool.not_eq_true, hmirrors.attempts params.number]
    push Not
    rfl
  simp only [Memory.Accepts, Postgres.Accepts]
  -- PostgreSQL checks the request and the tenant by separate foreign keys
  rcases horderly with hown | hnone
  · obtain ⟨record, hrecord⟩ := Memory.owns_iff.mp hown
    obtain ⟨row, hrow, -⟩ := hmirrors.row_of_record (Memory.mem_own_iff.mp hrecord).1
    have hsome : (x.db.request? params.requestID).isSome = true :=
      Option.isSome_iff_exists.mpr ⟨row, hrow⟩
    rw [← hnew]
    constructor
    · rintro ⟨_, -, hfree⟩
      exact ⟨hsome, hfree⟩
    · rintro ⟨-, hfree⟩
      exact ⟨record, hrecord, hfree⟩
  · apply iff_of_false
    · rintro ⟨record, hrecord, -⟩
      cases hnone.symm.trans (Memory.mem_own_iff.mp hrecord).1
    · rintro ⟨hsome, -⟩
      have := (requests_isSome_iff hmirrors).mpr hsome
      rw [hnone] at this
      cases this

theorem Agreed.fail_iff (h : Agreed catalog policies month x) {params : FailureParams}
    (horderly : x.memory.Orderly (.failAttempt params)) :
    x.memory.Accepts (.failAttempt params) ↔ Postgres.Accepts x.db (.failAttempt params) := by
  simp only [Memory.Accepts, Postgres.Accepts]
  by_cases hfinal : params.final = true
  · simp only [hfinal, true_imp_iff]
    apply own_iff (h.mirrors params.requestID)
    intro record row hsame
    rw [hsame.state]
  · -- PostgreSQL does not look at the request unless the failure is final
    have hown := horderly.resolve_left hfinal
    obtain ⟨record, hrecord⟩ := Memory.owns_iff.mp hown
    apply iff_of_true
    · exact ⟨record, hrecord, fun h => absurd h hfinal⟩
    · exact fun h => absurd h hfinal

theorem Agreed.reconcile_iff (h : Agreed catalog policies month x) {requestID : String}
    {actual : Int} (horderly : x.memory.Orderly (.reconcileBudget requestID actual)) :
    x.memory.Accepts (.reconcileBudget requestID actual)
      ↔ Postgres.Accepts x.db (.reconcileBudget requestID actual) := by
  have hmirrors := h.mirrors requestID
  simp only [Memory.Accepts, Postgres.Accepts]
  rcases horderly with hnone | hreserved
  · apply iff_of_false
    · rw [hnone]
      exact Bool.false_ne_true
    · rintro ⟨r, hr, -⟩
      obtain ⟨record, hrecord, -⟩ := hmirrors.owner r hr
      cases hnone.symm.trans hrecord
  · obtain ⟨amount, hamount⟩ := Option.isSome_iff_exists.mp hreserved
    obtain ⟨r, hr, hstate, -⟩ := (lookup_eq_some_iff hmirrors).mp hamount
    obtain ⟨record, hrecord, -⟩ := hmirrors.owner r hr
    apply iff_of_true
    · exact Option.isSome_iff_exists.mpr ⟨record, hrecord⟩
    · exact ⟨r, hr, hstate⟩

/-- **Both stores accept the same calls.** -/
theorem Agreed.accepts_iff (h : Agreed catalog policies month x)
    (hpolicies : SamePolicies catalog policies) {call : Call}
    (happlies : Applies catalog month x (call, info)) (hcomparable : Comparable x (call, info)) :
    x.memory.Accepts call ↔ Postgres.Accepts x.db call := by
  cases call with
  | createOrGetRequest params =>
      have hready := happlies.ready _ rfl
      simp only [Memory.Accepts, Postgres.Accepts, h.binding_eq hready.nulFree, h.hash_iff]
  | getRequest tenantID requestID =>
      simp only [Memory.Accepts, Postgres.Accepts]
      rw [own_iff (Q := fun _ => True) (h.mirrors requestID) fun _ _ _ => Iff.rfl]
      simp only [and_true]
      rfl
  | transitionRequest tenantID requestID source target =>
      simp only [Memory.Accepts, Postgres.Accepts]
      rw [own_iff (Q := fun row => row.status = source ∧ canTransition source target = true)
        (h.mirrors requestID) fun record row hsame => by rw [hsame.state]]
      tauto
  | startAttempt params => exact h.start_iff hcomparable.orderly
  | completeRequest params =>
      refine own_iff (h.mirrors params.requestID) ?_
      intro record row hsame
      rw [hsame.state]
  | failAttempt params => exact h.fail_iff hcomparable.orderly
  | cancelRequest tenantID requestID correlationID =>
      refine own_iff (h.mirrors requestID) ?_
      intro record row hsame
      rw [hsame.state]
      exact cancellable_iff row.status
  | tenantPolicy tenantID model =>
      -- the tenant has limits, and so a policy
      obtain ⟨limits, hlimits, htenant, -⟩ := (happlies.ready _ rfl).limits
      obtain ⟨policy, hpolicy, -⟩ := hpolicies limits hlimits
      apply iff_of_true
      · show (x.memory.policies tenantID).isSome = true
        rw [h.policies_eq, ← htenant, hpolicy]
        rfl
      · trivial
  | reserveBudget tenantID requestID amount now =>
      exact h.reserve_iff hpolicies (happlies.ready _ rfl) happlies.sensible hcomparable.regular
        hcomparable.orderly
  | rejectBudget tenantID requestID correlationID requested =>
      refine own_iff (h.mirrors requestID) ?_
      intro record row hsame
      rw [hsame.state]
  | reconcileBudget requestID actual => exact h.reconcile_iff hcomparable.orderly

/-! ## One call -/

theorem Memory.aligned {call : Call} {id : String}
    (hcall : ∀ params, call ≠ .createOrGetRequest params) (hsubject : call.subject info = some id)
    (haccepts : x.memory.Accepts call) (hcomparable : Comparable x (call, info)) :
    Aligned (x.memory.slice id) (x.db.slice id) call := by
  obtain ⟨-, hregular, horderly⟩ := hcomparable
  cases call with
  | createOrGetRequest params => exact absurd rfl (hcall params)
  | completeRequest params =>
      cases hsubject
      obtain ⟨record, hown, hstate⟩ := haccepts
      exact horderly record hown hstate
  | reserveBudget tenantID requestID amount now =>
      cases hsubject
      obtain ⟨record, hown⟩ := Memory.owns_iff.mp horderly.1
      obtain ⟨hrecord, htenant⟩ := Memory.mem_own_iff.mp hown
      exact ⟨hregular.1, record, hrecord, htenant⟩
  | rejectBudget tenantID requestID correlationID requested =>
      obtain ⟨record, hown, hstate⟩ := haccepts
      exact absurd hstate (horderly record hown)
  | _ => trivial

/-- A call on a request that both stores accept. -/
theorem Agreed.written (h : Agreed catalog policies month x) {call : Call} {r : call.Result}
    {memory' : Memory} {db' : Db} (hcall : ∀ params, call ≠ .createOrGetRequest params)
    (haccepts : x.memory.Accepts call) (hcomparable : Comparable x (call, info))
    (hwritten : ∀ id, call.subject info = some id →
      Memory.Written id (Memory.Write info call) x.memory memory')
    (hkept : call.subject info = none → memory' = x.memory)
    (hS : Postgres.store call info x.db = (.ok r, db')) (id : String) :
    Mirrors (memory'.slice id) (db'.slice id)
      ∧ (memory'.slice id).record.map (fun r => (r.tenantID, r.idempotencyKey))
        = (x.memory.slice id).record.map fun r => (r.tenantID, r.idempotencyKey) := by
  rcases Postgres.store_ok_slice hS id with ⟨hsubject, hwrite⟩ | ⟨hother, hsame⟩
  · obtain ⟨hmemory, -⟩ := hwritten id hsubject
    refine ⟨?_, hmemory.key hcall⟩
    exact (h.mirrors id).step hmemory hwrite (Memory.aligned hcall hsubject haccepts hcomparable)
  · -- neither store touches another request
    have hslice : memory'.slice id = x.memory.slice id := by
      cases hsubject : call.subject info with
      | none => rw [hkept hsubject]
      | some subject =>
          apply (hwritten subject hsubject).2
          rintro rfl
          exact hother hsubject
    rw [hslice, hsame]
    exact ⟨h.mirrors id, rfl⟩

section Creation

variable {params : CreateRequestParams} {memory' : Memory}

/-- The keys of the in-memory store after a request was created. -/
theorem Agreed.keyed_created (h : Agreed catalog policies month x)
    (hnul : Memory.NulFree params.tenantID)
    (hfree : x.memory.binding params.tenantID params.idempotencyKey = none)
    (hfresh : x.memory.requests (info.ids 0) = none)
    (hmemory : memory' = { x.memory.putRequest (Memory.newRecord params info) with
      idempotency := Function.update x.memory.idempotency
        (Memory.idempotencyKey params.tenantID params.idempotencyKey) (some (info.ids 0)) }) :
    memory'.Keyed := by
  intro tenantID key id htenant
  have hself : memory'.requests (info.ids 0) = some (Memory.newRecord params info) := by
    rw [hmemory]
    exact Memory.putRequest_requests_self x.memory (Memory.newRecord params info)
  have hother : ∀ other, other ≠ info.ids 0 →
      memory'.requests other = x.memory.requests other := by
    intro other hne
    rw [hmemory]
    exact Memory.putRequest_requests_of_ne x.memory (Memory.newRecord params info) hne
  have hbefore := h.keyed tenantID key id htenant
  by_cases hkey : Memory.idempotencyKey tenantID key
      = Memory.idempotencyKey params.tenantID params.idempotencyKey
  · obtain ⟨rfl, rfl⟩ := Memory.idempotencyKey_inj htenant hnul hkey
    have hbound : memory'.binding params.tenantID params.idempotencyKey
        = some (info.ids 0) := by
      rw [hmemory]
      exact Function.update_self ..
    rw [hbound, Option.some.injEq]
    constructor
    · rintro rfl
      exact ⟨_, hself, rfl, rfl⟩
    · rintro ⟨record, hrecord, hnamed⟩
      by_contra hne
      -- another request under the key would have been bound before
      rw [hother id (Ne.symm hne)] at hrecord
      cases hfree.symm.trans (hbefore.mpr ⟨record, hrecord, hnamed⟩)
  · have hbound : memory'.binding tenantID key = x.memory.binding tenantID key := by
      rw [hmemory]
      exact Function.update_of_ne hkey ..
    rw [hbound, hbefore]
    by_cases hid : id = info.ids 0
    · subst hid
      rw [hself, hfresh]
      apply iff_of_false
      · rintro ⟨_, ⟨⟩, -⟩
      · rintro ⟨_, ⟨⟩, rfl, rfl⟩
        exact hkey rfl
    · rw [hother id hid]

/-- Both stores create a request, or both return the one under the key. -/
theorem Agreed.createOrGet (h : Agreed catalog policies month x) {r : Record × Bool} {db' : Db}
    (hready : catalog.Ready params.tenantID) (hfresh : FreshIDs x.db info)
    (hM : (Memory.store (.createOrGetRequest params) info x.memory).2 = memory')
    (hS : Postgres.store (.createOrGetRequest params) info x.db = (.ok r, db')) :
    (∀ id, Mirrors (memory'.slice id) (db'.slice id)) ∧ memory'.Keyed := by
  obtain ⟨record, created⟩ := r
  have hsame := h.binding_eq hready.nulFree params.idempotencyKey
  have hnone : x.memory.requests (info.ids 0) = none := by
    have hrow : x.db.request? (info.ids 0) = none := by
      rw [Db.request?, List.find?_eq_none]
      intro row hrow
      simpa using hfresh.requests row hrow
    rw [← Option.not_isSome_iff_eq_none, requests_isSome_iff (h.mirrors _), hrow]
    exact Bool.false_ne_true
  rcases Memory.createOrGetRequest_cases params info x.memory with
    ⟨bound, hbound, hkept, -⟩ | ⟨hfree, -⟩
  · -- the key is bound, so PostgreSQL does not create a request either
    have hmemory : memory' = x.memory := hM.symm.trans hkept
    cases created with
    | true =>
        obtain ⟨hfree, -⟩ := Postgres.keyLaw.created trivial hS
        cases hfree.symm.trans (hsame.symm.trans hbound)
    | false =>
        rcases Postgres.createOrGetRequest_ok (transact_ok hS) with
          ⟨⟨⟩, -⟩ | ⟨-, hdb, -⟩
        rw [hmemory, hdb]
        exact ⟨h.mirrors, h.keyed⟩
  · have hmemory := hM.symm.trans (congrArg Prod.snd (Memory.createOrGetRequest_of_free hfree))
    refine ⟨?_, h.keyed_created hready.nulFree hfree hnone hmemory⟩
    rcases Postgres.createOrGetRequest_ok (transact_ok hS) with
      ⟨-, modelID, requests, outbox, payload, -, -, -, hdb, hrows, -⟩ | ⟨rfl, -⟩
    · intro id
      rcases Postgres.store_ok_slice hS id with ⟨hsubject, -⟩ | ⟨hother, hslice⟩
      · obtain rfl : info.ids 0 = id := Option.some.inj hsubject
        have hrow : db'.request? (info.ids 0)
            = some (Postgres.newRequest params modelID info) := by
          rw [Db.request?_eq_some_iff, hdb]
          refine ⟨?_, rfl⟩
          rw [hrows]
          exact List.mem_append_right _ (List.mem_singleton_self _)
        refine (h.mirrors (info.ids 0)).created params modelID hnone ?_ hrow ?_ ?_
        · rw [hmemory]
          refine MemorySlice.ext ?_ rfl rfl
          exact Memory.putRequest_requests_self x.memory (Memory.newRecord params info)
        · rw [hdb]
          rfl
        · rw [hdb]
          rfl
      · have hne : id ≠ (Memory.newRecord params info).id := by
          rintro rfl
          exact hother rfl
        have hkept : memory'.slice id = x.memory.slice id := by
          rw [hmemory]
          refine MemorySlice.ext ?_ rfl rfl
          exact Memory.putRequest_requests_of_ne x.memory (Memory.newRecord params info) hne
        rw [hkept, hslice]
        exact h.mirrors id
    · have hbound := Postgres.keyLaw.loaded trivial hS
      cases hbound.symm.trans (hsame.symm.trans hfree)

end Creation

/-- Both stores succeed, or both return an error and none panics. -/
structure Matched (x : Stores) (operation : Call × Info) : Prop where
  succeed : (∃ r, (Memory.store operation.1 operation.2 x.memory).1 = .ok r)
    ↔ ∃ r, (Postgres.server operation.1 operation.2 x.db).1 = .ok r
  calm : (Memory.store operation.1 operation.2 x.memory).1 ≠ .error Memory.nilMap

theorem Agreed.accepted (h : Agreed catalog policies month x) {call : Call} {r : call.Result}
    {memory' : Memory} {db' : Db} (happlies : Applies catalog month x (call, info))
    (hcomparable : Comparable x (call, info)) (haccepts : x.memory.Accepts call)
    (hwritten : ∀ id, call.subject info = some id →
      Memory.Written id (Memory.Write info call) x.memory memory')
    (hkept : call.subject info = none → memory' = x.memory)
    (hM : (Memory.store call info x.memory).2 = memory')
    (hS : Postgres.store call info x.db = (.ok r, db')) :
    Agreed catalog policies month ⟨memory', db'⟩ := by
  have hrequests : (∀ id, Mirrors (memory'.slice id) (db'.slice id)) ∧ memory'.Keyed := by
    by_cases hcall : ∀ params, call ≠ .createOrGetRequest params
    · have hboth := h.written hcall haccepts hcomparable hwritten hkept hS
      refine ⟨fun id => (hboth id).1, ?_⟩
      intro tenantID key id hnul
      -- neither the keys nor the names of the records have changed
      have hkeys : memory'.binding tenantID key = x.memory.binding tenantID key := by
        rw [← hM, Memory.binding, (Memory.store_keys call info x.memory hcall).1]
        rfl
      have hnamed : ∀ memory : Memory, (∃ record, memory.requests id = some record
          ∧ record.tenantID = tenantID ∧ record.idempotencyKey = key)
          ↔ (memory.slice id).record.map (fun r => (r.tenantID, r.idempotencyKey))
            = some (tenantID, key) := by
        intro memory
        simp only [Option.map_eq_some_iff, Prod.mk.injEq]
        rfl
      rw [hkeys, hnamed, (hboth id).2, ← hnamed]
      exact h.keyed tenantID key id hnul
    · simp only [not_forall, not_not] at hcall
      obtain ⟨params, rfl⟩ := hcall
      exact h.createOrGet (happlies.ready _ rfl) happlies.fresh hM hS
  have hframe : Postgres.Frame x.db db' := by
    have hframe := Postgres.store_frame call info x.db
    rwa [hS] at hframe
  refine ⟨hframe.catalog.trans h.catalog_eq, ?_, h.tidy.store_ok hS happlies.sensible, ?_,
    hrequests.2, hrequests.1⟩
  · rw [← h.policies_eq, ← hM]
    exact Memory.store_policies call info x.memory
  · rw [← hM]
    exact Memory.keyLaw.valid call info h.bound

/-- **One call on both stores.** -/
theorem Agreed.step (h : Agreed catalog policies month x)
    (hpolicies : SamePolicies catalog policies) {operation : Call × Info}
    (happlies : Applies catalog month x operation) (hcomparable : Comparable x operation) :
    Matched x operation ∧ Agreed catalog policies month (x.step operation) := by
  obtain ⟨call, info⟩ := operation
  have hiff := h.accepts_iff hpolicies happlies hcomparable
  have hready : ∀ tenantID ∈ call.tenantID?, x.db.catalog.Ready tenantID := by
    rw [h.catalog_eq]
    exact happlies.ready
  have hnames : x.db.catalog.Names call := by
    rw [h.catalog_eq]
    exact happlies.names
  have hcommits := Postgres.store_ok_iff h.tidy hready hnames happlies.fresh happlies.sensible
    hcomparable.regular
  have hserver := Postgres.server_of_holdsTexts hcomparable.texts info x.db
  have houtcome : Memory.Outcome x.memory info call (Memory.store call info x.memory) :=
    Memory.store_outcome call h.bound
  generalize hM : Memory.store call info x.memory = answer at houtcome
  cases houtcome with
  | @refused _ err hrefused hpanic =>
      cases hS : Postgres.store call info x.db with
      | mk result db' =>
          cases result with
          | ok r => exact absurd (hcommits.mp ⟨r, db', hS⟩) (fun hok => hrefused (hiff.mpr hok))
          | error err' =>
              -- a refused call leaves both stores as they were
              have hstep : x.step (call, info) = x := by
                unfold Stores.step
                dsimp only
                rw [hM, hserver, hS, Postgres.store_error hS]
              rw [hstep]
              refine ⟨⟨?_, ?_⟩, h⟩
              · dsimp only
                rw [hM, hserver, hS]
                apply iff_of_false
                · rintro ⟨_, ⟨⟩⟩
                · rintro ⟨_, ⟨⟩⟩
              · dsimp only
                rw [hM]
                exact fun heq => hpanic (Except.error.inj heq)
  | @panicked params record _ hown hstate hnone =>
      -- the completed attempt has been started, so there is a map to write to
      have hstarted := hcomparable.orderly record hown hstate
      unfold MemorySlice.started at hstarted
      rw [show (x.memory.slice params.requestID).attempts = none from hnone] at hstarted
      cases hstarted
  | @done _ result memory' haccepts hwritten hkept =>
      obtain ⟨r, db', hS⟩ := hcommits.mpr (hiff.mp haccepts)
      have hnext := h.accepted happlies hcomparable haccepts hwritten hkept
        (congrArg Prod.snd hM) hS
      have hstep : x.step (call, info) = ⟨memory', db'⟩ := by
        unfold Stores.step
        dsimp only
        rw [hM, hserver, hS]
      rw [hstep]
      refine ⟨⟨?_, ?_⟩, hnext⟩
      · dsimp only
        rw [hM, hserver, hS]
        exact iff_of_true ⟨result, rfl⟩ ⟨r, rfl⟩
      · dsimp only
        rw [hM]
        rintro ⟨⟩

/-! ## Runs -/

end Agreement

namespace Stores

/-- No requests in either store. -/
def start (catalog : Catalog) (policies : String → Option TenantPolicy) : Stores where
  memory := Memory.withPolicies policies
  db := Db.init catalog

def sampleStart : Stores :=
  start (Catalog.sample 100 Catalog.hundred_fits) fun tenantID =>
    if tenantID = "t" then some ⟨"public", none, 60, 1000, 10, 100, 0⟩ else none

end Stores

end Aegis.Persistence
