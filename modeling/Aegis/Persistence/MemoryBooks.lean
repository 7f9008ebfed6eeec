/-
  Aegis.Persistence.MemoryBooks

  The books of the in-memory store: what is reserved and what is used.

  A reservation is kept under its request and belongs to the tenant of that
  request's record, which `ReserveBudget` does not look at.  `Booked` lists what
  a call can do to the books, and `Solvent.store` says which calls keep every
  tenant within its monthly budget.  As long as that holds, no `int64` operation
  on the books overflows, in whatever order `sumMap` visits the map.
-/

import Aegis.Lib.Table
import Aegis.Persistence.Memory

namespace Aegis.Persistence

open Aegis.Lib (sumOf)
open Aegis.Request (Record State)

namespace Memory

/-- The tenant of a request. -/
def owner? (memory : Memory) (id : String) : Option String :=
  (memory.requests id).map Record.tenantID

/-- What a reservation counts for in `sumMap`. -/
def share (memory : Memory) (tenantID : String) (entry : Sigma fun _ : String => Int) : Int :=
  if (memory.owner? entry.1).getD "" = tenantID then entry.2 else 0

/-- The sum of a tenant's reservations, as an integer. -/
def reservedFor (memory : Memory) (tenantID : String) : Int :=
  sumOf (memory.share tenantID) memory.reservations.entries

/-! ## What a call does to the books -/

/-- Nothing is reserved, charged or given another policy. -/
structure SameBooks (memory memory' : Memory) : Prop where
  reservations : memory'.reservations = memory.reservations
  used : memory'.used = memory.used
  policies : memory'.policies = memory.policies

theorem SameBooks.refl (memory : Memory) : SameBooks memory memory := ⟨rfl, rfl, rfl⟩

inductive Booked (memory : Memory) (info : Info) : Call → Memory → Prop
  | kept {call memory'} (hbooks : SameBooks memory memory')
      (howner : ∀ id, memory'.owner? id = memory.owner? id) : Booked memory info call memory'
  | created {params memory'} (hbooks : SameBooks memory memory')
      (howner : memory'.owner?
        = Function.update memory.owner? (info.ids 0) (some params.tenantID)) :
      Booked memory info (.createOrGetRequest params) memory'
  | reserved {tenantID requestID amount now policy}
      (hpolicy : memory.policies tenantID = some policy)
      (hcan : Budget.canReserve policy.monthlyBudget (memory.used tenantID)
        (memory.sumMap tenantID) amount = .ok ()) :
      Booked memory info (.reserveBudget tenantID requestID amount now)
        { memory with reservations := memory.reservations.insert requestID amount }
  | reconciled {requestID actual record} (hrecord : memory.requests requestID = some record) :
      Booked memory info (.reconcileBudget requestID actual) { memory with
        reservations := memory.reservations.erase requestID
        used := Function.update memory.used record.tenantID
          (wrap64 (memory.used record.tenantID + actual)) }

section Calls

variable {memory : Memory} {info : Info}

/-- A new version of the tenant's own record. -/
theorem booked_putRequest {call : Call} {tenantID requestID : String} {record : Record}
    (hown : memory.ownRequest tenantID requestID = some record) (next : Record)
    (hid : next.id = record.id) (htenant : next.tenantID = record.tenantID) :
    Booked memory info call (memory.putRequest next) := by
  obtain ⟨hfound, hkey, -⟩ := ownRequest_eq_some hown
  refine .kept ⟨rfl, rfl, rfl⟩ fun id => ?_
  unfold owner?
  by_cases h : id = next.id
  · rw [h, putRequest_requests_self, hid, hkey, hfound, Option.map_some, Option.map_some, htenant]
  · rw [putRequest_requests_of_ne _ _ h]

theorem booked_refl (call : Call) : Booked memory info call memory :=
  .kept (.refl memory) fun _ => rfl

theorem transitionRequest_booked {call : Call} (tenantID requestID : String)
    (source target : State) :
    Booked memory info call (transitionRequest tenantID requestID source target info memory).2 := by
  unfold transitionRequest
  split
  · exact booked_refl call
  · next record hown =>
      split
      · exact booked_refl call
      · split
        · exact booked_refl call
        · exact booked_putRequest hown _ rfl rfl

theorem store_booked (call : Call) (info : Info) (memory : Memory) :
    Booked memory info call (store call info memory).2 := by
  cases call with
  | createOrGetRequest params =>
      simp only [store, createOrGetRequest]
      split
      · split
        · split <;> exact booked_refl _
        · split <;> exact booked_refl _
      · refine .created ⟨rfl, rfl, rfl⟩ ?_
        funext id
        unfold owner?
        by_cases h : id = info.ids 0
        · rw [h, Function.update_self]
          simp [putRequest]
        · rw [Function.update_of_ne h]
          simp [putRequest, h]
  | getRequest tenantID requestID =>
      simp only [store, getRequest]
      split <;> exact booked_refl _
  | transitionRequest tenantID requestID source target =>
      exact transitionRequest_booked tenantID requestID source target
  | startAttempt params =>
      simp only [store, startAttempt]
      split
      · exact booked_refl _
      · split <;> exact .kept ⟨rfl, rfl, rfl⟩ fun _ => rfl
  | completeRequest params =>
      simp only [store, completeRequest]
      split
      · exact booked_refl _
      · next record hown =>
          split
          · exact booked_refl _
          · -- marking the attempt leaves the books and the records
            have hput : Booked memory info (.completeRequest params) (memory.putRequest
                { record with
                  state := .completed, response := some params.response
                  completedAt := some info.now, updatedAt := info.now
                  promptTokens := params.response.usage.promptTokens
                  completionTokens := params.response.usage.completionTokens
                  costMicroUSD := params.costMicroUSD }) :=
              booked_putRequest hown _ rfl rfl
            split
            · exact hput
            · cases hput with
              | kept hbooks howner =>
                  exact .kept ⟨hbooks.reservations, hbooks.used, hbooks.policies⟩ howner
  | failAttempt params =>
      simp only [store, failAttempt]
      split
      · exact booked_refl _
      · next record hown =>
          split
          · split
            · exact booked_refl _
            · exact booked_putRequest hown _ rfl rfl
          · exact booked_refl _
  | cancelRequest tenantID requestID correlationID =>
      simp only [store, cancelRequest]
      split
      · exact booked_refl _
      · next record hown =>
          split
          · exact booked_refl _
          · exact booked_putRequest hown _ rfl rfl
  | tenantPolicy tenantID model =>
      simp only [store, tenantPolicy]
      split <;> exact booked_refl _
  | reserveBudget tenantID requestID amount now =>
      simp only [store, reserveBudget]
      split
      · exact booked_refl _
      · next policy hpolicy =>
          split
          · exact booked_refl _
          · next hcan => exact .reserved hpolicy hcan
  | rejectBudget tenantID requestID correlationID requested =>
      exact transitionRequest_booked tenantID requestID .validated .budgetRejected
  | reconcileBudget requestID actual =>
      simp only [store, reconcileBudget]
      split
      · exact booked_refl _
      · next record hrecord => exact .reconciled hrecord

theorem store_policies (call : Call) (info : Info) (memory : Memory) :
    (store call info memory).2.policies = memory.policies := by
  have hbooked := store_booked call info memory
  generalize (store call info memory).2 = memory' at hbooked ⊢
  cases hbooked with
  | kept hbooks => exact hbooks.policies
  | created hbooks => exact hbooks.policies
  | reserved => rfl
  | reconciled => rfl

end Calls

/-! ## Sums over the reservations -/

section Sums

variable {memory : Memory} {tenantID : String}

/-- A reservation that is erased leaves the sum. -/
theorem sumOf_kerase {f : (Sigma fun _ : String => Int) → Int}
    {l : List (Sigma fun _ : String => Int)} (hnodup : l.NodupKeys) {id : String} {amount : Int}
    (hmem : ⟨id, amount⟩ ∈ l) : sumOf f l = f ⟨id, amount⟩ + sumOf f (l.kerase id) := by
  obtain ⟨amount', l₁, l₂, -, hsplit, hkerase⟩ :=
    List.exists_of_kerase (a := id) (List.mem_keys_of_mem hmem)
  have hamount : amount' = amount := by
    refine hnodup.eq_of_mk_mem ?_ hmem
    rw [hsplit]
    exact List.mem_append_right _ (List.mem_cons_self ..)
  rw [hkerase, Lib.sumOf_append, hsplit, Lib.sumOf_append, Lib.sumOf_cons, hamount]
  omega

theorem sumOf_kerase_le {f : (Sigma fun _ : String => Int) → Int}
    {l : List (Sigma fun _ : String => Int)} (hnodup : l.NodupKeys) (id : String)
    (hnonneg : ∀ entry ∈ l, 0 ≤ f entry) : sumOf f (l.kerase id) ≤ sumOf f l := by
  by_cases hkey : id ∈ l.keys
  · obtain ⟨amount, hmem⟩ := List.mem_keys.mp hkey
    rw [sumOf_kerase hnodup hmem]
    have := hnonneg _ hmem
    omega
  · have hsame : l.kerase id = l := List.kerase_of_notMem_keys hkey
    exact Int.le_of_eq (congrArg (sumOf f) hsame)

/-- The sum depends on the owners of the reserved requests only. -/
theorem reservedFor_congr {memory' : Memory}
    (hreservations : memory'.reservations = memory.reservations)
    (howner : ∀ entry ∈ memory.reservations.entries,
      memory'.owner? entry.1 = memory.owner? entry.1) :
    memory'.reservedFor tenantID = memory.reservedFor tenantID := by
  unfold reservedFor
  rw [hreservations]
  refine Lib.sumOf_congr fun entry hentry => ?_
  unfold share
  rw [howner entry hentry]

/-- `sumMap` is the sum modulo 2^64. -/
theorem sumMap_eq_wrap64 (memory : Memory) (tenantID : String) :
    memory.sumMap tenantID = wrap64 (memory.reservedFor tenantID) := by
  -- the loop has wrapped the sum of what it has passed
  have hloop : ∀ rest (total : Int), rest.foldl (fun total entry =>
      if ((memory.requests entry.1).map Record.tenantID).getD "" = tenantID then
        wrap64 (total + entry.2)
      else total) (wrap64 total) = wrap64 (total + sumOf (memory.share tenantID) rest) := by
    intro rest
    induction rest with
    | nil =>
        intro total
        rw [List.foldl_nil, Lib.sumOf_nil, Int.add_zero]
    | cons entry rest ih =>
        intro total
        have hnext : (if ((memory.requests entry.1).map Record.tenantID).getD "" = tenantID then
            wrap64 (wrap64 total + entry.2) else wrap64 total)
              = wrap64 (total + memory.share tenantID entry) := by
          unfold share owner?
          split
          · exact wrap64_wrap64_add total entry.2
          · rw [Int.add_zero]
        rw [List.foldl_cons, hnext, ih, Lib.sumOf_cons, Int.add_assoc]
  have hsum := hloop memory.reservations.entries 0
  rw [Int.zero_add] at hsum
  exact hsum

end Sums

/-! ## Solvency -/

/-- Each policy sets a monthly budget, an `int64`. -/
def Budgeted (policies : String → Option TenantPolicy) : Prop :=
  ∀ tenantID policy, policies tenantID = some policy →
    0 < policy.monthlyBudget ∧ policy.monthlyBudget ≤ maxInt64

/-- Every tenant is within its budget, by what it used and what it reserved. -/
structure Solvent (policies : String → Option TenantPolicy) (memory : Memory) : Prop where
  policies_eq : memory.policies = policies
  owned : ∀ entry ∈ memory.reservations.entries, ∃ tenantID policy,
    memory.owner? entry.1 = some tenantID ∧ policies tenantID = some policy
  nonneg : ∀ entry ∈ memory.reservations.entries, 0 ≤ entry.2
  used_nonneg : ∀ tenantID, 0 ≤ memory.used tenantID
  bounded : ∀ tenantID policy, policies tenantID = some policy →
    memory.used tenantID + memory.reservedFor tenantID ≤ policy.monthlyBudget

theorem solvent_withPolicies {policies : String → Option TenantPolicy}
    (hpolicies : Budgeted policies) : Solvent policies (withPolicies policies) where
  policies_eq := rfl
  owned := fun _ h => absurd h List.not_mem_nil
  nonneg := fun _ h => absurd h List.not_mem_nil
  used_nonneg := fun _ => Int.le_refl _
  bounded := fun tenantID policy hpolicy => Int.le_of_lt (hpolicies tenantID policy hpolicy).1

section Solvent

variable {policies : String → Option TenantPolicy} {memory : Memory}

theorem Solvent.share_nonneg (h : Solvent policies memory) (tenantID : String) :
    ∀ entry ∈ memory.reservations.entries, 0 ≤ memory.share tenantID entry := by
  intro entry hentry
  unfold share
  split
  · exact h.nonneg entry hentry
  · exact Int.le_refl _

/-- **`sumMap` does not overflow**, in any order of the map. -/
theorem Solvent.sums_fit (h : Solvent policies memory) (hpolicies : Budgeted policies)
    {tenantID : String} {policy : TenantPolicy} (hpolicy : policies tenantID = some policy)
    {order part : List (Sigma fun _ : String => Int)}
    (horder : order.Perm memory.reservations.entries) (hpart : part <+: order) :
    isInt64 (sumOf (memory.share tenantID) part) = true := by
  obtain ⟨rest, rfl⟩ := hpart
  have hnonneg : ∀ entry ∈ part ++ rest, 0 ≤ memory.share tenantID entry :=
    fun entry hentry => h.share_nonneg tenantID entry (horder.mem_iff.mp hentry)
  have htotal : sumOf (memory.share tenantID) (part ++ rest) = memory.reservedFor tenantID :=
    Lib.sumOf_perm horder
  rw [Lib.sumOf_append] at htotal
  have hlow := Lib.sumOf_nonneg fun entry hentry =>
    hnonneg entry (List.mem_append_left _ hentry)
  have hrest := Lib.sumOf_nonneg fun entry hentry =>
    hnonneg entry (List.mem_append_right _ hentry)
  have hbounded := h.bounded tenantID policy hpolicy
  have hused := h.used_nonneg tenantID
  have hmax := (hpolicies tenantID policy hpolicy).2
  unfold isInt64
  exact decide_eq_true ⟨by omega, by omega⟩

/-- So it returns the sum. -/
theorem Solvent.sumMap_eq (h : Solvent policies memory) (hpolicies : Budgeted policies)
    {tenantID : String} {policy : TenantPolicy} (hpolicy : policies tenantID = some policy) :
    memory.sumMap tenantID = memory.reservedFor tenantID := by
  have hfits := h.sums_fit hpolicies hpolicy (List.Perm.refl _) (List.prefix_refl _)
  rw [sumMap_eq_wrap64]
  exact wrap64_of_isInt64 hfits

/-- What the callers of the store see to: identifiers are new, a budget is
    reserved for the tenant of the request, and the cost is covered by the
    reservation. -/
def SoundCall (memory : Memory) (info : Info) : Call → Prop
  | .createOrGetRequest _ => memory.requests (info.ids 0) = none
  | .reserveBudget tenantID requestID _ _ => memory.owner? requestID = some tenantID
  | .reconcileBudget requestID actual =>
      ∃ amount, memory.reservations.lookup requestID = some amount ∧ 0 ≤ actual ∧ actual ≤ amount
  | _ => True

/-- Other owners, at most of requests without a reservation. -/
theorem Solvent.sameBooks (h : Solvent policies memory) {memory' : Memory}
    (hbooks : SameBooks memory memory')
    (howner : ∀ entry ∈ memory.reservations.entries,
      memory'.owner? entry.1 = memory.owner? entry.1) : Solvent policies memory' := by
  refine ⟨hbooks.policies.trans h.policies_eq, ?_, ?_, ?_, ?_⟩
  · intro entry hentry
    rw [hbooks.reservations] at hentry
    rw [howner entry hentry]
    exact h.owned entry hentry
  · intro entry hentry
    rw [hbooks.reservations] at hentry
    exact h.nonneg entry hentry
  · intro tenantID
    rw [hbooks.used]
    exact h.used_nonneg tenantID
  · intro tenantID policy hpolicy
    rw [hbooks.used, reservedFor_congr hbooks.reservations howner]
    exact h.bounded tenantID policy hpolicy

/-- A reservation that `CanReserve` admits. -/
theorem Solvent.reserved (h : Solvent policies memory) (hpolicies : Budgeted policies)
    {tenantID requestID : String} {amount : Int} {policy : TenantPolicy}
    (hpolicy : memory.policies tenantID = some policy)
    (hcan : Budget.canReserve policy.monthlyBudget (memory.used tenantID)
      (memory.sumMap tenantID) amount = .ok ())
    (hown : memory.owner? requestID = some tenantID) :
    Solvent policies
      { memory with reservations := memory.reservations.insert requestID amount } := by
  rw [h.policies_eq] at hpolicy
  obtain ⟨hpos, hmax⟩ := hpolicies tenantID policy hpolicy
  rw [h.sumMap_eq hpolicies hpolicy] at hcan
  have hfits := Budget.le_of_canReserve hcan hpos hmax
  have hamount := Budget.nonneg_of_canReserve hcan hpos
  have hmem : ∀ {entry}, entry ∈ (memory.reservations.insert requestID amount).entries →
      entry = ⟨requestID, amount⟩ ∨ entry ∈ memory.reservations.entries := by
    intro entry hentry
    rw [AList.entries_insert] at hentry
    rcases List.mem_cons.mp hentry with heq | hold
    · exact Or.inl heq
    · exact Or.inr ((List.kerase_sublist ..).subset hold)
  refine ⟨h.policies_eq, ?_, ?_, h.used_nonneg, ?_⟩
  · intro entry hentry
    rcases hmem hentry with rfl | hold
    · exact ⟨tenantID, policy, hown, hpolicy⟩
    · exact h.owned entry hold
  · intro entry hentry
    rcases hmem hentry with rfl | hold
    · exact hamount
    · exact h.nonneg entry hold
  · intro tenant policy' hpolicy'
    have hbounded := h.bounded tenant policy' hpolicy'
    have hless := sumOf_kerase_le memory.reservations.nodupKeys requestID
      (h.share_nonneg tenant)
    have hsum : reservedFor { memory with
          reservations := memory.reservations.insert requestID amount } tenant
        = memory.share tenant ⟨requestID, amount⟩
          + sumOf (memory.share tenant) (memory.reservations.entries.kerase requestID) := by
      unfold reservedFor
      rw [AList.entries_insert, Lib.sumOf_cons]
      rfl
    dsimp only
    rw [hsum]
    unfold reservedFor at hbounded hfits
    -- it counts for the tenant of the request only
    by_cases htenant : tenant = tenantID
    · subst htenant
      obtain rfl := Option.some.inj (hpolicy.symm.trans hpolicy')
      have hshare : memory.share tenant ⟨requestID, amount⟩ = amount := by
        simp [share, hown]
      omega
    · have hshare : memory.share tenant ⟨requestID, amount⟩ = 0 := by
        simp [share, hown, Ne.symm htenant]
      omega

/-- A reservation that is turned into a cost it covers. -/
theorem Solvent.reconciled (h : Solvent policies memory) (hpolicies : Budgeted policies)
    {requestID : String} {actual amount : Int} {record : Record}
    (hrecord : memory.requests requestID = some record)
    (hamount : memory.reservations.lookup requestID = some amount) (hactual : 0 ≤ actual)
    (hcovered : actual ≤ amount) :
    isInt64 (memory.used record.tenantID + actual) = true
      ∧ Solvent policies { memory with
        reservations := memory.reservations.erase requestID
        used := Function.update memory.used record.tenantID
          (wrap64 (memory.used record.tenantID + actual)) } := by
  have hmem := AList.mem_lookup_iff.mp hamount
  have howner : memory.owner? requestID = some record.tenantID := by
    rw [owner?, hrecord]
    rfl
  have hsplit : ∀ tenant, memory.reservedFor tenant = memory.share tenant ⟨requestID, amount⟩
      + sumOf (memory.share tenant) (memory.reservations.entries.kerase requestID) :=
    fun tenant => sumOf_kerase memory.reservations.nodupKeys hmem
  have hsubset : ∀ {entry}, entry ∈ memory.reservations.entries.kerase requestID →
      entry ∈ memory.reservations.entries := fun hentry =>
    (List.kerase_sublist ..).subset hentry
  have hshare : memory.share record.tenantID ⟨requestID, amount⟩ = amount := by
    simp [share, howner]
  have hrest : 0 ≤ sumOf (memory.share record.tenantID)
      (memory.reservations.entries.kerase requestID) :=
    Lib.sumOf_nonneg fun entry hentry => h.share_nonneg _ entry (hsubset hentry)
  obtain ⟨tenant', policy, howner', hpolicy⟩ := h.owned _ hmem
  obtain rfl := Option.some.inj (howner.symm.trans howner')
  have hbounded := h.bounded record.tenantID policy hpolicy
  rw [hsplit, hshare] at hbounded
  have hused := h.used_nonneg record.tenantID
  have hmax := (hpolicies record.tenantID policy hpolicy).2
  have hfits : isInt64 (memory.used record.tenantID + actual) = true := by
    unfold isInt64
    exact decide_eq_true ⟨by omega, by omega⟩
  refine ⟨hfits, h.policies_eq, ?_, ?_, ?_, ?_⟩
  · exact fun entry hentry => h.owned entry (hsubset hentry)
  · exact fun entry hentry => h.nonneg entry (hsubset hentry)
  · intro tenant
    dsimp only
    rw [wrap64_of_isInt64 hfits]
    by_cases htenant : tenant = record.tenantID
    · rw [htenant, Function.update_self]
      omega
    · rw [Function.update_of_ne htenant]
      exact h.used_nonneg tenant
  · intro tenant policy' hpolicy'
    have hsum : reservedFor { memory with
          reservations := memory.reservations.erase requestID
          used := Function.update memory.used record.tenantID
            (wrap64 (memory.used record.tenantID + actual)) } tenant
        = sumOf (memory.share tenant) (memory.reservations.entries.kerase requestID) := rfl
    dsimp only at hsum ⊢
    rw [hsum, wrap64_of_isInt64 hfits]
    by_cases htenant : tenant = record.tenantID
    · subst htenant
      obtain rfl := Option.some.inj (hpolicy.symm.trans hpolicy')
      rw [Function.update_self]
      omega
    · rw [Function.update_of_ne htenant]
      have hbounded' := h.bounded tenant policy' hpolicy'
      have hzero : memory.share tenant ⟨requestID, amount⟩ = 0 := by
        simp [share, howner, Ne.symm htenant]
      rw [hsplit, hzero] at hbounded'
      omega

/-- **A sound call keeps the store solvent.** -/
theorem Solvent.store (h : Solvent policies memory) (hpolicies : Budgeted policies) {call : Call}
    {info : Info} (hsound : SoundCall memory info call) :
    Solvent policies (Memory.store call info memory).2 := by
  have hbooked := store_booked call info memory
  generalize (Memory.store call info memory).2 = memory' at hbooked
  cases hbooked with
  | kept hbooks howner => exact h.sameBooks hbooks fun entry _ => howner entry.1
  | created hbooks howner =>
      refine h.sameBooks hbooks fun entry hentry => ?_
      -- a reserved request is stored, so its identifier is not the new one
      obtain ⟨tenantID, -, hown, -⟩ := h.owned entry hentry
      have hne : entry.1 ≠ info.ids 0 := by
        intro heq
        have hnone : memory.requests (info.ids 0) = none := hsound
        rw [heq, owner?, hnone] at hown
        cases hown
      rw [howner, Function.update_of_ne hne]
  | reserved hpolicy hcan => exact h.reserved hpolicies hpolicy hcan hsound
  | reconciled hrecord =>
      obtain ⟨amount, hamount, hactual, hcovered⟩ := hsound
      exact (h.reconciled hpolicies hrecord hamount hactual hcovered).2

end Solvent

/-! ## What stays -/

section Stays

variable {memory : Memory} {info : Info} {call : Call} {id : String}

/-- A request keeps its tenant. -/
theorem store_owner (hsound : SoundCall memory info call) {tenantID : String}
    (h : memory.owner? id = some tenantID) :
    (store call info memory).2.owner? id = some tenantID := by
  have hbooked := store_booked call info memory
  generalize (store call info memory).2 = memory' at hbooked
  cases hbooked with
  | kept hbooks howner => rw [howner, h]
  | created hbooks howner =>
      have hne : id ≠ info.ids 0 := by
        rintro rfl
        have hnone : memory.requests (info.ids 0) = none := hsound
        rw [owner?, hnone] at h
        cases h
      rw [howner, Function.update_of_ne hne, h]
  | reserved | reconciled => exact h

/-- A reservation stays until its request is reconciled. -/
theorem store_reservation (h : (memory.reservations.lookup id).isSome = true)
    (hcall : ∀ actual, call ≠ .reconcileBudget id actual) :
    ((store call info memory).2.reservations.lookup id).isSome = true := by
  have hbooked := store_booked call info memory
  generalize (store call info memory).2 = memory' at hbooked
  cases hbooked with
  | kept hbooks howner => rw [hbooks.reservations]; exact h
  | created hbooks howner => rw [hbooks.reservations]; exact h
  | @reserved tenantID requestID amount now policy hpolicy hcan =>
      by_cases hid : id = requestID
      · rw [hid, AList.lookup_insert]
        rfl
      · rw [AList.lookup_insert_ne hid]
        exact h
  | @reconciled requestID actual record hrecord =>
      have hid : id ≠ requestID := by
        rintro rfl
        exact hcall actual rfl
      dsimp only
      rw [AList.lookup_erase_ne hid]
      exact h

/-- A successful `ReserveBudget` leaves a reservation. -/
theorem reserveBudget_ok {tenantID : String} {amount : Int} {memory' : Memory}
    (h : reserveBudget tenantID id amount memory = (.ok (), memory')) :
    (memory'.reservations.lookup id).isSome = true := by
  unfold reserveBudget at h
  split at h
  · cases congrArg Prod.fst h
  · split at h
    · cases congrArg Prod.fst h
    · cases h
      dsimp only
      rw [AList.lookup_insert]
      rfl

/-- A request that `CreateOrGetRequest` created belongs to the tenant. -/
theorem createOrGetRequest_owner {params : CreateRequestParams} {record : Record}
    {memory' : Memory}
    (h : createOrGetRequest params info memory = (.ok (record, true), memory')) :
    memory'.owner? record.id = some params.tenantID := by
  unfold createOrGetRequest at h
  dsimp only at h
  split at h
  · split at h
    · split at h
      · cases congrArg Prod.fst h
      · cases congrArg Prod.snd (Except.ok.inj (congrArg Prod.fst h))
    · split at h
      · cases congrArg Prod.fst h
      · cases congrArg Prod.snd (Except.ok.inj (congrArg Prod.fst h))
  · cases h
    simp [owner?, putRequest]

end Stays

end Memory

end Aegis.Persistence
