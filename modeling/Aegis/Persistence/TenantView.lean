/-
  Aegis.Persistence.TenantView

  One tenant's part of the in-memory store.  The maps of the store are shared
  by all tenants and keyed by strings.  `tenantView` is what the calls of one
  tenant read of them, with the times of the records left out.

  `Touched` lists what a call of a tenant can write.  It leaves the view of any
  other tenant as it is (`Touched.view_other`); the `tenantView_*` lemmas say
  what becomes of the tenant's own.
-/

import Aegis.Persistence.Keys
import Aegis.Persistence.MemoryBooks

namespace Aegis.Request

/-- A record with its times left out. -/
def Record.untimed (record : Record) : Record :=
  { record with
    createdAt := Time.zero, updatedAt := Time.zero
    completedAt := record.completedAt.map fun _ => Time.zero }

theorem Record.state_eq_of_untimed {record record' : Record}
    (h : record'.untimed = record.untimed) : record'.state = record.state := by
  have hstate := congrArg Record.state h
  exact hstate

end Aegis.Request

namespace Aegis.Persistence

open Aegis.Request (Record State)

/-- The tenant that a call names.  `ReconcileBudget` names none. -/
def Call.tenantID? : Call → Option String
  | .createOrGetRequest params => some params.tenantID
  | .getRequest tenantID _ => some tenantID
  | .transitionRequest tenantID _ _ _ => some tenantID
  | .startAttempt params => some params.tenantID
  | .completeRequest params => some params.tenantID
  | .failAttempt params => some params.tenantID
  | .cancelRequest tenantID _ _ => some tenantID
  | .tenantPolicy tenantID _ => some tenantID
  | .reserveBudget tenantID _ _ _ => some tenantID
  | .rejectBudget tenantID _ _ _ => some tenantID
  | .reconcileBudget _ _ => none

/-- The request that a call reserves a budget for or charges. -/
def Call.budgeted? : Call → Option String
  | .reserveBudget _ requestID _ _ => some requestID
  | .reconcileBudget requestID _ => some requestID
  | _ => none

namespace Memory

/-! ## One tenant's part of the store -/

structure TenantView where
  requests : String → Option Record
  keys : String → Option String
  attempts : String → Option (Int → Option MemoryAttempt)
  policy : Option TenantPolicy
  reservations : List (Sigma fun _ : String => Int)
  used : Int

def owns (memory : Memory) (tenantID requestID : String) : Bool :=
  (memory.ownRequest tenantID requestID).isSome

def tenantView (tenantID : String) (memory : Memory) : TenantView where
  requests id := (memory.ownRequest tenantID id).map Record.untimed
  keys key := memory.idempotency (idempotencyKey tenantID key)
  attempts id := if memory.owns tenantID id then memory.attempts id else none
  policy := memory.policies tenantID
  reservations := memory.reservations.entries.filter fun entry => memory.owns tenantID entry.1
  used := memory.used tenantID

/-- A tenant identifier without NUL, so that it ends at the first NUL of the
    idempotency map's key. -/
def NulFree (tenantID : String) : Prop := '\x00' ∉ tenantID.toList

instance (tenantID : String) : Decidable (NulFree tenantID) :=
  inferInstanceAs (Decidable (_ ∉ _))

theorem idempotencyKey_inj {tenantID tenantID' key key' : String} (h : NulFree tenantID)
    (h' : NulFree tenantID') (heq : idempotencyKey tenantID key = idempotencyKey tenantID' key') :
    tenantID = tenantID' ∧ key = key' := by
  have hstart : ∀ {t k : String}, NulFree t →
      (idempotencyKey t k).toList.takeWhile (· != '\x00') = t.toList := by
    intro t k ht
    have hkey : (idempotencyKey t k).toList = t.toList ++ '\x00' :: k.toList := by
      simp [idempotencyKey]
    rw [hkey, List.takeWhile_append_of_pos]
    · simp
    · intro c hc
      have hne : c ≠ '\x00' := by
        rintro rfl
        exact ht hc
      simpa using hne
  have htenant : tenantID = tenantID' := by
    apply String.toList_inj.mp
    rw [← hstart (k := key) h, ← hstart (k := key') h', heq]
  refine ⟨htenant, ?_⟩
  rw [htenant] at heq
  exact (String.append_right_inj _).mp heq

/-- Everything that is kept for a request is kept for a stored one, and a key
    leads to a request of its tenant. -/
structure Sound (memory : Memory) : Prop where
  keys : ∀ tenantID key id, NulFree tenantID →
    memory.idempotency (idempotencyKey tenantID key) = some id → memory.owns tenantID id = true
  attempts : ∀ id, memory.requests id = none → memory.attempts id = none
  reservations : ∀ entry ∈ memory.reservations.entries, (memory.requests entry.1).isSome = true

theorem sound_new : Sound new where
  keys := by
    intro tenantID key id hnul hkey
    cases hkey
  attempts := fun _ _ => rfl
  reservations := fun _ h => absurd h List.not_mem_nil

/-! ## What a call of a tenant can do -/

/-- The writes of the tenant's calls. -/
inductive Touched (tenantID : String) (memory : Memory) : Memory → Prop
  | nothing : Touched tenantID memory memory
  | moved {requestID record next} (hown : memory.ownRequest tenantID requestID = some record)
      (hid : next.id = record.id) (htenant : next.tenantID = record.tenantID) :
      Touched tenantID memory (memory.putRequest next)
  | attempted {memory' requestID attempts} (hbefore : Touched tenantID memory memory')
      (howns : memory'.owns tenantID requestID = true) :
      Touched tenantID memory { memory' with
        attempts := Function.update memory'.attempts requestID (some attempts) }
  | created {key record} (hfresh : memory.requests record.id = none)
      (htenant : record.tenantID = tenantID) :
      Touched tenantID memory { memory.putRequest record with
        idempotency := Function.update memory.idempotency (idempotencyKey tenantID key)
          (some record.id) }
  | reserved {requestID amount} (howns : memory.owns tenantID requestID = true) :
      Touched tenantID memory
        { memory with reservations := memory.reservations.insert requestID amount }
  | reconciled {requestID used} (howns : memory.owns tenantID requestID = true) :
      Touched tenantID memory { memory with
        reservations := memory.reservations.erase requestID
        used := Function.update memory.used tenantID used }
  | governed {policy} : Touched tenantID memory (memory.setTenantPolicy tenantID policy)

/-- What the caller sees to: a new identifier is unused, and a budget is
    reserved and reconciled for the caller's requests only. -/
structure Within (tenantID : String) (memory : Memory) (call : Call) (info : Info) : Prop where
  named : ∀ t ∈ call.tenantID?, t = tenantID
  fresh : FreshID memory (call, info)
  own : ∀ id ∈ call.budgeted?, memory.owns tenantID id = true

section Calls

variable {memory : Memory} {tenantID : String} {info : Info}

theorem owns_iff {requestID : String} :
    memory.owns tenantID requestID = true
      ↔ ∃ record, memory.ownRequest tenantID requestID = some record :=
  Option.isSome_iff_exists

theorem owns_of_own {requestID : String} {record : Record}
    (h : memory.ownRequest tenantID requestID = some record) :
    memory.owns tenantID requestID = true :=
  owns_iff.mpr ⟨record, h⟩

theorem ownRequest_of_requests {requestID : String} {record : Record}
    (h : memory.requests requestID = some record) (htenant : record.tenantID = tenantID) :
    memory.ownRequest tenantID requestID = some record := by
  unfold ownRequest
  rw [h, Option.filter_some_pos (by simpa using htenant)]

theorem ownRequest_putRequest_self (memory : Memory) {next : Record}
    (htenant : next.tenantID = tenantID) :
    (memory.putRequest next).ownRequest tenantID next.id = some next :=
  ownRequest_of_requests (putRequest_requests_self ..) htenant

/-- A new version of the tenant's record is the tenant's. -/
theorem owns_putRequest {requestID : String} {record next : Record}
    (hown : memory.ownRequest tenantID requestID = some record) (hid : next.id = record.id)
    (htenant : next.tenantID = record.tenantID) :
    (memory.putRequest next).owns tenantID requestID = true := by
  obtain ⟨-, hkey, howner⟩ := ownRequest_eq_some hown
  rw [← hkey, ← hid]
  exact owns_of_own (ownRequest_putRequest_self memory (htenant.trans howner))

theorem transitionRequest_touched (requestID : String) (source target : State) :
    Touched tenantID memory (transitionRequest tenantID requestID source target info memory).2 := by
  unfold transitionRequest
  split
  · exact .nothing
  · next record hown =>
      split
      · exact .nothing
      · split
        · exact .nothing
        · exact .moved hown rfl rfl

theorem store_touched {call : Call} (h : Within tenantID memory call info) :
    Touched tenantID memory (store call info memory).2 := by
  cases call with
  | createOrGetRequest params =>
      have htenant : params.tenantID = tenantID := h.named _ rfl
      simp only [store, createOrGetRequest, htenant]
      split
      · split
        · split <;> exact .nothing
        · split <;> exact .nothing
      · exact .created h.fresh rfl
  | getRequest t requestID =>
      simp only [store, getRequest]
      split <;> exact .nothing
  | transitionRequest t requestID source target =>
      obtain rfl := h.named _ rfl
      exact transitionRequest_touched requestID source target
  | startAttempt params =>
      have htenant : params.tenantID = tenantID := h.named _ rfl
      simp only [store, startAttempt, htenant]
      split
      · exact .nothing
      · next record hown =>
          split <;> exact .attempted .nothing (owns_of_own hown)
  | completeRequest params =>
      have htenant : params.tenantID = tenantID := h.named _ rfl
      simp only [store, completeRequest, htenant]
      split
      · exact .nothing
      · next record hown =>
          split
          · exact .nothing
          · -- the record is stored before the attempt is marked
            split
            · exact .moved hown rfl rfl
            · exact .attempted (.moved hown rfl rfl) (owns_putRequest hown rfl rfl)
  | failAttempt params =>
      have htenant : params.tenantID = tenantID := h.named _ rfl
      simp only [store, failAttempt, htenant]
      split
      · exact .nothing
      · next record hown =>
          split
          · split
            · exact .nothing
            · exact .moved hown rfl rfl
          · exact .nothing
  | cancelRequest t requestID correlationID =>
      obtain rfl := h.named _ rfl
      simp only [store, cancelRequest]
      split
      · exact .nothing
      · next record hown =>
          split
          · exact .nothing
          · exact .moved hown rfl rfl
  | tenantPolicy t model =>
      simp only [store, tenantPolicy]
      split <;> exact .nothing
  | reserveBudget t requestID amount now =>
      simp only [store, reserveBudget]
      split
      · exact .nothing
      · split
        · exact .nothing
        · exact .reserved (h.own _ rfl)
  | rejectBudget t requestID correlationID requested =>
      obtain rfl := h.named _ rfl
      exact transitionRequest_touched requestID .validated .budgetRejected
  | reconcileBudget requestID actual =>
      simp only [store, reconcileBudget]
      have howns := h.own _ rfl
      split
      · exact .nothing
      · next record hrecord =>
          obtain ⟨record', hown⟩ := owns_iff.mp howns
          obtain ⟨hfound, -, htenant⟩ := ownRequest_eq_some hown
          have hsame : record' = record := Option.some.inj (hfound.symm.trans hrecord)
          rw [← hsame, htenant]
          exact .reconciled howns

end Calls

/-! ## Records under a write -/

section Writes

variable {memory memory' : Memory} {tenantID other : String}

theorem ownRequest_putRequest_of_ne {next : Record} {id : String} (hid : id ≠ next.id) :
    (memory.putRequest next).ownRequest tenantID id = memory.ownRequest tenantID id := by
  unfold ownRequest
  rw [putRequest_requests_of_ne _ _ hid]

theorem ownRequest_of_none {id : String} (h : memory.requests id = none) :
    memory.ownRequest tenantID id = none := by
  unfold ownRequest
  rw [h]
  rfl

/-- A request has one owner. -/
theorem ownRequest_of_other {id : String} {record : Record} (h : memory.requests id = some record)
    (hne : record.tenantID ≠ tenantID) : memory.ownRequest tenantID id = none := by
  unfold ownRequest
  rw [h, Option.filter_some_neg (by simpa using hne)]

theorem owns_of_other {id : String} (h : memory.owns tenantID id = true)
    (hne : other ≠ tenantID) : memory.owns other id = false := by
  obtain ⟨record, hown⟩ := owns_iff.mp h
  obtain ⟨hfound, -, htenant⟩ := ownRequest_eq_some hown
  unfold owns
  rw [ownRequest_of_other hfound (by rw [htenant]; exact hne.symm)]
  rfl

theorem Touched.stored (h : Touched tenantID memory memory') {id : String}
    (hid : (memory.requests id).isSome = true) : (memory'.requests id).isSome = true := by
  induction h with
  | moved hown hnext htenant => exact isSome_putRequest _ id hid
  | created hfresh htenant => exact isSome_putRequest _ id hid
  | attempted hbefore howns ih => exact ih
  | nothing | reserved howns | reconciled howns | governed => exact hid

/-- No request changes its owner. -/
theorem Touched.owns (h : Touched tenantID memory memory') {id : String}
    (hid : memory.owns other id = true) : memory'.owns other id = true := by
  induction h with
  | @moved requestID record next hown hnext htenant =>
      by_cases heq : id = next.id
      · obtain ⟨record', hown'⟩ := owns_iff.mp hid
        obtain ⟨hfound, hkey, -⟩ := ownRequest_eq_some hown
        obtain ⟨hfound', hkey', htenant'⟩ := ownRequest_eq_some hown'
        have hid' : id = requestID := by rw [heq, hnext, hkey]
        have hsame : record' = record := by
          rw [hid', hfound] at hfound'
          exact (Option.some.inj hfound').symm
        rw [heq]
        exact owns_of_own (ownRequest_putRequest_self _ (by rw [htenant, ← hsame, htenant']))
      · unfold Memory.owns
        rw [ownRequest_putRequest_of_ne heq]
        exact hid
  | @created key record hfresh htenant =>
      have hne : id ≠ record.id := by
        rintro rfl
        rw [Memory.owns, ownRequest_of_none hfresh] at hid
        cases hid
      show (memory.putRequest record).owns other id = true
      unfold Memory.owns
      rw [ownRequest_putRequest_of_ne hne]
      exact hid
  | attempted hbefore howns ih => exact ih
  | nothing | reserved howns | reconciled howns | governed => exact hid

/-- If all requests are the tenant's, they still are after its call. -/
theorem Touched.only (h : Touched tenantID memory memory')
    (honly : ∀ id, (memory.requests id).isSome = true → memory.owns tenantID id = true) :
    ∀ id, (memory'.requests id).isSome = true → memory'.owns tenantID id = true := by
  have hput : ∀ next : Record, next.tenantID = tenantID → ∀ id,
      ((memory.putRequest next).requests id).isSome = true →
      (memory.putRequest next).owns tenantID id = true := by
    intro next htenant id hid
    by_cases heq : id = next.id
    · rw [heq]
      exact owns_of_own (ownRequest_putRequest_self memory htenant)
    · rw [putRequest_requests_of_ne _ _ heq] at hid
      rw [Memory.owns, ownRequest_putRequest_of_ne heq]
      exact honly id hid
  induction h with
  | moved hown hid htenant =>
      exact hput _ (htenant.trans (ownRequest_eq_some hown).2.2)
  | created hfresh htenant => exact hput _ htenant
  | attempted hbefore howns ih => exact ih
  | nothing | reserved howns | reconciled howns | governed => exact honly

/-- What is kept for stored requests, when no record is removed. -/
theorem Sound.grow (h : Sound memory) (htouched : Touched tenantID memory memory')
    (hattempts : memory'.attempts = memory.attempts)
    (hreservations : memory'.reservations = memory.reservations) :
    (∀ id, memory'.requests id = none → memory'.attempts id = none)
      ∧ ∀ entry ∈ memory'.reservations.entries, (memory'.requests entry.1).isSome = true := by
  rw [hattempts, hreservations]
  refine ⟨?_, fun entry hentry => htouched.stored (h.reservations entry hentry)⟩
  intro id hid
  apply h.attempts
  apply Option.not_isSome_iff_eq_none.mp
  intro hsome
  have hstored := htouched.stored hsome
  rw [hid] at hstored
  cases hstored

theorem Touched.sound (h : Touched tenantID memory memory') (hnul : NulFree tenantID)
    (hsound : Sound memory) : Sound memory' := by
  induction h with
  | nothing => exact hsound
  | @moved requestID record next hown hnext htenant =>
      have htouched : Touched tenantID memory (memory.putRequest next) := .moved hown hnext htenant
      have hkeys : ∀ t key id, NulFree t →
          (memory.putRequest next).idempotency (idempotencyKey t key) = some id →
          (memory.putRequest next).owns t id = true :=
        fun t key id ht hkey => htouched.owns (hsound.keys t key id ht hkey)
      obtain ⟨hattempts, hreservations⟩ := hsound.grow htouched rfl rfl
      exact ⟨hkeys, hattempts, hreservations⟩
  | @created key record hfresh htenant =>
      have htouched : Touched tenantID memory { memory.putRequest record with
          idempotency := Function.update memory.idempotency (idempotencyKey tenantID key)
            (some record.id) } := .created hfresh htenant
      obtain ⟨hattempts, hreservations⟩ := hsound.grow htouched rfl rfl
      refine ⟨?_, hattempts, hreservations⟩
      intro t key' id ht hkey
      by_cases heq : idempotencyKey t key' = idempotencyKey tenantID key
      · -- the key that has just been bound
        rw [heq] at hkey
        have hid : record.id = id := by
          simpa using hkey
        rw [(idempotencyKey_inj ht hnul heq).1, ← hid]
        exact owns_of_own (ownRequest_putRequest_self memory htenant)
      · have hkey' : memory.idempotency (idempotencyKey t key') = some id := by
          rw [← hkey]
          exact (Function.update_of_ne heq ..).symm
        exact htouched.owns (hsound.keys t key' id ht hkey')
  | @attempted memory' requestID attempts hbefore howns ih =>
      refine ⟨ih.keys, ?_, ih.reservations⟩
      intro id hid
      have hne : id ≠ requestID := by
        rintro rfl
        have hnone : memory'.ownRequest tenantID id = none := ownRequest_of_none hid
        rw [Memory.owns, hnone] at howns
        cases howns
      exact (Function.update_of_ne hne ..).trans (ih.attempts id hid)
  | @reserved requestID amount howns =>
      refine ⟨hsound.keys, hsound.attempts, ?_⟩
      intro entry hentry
      rw [AList.entries_insert] at hentry
      rcases List.mem_cons.mp hentry with rfl | hold
      · obtain ⟨record, hown⟩ := owns_iff.mp howns
        rw [(ownRequest_eq_some hown).1]
        rfl
      · exact hsound.reservations entry (List.mem_of_mem_eraseP hold)
  | reconciled howns =>
      refine ⟨hsound.keys, hsound.attempts, ?_⟩
      intro entry hentry
      exact hsound.reservations entry (List.mem_of_mem_eraseP hentry)
  | governed => exact ⟨hsound.keys, hsound.attempts, hsound.reservations⟩

/-! ## The view of another tenant -/

theorem tenantView_congr
    (hrequests : ∀ id, memory'.ownRequest other id = memory.ownRequest other id)
    (hkeys : ∀ key, memory'.idempotency (idempotencyKey other key)
      = memory.idempotency (idempotencyKey other key))
    (hattempts : ∀ id, memory.owns other id = true → memory'.attempts id = memory.attempts id)
    (hpolicy : memory'.policies other = memory.policies other)
    (hreservations : (memory'.reservations.entries.filter fun entry => memory.owns other entry.1)
      = memory.reservations.entries.filter fun entry => memory.owns other entry.1)
    (hused : memory'.used other = memory.used other) :
    memory'.tenantView other = memory.tenantView other := by
  have howns : ∀ id, memory'.owns other id = memory.owns other id :=
    fun id => congrArg Option.isSome (hrequests id)
  unfold tenantView
  simp only [hrequests, hkeys, hpolicy, hused, howns, hreservations]
  congr 1
  funext id
  split
  · next hid => exact hattempts id hid
  · rfl

theorem Touched.view_other (h : Touched tenantID memory memory') (hne : other ≠ tenantID)
    (hnul : NulFree tenantID) (hnul' : NulFree other) :
    memory'.tenantView other = memory.tenantView other := by
  induction h with
  | nothing => rfl
  | @moved requestID record next hown hnext htenant =>
      obtain ⟨hfound, hkey, howner⟩ := ownRequest_eq_some hown
      refine tenantView_congr ?_ (fun _ => rfl) (fun _ _ => rfl) rfl rfl rfl
      intro id
      by_cases heq : id = next.id
      · rw [heq, ownRequest_of_other (putRequest_requests_self ..),
          hnext, hkey, ownRequest_of_other hfound]
        · rw [howner]
          exact hne.symm
        · rw [htenant, howner]
          exact hne.symm
      · exact ownRequest_putRequest_of_ne heq
  | @created key record hfresh htenant =>
      refine tenantView_congr ?_ ?_ (fun _ _ => rfl) rfl rfl rfl
      · intro id
        by_cases heq : id = record.id
        · rw [heq, ownRequest_of_none hfresh]
          exact ownRequest_of_other (putRequest_requests_self ..) (by rw [htenant]; exact hne.symm)
        · exact ownRequest_putRequest_of_ne heq
      · intro key'
        refine Function.update_of_ne ?_ ..
        intro heq
        exact hne (idempotencyKey_inj hnul' hnul heq).1
  | @attempted memory' requestID attempts hbefore howns ih =>
      rw [← ih]
      refine tenantView_congr (fun _ => rfl) (fun _ => rfl) ?_ rfl rfl rfl
      intro id hid
      refine Function.update_of_ne ?_ ..
      rintro rfl
      rw [owns_of_other howns hne] at hid
      cases hid
  | @reserved requestID amount howns =>
      refine tenantView_congr (fun _ => rfl) (fun _ => rfl) (fun _ _ => rfl) rfl ?_ rfl
      have hnot := owns_of_other howns hne
      rw [AList.entries_insert, List.filter_cons_of_neg (by rw [hnot]; exact Bool.false_ne_true)]
      exact Lib.filter_eraseP_of_not fun entry hentry => by
        rw [← of_decide_eq_true hentry]
        exact hnot
  | @reconciled requestID used howns =>
      refine tenantView_congr (fun _ => rfl) (fun _ => rfl) (fun _ _ => rfl) rfl ?_
        (Function.update_of_ne hne ..)
      have hnot := owns_of_other howns hne
      exact Lib.filter_eraseP_of_not fun entry hentry => by
        rw [← of_decide_eq_true hentry]
        exact hnot
  | governed =>
      exact tenantView_congr (fun _ => rfl) (fun _ => rfl) (fun _ _ => rfl)
        (Function.update_of_ne hne ..) rfl rfl

/-! ## The tenant's own view -/

theorem tenantView_putRequest {id : String} {record next : Record}
    (hown : memory.ownRequest tenantID id = some record) (hid : next.id = record.id)
    (htenant : next.tenantID = record.tenantID) :
    (memory.putRequest next).tenantView tenantID = { memory.tenantView tenantID with
      requests := Function.update (memory.tenantView tenantID).requests id
        (some next.untimed) } := by
  obtain ⟨-, hkey, howner⟩ := ownRequest_eq_some hown
  have hid' : next.id = id := hid.trans hkey
  have hself : (memory.putRequest next).ownRequest tenantID id = some next := by
    rw [← hid']
    exact ownRequest_putRequest_self memory (htenant.trans howner)
  have howns : ∀ x, (memory.putRequest next).owns tenantID x = memory.owns tenantID x := by
    intro x
    by_cases hx : x = id
    · rw [hx, owns_of_own hself, owns_of_own hown]
    · exact congrArg Option.isSome (ownRequest_putRequest_of_ne (by rw [hid']; exact hx))
  unfold tenantView
  simp only [howns]
  congr 1
  funext x
  by_cases hx : x = id
  · rw [hx, hself, Function.update_self]
    rfl
  · rw [Function.update_of_ne hx, ownRequest_putRequest_of_ne (by rw [hid']; exact hx)]

theorem tenantView_attempts {id : String} (howns : memory.owns tenantID id = true)
    (attempts : Int → Option MemoryAttempt) :
    tenantView tenantID { memory with
        attempts := Function.update memory.attempts id (some attempts) }
      = { memory.tenantView tenantID with
          attempts := Function.update (memory.tenantView tenantID).attempts id
            (some attempts) } := by
  unfold tenantView
  congr 1
  funext x
  by_cases hx : x = id
  · rw [hx, Function.update_self]
    exact (if_pos howns).trans (Function.update_self ..)
  · rw [Function.update_of_ne hx]
    show (if memory.owns tenantID x then Function.update memory.attempts id (some attempts) x
      else none) = _
    rw [Function.update_of_ne hx]

theorem tenantView_created {key : String} {record : Record} (hsound : Sound memory)
    (hfresh : memory.requests record.id = none) (htenant : record.tenantID = tenantID) :
    tenantView tenantID { memory.putRequest record with
        idempotency := Function.update memory.idempotency (idempotencyKey tenantID key)
          (some record.id) }
      = { memory.tenantView tenantID with
          requests := Function.update (memory.tenantView tenantID).requests record.id
            (some record.untimed)
          keys := Function.update (memory.tenantView tenantID).keys key (some record.id) } := by
  have hself := ownRequest_putRequest_self memory htenant
  have howns : ∀ x, x ≠ record.id →
      (memory.putRequest record).owns tenantID x = memory.owns tenantID x :=
    fun x hx => congrArg Option.isSome (ownRequest_putRequest_of_ne hx)
  have hnone := hsound.attempts _ hfresh
  unfold tenantView
  congr 1
  · funext x
    by_cases hx : x = record.id
    · rw [hx, Function.update_self]
      exact congrArg (Option.map Record.untimed) hself
    · rw [Function.update_of_ne hx]
      exact congrArg (Option.map Record.untimed) (ownRequest_putRequest_of_ne hx)
  · funext key'
    by_cases hkey : key' = key
    · rw [hkey, Function.update_self]
      exact Function.update_self ..
    · rw [Function.update_of_ne hkey]
      refine Function.update_of_ne ?_ ..
      intro heq
      exact hkey ((String.append_right_inj _).mp heq)
  · funext x
    by_cases hx : x = record.id
    · -- nothing is kept for the new request
      rw [hx]
      show (if (memory.putRequest record).owns tenantID record.id then memory.attempts record.id
        else none) = if memory.owns tenantID record.id then memory.attempts record.id else none
      rw [hnone, ite_self, ite_self]
    · show (if (memory.putRequest record).owns tenantID x then memory.attempts x else none) = _
      rw [howns x hx]
  · apply List.filter_congr
    intro entry hentry
    apply howns
    rintro heq
    have hstored := hsound.reservations entry hentry
    rw [heq, hfresh] at hstored
    cases hstored

theorem tenantView_insert {id : String} (amount : Int) (howns : memory.owns tenantID id = true) :
    tenantView tenantID { memory with reservations := memory.reservations.insert id amount }
      = { memory.tenantView tenantID with
          reservations :=
            ⟨id, amount⟩ :: (memory.tenantView tenantID).reservations.kerase id } := by
  unfold tenantView
  congr 1
  show ((memory.reservations.insert id amount).entries.filter fun entry =>
    memory.owns tenantID entry.1) = _
  rw [AList.entries_insert, List.filter_cons, if_pos howns]
  congr 1
  refine Lib.filter_eraseP_of_imp ?_
  intro entry hentry
  rw [← of_decide_eq_true hentry]
  exact howns

theorem tenantView_reconciled {id : String} (used : Int) (howns : memory.owns tenantID id = true) :
    tenantView tenantID { memory with
        reservations := memory.reservations.erase id
        used := Function.update memory.used tenantID used }
      = { memory.tenantView tenantID with
          reservations := (memory.tenantView tenantID).reservations.kerase id, used } := by
  unfold tenantView
  congr 1
  · refine Lib.filter_eraseP_of_imp ?_
    intro entry hentry
    rw [← of_decide_eq_true hentry]
    exact howns
  · exact Function.update_self ..

/-- `sumMap` adds up the tenant's reservations. -/
theorem sumMap_eq (hsound : Sound memory) (tenantID : String) :
    memory.sumMap tenantID = (memory.tenantView tenantID).reservations.foldl
      (fun total entry => wrap64 (total + entry.2)) 0 := by
  have hown : ∀ entry ∈ memory.reservations.entries, memory.owns tenantID entry.1
      = decide (((memory.requests entry.1).map Record.tenantID).getD "" = tenantID) := by
    intro entry hentry
    obtain ⟨record, hrecord⟩ := Option.isSome_iff_exists.mp (hsound.reservations entry hentry)
    rw [hrecord]
    by_cases htenant : record.tenantID = tenantID
    · rw [owns_of_own (ownRequest_of_requests hrecord htenant)]
      simp [htenant]
    · rw [owns, ownRequest_of_other hrecord htenant]
      simp [htenant]
  unfold sumMap
  show _ = (memory.reservations.entries.filter fun entry => memory.owns tenantID entry.1).foldl _ 0
  rw [List.filter_congr hown, List.foldl_filter]
  simp only [decide_eq_true_eq]

end Writes

end Memory

end Aegis.Persistence
