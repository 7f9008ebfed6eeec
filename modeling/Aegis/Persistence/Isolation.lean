/-
  Aegis.Persistence.Isolation

  Tenants of one in-memory store do not interfere.  The answer to a tenant's
  call, and its view of the store afterwards, depend on its view before
  (`store_alike`), and the calls of the others do not change that.  So the
  operations of all other tenants can be deleted from a run: the tenant gets
  the same answers.

  `ReserveBudget` and `ReconcileBudget` do not look at the owner of the request,
  so this needs callers that give them requests of their own only.
-/

import Aegis.Lib.Runs
import Aegis.Persistence.TenantView

namespace Aegis.Persistence

open Aegis.Request (Record State)

/-- A result with the times of its record left out. -/
def Call.untimed : (call : Call) → Except GoError call.Result → Except GoError call.Result
  | .createOrGetRequest _, .ok (record, created) => .ok (record.untimed, created)
  | .getRequest _ _, .ok record => .ok record.untimed
  | _, result => result

/-- The request that the caller has obtained. -/
def Call.obtained : (call : Call) → Except GoError call.Result → Option String
  | .createOrGetRequest _, .ok (record, _) => some record.id
  | _, _ => none

namespace Memory

/-! ## Two stores that a tenant cannot tell apart -/

section Alike

variable {memory memory' : Memory} {tenantID : String} {info info' : Info}

/-- The answers are the same but for times, and the tenant still sees the same. -/
def Agree (tenantID : String) (call : Call)
    (answer answer' : Except GoError call.Result × Memory) : Prop :=
  call.untimed answer'.1 = call.untimed answer.1
    ∧ answer'.2.tenantView tenantID = answer.2.tenantView tenantID

theorem ownRequest_alike (hview : memory'.tenantView tenantID = memory.tenantView tenantID)
    (id : String) :
    (memory.ownRequest tenantID id = none ∧ memory'.ownRequest tenantID id = none)
      ∨ ∃ record record', memory.ownRequest tenantID id = some record
          ∧ memory'.ownRequest tenantID id = some record' ∧ record'.untimed = record.untimed := by
  have hid := congrFun (congrArg TenantView.requests hview) id
  simp only [tenantView] at hid
  cases hown : memory.ownRequest tenantID id with
  | none =>
      rw [hown, Option.map_none, Option.map_eq_none_iff] at hid
      exact Or.inl ⟨rfl, hid⟩
  | some record =>
      rw [hown, Option.map_some, Option.map_eq_some_iff] at hid
      obtain ⟨record', hown', huntimed⟩ := hid
      exact Or.inr ⟨record, record', rfl, hown', huntimed⟩

theorem owns_alike (hview : memory'.tenantView tenantID = memory.tenantView tenantID)
    (id : String) : memory'.owns tenantID id = memory.owns tenantID id := by
  unfold owns
  rcases ownRequest_alike hview id with ⟨h, h'⟩ | ⟨record, record', h, h', -⟩
  · rw [h, h']
  · rw [h, h', Option.isSome_some, Option.isSome_some]

theorem attempts_alike (hview : memory'.tenantView tenantID = memory.tenantView tenantID)
    {id : String} (howns : memory.owns tenantID id = true) :
    memory'.attempts id = memory.attempts id := by
  have hid := congrFun (congrArg TenantView.attempts hview) id
  simp only [tenantView, owns_alike hview id] at hid
  rwa [if_pos howns, if_pos howns] at hid

/-- Both stores write a new version of the tenant's record. -/
theorem putRequest_alike (hview : memory'.tenantView tenantID = memory.tenantView tenantID)
    {id : String} {record record' : Record} (hown : memory.ownRequest tenantID id = some record)
    (hown' : memory'.ownRequest tenantID id = some record') {next next' : Record}
    (hid : next.id = record.id) (hid' : next'.id = record'.id)
    (htenant : next.tenantID = record.tenantID) (htenant' : next'.tenantID = record'.tenantID)
    (hnext : next'.untimed = next.untimed) :
    (memory'.putRequest next').tenantView tenantID
      = (memory.putRequest next).tenantView tenantID := by
  rw [tenantView_putRequest hown hid htenant, tenantView_putRequest hown' hid' htenant', hview,
    hnext]

/-- Both stores write the attempts of a request of the tenant. -/
theorem putAttempts_alike (hview : memory'.tenantView tenantID = memory.tenantView tenantID)
    {id : String} (howns : memory.owns tenantID id = true)
    (attempts : Int → Option MemoryAttempt) :
    tenantView tenantID { memory' with
        attempts := Function.update memory'.attempts id (some attempts) }
      = tenantView tenantID { memory with
        attempts := Function.update memory.attempts id (some attempts) } := by
  have howns' : memory'.owns tenantID id = true := by rw [owns_alike hview, howns]
  rw [tenantView_attempts howns, tenantView_attempts howns', hview]

theorem transitionRequest_alike
    (hview : memory'.tenantView tenantID = memory.tenantView tenantID) (requestID : String)
    (source target : State) :
    Agree tenantID (.transitionRequest tenantID requestID source target)
      (transitionRequest tenantID requestID source target info memory)
      (transitionRequest tenantID requestID source target info' memory') := by
  unfold transitionRequest
  rcases ownRequest_alike hview requestID with ⟨hown, hown'⟩ | ⟨record, record', hown, hown', heq⟩
  · rw [hown, hown']
    exact ⟨rfl, hview⟩
  · rw [hown, hown']
    dsimp only
    rw [Record.state_eq_of_untimed heq]
    split
    · exact ⟨rfl, hview⟩
    · cases Request.transition source target with
      | error err => exact ⟨rfl, hview⟩
      | ok u =>
          refine ⟨rfl, putRequest_alike hview hown hown' rfl rfl rfl rfl ?_⟩
          exact congrArg (fun r : Record => { r with state := target }) heq

theorem createOrGetRequest_alike {params : CreateRequestParams}
    (hview : memory'.tenantView tenantID = memory.tenantView tenantID)
    (hsound : Sound memory) (hsound' : Sound memory') (hnul : NulFree tenantID)
    (hids : info'.ids 0 = info.ids 0) (htenant : params.tenantID = tenantID)
    (hfresh : memory.requests (info.ids 0) = none)
    (hfresh' : memory'.requests (info.ids 0) = none) :
    Agree tenantID (.createOrGetRequest params) (createOrGetRequest params info memory)
      (createOrGetRequest params info' memory') := by
  have hkeys := congrFun (congrArg TenantView.keys hview) params.idempotencyKey
  simp only [tenantView] at hkeys
  unfold createOrGetRequest
  dsimp only
  rw [htenant, hkeys, hids]
  cases hkey : memory.idempotency (idempotencyKey tenantID params.idempotencyKey) with
  | some id =>
      dsimp only
      -- the key leads to the tenant's own record in both stores
      rcases ownRequest_alike hview id with ⟨hown, -⟩ | ⟨record, record', hown, hown', heq⟩
      · have howns := hsound.keys tenantID _ id hnul hkey
        rw [owns, hown] at howns
        cases howns
      · rw [(ownRequest_eq_some hown).1, (ownRequest_eq_some hown').1]
        dsimp only
        have hhash : record'.canonicalHash = record.canonicalHash := by
          have := congrArg Record.canonicalHash heq
          exact this
        rw [hhash]
        split
        · exact ⟨rfl, hview⟩
        · refine ⟨?_, hview⟩
          show Except.ok (record'.untimed, false) = Except.ok (record.untimed, false)
          rw [heq]
  | none =>
      refine ⟨rfl, ?_⟩
      refine Eq.trans (tenantView_created hsound' ?_ rfl) ?_
      · exact hfresh'
      · refine Eq.trans ?_ (tenantView_created hsound ?_ rfl).symm
        · rw [hview]
          rfl
        · exact hfresh

theorem startAttempt_alike {params : AttemptParams}
    (hview : memory'.tenantView tenantID = memory.tenantView tenantID)
    (htenant : params.tenantID = tenantID) :
    Agree tenantID (.startAttempt params) (startAttempt params memory)
      (startAttempt params memory') := by
  unfold startAttempt
  rw [htenant]
  rcases ownRequest_alike hview params.requestID with
    ⟨hown, hown'⟩ | ⟨record, record', hown, hown', -⟩
  · rw [hown, hown']
    exact ⟨rfl, hview⟩
  · have hattempts := attempts_alike hview (owns_of_own hown)
    rw [hown, hown']
    dsimp only
    rw [hattempts]
    split
    · exact ⟨rfl, putAttempts_alike hview (owns_of_own hown) _⟩
    · exact ⟨rfl, putAttempts_alike hview (owns_of_own hown) _⟩

theorem completeRequest_alike {params : CompletionParams}
    (hview : memory'.tenantView tenantID = memory.tenantView tenantID)
    (htenant : params.tenantID = tenantID) :
    Agree tenantID (.completeRequest params) (completeRequest params info memory)
      (completeRequest params info' memory') := by
  unfold completeRequest
  rw [htenant]
  rcases ownRequest_alike hview params.requestID with
    ⟨hown, hown'⟩ | ⟨record, record', hown, hown', heq⟩
  · rw [hown, hown']
    exact ⟨rfl, hview⟩
  · rw [hown, hown']
    dsimp only
    rw [Record.state_eq_of_untimed heq]
    split
    · exact ⟨rfl, hview⟩
    · have hcompleted := congrArg (fun r : Record => { r with
        state := .completed, response := some params.response, completedAt := some Time.zero
        promptTokens := params.response.usage.promptTokens
        completionTokens := params.response.usage.completionTokens
        costMicroUSD := params.costMicroUSD }) heq
      rw [putRequest_attempts, putRequest_attempts, attempts_alike hview (owns_of_own hown)]
      cases memory.attempts params.requestID with
      | none => exact ⟨rfl, putRequest_alike hview hown hown' rfl rfl rfl rfl hcompleted⟩
      | some inner =>
          refine ⟨rfl, putAttempts_alike ?_ ?_ _⟩
          · exact putRequest_alike hview hown hown' rfl rfl rfl rfl hcompleted
          · exact owns_putRequest hown rfl rfl

theorem failAttempt_alike {params : FailureParams}
    (hview : memory'.tenantView tenantID = memory.tenantView tenantID)
    (htenant : params.tenantID = tenantID) :
    Agree tenantID (.failAttempt params) (failAttempt params info memory)
      (failAttempt params info' memory') := by
  unfold failAttempt
  rw [htenant]
  rcases ownRequest_alike hview params.requestID with
    ⟨hown, hown'⟩ | ⟨record, record', hown, hown', heq⟩
  · rw [hown, hown']
    exact ⟨rfl, hview⟩
  · rw [hown, hown']
    dsimp only
    rw [Record.state_eq_of_untimed heq]
    split
    · split
      · exact ⟨rfl, hview⟩
      · refine ⟨rfl, putRequest_alike hview hown hown' rfl rfl rfl rfl ?_⟩
        exact congrArg (fun r : Record => { r with
          state := .failed, failureCategory := params.category
          partialStreamed := params.isPartial, completedAt := some Time.zero }) heq
    · exact ⟨rfl, hview⟩

theorem cancelRequest_alike (requestID correlationID : String)
    (hview : memory'.tenantView tenantID = memory.tenantView tenantID) :
    Agree tenantID (.cancelRequest tenantID requestID correlationID)
      (cancelRequest tenantID requestID info memory)
      (cancelRequest tenantID requestID info' memory') := by
  unfold cancelRequest
  rcases ownRequest_alike hview requestID with
    ⟨hown, hown'⟩ | ⟨record, record', hown, hown', heq⟩
  · rw [hown, hown']
    exact ⟨rfl, hview⟩
  · rw [hown, hown']
    dsimp only
    rw [Record.state_eq_of_untimed heq]
    split
    · exact ⟨rfl, hview⟩
    · refine ⟨rfl, putRequest_alike hview hown hown' rfl rfl rfl rfl ?_⟩
      exact congrArg (fun r : Record => { r with
        state := .cancelled, completedAt := some Time.zero }) heq

theorem reserveBudget_alike {requestID : String} {amount : Int} {now : Time}
    (hview : memory'.tenantView tenantID = memory.tenantView tenantID)
    (hsound : Sound memory) (hsound' : Sound memory')
    (howns : memory.owns tenantID requestID = true) :
    Agree tenantID (.reserveBudget tenantID requestID amount now)
      (reserveBudget tenantID requestID amount memory)
      (reserveBudget tenantID requestID amount memory') := by
  have hpolicy : memory'.policies tenantID = memory.policies tenantID :=
    congrArg TenantView.policy hview
  have hused : memory'.used tenantID = memory.used tenantID := congrArg TenantView.used hview
  have hsum : memory'.sumMap tenantID = memory.sumMap tenantID := by
    rw [sumMap_eq hsound, sumMap_eq hsound', hview]
  have howns' : memory'.owns tenantID requestID = true := by rw [owns_alike hview, howns]
  unfold reserveBudget
  rw [hpolicy, hused, hsum]
  cases memory.policies tenantID with
  | none => exact ⟨rfl, hview⟩
  | some policy =>
      dsimp only
      cases Budget.canReserve policy.monthlyBudget (memory.used tenantID)
          (memory.sumMap tenantID) amount with
      | error err => exact ⟨rfl, hview⟩
      | ok u =>
          refine ⟨rfl, ?_⟩
          rw [tenantView_insert amount howns, tenantView_insert amount howns', hview]

theorem reconcileBudget_alike {requestID : String} {actual : Int}
    (hview : memory'.tenantView tenantID = memory.tenantView tenantID)
    (howns : memory.owns tenantID requestID = true) :
    Agree tenantID (.reconcileBudget requestID actual) (reconcileBudget requestID actual memory)
      (reconcileBudget requestID actual memory') := by
  have hused : memory'.used tenantID = memory.used tenantID := congrArg TenantView.used hview
  have howns' : memory'.owns tenantID requestID = true := by rw [owns_alike hview, howns]
  obtain ⟨record, hown⟩ := owns_iff.mp howns
  obtain ⟨record', hown'⟩ := owns_iff.mp howns'
  obtain ⟨hfound, -, htenant⟩ := ownRequest_eq_some hown
  obtain ⟨hfound', -, htenant'⟩ := ownRequest_eq_some hown'
  unfold reconcileBudget
  rw [hfound, hfound']
  dsimp only
  rw [htenant, htenant', hused]
  refine ⟨rfl, ?_⟩
  rw [tenantView_reconciled _ howns, tenantView_reconciled _ howns', hview]

/-- **A tenant's answers depend on its view.**  In two stores that show the
    tenant the same, its call is answered alike and leaves them so. -/
theorem store_alike {call : Call}
    (hview : memory'.tenantView tenantID = memory.tenantView tenantID)
    (hsound : Sound memory) (hsound' : Sound memory') (hnul : NulFree tenantID)
    (hids : info'.ids 0 = info.ids 0) (hwithin : Within tenantID memory call info)
    (hwithin' : Within tenantID memory' call info') :
    Agree tenantID call (store call info memory) (store call info' memory') := by
  cases call with
  | createOrGetRequest params =>
      have hfresh' : memory'.requests (info'.ids 0) = none := hwithin'.fresh
      rw [hids] at hfresh'
      exact createOrGetRequest_alike hview hsound hsound' hnul hids (hwithin.named _ rfl)
        hwithin.fresh hfresh'
  | getRequest t requestID =>
      obtain rfl := hwithin.named _ rfl
      simp only [store, getRequest]
      rcases ownRequest_alike hview requestID with
        ⟨hown, hown'⟩ | ⟨record, record', hown, hown', heq⟩
      · rw [hown, hown']
        exact ⟨rfl, hview⟩
      · rw [hown, hown']
        exact ⟨congrArg Except.ok heq, hview⟩
  | transitionRequest t requestID source target =>
      obtain rfl := hwithin.named _ rfl
      exact transitionRequest_alike hview requestID source target
  | startAttempt params => exact startAttempt_alike hview (hwithin.named _ rfl)
  | completeRequest params => exact completeRequest_alike hview (hwithin.named _ rfl)
  | failAttempt params => exact failAttempt_alike hview (hwithin.named _ rfl)
  | cancelRequest t requestID correlationID =>
      obtain rfl := hwithin.named _ rfl
      exact cancelRequest_alike requestID correlationID hview
  | tenantPolicy t model =>
      obtain rfl := hwithin.named _ rfl
      have hpolicy : memory'.policies t = memory.policies t := congrArg TenantView.policy hview
      simp only [store, tenantPolicy]
      rw [hpolicy]
      cases memory.policies t with
      | none => exact ⟨rfl, hview⟩
      | some policy => exact ⟨rfl, hview⟩
  | reserveBudget t requestID amount now =>
      obtain rfl := hwithin.named _ rfl
      exact reserveBudget_alike hview hsound hsound' (hwithin.own _ rfl)
  | rejectBudget t requestID correlationID requested =>
      obtain rfl := hwithin.named _ rfl
      exact transitionRequest_alike hview requestID .validated .budgetRejected
  | reconcileBudget requestID actual =>
      exact reconcileBudget_alike hview (hwithin.own _ rfl)

/-- A request is obtained from the tenant's own key, or new. -/
theorem owns_obtained {call : Call} (hsound : Sound memory) (hnul : NulFree tenantID)
    (hwithin : Within tenantID memory call info) {id : String}
    (hid : call.obtained (store call info memory).1 = some id) :
    (store call info memory).2.owns tenantID id = true := by
  cases call with
  | createOrGetRequest params =>
      have htenant : params.tenantID = tenantID := hwithin.named _ rfl
      simp only [store, createOrGetRequest, htenant] at hid ⊢
      cases hkey : memory.idempotency (idempotencyKey tenantID params.idempotencyKey) with
      | some existingID =>
          have howns := hsound.keys tenantID _ existingID hnul hkey
          obtain ⟨record, hown⟩ := owns_iff.mp howns
          obtain ⟨hfound, hrecord, -⟩ := ownRequest_eq_some hown
          simp only [hkey, hfound] at hid ⊢
          split at hid
          · cases hid
          · next hhash =>
              cases hid
              rw [if_neg hhash, hrecord]
              exact howns
      | none =>
          simp only [hkey] at hid ⊢
          cases hid
          exact owns_of_own (ownRequest_putRequest_self memory rfl)
  | _ => cases hid

end Alike

end Memory

/-! ## Runs of several tenants -/

/-- An operation of a tenant on the store. -/
inductive Operation where
  | call (tenantID : String) (call : Call) (info : Info)
      (named : ∀ t ∈ call.tenantID?, t = tenantID)
  | setTenantPolicy (tenantID : String) (policy : TenantPolicy)

namespace Operation

def tenantID : Operation → String
  | .call tenantID _ _ _ => tenantID
  | .setTenantPolicy tenantID _ => tenantID

/-- What it returns, but for times. -/
def answer (memory : Memory) : Operation → Option (Σ call : Call, Except GoError call.Result)
  | .call _ method info _ => some ⟨method, method.untimed (Memory.store method info memory).1⟩
  | .setTenantPolicy _ _ => none

/-- The same operation, at another time. -/
inductive Same : Operation → Operation → Prop
  | call {tenantID call info info' named} (hids : info'.ids 0 = info.ids 0) :
      Same (.call tenantID call info named) (.call tenantID call info' named)
  | setTenantPolicy {tenantID policy} :
      Same (.setTenantPolicy tenantID policy) (.setTenantPolicy tenantID policy)

end Operation

/-- The store with a record of who has obtained which request. -/
structure Shared where
  memory : Memory
  obtained : List (String × String) := []

namespace Shared

open Memory (NulFree Touched Sound Within tenantView)

def step (x : Shared) : Operation → Shared
  | .call tenantID call info _ =>
      let answer := Memory.store call info x.memory
      { memory := answer.2
        obtained := ((call.obtained answer.1).map (tenantID, ·)).toList ++ x.obtained }
  | .setTenantPolicy tenantID policy =>
      { x with memory := x.memory.setTenantPolicy tenantID policy }

/-- The tenant's identifier has no NUL, a new request's identifier is unused,
    and a budget is reserved and reconciled only for requests that the tenant
    has obtained. -/
def Proper (x : Shared) : Operation → Prop
  | .call tenantID call info _ =>
      NulFree tenantID ∧ Memory.FreshID x.memory (call, info)
        ∧ ∀ id ∈ call.budgeted?, (tenantID, id) ∈ x.obtained
  | .setTenantPolicy tenantID _ => NulFree tenantID

/-- The answers to the tenant's operations. -/
def answers (tenantID : String) : Shared → List Operation →
    List (Option (Σ call : Call, Except GoError call.Result)) :=
  Lib.observed step (fun x operation => operation.answer x.memory)
    fun operation => operation.tenantID == tenantID

/-- What has been obtained is the tenant's. -/
def Obtained (x : Shared) : Prop :=
  ∀ entry ∈ x.obtained, x.memory.owns entry.1 entry.2 = true

section Steps

variable {x y : Shared} {tenantID : String}

theorem within_of_proper {call : Call} {info : Info} {named : ∀ t ∈ call.tenantID?, t = tenantID}
    (hobtained : Obtained x) (hproper : x.Proper (.call tenantID call info named)) :
    Within tenantID x.memory call info where
  named := named
  fresh := hproper.2.1
  own := fun id hid => hobtained _ (hproper.2.2 id hid)

theorem Proper.nulFree {operation : Operation} (h : x.Proper operation) :
    NulFree operation.tenantID := by
  cases operation with
  | call tenantID call info named => exact h.1
  | setTenantPolicy tenantID policy => exact h

theorem step_touched {operation : Operation} (hobtained : Obtained x)
    (hproper : x.Proper operation) :
    Touched operation.tenantID x.memory (x.step operation).memory := by
  cases operation with
  | call tenantID call info named =>
      exact Memory.store_touched (within_of_proper hobtained hproper)
  | setTenantPolicy tenantID policy => exact .governed

theorem obtained_step {operation : Operation} (hsound : Sound x.memory) (hobtained : Obtained x)
    (hproper : x.Proper operation) : Obtained (x.step operation) := by
  have htouched := step_touched hobtained hproper
  have hkept : ∀ entry ∈ x.obtained, (x.step operation).memory.owns entry.1 entry.2 = true :=
    fun entry hentry => htouched.owns (hobtained entry hentry)
  cases operation with
  | setTenantPolicy tenantID policy => exact hkept
  | call tenantID call info named =>
      intro entry hentry
      rcases List.mem_append.mp hentry with hnew | hold
      · obtain ⟨id, hid, rfl⟩ := Option.map_eq_some_iff.mp (Option.mem_toList.mp hnew)
        exact Memory.owns_obtained hsound hproper.1 (within_of_proper hobtained hproper) hid
      · exact hkept entry hold

/-- The tenant sees the same in both stores, and the second one holds its
    requests only. -/
structure Indistinct (tenantID : String) (x y : Shared) : Prop where
  view : y.memory.tenantView tenantID = x.memory.tenantView tenantID
  sound : Sound x.memory
  sound' : Sound y.memory
  only : ∀ id, (y.memory.requests id).isSome = true → y.memory.owns tenantID id = true
  obtained : Obtained x

theorem Indistinct.hidden {operation : Operation} (h : Indistinct tenantID x y)
    (hnul : NulFree tenantID) (hproper : x.Proper operation)
    (hother : operation.tenantID ≠ tenantID) : Indistinct tenantID (x.step operation) y := by
  have htouched := step_touched h.obtained hproper
  have hsame := htouched.view_other (Ne.symm hother) hproper.nulFree hnul
  exact ⟨h.view.trans hsame.symm, htouched.sound hproper.nulFree h.sound, h.sound', h.only,
    obtained_step h.sound h.obtained hproper⟩

theorem Indistinct.fresh {call : Call} {info info' : Info} (h : Indistinct tenantID x y)
    (hids : info'.ids 0 = info.ids 0) (hfresh : Memory.FreshID x.memory (call, info)) :
    Memory.FreshID y.memory (call, info') := by
  cases call with
  | createOrGetRequest params =>
      show y.memory.requests (info'.ids 0) = none
      rw [hids]
      have hnone : x.memory.requests (info.ids 0) = none := hfresh
      apply Option.not_isSome_iff_eq_none.mp
      intro hsome
      -- a request of the second store is the tenant's, so it is in the first
      have howns := h.only _ hsome
      rw [Memory.owns_alike h.view, Memory.owns, Memory.ownRequest_of_none hnone] at howns
      cases howns
  | _ => trivial

theorem Indistinct.visible {operation operation' : Operation} (h : Indistinct tenantID x y)
    (hproper : x.Proper operation) (hown : operation.tenantID = tenantID)
    (hsame : operation.Same operation') :
    operation'.tenantID = tenantID ∧ operation'.answer y.memory = operation.answer x.memory
      ∧ Indistinct tenantID (x.step operation) (y.step operation') := by
  have hsound := (step_touched h.obtained hproper).sound hproper.nulFree h.sound
  have hobtained := obtained_step h.sound h.obtained hproper
  cases hsame with
  | @call t call info info' named hids =>
      obtain rfl : t = tenantID := hown
      have hwithin := within_of_proper h.obtained hproper
      have hwithin' : Within t y.memory call info' := by
        refine ⟨named, h.fresh hids hproper.2.1, ?_⟩
        intro id hid
        rw [Memory.owns_alike h.view]
        exact hwithin.own id hid
      obtain ⟨hanswer, hview⟩ :=
        Memory.store_alike h.view h.sound h.sound' hproper.1 hids hwithin hwithin'
      have htouched' := Memory.store_touched hwithin'
      refine ⟨rfl, ?_, hview, hsound, htouched'.sound hproper.1 h.sound', htouched'.only h.only,
        hobtained⟩
      exact congrArg (fun result => some (Sigma.mk call result)) hanswer
  | @setTenantPolicy t policy =>
      obtain rfl : t = tenantID := hown
      have htouched' : Touched t y.memory (y.memory.setTenantPolicy t policy) := .governed
      have hpolicy : ∀ memory : Memory, (memory.setTenantPolicy t policy).tenantView t
          = { memory.tenantView t with policy := some policy } := by
        intro memory
        unfold tenantView
        congr 1
        exact Function.update_self ..
      refine ⟨rfl, rfl, ?_, hsound, htouched'.sound hproper h.sound', htouched'.only h.only,
        hobtained⟩
      show (y.memory.setTenantPolicy t policy).tenantView t
        = (x.memory.setTenantPolicy t policy).tenantView t
      rw [hpolicy, hpolicy, h.view]

end Steps

/-- A new store. -/
def new : Shared := ⟨Memory.new, []⟩

theorem indistinct_new (tenantID : String) : Indistinct tenantID new new where
  view := rfl
  sound := Memory.sound_new
  sound' := Memory.sound_new
  only := fun _ h => (Bool.false_ne_true h).elim
  obtained := fun _ h => absurd h List.not_mem_nil

/-- **Tenants do not interfere.**  Delete the operations of all other tenants
    from a run, and let the tenant's operations be made at any other times: it
    gets the same answers, but for the times in its records. -/
theorem other_tenants_deleted (tenantID : String) (hnul : NulFree tenantID)
    (operations operations' : List Operation)
    (hproper : ∀ t ∈ Lib.trace step new operations, t.1.Proper t.2.1)
    (hdeleted : List.Forall₂ Operation.Same
      (operations.filter fun operation => operation.tenantID == tenantID) operations') :
    answers tenantID new operations' = answers tenantID new operations := by
  refine Lib.observed_purge (R := Indistinct tenantID) (C := Proper) ?_ ?_
    (indistinct_new tenantID) hproper hdeleted
  · intro x y operation h hproper hother
    exact h.hidden hnul hproper (by simpa using hother)
  · intro x y operation operation' h hproper hown hsame
    obtain ⟨hown', hanswer, hnext⟩ := h.visible hproper (by simpa using hown) hsame
    exact ⟨by simpa using hown', hanswer, hnext⟩

/-- `CreateOrGetRequest` of a tenant under the key "k". -/
def created (tenantID id : String) (now : Time) : Operation :=
  .call tenantID
    (.createOrGetRequest {
      tenantID, apiKeyID := "", userID := "", idempotencyKey := "k", canonicalHash := []
      input := { model := "m", messages := [], maxTokens := 1, stream := false }
      correlationID := "" })
    ⟨now, now, fun _ => id⟩ (by rintro _ ⟨⟩; rfl)

/-- Two tenants use the same key.  The second tries to read and to cancel the
    first one's request. -/
theorem other_tenants_deleted_sharedKey :
    let info : Info := ⟨9, 9, fun _ => ""⟩
    let reserve : Operation := .call "a" (.reserveBudget "a" "r" 5 0) info (by rintro _ ⟨⟩; rfl)
    let read : Operation := .call "a" (.getRequest "a" "r") info (by rintro _ ⟨⟩; rfl)
    let all : List Operation := [
      created "b" "s" 1, created "a" "r" 2,
      .call "b" (.getRequest "b" "r") info (by rintro _ ⟨⟩; rfl),
      .call "b" (.cancelRequest "b" "r" "") info (by rintro _ ⟨⟩; rfl),
      reserve, .call "b" (.reconcileBudget "s" 3) info (by rintro _ ⟨⟩), read]
    answers "a" new [created "a" "r" 0, reserve, read] = answers "a" new all
      ∧ (answers "a" new all).length = 3 := by
  refine ⟨other_tenants_deleted "a" (by decide) _ _ ?_ ?_, rfl⟩
  · simp only [Lib.trace_cons, Lib.trace_nil, List.forall_mem_cons]
    refine ⟨⟨by decide, rfl, by rintro _ ⟨⟩⟩, ⟨by decide, rfl, by rintro _ ⟨⟩⟩,
      ⟨by decide, trivial, by rintro _ ⟨⟩⟩, ⟨by decide, trivial, by rintro _ ⟨⟩⟩,
      ⟨by decide, trivial, ?_⟩, ⟨by decide, trivial, ?_⟩, ⟨by decide, trivial, by rintro _ ⟨⟩⟩,
      List.forall_mem_nil _⟩
    · rintro _ ⟨⟩
      exact List.Mem.head _
    · rintro _ ⟨⟩
      exact List.Mem.tail _ (List.Mem.head _)
  · exact .cons (.call rfl) (.cons (.call rfl) (.cons (.call rfl) .nil))

end Shared

end Aegis.Persistence
