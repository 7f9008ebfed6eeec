/-
  Aegis.Persistence.MemorySlice

  What the in-memory store holds about one request, and what a call does to it:
  the counterpart of `Slice` and `Write` for the maps of `Memory`.

  `Memory.Accepts` is what a call asks for.  A call that is refused leaves the
  store as it was, unless it panics; an accepted call writes to the slice of its
  subject as `Memory.Write` lists, and to no other (`Memory.store_outcome`).
-/

import Aegis.Persistence.TenantView

namespace Aegis.Persistence

open Aegis.Request (Record State canTransition transition)

@[ext] structure MemorySlice where
  record : Option Record
  attempts : Option (Int → Option MemoryAttempt)
  reserved : Option Int

/-- An attempt is entered under the number. -/
def MemorySlice.started (M : MemorySlice) (number : Int) : Bool :=
  ((M.attempts.getD fun _ => none) number).isSome

namespace Memory

def slice (memory : Memory) (id : String) : MemorySlice where
  record := memory.requests id
  attempts := memory.attempts id
  reserved := memory.reservations.lookup id

/-- The error of the write to a nil map. -/
def nilMap : GoError := .new "assignment to entry in nil map"

/-- The record that `CreateOrGetRequest` stores. -/
def newRecord (params : CreateRequestParams) (info : Info) : Record where
  id := info.ids 0
  tenantID := params.tenantID
  apiKeyID := params.apiKeyID
  idempotencyKey := params.idempotencyKey
  canonicalHash := params.canonicalHash
  model := params.input.model
  state := .received
  stream := params.input.stream
  correlationID := params.correlationID
  createdAt := info.now
  updatedAt := info.now

/-- What a successful call does to the slice of its subject. -/
inductive Write (info : Info) : Call → MemorySlice → MemorySlice → Prop
  | create {params : CreateRequestParams} (M : MemorySlice) :
      Write info (.createOrGetRequest params) M { M with record := some (newRecord params info) }
  /-- the key was in use -/
  | load {params : CreateRequestParams} (M : MemorySlice) :
      Write info (.createOrGetRequest params) M M
  | move {tenantID requestID : String} {source target : State} {record : Record}
      {M : MemorySlice} (hrecord : M.record = some record) (htenant : record.tenantID = tenantID)
      (hstate : record.state = source) (hcan : canTransition source target = true) :
      Write info (.transitionRequest tenantID requestID source target) M
        { M with record := some { record with state := target, updatedAt := info.now } }
  | start {params : AttemptParams} {record : Record} {M : MemorySlice}
      (hrecord : M.record = some record) (htenant : record.tenantID = params.tenantID)
      (hnew : M.started params.number = false) :
      Write info (.startAttempt params) M { M with
        attempts := some (Function.update (M.attempts.getD fun _ => none) params.number
          (some { params })) }
  | complete {params : CompletionParams} {record : Record}
      {inner : Int → Option MemoryAttempt} {attempt : MemoryAttempt} {M : MemorySlice}
      (hrecord : M.record = some record) (htenant : record.tenantID = params.tenantID)
      (hstate : record.state = .inProgress) (hinner : M.attempts = some inner) :
      Write info (.completeRequest params) M { M with
        record := some { record with
          state := .completed, response := some params.response
          completedAt := some info.now, updatedAt := info.now
          promptTokens := params.response.usage.promptTokens
          completionTokens := params.response.usage.completionTokens
          costMicroUSD := params.costMicroUSD }
        attempts := some (Function.update inner params.attemptNumber (some attempt)) }
  | retry {params : FailureParams} {record : Record} {M : MemorySlice}
      (hfinal : params.final = false) (hrecord : M.record = some record)
      (htenant : record.tenantID = params.tenantID) : Write info (.failAttempt params) M M
  | fail {params : FailureParams} {record : Record} {M : MemorySlice}
      (hfinal : params.final = true) (hrecord : M.record = some record)
      (htenant : record.tenantID = params.tenantID) (hstate : record.state = .inProgress) :
      Write info (.failAttempt params) M { M with
        record := some { record with
          state := .failed, failureCategory := params.category
          partialStreamed := params.isPartial
          completedAt := some info.now, updatedAt := info.now } }
  | cancel {tenantID requestID correlationID : String} {record : Record} {M : MemorySlice}
      (hrecord : M.record = some record) (htenant : record.tenantID = tenantID)
      (hstate : record.state.terminal = false) :
      Write info (.cancelRequest tenantID requestID correlationID) M
        { M with record := some { record with
            state := .cancelled, completedAt := some info.now, updatedAt := info.now } }
  | reserve {tenantID requestID : String} {amount : Int} {now : Time} (M : MemorySlice) :
      Write info (.reserveBudget tenantID requestID amount now) M
        { M with reserved := some amount }
  | reject {tenantID requestID correlationID : String} {requested : Int} {record : Record}
      {M : MemorySlice} (hrecord : M.record = some record) (htenant : record.tenantID = tenantID)
      (hstate : record.state = .validated) :
      Write info (.rejectBudget tenantID requestID correlationID requested) M
        { M with record := some { record with
            state := .budgetRejected, updatedAt := info.now } }
  | reconcile {requestID : String} {actual : Int} {M : MemorySlice}
      (hrecord : M.record.isSome = true) :
      Write info (.reconcileBudget requestID actual) M { M with reserved := none }

/-- No write but that of `CreateOrGetRequest` enters a record or changes its key. -/
theorem Write.key {info : Info} {call : Call} {M M' : MemorySlice} (h : Write info call M M')
    (hcall : ∀ params, call ≠ .createOrGetRequest params) :
    M'.record.map (fun r => (r.tenantID, r.idempotencyKey))
      = M.record.map fun r => (r.tenantID, r.idempotencyKey) := by
  cases h with
  | create => exact absurd rfl (hcall _)
  | load => exact absurd rfl (hcall _)
  | move hrecord | complete hrecord | fail _ hrecord | cancel hrecord | reject hrecord =>
      rw [hrecord]
      rfl
  | start | retry | reserve | reconcile => rfl

/-- What a call asks for. -/
def Accepts (memory : Memory) : Call → Prop
  | .createOrGetRequest params => ∀ id ∈ memory.binding params.tenantID params.idempotencyKey,
      ∀ record ∈ memory.requests id, record.canonicalHash = params.canonicalHash
  | .getRequest tenantID requestID => ∃ _ ∈ memory.ownRequest tenantID requestID, True
  | .transitionRequest tenantID requestID source target =>
      ∃ record ∈ memory.ownRequest tenantID requestID,
        record.state = source ∧ canTransition source target = true
  | .startAttempt params => ∃ _ ∈ memory.ownRequest params.tenantID params.requestID,
      (memory.slice params.requestID).started params.number = false
  | .completeRequest params => ∃ record ∈ memory.ownRequest params.tenantID params.requestID,
      record.state = .inProgress
  | .failAttempt params => ∃ record ∈ memory.ownRequest params.tenantID params.requestID,
      params.final = true → record.state = .inProgress
  | .cancelRequest tenantID requestID _ => ∃ record ∈ memory.ownRequest tenantID requestID,
      record.state.terminal = false
  | .tenantPolicy tenantID _ => (memory.policies tenantID).isSome = true
  | .reserveBudget tenantID _ amount _ => ∃ policy ∈ memory.policies tenantID,
      Budget.canReserve policy.monthlyBudget (memory.used tenantID) (memory.sumMap tenantID)
        amount = .ok ()
  | .rejectBudget tenantID requestID _ _ => ∃ record ∈ memory.ownRequest tenantID requestID,
      record.state = .validated
  | .reconcileBudget requestID _ => (memory.requests requestID).isSome = true

/-! ## The slices after a write -/

/-- A request's slice changed by `R`, and no other slice changed. -/
def Written (id : String) (R : MemorySlice → MemorySlice → Prop) (memory memory' : Memory) :
    Prop :=
  R (memory.slice id) (memory'.slice id)
    ∧ ∀ other, other ≠ id → memory'.slice other = memory.slice other

section Slices

variable {memory : Memory} {R : MemorySlice → MemorySlice → Prop} {id : String}

theorem written_refl (hR : R (memory.slice id) (memory.slice id)) :
    Written id R memory memory :=
  ⟨hR, fun _ _ => rfl⟩

theorem written_putRequest {next : Record} (hid : next.id = id)
    (hR : R (memory.slice id) { memory.slice id with record := some next }) :
    Written id R memory (memory.putRequest next) := by
  constructor
  · have hslice : (memory.putRequest next).slice id
        = { memory.slice id with record := some next } := by
      refine MemorySlice.ext ?_ rfl rfl
      rw [← hid]
      exact putRequest_requests_self memory next
    rw [hslice]
    exact hR
  · intro other hne
    refine MemorySlice.ext ?_ rfl rfl
    exact putRequest_requests_of_ne memory next (by rw [hid]; exact hne)

theorem written_attempts {inner : Int → Option MemoryAttempt}
    (hR : R (memory.slice id) { memory.slice id with attempts := some inner }) :
    Written id R memory
      { memory with attempts := Function.update memory.attempts id (some inner) } := by
  constructor
  · have hslice : slice { memory with
        attempts := Function.update memory.attempts id (some inner) } id
          = { memory.slice id with attempts := some inner } :=
      MemorySlice.ext rfl (Function.update_self ..) rfl
    rw [hslice]
    exact hR
  · intro other hne
    exact MemorySlice.ext rfl (Function.update_of_ne hne ..) rfl

theorem written_putRequest_attempts {next : Record} {inner : Int → Option MemoryAttempt}
    (hid : next.id = id)
    (hR : R (memory.slice id)
      { memory.slice id with record := some next, attempts := some inner }) :
    Written id R memory { memory.putRequest next with
      attempts := Function.update memory.attempts id (some inner) } := by
  constructor
  · have hslice : slice { memory.putRequest next with
        attempts := Function.update memory.attempts id (some inner) } id
          = { memory.slice id with record := some next, attempts := some inner } := by
      refine MemorySlice.ext ?_ (Function.update_self ..) rfl
      rw [← hid]
      exact putRequest_requests_self memory next
    rw [hslice]
    exact hR
  · intro other hne
    refine MemorySlice.ext ?_ (Function.update_of_ne hne ..) rfl
    exact putRequest_requests_of_ne memory next (by rw [hid]; exact hne)

theorem written_insert {amount : Int}
    (hR : R (memory.slice id) { memory.slice id with reserved := some amount }) :
    Written id R memory
      { memory with reservations := memory.reservations.insert id amount } := by
  constructor
  · have hslice : slice { memory with
        reservations := memory.reservations.insert id amount } id
          = { memory.slice id with reserved := some amount } :=
      MemorySlice.ext rfl rfl (AList.lookup_insert _)
    rw [hslice]
    exact hR
  · intro other hne
    exact MemorySlice.ext rfl rfl (AList.lookup_insert_ne hne)

theorem written_erase {used : String → Int}
    (hR : R (memory.slice id) { memory.slice id with reserved := none }) :
    Written id R memory
      { memory with reservations := memory.reservations.erase id, used } := by
  constructor
  · have hslice : slice { memory with
        reservations := memory.reservations.erase id, used } id
          = { memory.slice id with reserved := none } :=
      MemorySlice.ext rfl rfl (AList.lookup_erase ..)
    rw [hslice]
    exact hR
  · intro other hne
    exact MemorySlice.ext rfl rfl (AList.lookup_erase_ne hne)

end Slices

/-! ## The operations -/

/-- What a call does: it is refused and changes nothing, panics, or writes to
    the slice of its subject. -/
inductive Outcome (memory : Memory) (info : Info) :
    (call : Call) → Except GoError call.Result × Memory → Prop
  | refused {call : Call} {err : GoError} (hrefused : ¬ memory.Accepts call)
      (hpanic : err ≠ nilMap) : Outcome memory info call (.error err, memory)
  | panicked {params : CompletionParams} {record : Record} {memory' : Memory}
      (hown : memory.ownRequest params.tenantID params.requestID = some record)
      (hstate : record.state = .inProgress) (hnone : memory.attempts params.requestID = none) :
      Outcome memory info (.completeRequest params) (.error nilMap, memory')
  | done {call : Call} {result : call.Result} {memory' : Memory} (haccepts : memory.Accepts call)
      (hwritten : ∀ id, call.subject info = some id →
        Written id (Write info call) memory memory')
      (hkept : call.subject info = none → memory' = memory) :
      Outcome memory info call (.ok result, memory')

section Operations

variable {memory : Memory} {info : Info}

theorem sentinel_ne_nilMap (sentinel : Sentinel) : GoError.ofSentinel sentinel ≠ nilMap := by
  simp [GoError.ofSentinel, nilMap, GoError.new]

theorem transition_ne_nilMap {source target : State} {err : GoError}
    (h : transition source target = .error err) : err ≠ nilMap := by
  unfold transition at h
  split at h
  · cases h
  · cases h
    intro heq
    have hhead := congrArg (fun e : GoError => e.chain) heq
    simp only [GoError.new, nilMap, List.cons.injEq, Layer.text.injEq, and_true] at hhead
    have := congrArg (fun s : String => s.toList.head?) hhead
    simp at this

theorem canReserve_ne_nilMap {limit committed active requested : Int} {err : GoError}
    (h : Budget.canReserve limit committed active requested = .error err) : err ≠ nilMap := by
  unfold Budget.canReserve at h
  simp only [bind, Except.bind, pure, Except.pure, throw, throwThe, MonadExceptOf.throw] at h
  by_cases hzero : limit = 0
  · rw [if_pos hzero] at h
    cases h
  · rw [if_neg hzero] at h
    by_cases hneg : limit < 0 ∨ committed < 0 ∨ active < 0 ∨ requested < 0
    · rw [if_pos hneg] at h
      cases h
      decide
    · rw [if_neg hneg] at h
      split at h
      · cases h
        decide
      · cases h

theorem mem_own_iff {tenantID requestID : String} {record : Record} :
    record ∈ memory.ownRequest tenantID requestID
      ↔ (memory.slice requestID).record = some record ∧ record.tenantID = tenantID := by
  constructor
  · intro h
    obtain ⟨hfound, -, htenant⟩ := ownRequest_eq_some h
    exact ⟨hfound, htenant⟩
  · rintro ⟨hfound, htenant⟩
    exact ownRequest_of_requests hfound htenant

/-- A call that asks for an own record is refused where there is none. -/
theorem not_own_of_none {tenantID requestID : String} {P : Record → Prop}
    (hown : memory.ownRequest tenantID requestID = none) :
    ¬ ∃ record ∈ memory.ownRequest tenantID requestID, P record := by
  rintro ⟨record, hrecord, -⟩
  cases hown.symm.trans hrecord

theorem not_own_of_not {tenantID requestID : String} {P : Record → Prop} {record : Record}
    (hown : memory.ownRequest tenantID requestID = some record) (hnot : ¬ P record) :
    ¬ ∃ record ∈ memory.ownRequest tenantID requestID, P record := by
  rintro ⟨record', hrecord, hP⟩
  obtain rfl : record = record' := Option.some.inj (hown.symm.trans hrecord)
  exact hnot hP

theorem transitionRequest_cases (tenantID requestID : String) (source target : State) :
    (∃ err, transitionRequest tenantID requestID source target info memory = (.error err, memory)
        ∧ err ≠ nilMap ∧ ¬ ∃ record ∈ memory.ownRequest tenantID requestID,
          record.state = source ∧ canTransition source target = true)
      ∨ ∃ record ∈ memory.ownRequest tenantID requestID,
          record.state = source ∧ canTransition source target = true
          ∧ transitionRequest tenantID requestID source target info memory
            = (.ok (), memory.putRequest
                { record with state := target, updatedAt := info.now }) := by
  unfold transitionRequest
  cases hown : memory.ownRequest tenantID requestID with
  | none => exact Or.inl ⟨_, rfl, sentinel_ne_nilMap _, by simp⟩
  | some record =>
      dsimp only
      by_cases hstate : record.state = source
      · rw [if_neg (not_not.mpr hstate)]
        by_cases hcan : canTransition source target = true
        · have htransition : transition source target = .ok () :=
            Postgres.transition_eq_ok.mpr hcan
          rw [htransition]
          exact Or.inr ⟨record, rfl, hstate, hcan, rfl⟩
        · cases htransition : transition source target with
          | ok u => exact absurd (Postgres.transition_eq_ok.mp htransition) hcan
          | error err =>
              refine Or.inl ⟨err, rfl, transition_ne_nilMap htransition, ?_⟩
              rintro ⟨_, ⟨⟩, -, hcan'⟩
              exact hcan hcan'
      · rw [if_pos hstate]
        refine Or.inl ⟨_, rfl, ?_, ?_⟩
        · simp [GoError.wrap, GoError.ofSentinel, nilMap, GoError.new]
        · rintro ⟨_, ⟨⟩, hstate', -⟩
          exact hstate hstate'

/-- `CreateOrGetRequest` under a free key. -/
theorem createOrGetRequest_of_free {params : CreateRequestParams}
    (hfree : memory.binding params.tenantID params.idempotencyKey = none) :
    createOrGetRequest params info memory = (.ok (newRecord params info, true),
      { memory.putRequest (newRecord params info) with
        idempotency := Function.update memory.idempotency
          (idempotencyKey params.tenantID params.idempotencyKey) (some (info.ids 0)) }) := by
  have hkey : memory.idempotency (idempotencyKey params.tenantID params.idempotencyKey) = none :=
    hfree
  unfold createOrGetRequest
  dsimp only
  rw [hkey]
  rfl

theorem createOrGetRequest_outcome (params : CreateRequestParams) (hbound : memory.Bound) :
    Outcome memory info (.createOrGetRequest params) (createOrGetRequest params info memory) := by
  unfold createOrGetRequest
  dsimp only
  cases hkey : memory.idempotency (idempotencyKey params.tenantID params.idempotencyKey) with
  | none =>
      refine .done ?_ ?_ ?_
      · intro id hid
        cases hkey.symm.trans hid
      · rintro _ ⟨⟩
        exact written_putRequest rfl (.create _)
      · rintro ⟨⟩
  | some existingID =>
      obtain ⟨existing, hexisting⟩ := Option.isSome_iff_exists.mp (hbound _ _ hkey)
      dsimp only
      rw [hexisting]
      dsimp only
      by_cases hhash : existing.canonicalHash = params.canonicalHash
      · rw [if_neg (not_not.mpr hhash)]
        refine .done ?_ ?_ ?_
        · intro id hid record hrecord
          obtain rfl : existingID = id := Option.some.inj (hkey.symm.trans hid)
          obtain rfl : existing = record := Option.some.inj (hexisting.symm.trans hrecord)
          exact hhash
        · rintro _ ⟨⟩
          exact written_refl (.load _)
        · rintro ⟨⟩
      · rw [if_pos hhash]
        refine .refused ?_ (sentinel_ne_nilMap _)
        intro haccepts
        exact hhash (haccepts existingID hkey existing hexisting)

theorem startAttempt_outcome (params : AttemptParams) :
    Outcome memory info (.startAttempt params) (startAttempt params memory) := by
  unfold startAttempt
  cases hown : memory.ownRequest params.tenantID params.requestID with
  | none => exact .refused (not_own_of_none hown) (sentinel_ne_nilMap _)
  | some record =>
      obtain ⟨hrecord, htenant⟩ := mem_own_iff.mp hown
      dsimp only
      split
      · next hstarted =>
          -- there is an inner map, so making it changes nothing
          obtain ⟨inner, hinner⟩ : ∃ inner, memory.attempts params.requestID = some inner := by
            cases hattempts : memory.attempts params.requestID with
            | none =>
                rw [hattempts] at hstarted
                cases hstarted
            | some inner => exact ⟨inner, rfl⟩
          have hsame : Function.update memory.attempts params.requestID
              (some ((memory.attempts params.requestID).getD fun _ => none))
                = memory.attempts := by
            rw [hinner, Option.getD_some, ← hinner, Function.update_eq_self]
          rw [hsame]
          refine .refused (not_own_of_not hown ?_) (sentinel_ne_nilMap _)
          intro hnew
          exact Bool.false_ne_true (hnew.symm.trans hstarted)
      · next hstarted =>
          have hnew : (memory.slice params.requestID).started params.number = false :=
            Bool.eq_false_iff.mpr hstarted
          refine .done ⟨record, hown, hnew⟩ ?_ ?_
          · rintro _ ⟨⟩
            exact written_attempts (.start hrecord htenant hnew)
          · rintro ⟨⟩

theorem completeRequest_outcome (params : CompletionParams) :
    Outcome memory info (.completeRequest params) (completeRequest params info memory) := by
  unfold completeRequest
  cases hown : memory.ownRequest params.tenantID params.requestID with
  | none => exact .refused (not_own_of_none hown) (sentinel_ne_nilMap _)
  | some record =>
      obtain ⟨hrecord, htenant⟩ := mem_own_iff.mp hown
      have hid : record.id = params.requestID := (ownRequest_eq_some hown).2.1
      dsimp only
      by_cases hstate : record.state = .inProgress
      · rw [if_neg (not_not.mpr hstate), putRequest_attempts]
        cases hinner : memory.attempts params.requestID with
        | none => exact .panicked hown hstate hinner
        | some inner =>
            refine .done ⟨record, hown, hstate⟩ ?_ ?_
            · rintro _ ⟨⟩
              refine written_putRequest_attempts ?_ (.complete hrecord htenant hstate hinner)
              exact hid
            · rintro ⟨⟩
      · rw [if_pos hstate]
        exact .refused (not_own_of_not hown hstate) (sentinel_ne_nilMap _)

theorem failAttempt_outcome (params : FailureParams) :
    Outcome memory info (.failAttempt params) (failAttempt params info memory) := by
  unfold failAttempt
  cases hown : memory.ownRequest params.tenantID params.requestID with
  | none => exact .refused (not_own_of_none hown) (sentinel_ne_nilMap _)
  | some record =>
      obtain ⟨hrecord, htenant⟩ := mem_own_iff.mp hown
      have hid : record.id = params.requestID := (ownRequest_eq_some hown).2.1
      dsimp only
      by_cases hfinal : params.final = true
      · rw [if_pos hfinal]
        by_cases hstate : record.state = .inProgress
        · rw [if_neg (not_not.mpr hstate)]
          refine .done ⟨record, hown, fun _ => hstate⟩ ?_ ?_
          · rintro _ ⟨⟩
            refine written_putRequest ?_ (.fail hfinal hrecord htenant hstate)
            exact hid
          · rintro ⟨⟩
        · rw [if_pos hstate]
          refine .refused (not_own_of_not hown ?_) (sentinel_ne_nilMap _)
          exact fun hstate' => hstate (hstate' hfinal)
      · rw [if_neg hfinal]
        refine .done ⟨record, hown, fun h => absurd h hfinal⟩ ?_ ?_
        · rintro _ ⟨⟩
          exact written_refl (.retry (Bool.eq_false_iff.mpr hfinal) hrecord htenant)
        · rintro ⟨⟩

theorem cancelRequest_outcome (tenantID requestID correlationID : String) :
    Outcome memory info (.cancelRequest tenantID requestID correlationID)
      (cancelRequest tenantID requestID info memory) := by
  unfold cancelRequest
  cases hown : memory.ownRequest tenantID requestID with
  | none => exact .refused (not_own_of_none hown) (sentinel_ne_nilMap _)
  | some record =>
      obtain ⟨hrecord, htenant⟩ := mem_own_iff.mp hown
      have hid : record.id = requestID := (ownRequest_eq_some hown).2.1
      have hterminal : (record.state = .completed ∨ record.state = .failed
          ∨ record.state = .cancelled ∨ record.state = .budgetRejected)
          ↔ record.state.terminal = true := by
        cases record.state <;> simp [State.terminal]
      dsimp only
      split
      · next hfinal =>
          refine .refused (not_own_of_not hown ?_) (sentinel_ne_nilMap _)
          intro hopen
          exact Bool.false_ne_true (hopen.symm.trans (hterminal.mp hfinal))
      · next hopen =>
          have hopen' : record.state.terminal = false :=
            Bool.eq_false_iff.mpr fun h => hopen (hterminal.mpr h)
          refine .done ⟨record, hown, hopen'⟩ ?_ ?_
          · rintro _ ⟨⟩
            refine written_putRequest ?_ (.cancel hrecord htenant hopen')
            exact hid
          · rintro ⟨⟩

theorem reserveBudget_outcome (tenantID requestID : String) (amount : Int) (now : Time) :
    Outcome memory info (.reserveBudget tenantID requestID amount now)
      (reserveBudget tenantID requestID amount memory) := by
  unfold reserveBudget
  cases hpolicy : memory.policies tenantID with
  | none =>
      refine .refused ?_ (sentinel_ne_nilMap _)
      rintro ⟨policy, hpolicy', -⟩
      cases hpolicy.symm.trans hpolicy'
  | some policy =>
      dsimp only
      cases hcan : Budget.canReserve policy.monthlyBudget (memory.used tenantID)
          (memory.sumMap tenantID) amount with
      | error err =>
          refine .refused ?_ (canReserve_ne_nilMap hcan)
          rintro ⟨policy', hpolicy', hcan'⟩
          obtain rfl : policy = policy' := Option.some.inj (hpolicy.symm.trans hpolicy')
          cases hcan.symm.trans hcan'
      | ok u =>
          refine .done ⟨policy, hpolicy, hcan⟩ ?_ ?_
          · rintro _ ⟨⟩
            exact written_insert (.reserve _)
          · rintro ⟨⟩

theorem reconcileBudget_outcome (requestID : String) (actual : Int) :
    Outcome memory info (.reconcileBudget requestID actual)
      (reconcileBudget requestID actual memory) := by
  unfold reconcileBudget
  cases hrecord : memory.requests requestID with
  | none =>
      refine .refused ?_ (sentinel_ne_nilMap _)
      intro haccepts
      rw [Accepts, hrecord] at haccepts
      cases haccepts
  | some record =>
      have hsome : (memory.requests requestID).isSome = true := by
        rw [hrecord]
        rfl
      refine .done hsome ?_ ?_
      · rintro _ ⟨⟩
        exact written_erase (.reconcile hsome)
      · rintro ⟨⟩

theorem store_outcome (call : Call) (hbound : memory.Bound) :
    Outcome memory info call (store call info memory) := by
  cases call with
  | createOrGetRequest params => exact createOrGetRequest_outcome params hbound
  | getRequest tenantID requestID =>
      simp only [store, getRequest]
      cases hown : memory.ownRequest tenantID requestID with
      | none => exact .refused (not_own_of_none hown) (sentinel_ne_nilMap _)
      | some record =>
          refine .done ⟨record, hown, trivial⟩ ?_ fun _ => rfl
          rintro _ ⟨⟩
  | transitionRequest tenantID requestID source target =>
      rcases transitionRequest_cases tenantID requestID source target with
        ⟨err, hresult, hpanic, hrefused⟩ | ⟨record, hown, hstate, hcan, hresult⟩
      · rw [show store (.transitionRequest tenantID requestID source target) info memory = _
          from hresult]
        exact .refused hrefused hpanic
      · obtain ⟨hrecord, htenant⟩ := mem_own_iff.mp hown
        rw [show store (.transitionRequest tenantID requestID source target) info memory = _
          from hresult]
        refine .done ⟨record, hown, hstate, hcan⟩ ?_ ?_
        · rintro _ ⟨⟩
          refine written_putRequest ?_ (.move hrecord htenant hstate hcan)
          exact (ownRequest_eq_some hown).2.1
        · rintro ⟨⟩
  | startAttempt params => exact startAttempt_outcome params
  | completeRequest params => exact completeRequest_outcome params
  | failAttempt params => exact failAttempt_outcome params
  | cancelRequest tenantID requestID correlationID =>
      exact cancelRequest_outcome tenantID requestID correlationID
  | tenantPolicy tenantID model =>
      simp only [store, tenantPolicy]
      cases hpolicy : memory.policies tenantID with
      | none =>
          refine .refused ?_ (sentinel_ne_nilMap _)
          intro haccepts
          rw [Accepts, hpolicy] at haccepts
          cases haccepts
      | some policy =>
          refine .done ?_ ?_ fun _ => rfl
          · rw [Accepts, hpolicy]
            rfl
          · rintro _ ⟨⟩
  | reserveBudget tenantID requestID amount now =>
      exact reserveBudget_outcome tenantID requestID amount now
  | rejectBudget tenantID requestID correlationID requested =>
      rcases transitionRequest_cases tenantID requestID .validated .budgetRejected with
        ⟨err, hresult, hpanic, hrefused⟩ | ⟨record, hown, hstate, -, hresult⟩
      · rw [show store (.rejectBudget tenantID requestID correlationID requested) info memory = _
          from hresult]
        refine .refused ?_ hpanic
        rintro ⟨record, hown, hstate⟩
        exact hrefused ⟨record, hown, hstate, rfl⟩
      · obtain ⟨hrecord, htenant⟩ := mem_own_iff.mp hown
        rw [show store (.rejectBudget tenantID requestID correlationID requested) info memory = _
          from hresult]
        refine .done ⟨record, hown, hstate⟩ ?_ ?_
        · rintro _ ⟨⟩
          refine written_putRequest ?_ (.reject hrecord htenant hstate)
          exact (ownRequest_eq_some hown).2.1
        · rintro ⟨⟩
  | reconcileBudget requestID actual => exact reconcileBudget_outcome requestID actual

end Operations

end Memory

end Aegis.Persistence
