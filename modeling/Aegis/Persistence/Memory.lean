/-
  Aegis.Persistence.Memory

  The race-safe in-memory store (internal/persistence/memory.go).  Each
  operation holds the mutex for its whole body, so it is one function on the
  store's maps.

  Go maps that are only looked up are functions to `Option`; the reservations,
  which `sumMap` iterates over, are a finite association list.  `cloneRecord`
  copies a value and is the identity here.  The credentials of `auth.Lookup`
  are not part of the model.
-/

import Aegis.Budget
import Aegis.Persistence.Store
import Mathlib.Data.List.AList
import Mathlib.Logic.Function.Basic

namespace Aegis.Persistence

open Aegis.Request (Record State canTransition transition)

structure MemoryAttempt where
  params : AttemptParams
  final : Bool := false
deriving DecidableEq, Repr

/-- The store's maps.  A record is stored under its own identifier. -/
structure Memory where
  requests : String → Option Record
  keyed : ∀ id record, requests id = some record → record.id = id
  idempotency : String → Option String
  /-- `none` is a nil inner map -/
  attempts : String → Option (Int → Option MemoryAttempt)
  policies : String → Option TenantPolicy
  reservations : AList fun _ : String => Int
  used : String → Int

namespace Memory

/-- `NewMemory`. -/
def new : Memory where
  requests := fun _ => none
  keyed := fun _ _ h => nomatch h
  idempotency := fun _ => none
  attempts := fun _ => none
  policies := fun _ => none
  reservations := ∅
  used := fun _ => 0

/-- A new store with tenant policies installed. -/
def withPolicies (policies : String → Option TenantPolicy) : Memory :=
  { new with policies }

/-- `SetTenantPolicy`. -/
def setTenantPolicy (memory : Memory) (tenantID : String) (policy : TenantPolicy) : Memory :=
  { memory with policies := Function.update memory.policies tenantID (some policy) }

/-- `memory.requests[record.ID] = record`. -/
def putRequest (memory : Memory) (record : Record) : Memory :=
  { memory with
    requests := Function.update memory.requests record.id (some record)
    keyed := by
      intro id r h
      by_cases hid : id = record.id
      · subst hid
        rw [Function.update_self] at h
        rw [← Option.some.inj h]
      · rw [Function.update_of_ne hid] at h
        exact memory.keyed id r h }

/-- The lookup that every operation starts with: the tenant's own record. -/
def ownRequest (memory : Memory) (tenantID requestID : String) : Option Record :=
  (memory.requests requestID).filter fun record => record.tenantID == tenantID

/-- The key of the idempotency map. -/
def idempotencyKey (tenantID key : String) : String := tenantID ++ "\x00" ++ key

/-! ## Operations -/

def createOrGetRequest (params : CreateRequestParams) (info : Info) (memory : Memory) :
    Except GoError (Record × Bool) × Memory :=
  let key := idempotencyKey params.tenantID params.idempotencyKey
  match memory.idempotency key with
  | some existingID =>
      match memory.requests existingID with
      | some existing =>
          if existing.canonicalHash ≠ params.canonicalHash then
            (.error (.ofSentinel .errConflict), memory)
          else (.ok (existing, false), memory)
      -- a missing map entry reads as the zero record, whose hash is empty
      | none =>
          if params.canonicalHash ≠ [] then (.error (.ofSentinel .errConflict), memory)
          else
            (.ok ({ id := "", tenantID := "", apiKeyID := "", idempotencyKey := "",
                    canonicalHash := [], model := "", state := .received, stream := false,
                    correlationID := "", createdAt := Time.zero,
                    updatedAt := Time.zero }, false), memory)
  | none =>
      let record : Record := {
        id := info.ids 0, tenantID := params.tenantID, apiKeyID := params.apiKeyID
        idempotencyKey := params.idempotencyKey, canonicalHash := params.canonicalHash
        model := params.input.model, state := .received, stream := params.input.stream
        correlationID := params.correlationID, createdAt := info.now, updatedAt := info.now }
      let memory := memory.putRequest record
      (.ok (record, true),
        { memory with idempotency := Function.update memory.idempotency key (some record.id) })

def getRequest (tenantID requestID : String) (memory : Memory) : Except GoError Record × Memory :=
  match memory.ownRequest tenantID requestID with
  | none => (.error (.ofSentinel .errNotFound), memory)
  | some record => (.ok record, memory)

def transitionRequest (tenantID requestID : String) (source target : State) (info : Info)
    (memory : Memory) : Except GoError Unit × Memory :=
  match memory.ownRequest tenantID requestID with
  | none => (.error (.ofSentinel .errNotFound), memory)
  | some record =>
      if record.state ≠ source then
        (.error (.wrap ("expected " ++ source.text) (.ofSentinel .errAlreadyFinal)), memory)
      else
        match transition source target with
        | .error err => (.error err, memory)
        | .ok () =>
            (.ok (), memory.putRequest { record with state := target, updatedAt := info.now })

def startAttempt (params : AttemptParams) (memory : Memory) : Except GoError Unit × Memory :=
  match memory.ownRequest params.tenantID params.requestID with
  | none => (.error (.ofSentinel .errNotFound), memory)
  | some _ =>
      let inner := (memory.attempts params.requestID).getD fun _ => none
      -- the inner map is made before the conflict check
      let put (attempts : Int → Option MemoryAttempt) : Memory :=
        { memory with attempts := Function.update memory.attempts params.requestID (some attempts) }
      if (inner params.number).isSome then (.error (.ofSentinel .errConflict), put inner)
      else (.ok (), put (Function.update inner params.number (some { params })))

/-- `CompleteRequest`.  The record is stored before the attempt is marked, and
    marking an attempt of a request that never started one writes to a nil
    map, which panics. -/
def completeRequest (params : CompletionParams) (info : Info) (memory : Memory) :
    Except GoError Unit × Memory :=
  match memory.ownRequest params.tenantID params.requestID with
  | none => (.error (.ofSentinel .errNotFound), memory)
  | some record =>
      if record.state ≠ .inProgress then (.error (.ofSentinel .errAlreadyFinal), memory)
      else
        let memory := memory.putRequest { record with
          state := .completed, response := some params.response
          completedAt := some info.now, updatedAt := info.now
          promptTokens := params.response.usage.promptTokens
          completionTokens := params.response.usage.completionTokens
          costMicroUSD := params.costMicroUSD }
        match memory.attempts params.requestID with
        | none => (.error (.new "assignment to entry in nil map"), memory)
        | some inner =>
            let attempt := (inner params.attemptNumber).getD {
              params := { requestID := "", tenantID := "", number := 0, providerName := "",
                          model := "", correlationID := "" } }
            let inner := Function.update inner params.attemptNumber
              (some { attempt with final := true })
            (.ok (), { memory with
              attempts := Function.update memory.attempts params.requestID (some inner) })

def failAttempt (params : FailureParams) (info : Info) (memory : Memory) :
    Except GoError Unit × Memory :=
  match memory.ownRequest params.tenantID params.requestID with
  | none => (.error (.ofSentinel .errNotFound), memory)
  | some record =>
      if params.final then
        if record.state ≠ .inProgress then (.error (.ofSentinel .errAlreadyFinal), memory)
        else
          (.ok (), memory.putRequest { record with
            state := .failed, failureCategory := params.category
            partialStreamed := params.isPartial
            completedAt := some info.now, updatedAt := info.now })
      else (.ok (), memory)

def cancelRequest (tenantID requestID : String) (info : Info) (memory : Memory) :
    Except GoError Unit × Memory :=
  match memory.ownRequest tenantID requestID with
  | none => (.error (.ofSentinel .errNotFound), memory)
  | some record =>
      if record.state = .completed ∨ record.state = .failed ∨ record.state = .cancelled
          ∨ record.state = .budgetRejected then
        (.error (.ofSentinel .errAlreadyFinal), memory)
      else
        (.ok (), memory.putRequest { record with
          state := .cancelled, completedAt := some info.now, updatedAt := info.now })

def tenantPolicy (tenantID : String) (memory : Memory) : Except GoError TenantPolicy × Memory :=
  match memory.policies tenantID with
  | none => (.error (.ofSentinel .errModelForbidden), memory)
  | some policy => (.ok policy, memory)

/-- `sumMap`: a reservation without a record counts for the empty tenant. -/
def sumMap (memory : Memory) (tenantID : String) : Int :=
  memory.reservations.entries.foldl (fun total entry =>
    if ((memory.requests entry.1).map Record.tenantID).getD "" = tenantID then
      wrap64 (total + entry.2)
    else total) 0

def reserveBudget (tenantID requestID : String) (amount : Int) (memory : Memory) :
    Except GoError Unit × Memory :=
  match memory.policies tenantID with
  | none => (.error (.ofSentinel .errNotFound), memory)
  | some policy =>
      match Budget.canReserve policy.monthlyBudget (memory.used tenantID)
          (memory.sumMap tenantID) amount with
      | .error err => (.error err, memory)
      | .ok () =>
          (.ok (), { memory with reservations := memory.reservations.insert requestID amount })

def rejectBudget (tenantID requestID : String) (info : Info) (memory : Memory) :
    Except GoError Unit × Memory :=
  transitionRequest tenantID requestID .validated .budgetRejected info memory

def reconcileBudget (requestID : String) (actual : Int) (memory : Memory) :
    Except GoError Unit × Memory :=
  match memory.requests requestID with
  | none => (.error (.ofSentinel .errNotFound), memory)
  | some record =>
      (.ok (), { memory with
        reservations := memory.reservations.erase requestID
        used := Function.update memory.used record.tenantID
          (wrap64 (memory.used record.tenantID + actual)) })

/-- The in-memory `Store`. -/
def store : Store Memory
  | .createOrGetRequest params, info, memory => createOrGetRequest params info memory
  | .getRequest tenantID requestID, _, memory => getRequest tenantID requestID memory
  | .transitionRequest tenantID requestID source target, info, memory =>
      transitionRequest tenantID requestID source target info memory
  | .startAttempt params, _, memory => startAttempt params memory
  | .completeRequest params, info, memory => completeRequest params info memory
  | .failAttempt params, info, memory => failAttempt params info memory
  | .cancelRequest tenantID requestID _, info, memory =>
      cancelRequest tenantID requestID info memory
  | .tenantPolicy tenantID _, _, memory => tenantPolicy tenantID memory
  | .reserveBudget tenantID requestID amount _, _, memory =>
      reserveBudget tenantID requestID amount memory
  | .rejectBudget tenantID requestID _ _, info, memory =>
      rejectBudget tenantID requestID info memory
  | .reconcileBudget requestID actual, _, memory => reconcileBudget requestID actual memory

/-! ## Lookups after a write -/

@[simp] theorem putRequest_requests_self (memory : Memory) (record : Record) :
    (memory.putRequest record).requests record.id = some record := by
  simp [putRequest]

theorem putRequest_requests_of_ne (memory : Memory) (record : Record) {id : String}
    (h : id ≠ record.id) : (memory.putRequest record).requests id = memory.requests id := by
  simp [putRequest, h]

@[simp] theorem putRequest_idempotency (memory : Memory) (record : Record) :
    (memory.putRequest record).idempotency = memory.idempotency := rfl

@[simp] theorem putRequest_attempts (memory : Memory) (record : Record) :
    (memory.putRequest record).attempts = memory.attempts := rfl

/-- The tenant's own record is stored under the identifier asked for. -/
theorem ownRequest_eq_some {memory : Memory} {tenantID requestID : String} {record : Record}
    (h : memory.ownRequest tenantID requestID = some record) :
    memory.requests requestID = some record ∧ record.id = requestID
      ∧ record.tenantID = tenantID := by
  obtain ⟨hfound, hown⟩ := Option.filter_eq_some_iff.mp h
  exact ⟨hfound, memory.keyed _ _ hfound, by simpa using hown⟩

end Memory

end Aegis.Persistence
