/-
  Aegis.Persistence.Mirror

  One request in both stores.  `Mirrors` says that the in-memory store and
  PostgreSQL hold the same about a request: the fields that `GetRequest`
  returns, the numbers of the started attempts, and the active reservation.
  What both write keeps it (`Mirrors.step`), where the writes are `Aligned`:
  the two implementations differ in what they do when a budget is rejected or
  reserved again, and when an attempt is completed that was not started.
-/

import Aegis.Persistence.MemorySlice

namespace Aegis.Persistence

open Aegis.Request (Record)

structure SameRequest (record : Record) (row : RequestRow) : Prop where
  tenantID : record.tenantID = row.tenantID
  idempotencyKey : record.idempotencyKey = row.idempotencyKey
  canonicalHash : record.canonicalHash = row.canonicalRequestHash
  state : record.state = row.status
  response : record.response = row.responseBody
  promptTokens : record.promptTokens = (row.promptTokens.getD 0 : Nat)
  completionTokens : record.completionTokens = (row.completionTokens.getD 0 : Nat)
  costMicroUSD : record.costMicroUSD = (row.actualCostMicroUSD.getD 0 : Nat)
  failureCategory : record.failureCategory = row.failureCategory.getD ""
  partialStreamed : record.partialStreamed = row.partialResponseStreamed
  completedAt : record.completedAt.isSome = row.completedAt.isSome

/-- The amount of the active reservation. -/
def Slice.active (S : Slice) : Option Int :=
  (S.reservation.filter fun r => r.state == .reserved).map fun r => (r.reservedMicroUSD : Int)

structure Mirrors (M : MemorySlice) (S : Slice) : Prop where
  request : Option.Rel SameRequest M.record S.row
  attempts : ∀ number, M.started number = true ↔ ∃ a ∈ S.attempts, a.attemptNumber = number
  reserved : M.reserved = S.active
  owner : ∀ r ∈ S.reservation, ∃ record ∈ M.record, record.tenantID = r.tenantID

section Slices

variable {M M' : MemorySlice} {S S' : Slice} {info : Info}

theorem Mirrors.row_of_record (h : Mirrors M S) {record : Record}
    (hrecord : M.record = some record) :
    ∃ row, S.row = some row ∧ SameRequest record row := by
  have hrequest := h.request
  rw [hrecord] at hrequest
  cases hrow : S.row with
  | none =>
      rw [hrow] at hrequest
      cases hrequest
  | some row =>
      rw [hrow] at hrequest
      cases hrequest with
      | some hsame => exact ⟨row, rfl, hsame⟩

theorem Mirrors.record_of_row (h : Mirrors M S) {row : RequestRow} (hrow : S.row = some row) :
    ∃ record, M.record = some record ∧ SameRequest record row := by
  have hrequest := h.request
  rw [hrow] at hrequest
  cases hrecord : M.record with
  | none =>
      rw [hrecord] at hrequest
      cases hrequest
  | some record =>
      rw [hrecord] at hrequest
      cases hrequest with
      | some hsame => exact ⟨record, rfl, hsame⟩

theorem Mirrors.sameRequest (h : Mirrors M S) {record : Record} {row : RequestRow}
    (hrecord : M.record = some record) (hrow : S.row = some row) : SameRequest record row := by
  obtain ⟨row', hrow', hsame⟩ := h.row_of_record hrecord
  obtain rfl : row' = row := Option.some.inj (hrow'.symm.trans hrow)
  exact hsame

/-- New versions of the record and the row. -/
theorem Mirrors.put (h : Mirrors M S) {record next : Record} {row' : RequestRow}
    (hrecord : M.record = some record) (hM : M'.record = some next) (hS : S'.row = some row')
    (htenant : next.tenantID = record.tenantID) (hnext : SameRequest next row')
    (hattempts : ∀ number, M'.started number = true ↔ ∃ a ∈ S'.attempts, a.attemptNumber = number)
    (hreserved : M'.reserved = M.reserved) (hreservation : S'.reservation = S.reservation) :
    Mirrors M' S' where
  request := by
    rw [hM, hS]
    exact .some hnext
  attempts := hattempts
  reserved := by
    rw [hreserved, h.reserved, Slice.active, Slice.active, hreservation]
  owner := by
    intro r hr
    rw [hreservation] at hr
    obtain ⟨record', hrecord', howner⟩ := h.owner r hr
    obtain rfl : record = record' := Option.some.inj (hrecord.symm.trans hrecord')
    exact ⟨next, hM, htenant.trans howner⟩

theorem started_update {number : Int} {attempt : MemoryAttempt} (other : Int)
    (hM : M'.attempts = some (Function.update (M.attempts.getD fun _ => none) number
      (some attempt))) :
    M'.started other = true ↔ other = number ∨ M.started other = true := by
  unfold MemorySlice.started
  rw [hM, Option.getD_some]
  by_cases hother : other = number
  · rw [hother, Function.update_self]
    simp
  · rw [Function.update_of_ne hother]
    simp [hother]

/-- An update of attempts does not change their numbers. -/
theorem exists_number_map {f : AttemptRow → AttemptRow} (attempts : List AttemptRow) (number : Int)
    (hf : ∀ a, (f a).attemptNumber = a.attemptNumber) :
    (∃ a ∈ attempts.map f, a.attemptNumber = number)
      ↔ ∃ a ∈ attempts, a.attemptNumber = number := by
  constructor
  · rintro ⟨_, hmem, hnumber⟩
    obtain ⟨a, ha, rfl⟩ := List.mem_map.mp hmem
    exact ⟨a, ha, (hf a).symm.trans hnumber⟩
  · rintro ⟨a, ha, hnumber⟩
    exact ⟨f a, List.mem_map_of_mem ha, (hf a).trans hnumber⟩

theorem exists_number_succeedAll (params : CompletionParams) (prompt completion cost latency : Nat)
    (attempts : List AttemptRow) (number : Int) :
    (∃ a ∈ Postgres.succeedAll params prompt completion cost latency info attempts,
        a.attemptNumber = number)
      ↔ ∃ a ∈ attempts, a.attemptNumber = number := by
  apply exists_number_map
  intro a
  split <;> rfl

theorem exists_number_failAll (params : FailureParams) (latency : Nat)
    (attempts : List AttemptRow) (number : Int) :
    (∃ a ∈ Postgres.failAll params latency info attempts, a.attemptNumber = number)
      ↔ ∃ a ∈ attempts, a.attemptNumber = number := by
  apply exists_number_map
  intro a
  split <;> rfl

/-- Where the two stores write the same to a request that is there: a completed
    attempt was started, a budget is reserved once and for the owner, and none
    is rejected. -/
def Aligned (M : MemorySlice) (S : Slice) : Call → Prop
  | .createOrGetRequest _ => False
  | .completeRequest params => M.started params.attemptNumber = true
  | .reserveBudget tenantID _ _ _ =>
      S.reservation = none ∧ ∃ record ∈ M.record, record.tenantID = tenantID
  | .rejectBudget _ _ _ _ => False
  | _ => True

theorem Mirrors.created (h : Mirrors M S) (params : CreateRequestParams) (modelID : String)
    (hnone : M.record = none) (hM : M' = { M with record := some (Memory.newRecord params info) })
    (hrow : S'.row = some (Postgres.newRequest params modelID info))
    (hattempts : S'.attempts = S.attempts) (hreservation : S'.reservation = S.reservation) :
    Mirrors M' S' where
  request := by
    rw [hM, hrow]
    refine .some ?_
    exact ⟨rfl, rfl, rfl, rfl, rfl, rfl, rfl, rfl, rfl, rfl, rfl⟩
  attempts := by
    intro number
    rw [hM, hattempts]
    exact h.attempts number
  reserved := by
    rw [hM, Slice.active, hreservation]
    exact h.reserved
  owner := by
    -- a request that is not there has no reservation
    intro r hr
    rw [hreservation] at hr
    obtain ⟨record, hrecord, -⟩ := h.owner r hr
    cases hnone.symm.trans hrecord

/-- **What both stores write keeps them alike.** -/
theorem Mirrors.step {call : Call} (h : Mirrors M S) (hM : Memory.Write info call M M')
    (hS : Postgres.Write info call S S') (haligned : Aligned M S call) : Mirrors M' S' := by
  cases hM with
  | create | load => exact haligned.elim
  | move hrecord htenant hstate hcan =>
      cases hS with
      | move hrow =>
          have hsame := h.sameRequest hrecord hrow
          refine h.put hrecord rfl rfl rfl ?_ h.attempts rfl rfl
          exact { hsame with state := rfl }
  | start hrecord htenant hnew =>
      cases hS with
      | start hrow hpos hnew' =>
          -- the new number is the last row there and an entry of the map here
          refine ⟨h.request, ?_, h.reserved, h.owner⟩
          intro number
          rw [started_update number rfl, h.attempts number]
          simp only [List.mem_append, List.mem_singleton]
          constructor
          · rintro (rfl | ⟨a, ha, hnumber⟩)
            · exact ⟨_, Or.inr rfl, rfl⟩
            · exact ⟨a, Or.inl ha, hnumber⟩
          · rintro ⟨a, ha | rfl, hnumber⟩
            · exact Or.inr ⟨a, ha, hnumber⟩
            · exact Or.inl hnumber.symm
  | complete hrecord htenant hstate hinner =>
      cases hS with
      | complete hrow htenant' hstatus hprompt hcompletion hcost =>
          have hsame := h.sameRequest hrecord hrow
          refine h.put hrecord rfl rfl rfl ?_ ?_ rfl rfl
          · exact { hsame with
              state := rfl, response := rfl, completedAt := rfl
              promptTokens := hprompt.symm, completionTokens := hcompletion.symm
              costMicroUSD := hcost.symm }
          · -- the attempt that is marked was started before
            intro number
            dsimp only
            rw [started_update number (by rw [hinner]; rfl), exists_number_succeedAll,
              ← h.attempts number]
            constructor
            · rintro (rfl | hstarted)
              · exact haligned
              · exact hstarted
            · exact Or.inr
  | retry hfinal hrecord htenant =>
      cases hS with
      | retry =>
          refine ⟨h.request, ?_, h.reserved, h.owner⟩
          intro number
          rw [exists_number_failAll]
          exact h.attempts number
      | fail hfinal' => exact absurd (hfinal.symm.trans hfinal') Bool.false_ne_true
  | fail hfinal hrecord htenant hstate =>
      cases hS with
      | retry hfinal' => exact absurd (hfinal'.symm.trans hfinal) Bool.false_ne_true
      | fail hfinal' hrow =>
          have hsame := h.sameRequest hrecord hrow
          refine h.put hrecord rfl rfl rfl ?_ ?_ rfl rfl
          · exact { hsame with
              state := rfl, failureCategory := rfl, partialStreamed := rfl, completedAt := rfl }
          · intro number
            dsimp only
            rw [exists_number_failAll]
            exact h.attempts number
  | cancel hrecord htenant hstate =>
      cases hS with
      | cancel hrow =>
          have hsame := h.sameRequest hrecord hrow
          refine h.put hrecord rfl rfl rfl ?_ h.attempts rfl rfl
          exact { hsame with state := rfl, completedAt := rfl }
  | reserve =>
      obtain ⟨hnone, record, hrecord, htenant⟩ := haligned
      cases hS with
      | reserve hrow _ hamount =>
          -- the row belongs to the caller, the entry to the owner of the request
          refine ⟨h.request, h.attempts, ?_, ?_⟩
          · rw [← hamount]
            rfl
          · rintro r ⟨⟩
            exact ⟨record, hrecord, htenant⟩
      | keep hsome =>
          -- `ON CONFLICT DO NOTHING` needs an earlier reservation
          rw [hnone] at hsome
          cases hsome
  | reject => exact haligned.elim
  | reconcile hrecord =>
      cases hS with
      | reconcile hamount hsome hstate =>
          -- the row stays, but is not active any more
          refine ⟨h.request, h.attempts, rfl, ?_⟩
          rintro r ⟨⟩
          obtain ⟨record, hrecord', htenant⟩ := h.owner _ hsome
          exact ⟨record, hrecord', htenant⟩

end Slices

end Aegis.Persistence
