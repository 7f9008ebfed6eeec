/-
  Aegis.Persistence.Effects

  What a call of the store does to the requests, for both stores.

  `RequestView` is what a client can observe of a request.  A call may take one
  request along one edge of the transition table, which the call determines
  (`Call.edge`), or bring one into being; everything else stays (`Effect`).
  `StoreLaw` collects what the gateway relies on, and both stores meet it
  (`Memory.storeLaw`, `Postgres.storeLaw`).
-/

import Aegis.Persistence.Memory
import Aegis.Persistence.Slice

namespace Aegis.Persistence

open Aegis.Request (ChatResponse Record State canTransition)

/-- What is observable of a request. -/
structure RequestView where
  state : State
  response : Option ChatResponse
  promptTokens : Int
  completionTokens : Int
  costMicroUSD : Int
  failureCategory : String
  partialStreamed : Bool
deriving DecidableEq, Repr

/-- The edge that a call takes: the request, the states it accepts and the
    state it sets. -/
def Call.edge : Call → Option (String × (State → Bool) × State)
  | .transitionRequest _ requestID source target => some (requestID, (· == source), target)
  | .completeRequest params => some (params.requestID, (· == .inProgress), .completed)
  | .failAttempt params =>
      if params.final then some (params.requestID, (· == .inProgress), .failed) else none
  | .cancelRequest _ requestID _ => some (requestID, (!·.terminal), .cancelled)
  | .rejectBudget _ requestID _ _ => some (requestID, (· == .validated), .budgetRejected)
  | _ => none

/-- What a call may do to the request `id`. -/
inductive Effect (call : Call) (info : Info) (id : String) :
    Option RequestView → Option RequestView → Prop
  | stay (v : Option RequestView) : Effect call info id v v
  | create {v : RequestView} (params : CreateRequestParams)
      (hcall : call = .createOrGetRequest params) (hid : id = info.ids 0)
      (hstate : v.state = .received) : Effect call info id none (some v)
  | move {accepts : State → Bool} {target : State} {v w : RequestView}
      (hedge : call.edge = some (id, accepts, target)) (haccepts : accepts v.state = true)
      (hcan : canTransition v.state target = true) (htarget : w.state = target)
      (hresponse : ∀ params, call = .completeRequest params →
        w.response = some params.response) : Effect call info id (some v) (some w)

/-- What a store does with calls, as far as the gateway depends on it.  `Fresh`
    is what the store assumes about the identifiers it generates. -/
structure StoreLaw {σ : Type} (store : Store σ) (view : σ → String → Option RequestView)
    (Fresh : σ → Call × Info → Prop) : Prop where
  effect : ∀ s call info, Fresh s (call, info) → ∀ id,
    Effect call info id (view s id) (view (store call info s).2 id)
  accepted : ∀ {s call info id accepts target r s'}, call.edge = some (id, accepts, target) →
    store call info s = (.ok r, s') →
    ∃ v w, view s id = some v ∧ accepts v.state = true ∧ view s' id = some w ∧ w.state = target
  created : ∀ {s params info record s'}, Fresh s (.createOrGetRequest params, info) →
    store (.createOrGetRequest params) info s = (.ok (record, true), s') →
    record.id = info.ids 0 ∧ view s record.id = none
      ∧ ∃ v, view s' record.id = some v ∧ v.state = .received

/-! ## The in-memory store -/

namespace Memory

/-- The view of a stored record. -/
def viewRecord (r : Record) : RequestView where
  state := r.state
  response := r.response
  promptTokens := r.promptTokens
  completionTokens := r.completionTokens
  costMicroUSD := r.costMicroUSD
  failureCategory := r.failureCategory
  partialStreamed := r.partialStreamed

def view (memory : Memory) (id : String) : Option RequestView :=
  (memory.requests id).map viewRecord

/-- `randomID` does not return an identifier that is in use.  The source draws
    it from `crypto/rand` and does not check. -/
def FreshID (memory : Memory) (a : Call × Info) : Prop :=
  match a.1 with
  | .createOrGetRequest _ => memory.requests (a.2.ids 0) = none
  | _ => True

/-- A request's record is replaced by one in the target state; the other records
    and the keys stay. -/
structure Moved (id : String) (accepts : State → Bool) (target : State) (next : Record)
    (memory memory' : Memory) : Prop where
  found : ∃ record, memory.requests id = some record ∧ accepts record.state = true
    ∧ canTransition record.state target = true
  state : next.state = target
  stored : memory'.requests = Function.update memory.requests id (some next)
  keys : memory'.idempotency = memory.idempotency

/-- Storing a successor of the tenant's own record. -/
theorem moved_putRequest {memory : Memory} {tenantID requestID : String} {record : Record}
    (accepts : State → Bool) (target : State) (next : Record)
    (hown : memory.ownRequest tenantID requestID = some record) (hid : next.id = record.id)
    (haccepts : accepts record.state = true) (hcan : canTransition record.state target = true)
    (hstate : next.state = target) :
    Moved requestID accepts target next memory (memory.putRequest next) := by
  obtain ⟨hfound, hkey, -⟩ := ownRequest_eq_some hown
  refine ⟨⟨record, hfound, haccepts, hcan⟩, hstate, ?_, rfl⟩
  rw [← hkey, ← hid]
  rfl

/-- What a call does along its edge: it fails and changes no record, or it moves
    the request. -/
inductive Along (call : Call) (id : String) (accepts : State → Bool) (target : State)
    (memory : Memory) : Except GoError call.Result × Memory → Prop
  | refused (err : GoError) : Along call id accepts target memory (.error err, memory)
  | moved {next : Record} {memory' : Memory} (result : Except GoError call.Result)
      (h : Moved id accepts target next memory memory')
      (hresponse : ∀ params, call = .completeRequest params →
        next.response = some params.response) :
      Along call id accepts target memory (result, memory')

section Edges

variable (info : Info) (memory : Memory)

theorem transitionRequest_moved (tenantID requestID : String) (source target : State) :
    (∃ err, transitionRequest tenantID requestID source target info memory = (.error err, memory))
      ∨ ∃ next memory',
          transitionRequest tenantID requestID source target info memory = (.ok (), memory')
          ∧ Moved requestID (· == source) target next memory memory' := by
  unfold transitionRequest
  split
  · exact Or.inl ⟨_, rfl⟩
  · next record hown =>
      split
      · exact Or.inl ⟨_, rfl⟩
      · next hstate =>
          split
          · exact Or.inl ⟨_, rfl⟩
          · next htransition =>
              refine Or.inr ⟨_, _, rfl, moved_putRequest _ _ _ hown ?_ ?_ ?_ ?_⟩
              · rfl
              · simpa using not_not.mp hstate
              · rw [not_not.mp hstate]
                exact Postgres.transition_eq_ok.mp htransition
              · rfl

/-- The calls that take an edge. -/
theorem store_along {call : Call} {id : String} {accepts : State → Bool} {target : State}
    (hedge : call.edge = some (id, accepts, target)) :
    Along call id accepts target memory (store call info memory) := by
  cases call with
  | transitionRequest tenantID requestID source state =>
      obtain ⟨rfl, rfl, rfl⟩ : requestID = id ∧ (fun s => s == source) = accepts
          ∧ state = target := by
        simpa [Call.edge] using hedge
      rw [store]
      rcases transitionRequest_moved info memory tenantID requestID source state with
        ⟨err, hrun⟩ | ⟨next, memory', hrun, hmoved⟩
      · rw [hrun]
        exact .refused err
      · rw [hrun]
        exact .moved _ hmoved (by rintro _ ⟨⟩)
  | completeRequest params =>
      obtain ⟨rfl, rfl, rfl⟩ : params.requestID = id ∧ (fun s => s == State.inProgress) = accepts
          ∧ State.completed = target := by
        simpa [Call.edge] using hedge
      simp only [store, completeRequest]
      split
      · exact .refused _
      · next record hown =>
          split
          · exact .refused _
          · next hstate =>
              have hmoved := moved_putRequest (· == .inProgress) .completed { record with
                  state := .completed, response := some params.response
                  completedAt := some info.now, updatedAt := info.now
                  promptTokens := params.response.usage.promptTokens
                  completionTokens := params.response.usage.completionTokens
                  costMicroUSD := params.costMicroUSD }
                hown rfl (by simpa using not_not.mp hstate) (by rw [not_not.mp hstate]; rfl) rfl
              have hresponse : ∀ p, Call.completeRequest params = .completeRequest p →
                  some params.response = some p.response := by
                intro p hp
                rw [Call.completeRequest.inj hp]
              -- marking the attempt, or failing to, does not touch the record
              split
              · exact .moved _ hmoved hresponse
              · exact .moved _ ⟨hmoved.found, hmoved.state, hmoved.stored, rfl⟩ hresponse
  | failAttempt params =>
      simp only [Call.edge] at hedge
      split at hedge
      · next hfinal =>
          obtain ⟨rfl, rfl, rfl⟩ : params.requestID = id
              ∧ (fun s => s == State.inProgress) = accepts ∧ State.failed = target := by
            simpa using hedge
          simp only [store, failAttempt, hfinal, if_true]
          split
          · exact .refused _
          · next record hown =>
              split
              · exact .refused _
              · next hstate =>
                  refine .moved _ (moved_putRequest _ _ _ hown ?_ ?_ ?_ ?_) (by rintro _ ⟨⟩)
                  · rfl
                  · simpa using not_not.mp hstate
                  · rw [not_not.mp hstate]
                    rfl
                  · rfl
      · cases hedge
  | cancelRequest tenantID requestID correlationID =>
      obtain ⟨rfl, rfl, rfl⟩ : requestID = id ∧ (fun s => !State.terminal s) = accepts
          ∧ State.cancelled = target := by
        simpa [Call.edge] using hedge
      simp only [store, cancelRequest]
      split
      · exact .refused _
      · next record hown =>
          split
          · exact .refused _
          · next hopen =>
              -- the four states that are refused are the terminal ones
              have hstate : record.state.terminal = false := by
                cases hs : record.state <;> simp [hs] at hopen <;> rfl
              refine .moved _ (moved_putRequest _ _ _ hown ?_ ?_ ?_ ?_) (by rintro _ ⟨⟩)
              · rfl
              · simp [hstate]
              · exact Request.canTransition_cancelled hstate
              · rfl
  | rejectBudget tenantID requestID correlationID requested =>
      obtain ⟨rfl, rfl, rfl⟩ : requestID = id ∧ (fun s => s == State.validated) = accepts
          ∧ State.budgetRejected = target := by
        simpa [Call.edge] using hedge
      rw [store, rejectBudget]
      rcases transitionRequest_moved info memory tenantID requestID .validated .budgetRejected with
        ⟨err, hrun⟩ | ⟨next, memory', hrun, hmoved⟩
      · rw [hrun]
        exact .refused err
      · rw [hrun]
        exact .moved _ hmoved (by rintro _ ⟨⟩)
  | createOrGetRequest | getRequest | startAttempt | tenantPolicy | reserveBudget
  | reconcileBudget => cases hedge

/-- The calls that take none and create nothing. -/
theorem store_aside {call : Call} (hedge : call.edge = none)
    (hcreate : ∀ params, call ≠ .createOrGetRequest params) :
    (store call info memory).2.requests = memory.requests
      ∧ (store call info memory).2.idempotency = memory.idempotency := by
  cases call with
  | createOrGetRequest params => exact absurd rfl (hcreate params)
  | getRequest tenantID requestID =>
      simp only [store, getRequest]
      split <;> exact ⟨rfl, rfl⟩
  | startAttempt params =>
      simp only [store, startAttempt]
      split
      · exact ⟨rfl, rfl⟩
      · split <;> exact ⟨rfl, rfl⟩
  | failAttempt params =>
      simp only [store, failAttempt]
      split
      · exact ⟨rfl, rfl⟩
      · split
        · next hfinal => exact absurd hedge (by simp [Call.edge, hfinal])
        · exact ⟨rfl, rfl⟩
  | tenantPolicy tenantID model =>
      simp only [store, tenantPolicy]
      split <;> exact ⟨rfl, rfl⟩
  | reserveBudget tenantID requestID amount now =>
      simp only [store, reserveBudget]
      split
      · exact ⟨rfl, rfl⟩
      · split <;> exact ⟨rfl, rfl⟩
  | reconcileBudget requestID actual =>
      simp only [store, reconcileBudget]
      split <;> exact ⟨rfl, rfl⟩
  | transitionRequest | completeRequest | cancelRequest | rejectBudget => cases hedge

theorem createOrGetRequest_effect (params : CreateRequestParams)
    (hfresh : FreshID memory (.createOrGetRequest params, info)) (id : String) :
    Effect (.createOrGetRequest params) info id (memory.view id)
      ((store (.createOrGetRequest params) info memory).2.view id) := by
  simp only [store, createOrGetRequest]
  split
  · split
    · split <;> exact .stay _
    · split <;> exact .stay _
  · -- a new record appears under a fresh identifier
    by_cases h : id = info.ids 0
    · subst h
      have hnone : memory.view (info.ids 0) = none := by
        simp only [view, show memory.requests (info.ids 0) = none from hfresh, Option.map_none]
      rw [hnone]
      simp only [view, putRequest, Function.update_self, Option.map_some]
      exact .create params rfl rfl rfl
    · simp only [view, putRequest, Function.update_of_ne h]
      exact .stay _

end Edges

theorem effect (memory : Memory) (call : Call) (info : Info) (hfresh : FreshID memory (call, info))
    (id : String) : Effect call info id (memory.view id) ((store call info memory).2.view id) := by
  by_cases hcreate : ∃ params, call = .createOrGetRequest params
  · obtain ⟨params, rfl⟩ := hcreate
    exact createOrGetRequest_effect info memory params hfresh id
  cases hedge : call.edge with
  | none =>
      rw [view, view, (store_aside info memory hedge fun params heq => hcreate ⟨params, heq⟩).1]
      exact .stay _
  | some edge =>
      obtain ⟨requestID, accepts, target⟩ := edge
      have halong := store_along info memory hedge
      generalize store call info memory = answer at halong ⊢
      cases halong with
      | refused err => exact .stay _
      | moved result hmoved hresponse =>
          obtain ⟨⟨record, hfound, haccepts, hcan⟩, hstate, hstored, -⟩ := hmoved
          by_cases hid : id = requestID
          · subst hid
            simp only [view, hstored, hfound, Function.update_self, Option.map_some]
            exact .move hedge haccepts hcan hstate hresponse
          · simp only [view, hstored, Function.update_of_ne hid]
            exact .stay _

theorem accepted {memory memory' : Memory} {call : Call} {info : Info} {id : String}
    {accepts : State → Bool} {target : State} {r : call.Result}
    (hedge : call.edge = some (id, accepts, target))
    (h : store call info memory = (.ok r, memory')) :
    ∃ v w, memory.view id = some v ∧ accepts v.state = true ∧ memory'.view id = some w
      ∧ w.state = target := by
  have halong := store_along info memory hedge
  rw [h] at halong
  cases halong with
  | @moved next _ result hmoved hresponse =>
      obtain ⟨⟨record, hfound, haccepts, -⟩, hstate, hstored, -⟩ := hmoved
      refine ⟨viewRecord record, viewRecord next, by rw [view, hfound]; rfl, haccepts, ?_, hstate⟩
      rw [view, hstored, Function.update_self]
      rfl

/-- A created request is new, received, and carries the generated identifier. -/
theorem created {memory memory' : Memory} {params : CreateRequestParams} {info : Info}
    {record : Record} (hfresh : FreshID memory (.createOrGetRequest params, info))
    (h : store (.createOrGetRequest params) info memory = (.ok (record, true), memory')) :
    record.id = info.ids 0 ∧ memory.view record.id = none
      ∧ ∃ v, memory'.view record.id = some v ∧ v.state = .received := by
  simp only [store, createOrGetRequest] at h
  split at h
  · split at h
    · split at h <;> exact absurd (congrArg Prod.fst h) (by simp)
    · split at h <;> exact absurd (congrArg Prod.fst h) (by simp)
  · obtain ⟨hrecord, hmemory⟩ := Prod.mk.inj h
    have hrec := congrArg Prod.fst (Except.ok.inj hrecord)
    dsimp only at hrec
    have hid : record.id = info.ids 0 := by rw [← hrec]
    have hview : memory'.view record.id = some (viewRecord record) := by
      rw [← hmemory, ← hrec]
      simp only [view, putRequest, Function.update_self, Option.map_some]
    refine ⟨hid, ?_, _, hview, by rw [← hrec]; rfl⟩
    rw [hid, view, show memory.requests (info.ids 0) = none from hfresh]
    rfl

theorem storeLaw : StoreLaw store view FreshID :=
  ⟨effect, accepted, created⟩

end Memory

/-! ## PostgreSQL -/

namespace Db

/-- The view of a row of `ai_requests`. -/
def viewRow (r : RequestRow) : RequestView where
  state := r.status
  response := r.responseBody
  promptTokens := r.promptTokens.getD 0
  completionTokens := r.completionTokens.getD 0
  costMicroUSD := r.actualCostMicroUSD.getD 0
  failureCategory := r.failureCategory.getD ""
  partialStreamed := r.partialResponseStreamed

def view (db : Db) (id : String) : Option RequestView := (db.request? id).map viewRow

theorem view_eq_slice (db : Db) (id : String) : db.view id = (db.slice id).row.map viewRow := rfl

end Db

namespace Postgres

theorem not_terminal_of_cancellable {s : State} (h : cancellable s = true) :
    s.terminal = false := by
  cases s <;> first | rfl | exact absurd h (by decide)

/-- The call that takes an edge at a request is about it. -/
theorem subject_of_edge {call : Call} {info : Info} {id : String} {accepts : State → Bool}
    {target : State} (hedge : call.edge = some (id, accepts, target)) :
    call.subject info = some id := by
  cases call with
  | failAttempt params =>
      simp only [Call.edge] at hedge
      split at hedge
      · exact congrArg (Option.map Prod.fst) hedge
      · cases hedge
  | transitionRequest | completeRequest | cancelRequest | rejectBudget =>
      exact congrArg (Option.map Prod.fst) hedge
  | createOrGetRequest | getRequest | startAttempt | tenantPolicy | reserveBudget
  | reconcileBudget => cases hedge

/-- A write is an effect on the request it is about. -/
theorem Write.effect {info : Info} {call : Call} {S S' : Slice} {id : String}
    (hsubject : call.subject info = some id) (h : Write info call S S') :
    Effect call info id (S.row.map Db.viewRow) (S'.row.map Db.viewRow) := by
  have hid := fun {requestID : String} (h : some requestID = some id) => Option.some.inj h
  cases h with
  | create hrow =>
      rw [hrow]
      exact .create _ rfl (hid hsubject).symm rfl
  | move hrow htenant hstatus hcan =>
      rw [hrow, ← hid hsubject]
      refine .move rfl (by simpa [Db.viewRow] using hstatus) ?_ rfl ?_
      · rw [Db.viewRow, hstatus]
        exact hcan
      · exact fun _ hparams => (nomatch hparams)
  | complete hrow htenant hstatus =>
      rw [hrow, ← hid hsubject]
      refine .move rfl (by simpa [Db.viewRow] using hstatus) ?_ rfl ?_
      · rw [Db.viewRow, hstatus]
        rfl
      · intro params hparams
        rw [← Call.completeRequest.inj hparams]
        rfl
  | fail hfinal hrow htenant hstatus =>
      rw [hrow, ← hid hsubject]
      refine .move (if_pos hfinal) (by simpa [Db.viewRow] using hstatus) ?_ rfl ?_
      · rw [Db.viewRow, hstatus]
        rfl
      · exact fun _ hparams => (nomatch hparams)
  | cancel hrow htenant hstatus =>
      have hopen := not_terminal_of_cancellable hstatus
      rw [hrow, ← hid hsubject]
      refine .move rfl (by simp [Db.viewRow, hopen]) (Request.canTransition_cancelled hopen) rfl ?_
      exact fun _ hparams => (nomatch hparams)
  | reject hrow htenant hstatus =>
      rw [hrow, ← hid hsubject]
      refine .move rfl (by simpa [Db.viewRow] using hstatus) ?_ rfl ?_
      · rw [Db.viewRow, hstatus]
        rfl
      · exact fun _ hparams => (nomatch hparams)
  | load | start | retry | reserve | keep | reconcile => exact .stay _

theorem effect (db : Db) (call : Call) (info : Info) (id : String) :
    Effect call info id (db.view id) ((store call info db).2.view id) := by
  rcases store_slice call info db id with hsame | ⟨hsubject, hwrite⟩
  · rw [Db.view_eq_slice, Db.view_eq_slice, hsame]
    exact .stay _
  · rw [Db.view_eq_slice, Db.view_eq_slice]
    exact hwrite.effect hsubject

theorem accepted {db db' : Db} {call : Call} {info : Info} {id : String}
    {accepts : State → Bool} {target : State} {r : call.Result}
    (hedge : call.edge = some (id, accepts, target))
    (h : store call info db = (.ok r, db')) :
    ∃ v w, db.view id = some v ∧ accepts v.state = true ∧ db'.view id = some w
      ∧ w.state = target := by
  have hwrite : Write info call (db.slice id) (db'.slice id) := by
    rcases store_ok_slice h id with ⟨-, hwrite⟩ | ⟨hnot, -⟩
    · exact hwrite
    · exact absurd (subject_of_edge hedge) hnot
  rw [Db.view_eq_slice, Db.view_eq_slice]
  clear h
  generalize db.slice id = S at hwrite
  generalize db'.slice id = S' at hwrite
  -- the writes along an edge: the row is there, in a state the edge accepts
  cases hwrite with
  | move hrow htenant hstatus hcan =>
      obtain ⟨-, rfl, rfl⟩ := by simpa [Call.edge] using hedge
      exact ⟨_, _, by rw [hrow]; rfl, by simpa [Db.viewRow] using hstatus, rfl, rfl⟩
  | complete hrow htenant hstatus =>
      obtain ⟨-, rfl, rfl⟩ := by simpa [Call.edge] using hedge
      exact ⟨_, _, by rw [hrow]; rfl, by simpa [Db.viewRow] using hstatus, rfl, rfl⟩
  | fail hfinal hrow htenant hstatus =>
      obtain ⟨-, rfl, rfl⟩ := by simpa [Call.edge, hfinal] using hedge
      exact ⟨_, _, by rw [hrow]; rfl, by simpa [Db.viewRow] using hstatus, rfl, rfl⟩
  | retry hfinal => exact absurd hedge (by simp [Call.edge, hfinal])
  | cancel hrow htenant hstatus =>
      obtain ⟨-, rfl, rfl⟩ := by simpa [Call.edge] using hedge
      exact ⟨_, _, by rw [hrow]; rfl,
        by simp [Db.viewRow, not_terminal_of_cancellable hstatus], rfl, rfl⟩
  | reject hrow htenant hstatus =>
      obtain ⟨-, rfl, rfl⟩ := by simpa [Call.edge] using hedge
      exact ⟨_, _, by rw [hrow]; rfl, by simpa [Db.viewRow] using hstatus, rfl, rfl⟩
  | create | load | start | reserve | keep | reconcile => cases hedge

theorem created {db db' : Db} {params : CreateRequestParams} {info : Info} {record : Record}
    (h : store (.createOrGetRequest params) info db = (.ok (record, true), db')) :
    record.id = info.ids 0 ∧ db.view record.id = none
      ∧ ∃ v, db'.view record.id = some v ∧ v.state = .received := by
  rcases createOrGetRequest_ok (transact_ok h) with
    ⟨-, modelID, requests, outbox, payload, -, hfree, hid, hdb, hrows, -⟩ | ⟨hfalse, -⟩
  · rw [hid]
    have hnone : db.request? (info.ids 0) = none := by
      rw [Db.request?, List.find?_eq_none]
      intro r hr
      simpa using hfree r hr
    have hnew : db'.request? (info.ids 0) = some (newRequest params modelID info) := by
      rw [Db.request?_eq_some_iff, hdb]
      refine ⟨?_, rfl⟩
      rw [hrows]
      exact List.mem_append_right _ (List.mem_singleton_self _)
    refine ⟨rfl, by rw [Db.view, hnone]; rfl, _, by rw [Db.view, hnew]; rfl, rfl⟩
  · exact absurd hfalse (by simp)

/-- PostgreSQL assumes nothing: its primary key refuses a repeated identifier. -/
theorem storeLaw : StoreLaw store Db.view fun _ _ => True :=
  ⟨fun s call info _ => effect s call info, accepted, fun _ => created⟩

end Postgres

end Aegis.Persistence
