/-
  Aegis.Gateway.Attempts

  What an execution holds for its request on PostgreSQL, and that nobody else
  touches it.

  The attempts of a request follow the stage of its execution: attempt `n` is
  STARTED from `StartAttempt` until the call that ends it, and every earlier
  attempt has FAILED (`Stage.Attempted`, `Branch.attempted`).  This holds
  whatever fails and whoever cancels.

  A property of an execution and of the slice of its request is kept in every
  run if the execution's own steps keep it and a cancellation does: `Owned` and
  `owned_step` are that rule.
-/

import Aegis.Gateway.Custody
import Aegis.Persistence.Slice

namespace Aegis.Gateway

open Aegis.Persistence (AttemptParams AttemptRow Call CompletionParams Db FailureParams Info
  RequestRow Slice)
open Aegis.Persistence.Postgres (Rooted Write cancellable failAll failureGuard newAttempt
  succeedAll)
open Aegis.Request (ChatInput Record State)
open Aegis.Routing (Router)

/-! ## Lists of attempts -/

/-- Attempts with numbers below `n`, all failed. -/
def Tried (n : Nat) (attempts : List AttemptRow) : Prop :=
  ∀ a ∈ attempts, a.status = .failed ∧ a.attemptNumber < n

/-- Attempt `n` is started and all before it have failed. -/
def InFlight (tenantID id : String) (n : Nat) (attempts : List AttemptRow) : Prop :=
  0 < n ∧ ∃ tried last, attempts = tried ++ [last] ∧ Tried n tried
    ∧ Db.attemptGuard tenantID id n last = true

section Lists

variable {n : Nat} {attempts : List AttemptRow} {info : Info}

theorem Tried.nil : Tried n [] :=
  fun _ h => absurd h List.not_mem_nil

theorem Tried.not_started (h : Tried n attempts) : ∀ a ∈ attempts, a.status ≠ .started := by
  intro a ha
  rw [(h a ha).1]
  exact nofun

/-- No update of a started attempt finds one among those tried. -/
theorem Tried.attemptGuard (h : Tried n attempts) (tenantID id : String) (number : Int) :
    ∀ a ∈ attempts, Db.attemptGuard tenantID id number a = false := by
  intro a ha
  simp [Db.attemptGuard, (h a ha).1]

theorem Tried.start {params : AttemptParams} {providerID modelID : String}
    (h : Tried n attempts) (hnumber : params.number = n) (hpos : 0 < n) :
    InFlight params.tenantID params.requestID n
      (attempts ++ [newAttempt params providerID modelID info]) := by
  refine ⟨hpos, attempts, _, rfl, h, ?_⟩
  simp [Db.attemptGuard, newAttempt, hnumber]

/-- `CompleteRequest` ends the attempt in flight and touches no other. -/
theorem succeedAll_of_tried {params : CompletionParams} {prompt completion cost latency : Nat}
    {last : AttemptRow} (h : Tried n attempts)
    (hlast : Db.attemptGuard params.tenantID params.requestID params.attemptNumber last = true) :
    succeedAll params prompt completion cost latency info (attempts ++ [last])
      = attempts ++ [last.succeeded params.providerRequestID prompt completion cost latency
          info.dbNow] := by
  simp only [succeedAll, List.map_append, List.map_cons, List.map_nil, hlast, if_true]
  rw [Lib.map_update_of_disjoint (h.attemptGuard _ _ _)]

/-- So does `FailAttempt`. -/
theorem InFlight.fail {params : FailureParams} {latency : Nat}
    (h : InFlight params.tenantID params.requestID n attempts)
    (hnumber : params.attemptNumber = n) :
    Tried (n + 1) (failAll params latency info attempts) := by
  obtain ⟨hpos, tried, last, rfl, htried, hlast⟩ := h
  have hguard : failureGuard params last = true := by
    simp [failureGuard, hnumber, hlast, hpos]
  have hsame : tried.map (fun a => if failureGuard params a then
      a.failed params.category params.retryable latency info.dbNow else a) = tried := by
    refine Lib.map_update_of_disjoint ?_
    intro a ha
    rw [failureGuard, htried.attemptGuard _ _ _ a ha, Bool.and_false]
  simp only [failAll, List.map_append, hsame, List.map_cons, List.map_nil, hguard, if_true]
  intro a ha
  rcases List.mem_append.mp ha with ha | ha
  · obtain ⟨hfailed, hbelow⟩ := htried a ha
    exact ⟨hfailed, by omega⟩
  · rw [List.mem_singleton.mp ha]
    have hlastNumber : last.attemptNumber = n := by
      simp only [Db.attemptGuard, Bool.and_eq_true, beq_iff_eq] at hlast
      exact hlast.1.2
    exact ⟨rfl, by simp only [AttemptRow.failed]; omega⟩

/-- A `FailAttempt` that names no attempt changes none. -/
theorem failAll_of_zero {params : FailureParams} {latency : Nat}
    (hnumber : params.attemptNumber = 0) : failAll params latency info attempts = attempts := by
  refine Lib.map_update_of_disjoint ?_
  intro a _
  simp [failureGuard, hnumber]

end Lists

/-! ## By stage -/

/-- The attempts of the request at a stage of its execution. -/
def Stage.Attempted (tenantID id : String) (attempts : List AttemptRow) : Stage → Prop
  | .received | .validated | .abandoning _ | .admitting _ | .reserving _ _ | .rejecting _ _
  | .reserved _ | .routed _ => attempts = []
  | .selecting loop | .leased loop _ => Tried loop.attemptNumber attempts
  | .attempted loop _ | .calling loop _ _ | .completing loop _ _ _ _ _
  | .failing loop _ _ _ _ => InFlight tenantID id loop.attemptNumber attempts
  | .backingOff loop _ => Tried (loop.attemptNumber + 1) attempts
  | .closing _ | .releasing _ | .settling _ _ => ∀ a ∈ attempts, a.status ≠ .started

section Branches

variable {service : Service} {p p' : Process} {record : Record} {env : Env} {db db' : Db}
  {stage : Stage}

/-- Whatever its answer, a call leaves the slice of the request or writes to it. -/
theorem perform_slice {call : Call} {result : Except GoError call.Result}
    (h : perform Persistence.Postgres.store call env db = (result, db')) (id : String) :
    db'.slice id = db.slice id
      ∨ call.subject env.info = some id ∧ Write env.info call (db.slice id) (db'.slice id) := by
  have hdb' : db' = (perform Persistence.Postgres.store call env db).2 := by rw [h]
  rcases perform_store Persistence.Postgres.store env call db with hsame | hdone
  · rw [hdb', hsame]
    exact Or.inl rfl
  · rw [hdb', hdone]
    exact Persistence.Postgres.store_slice call env.info db id

/-- A call that is answered has written. -/
theorem perform_write {call : Call} {r : call.Result} {id : String}
    (h : perform Persistence.Postgres.store call env db = (.ok r, db'))
    (hsubject : call.subject env.info = some id) :
    Write env.info call (db.slice id) (db'.slice id) := by
  rcases Persistence.Postgres.store_ok_slice (perform_ok h) id with ⟨-, hwrite⟩ | ⟨hnot, -⟩
  · exact hwrite
  · exact absurd hsubject hnot

/-- **Attempts of a step.** The attempts follow the stage. -/
theorem Branch.attempted
    (h : Branch Persistence.Postgres.store service p record env db stage p' db')
    (hattempts : stage.Attempted p.tenantID record.id (db.slice record.id).attempts)
    {record' : Record} {stage' : Stage} (hphase' : p'.phase = .running record' stage') :
    record' = record ∧ stage'.Attempted p.tenantID record.id (db'.slice record.id).attempts := by
  cases h with
  | validate h | route h =>
      obtain ⟨rfl, rfl⟩ := Phase.running.inj hphase'
      have hwrite := perform_write h rfl
      generalize db'.slice record.id = S' at hwrite ⊢
      cases hwrite with
      | move => exact ⟨rfl, hattempts⟩
  | progress h =>
      obtain ⟨rfl, rfl⟩ := Phase.running.inj hphase'
      have hwrite := perform_write h rfl
      generalize db'.slice record.id = S' at hwrite ⊢
      cases hwrite with
      | move =>
          refine ⟨rfl, ?_⟩
          dsimp only [Stage.Attempted] at hattempts ⊢
          rw [hattempts]
          exact Tried.nil
  | policy h | forbidden h =>
      obtain ⟨rfl, rfl⟩ := Phase.running.inj hphase'
      rcases perform_slice h record.id with hsame | ⟨hsubject, -⟩
      · rw [hsame]
        exact ⟨rfl, hattempts⟩
      · cases hsubject
  | reserve h | exceeded h =>
      obtain ⟨rfl, rfl⟩ := Phase.running.inj hphase'
      rcases perform_slice h record.id with hsame | ⟨-, hwrite⟩
      · rw [hsame]
        exact ⟨rfl, hattempts⟩
      · generalize db'.slice record.id = S' at hwrite ⊢
        cases hwrite with
        | reserve | keep => exact ⟨rfl, hattempts⟩
  | start h =>
      obtain ⟨rfl, rfl⟩ := Phase.running.inj hphase'
      have hwrite := perform_write h rfl
      generalize db'.slice record.id = S' at hwrite ⊢
      cases hwrite with
      | start hrow hpos => exact ⟨rfl, Tried.start hattempts rfl (by simpa using hpos)⟩
  | complete h =>
      obtain ⟨rfl, rfl⟩ := Phase.running.inj hphase'
      have hwrite := perform_write h rfl
      obtain ⟨hpos, tried, last, hlist, htried, hlast⟩ := hattempts
      generalize db'.slice record.id = S' at hwrite ⊢
      cases hwrite with
      | complete =>
          -- the attempt in flight has SUCCEEDED, the others have failed before
          refine ⟨rfl, ?_⟩
          dsimp only [Stage.Attempted]
          rw [hlist, succeedAll_of_tried htried hlast]
          intro a ha
          rcases List.mem_append.mp ha with ha | ha
          · exact htried.not_started a ha
          · rw [List.mem_singleton.mp ha]
            exact nofun
  | retry h =>
      obtain ⟨rfl, rfl⟩ := Phase.running.inj hphase'
      have hwrite := perform_write h rfl
      generalize db'.slice record.id = S' at hwrite ⊢
      cases hwrite with
      | retry => exact ⟨rfl, InFlight.fail hattempts rfl⟩
      | fail hfinal => cases hfinal
  | @fail loop _ _ _ _ _ h =>
      obtain ⟨rfl, rfl⟩ := Phase.running.inj hphase'
      have hwrite := perform_write h rfl
      generalize db'.slice record.id = S' at hwrite ⊢
      cases hwrite with
      | retry hfinal => cases hfinal
      | fail =>
          refine ⟨rfl, Tried.not_started (n := loop.attemptNumber + 1) ?_⟩
          exact InFlight.fail hattempts rfl
  | close =>
      -- this `FailAttempt` names no attempt: none is left to end
      obtain ⟨rfl, rfl⟩ := Phase.running.inj hphase'
      refine ⟨rfl, ?_⟩
      generalize hrun : perform Persistence.Postgres.store _ env db = answer
      rcases perform_slice hrun record.id with hsame | ⟨-, hwrite⟩
      · rw [hsame]
        exact hattempts
      · generalize answer.2.slice record.id = S' at hwrite ⊢
        cases hwrite with
        | retry | fail =>
            dsimp only [Stage.Attempted]
            rw [failAll_of_zero rfl]
            exact hattempts
  | exhausted | interrupted =>
      obtain ⟨rfl, rfl⟩ := Phase.running.inj hphase'
      exact ⟨rfl, Tried.not_started hattempts⟩
  | refuse | quote | lease | begin | answer | fault | again =>
      obtain ⟨rfl, rfl⟩ := Phase.running.inj hphase'
      exact ⟨rfl, hattempts⟩
  | unvalidated | abandon | unquoted | unreserved | reject | unrouted | stalled | unstarted
  | unpriced | uncompleted | settle | unfailed | release | panic => cases hphase'

end Branches

/-! ## What nobody else touches -/

/-- A process calls the store about its own request, or to create one. -/
theorem Makes.subject {p : Process} {call : Call} {info : Info} {id : String} (h : Makes p call)
    (hsubject : call.subject info = some id) :
    (∃ record stage, p.phase = .running record stage ∧ record.id = id)
      ∨ ∃ params, call = .createOrGetRequest params := by
  cases h with
  | create => exact Or.inr ⟨_, rfl⟩
  | policy => cases hsubject
  | validate hphase | abandon hphase | reserve hphase | reject hphase | route hphase
  | progress hphase | start hphase | complete hphase | settle hphase | fail hphase | close hphase
  | release hphase => exact Or.inl ⟨_, _, hphase, Option.some.inj hsubject⟩

/-- A property of a process and the slice of its request that a new request has
    and a cancellation keeps. -/
structure Local (H : Process → Slice → Prop) : Prop where
  opened : ∀ {p record row S}, p.phase = .running record .received → S.row = some row →
    row.tenantID = p.tenantID → S.attempts = [] → S.reservation = none → H p S
  cancelled : ∀ {p row S now}, S.row = some row → H p S →
    H p { S with row := some (row.cancelled now) }

/-- Every execution has the property with the request it created. -/
structure Owned (H : Process → Slice → Prop) (x : System Db) : Prop where
  custody : Custody Db.view x
  rooted : ∀ id, Rooted (x.store.slice id)
  unopened : ∀ {pid p}, x.procs pid = some p → p.phase = .submitted → p.opened = none
  holds : ∀ {pid p record}, x.procs pid = some p → p.opened = some (record, true) →
    H p (x.store.slice record.id)

section Owned

variable {H : Process → Slice → Prop} {platform : Platform Db} {x : System Db}

theorem owned_init (catalog : Persistence.Catalog) (routers : Nat → Router) :
    Owned H (System.init (Db.init catalog) routers) where
  custody := custody_init _ _
  rooted := fun _ _ => ⟨rfl, rfl⟩
  unopened := fun h => (nomatch h)
  holds := fun h => (nomatch h)

/-- To the request of an execution the steps of others do nothing, or cancel it. -/
theorem Owned.slice_other (h : Owned H x) (hstore : platform.store = Persistence.Postgres.store)
    {pid : Nat} {q : Process} {record : Record} (hq : x.procs pid = some q)
    (hopened : q.opened = some (record, true)) {action : Action}
    (hother : ∀ env, action ≠ .advance pid env) :
    (x.step platform action).store.slice record.id = x.store.slice record.id
      ∨ ∃ row now, (x.store.slice record.id).row = some row
          ∧ (x.step platform action).store.slice record.id
            = { x.store.slice record.id with row := some (row.cancelled now) } := by
  rcases System.step_store_call platform x action with
    hsame | ⟨call, info, hcall, hcalled, -⟩
  · rw [hsame]
    exact Or.inl rfl
  rw [hcalled, hstore]
  rcases Persistence.Postgres.store_slice call info x.store record.id with
    hsame | ⟨hsubject, hwrite⟩
  · exact Or.inl hsame
  generalize Db.slice (Persistence.Postgres.store call info x.store).2 record.id = S' at hwrite ⊢
  cases action with
  | advance pid' env =>
      obtain ⟨p, hp, hmakes⟩ := hcall
      rcases hmakes.subject hsubject with ⟨record', stage, hphase, hid⟩ | ⟨params, rfl⟩
      · -- it would be the same process
        have hpid : pid' = pid :=
          h.custody.distinct hp hq (h.custody.opened hp hphase) hopened hid
        exact absurd (by rw [hpid]) (hother env)
      · cases hwrite with
        | create hrow =>
            -- the identifier of a stored request is not given to a new one
            obtain ⟨v, hv⟩ := h.custody.stored hq hopened
            rw [Db.view_eq_slice, hrow] at hv
            cases hv
        | load => exact Or.inl rfl
  | cancel tenantID requestID correlationID env =>
      subst hcall
      cases hwrite with
      | cancel hrow => exact Or.inr ⟨_, _, hrow, rfl⟩
  | submit | interfere => exact hcall.elim

/-- What a process has with its request after a step of its own. -/
theorem Owned.step_own (hlocal : Local H) (h : Owned H x) {env : Env} {pid : Nat} {p : Process}
    (hp : x.procs pid = some p) (hashChat : ChatInput → Except GoError (List UInt8))
    (service : Service) (router : Router)
    (hown : ∀ record stage p' db', p.phase = .running record stage →
      p.opened = some (record, true) →
      Branch Persistence.Postgres.store service p record env x.store stage p' db' →
      H p' (db'.slice record.id)) {record : Record}
    (hopened : (p.step Persistence.Postgres.store hashChat service env x.store router).1.opened
      = some (record, true)) :
    H (p.step Persistence.Postgres.store hashChat service env x.store router).1
      ((p.step Persistence.Postgres.store hashChat service env x.store router).2.1.slice
        record.id) := by
  rcases p.step_cases Persistence.Postgres.store hashChat service env x.store router with
    ⟨hphase, hp', hs'⟩ | ⟨record', stage, hphase, hbranch⟩ | ⟨-, hp', hs'⟩
  · have hnone := h.unopened hp hphase
    rw [hp'] at hopened
    rw [hp', hs']
    rcases p.open_cases Persistence.Postgres.store hashChat env x.store with
      ⟨err, s', hopen⟩ | ⟨params, record', created, s', htenant, -, hrun, hcase⟩
    · rw [hopen] at hopened
      exact absurd (hnone.symm.trans hopened) (by simp)
    rcases hcase with ⟨rfl, hopen⟩ | ⟨rfl, outcome, hopen⟩
    · rw [hopen] at hopened ⊢
      obtain rfl : record' = record := congrArg Prod.fst (Option.some.inj hopened)
      obtain ⟨hid, hview, v, hv, -⟩ := Persistence.Postgres.created (perform_ok hrun)
      have hrow : (x.store.slice record'.id).row = none := by
        simpa [Db.view_eq_slice] using hview
      obtain ⟨hattempts, hreservation⟩ := h.rooted record'.id hrow
      have hwrite := perform_write hrun (congrArg some hid.symm)
      dsimp only
      rw [Db.view_eq_slice] at hv
      generalize s'.slice record'.id = S' at hwrite hv ⊢
      cases hwrite with
      | create => exact hlocal.opened rfl rfl htenant hattempts hreservation
      -- a loaded request would have been there before
      | load =>
          rw [hrow] at hv
          cases hv
    · rw [hopen] at hopened
      exact absurd (congrArg Prod.snd (Option.some.inj hopened)) (by simp)
  · have hrecord := h.custody.opened hp hphase
    rw [hbranch.kept.2, hrecord] at hopened
    obtain rfl : record' = record := congrArg Prod.fst (Option.some.inj hopened)
    exact hown record' stage _ _ hphase hrecord hbranch
  · rw [hp'] at hopened ⊢
    rw [hs']
    exact h.holds hp hopened

/-- **Ownership.** A local property that the execution's own steps keep holds
    after every step. -/
theorem owned_step (hlocal : Local H) (hstore : platform.store = Persistence.Postgres.store)
    (h : Owned H x) (action : Action)
    (hown : ∀ pid env p record stage p' db', action = .advance pid env → x.procs pid = some p →
      p.phase = .running record stage → p.opened = some (record, true) →
      Branch Persistence.Postgres.store (platform.services p.job.replica) p record env x.store
        stage p' db' → H p' (db'.slice record.id)) :
    Owned H (x.step platform action) := by
  have hlaw : Persistence.StoreLaw platform.store Db.view fun _ _ => True := by
    rw [hstore]
    exact Persistence.Postgres.storeLaw
  -- a process that did not move
  have hkept : ∀ {pid q record}, x.procs pid = some q → q.opened = some (record, true) →
      (∀ env, action ≠ .advance pid env) →
      H q ((x.step platform action).store.slice record.id) := by
    intro pid q record hq hopened hother
    rcases h.slice_other hstore hq hopened hother with hsame | ⟨row, now, hrow, hcancelled⟩
    · rw [hsame]
      exact h.holds hq hopened
    · rw [hcancelled]
      exact hlocal.cancelled hrow (h.holds hq hopened)
  refine ⟨custody_step hlaw h.custody action (freshStep_of_true action), ?_, ?_, ?_⟩
  · intro id
    rcases System.step_store_call platform x action with
      hsame | ⟨call, info, -, hcalled, -⟩
    · rw [hsame]
      exact h.rooted id
    · rw [hcalled, hstore]
      exact Persistence.Postgres.store_rooted call info h.rooted id
  · intro pid q hq hphase
    exact System.step_forall (Q := fun p => p.phase = .submitted → p.opened = none)
      (fun _ _ => rfl) (fun p env _ hphase' => absurd hphase'
        (p.step_ne_submitted platform.store platform.hashChat _ env _ _))
      (fun _ _ => h.unopened) action pid q hq hphase
  · intro pid q record hq hopened
    cases action with
    | submit pid' job =>
        exact hkept (procs_submit_opened hq hopened) hopened fun _ => Action.noConfusion
    | advance pid' env =>
        cases hp : x.procs pid' with
        | none =>
            rw [step_advance_none hp] at hq ⊢
            exact h.holds hq hopened
        | some p =>
            rcases procs_advance hp hq with ⟨rfl, rfl⟩ | ⟨hne, hold⟩
            · rw [store_advance hp]
              rw [hstore] at hopened ⊢
              exact h.step_own hlocal hp _ _ _
                (fun record stage p' db' => hown pid env p record stage p' db' rfl hp) hopened
            · refine hkept hold hopened ?_
              intro env' heq
              exact hne (Action.advance.inj heq).1.symm
    | cancel => exact hkept hq hopened fun _ => Action.noConfusion
    | interfere => exact h.holds hq hopened

/-- What others do to the database outside of the gateway's tables does not
    concern it: for a request they at most add facts. -/
theorem Owned.of_store (h : Owned H x) {db : Db}
    (hslice : ∀ id, ∃ facts, db.slice id = { x.store.slice id with facts })
    (hfacts : ∀ {p S} facts, H p S → H p { S with facts }) : Owned H { x with store := db } := by
  have hrow : ∀ id, (db.slice id).row = (x.store.slice id).row := by
    intro id
    obtain ⟨facts, heq⟩ := hslice id
    rw [heq]
  have hview : ∀ id, db.view id = x.store.view id := by
    intro id
    rw [Db.view_eq_slice, Db.view_eq_slice, hrow]
  refine ⟨⟨h.custody.opened, h.custody.distinct, ?_, ?_⟩, ?_, h.unopened, ?_⟩
  · intro pid p record hp hopened
    obtain ⟨v, hv⟩ := h.custody.stored hp hopened
    exact ⟨v, (hview record.id).trans hv⟩
  · intro pid p record stage hp hphase
    obtain ⟨v, hv, hfits⟩ := h.custody.fits hp hphase
    exact ⟨v, (hview record.id).trans hv, hfits⟩
  · intro id hnone
    have hempty := h.rooted id ((hrow id).symm.trans hnone)
    obtain ⟨facts, heq⟩ := hslice id
    rw [heq]
    exact hempty
  · intro pid p record hp hopened
    obtain ⟨facts, heq⟩ := hslice record.id
    show H p (db.slice record.id)
    rw [heq]
    exact hfacts facts (h.holds hp hopened)

end Owned

end Aegis.Gateway
