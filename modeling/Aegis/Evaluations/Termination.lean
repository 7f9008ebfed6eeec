/-
  Aegis.Evaluations.Termination

  Retries come to an end.

  Work comes into the system in three ways: the API publishes a command, the
  broker takes a delivery back because its channel closed, or the publication of
  a retry fails, so that the command goes back to the work queue with its attempt
  not counted.  Everything else that the broker and the workers do spends it.
  `load` counts eight steps for each attempt that a command has left; a step
  takes one off (`Limited.pays`), whatever the database answers, whichever
  workers die and whatever becomes of their acknowledgements.

  As in all modules about evaluations, a confirmation is that of the message just
  published; `Manager.Publish` itself may take an earlier one for it.
-/

import Aegis.Evaluations.Conservation
import Aegis.Lib.Progress

namespace Aegis.Evaluations

open Aegis.Lib (sumOf sumOf_congr sumOf_append sumOf_nonneg sumOf_update)
open Aegis.Persistence.Evaluations
open Aegis.RabbitMQ (Broker Env Handler Job Publication Queue Stage Worker)
open Aegis.RabbitMQ.Broker (Published nack_eq published_of_eq)

/-! ## Steps that work and steps that bring work -/

def isFinished : Stage → Bool
  | .finished => true
  | _ => false

theorem eq_finished {stage : Stage} (h : isFinished stage = true) : stage = .finished := by
  cases stage with
  | finished => rfl
  | _ => cases h

def isRepublishing : Stage → Bool
  | .republishing _ => true
  | _ => false

def isPublishing : EvaluationJob.Stage → Bool
  | .publishing _ => true
  | _ => false

def isConfirmed : Publication → Bool
  | .confirmed => true
  | _ => false

/-- The action takes a message from a queue, or a handler to its next stage. -/
def effective (x : System) : Action → Bool
  | .deliver i => (x.broker.messages.get? (.queued .work i)).isSome
  | .expire i => (x.broker.messages.get? (.queued .retry i)).isSome
  | .work tag _ => (x.handlers tag).any fun h => !isFinished h.stage
  | _ => false

/-- The action brings work: a call publishes its command, a delivery comes back,
    a retry is not confirmed. -/
def disturbs (x : System) : Action → Bool
  | .advance cid _ => (x.calls cid).any fun c => isPublishing c.stage
  | .requeue tag => (x.broker.messages.unacked tag).isSome
  | .work tag env =>
      (x.handlers tag).any fun h => isRepublishing h.stage && !isConfirmed env.publication
  | _ => false

/-! ## The load -/

section Load

variable (worker : Worker)

/-- Eight steps for each attempt that is left. -/
def allowance (job : Job) : Int := 8 * (worker.maxAttempts - job.attempt)

def weight : Queue → Job → Int
  | .work, job => allowance worker job
  | .retry, job => allowance worker job + 1
  | .dead, _ => 0

/-- The steps of a handler and of the attempts after it. -/
def stageLoad (job : Job) : Stage → Int
  | .received => allowance worker job - 1
  | .loading => allowance worker job - 2
  | .completing _ => allowance worker job - 3
  | .republishing _ => allowance worker job - 4
  | .requeueing => allowance worker job + 1
  | .burying _ | .recording _ => 2
  | .rejecting | .acknowledging => 1
  | .finished => 0

def handlerLoad : Option Handler → Int
  | none => 0
  | some h => stageLoad worker h.job h.stage

def brokerLoad (b : Broker) : Int := b.messages.weigh [.work, .retry, .dead] (weight worker)

def handlersLoad (x : System) : Int :=
  sumOf (fun tag => handlerLoad worker (x.handlers tag)) (List.range x.broker.messages.next)

def load (x : System) : Int := brokerLoad worker x.broker + handlersLoad worker x

/-- An attempt that a worker may still make. -/
def Admitted (job : Job) : Prop := 0 ≤ job.attempt ∧ job.attempt < worker.maxAttempts

/-- Handlers belong to deliveries that were made, and all attempts are in range. -/
structure Limited (x : System) : Prop where
  conserved : Conserved worker x
  delivered : ∀ tag h, x.handlers tag = some h → tag < x.broker.messages.next
  messages : ∀ place m, x.broker.messages.At place m → Admitted worker m
  handlers : ∀ tag h, x.handlers tag = some h → Admitted worker h.job

end Load

theorem limited_init (worker : Worker) (platform : Persistence.Db) :
    Limited worker (.init platform) where
  conserved := conserved_init worker platform
  delivered := by
    intro tag h hh
    cases hh
  messages := fun place m hm => absurd hm (Lib.Broker.not_at_empty place m)
  handlers := by
    intro tag h hh
    cases hh

section

variable {worker : Worker} {job : Job}

theorem allowance_next : allowance worker job.next = allowance worker job - 8 := by
  show 8 * (worker.maxAttempts - (job.attempt + 1)) = _
  unfold allowance
  omega

theorem Admitted.allowance_le (h : Admitted worker job) :
    8 ≤ allowance worker job ∧ allowance worker job ≤ 8 * worker.maxAttempts := by
  obtain ⟨hnonneg, hlt⟩ := h
  unfold allowance
  omega

theorem Admitted.stageLoad_nonneg (h : Admitted worker job) (stage : Stage) :
    0 ≤ stageLoad worker job stage := by
  have hpos := h.allowance_le.1
  cases stage <;> simp only [stageLoad] <;> omega

theorem Admitted.weight_nonneg (h : Admitted worker job) (q : Queue) :
    0 ≤ weight worker q job := by
  have hpos := h.allowance_le.1
  cases q <;> simp only [weight] <;> omega

/-- A failed attempt goes on with at most what is left after it. -/
theorem Admitted.stageLoad_retry (h : Admitted worker job) (category : String) :
    stageLoad worker job (worker.retry job category) ≤ allowance worker job - 4 := by
  have hpos := h.allowance_le.1
  rcases retry_cases worker job category with hstage | ⟨hstage, -⟩
  · rw [hstage]
    simp only [stageLoad]
    omega
  · rw [hstage]
    exact le_rfl

end

/-! ### Operations of the broker -/

section Brokers

variable {worker : Worker} {b b' : Broker} {job : Job} {retry : Bool}
  {r : Except GoError Unit}

theorem queues_nodup : [Queue.work, .retry, .dead].Nodup := by decide

theorem mem_queues (q : Queue) : q ∈ [Queue.work, .retry, .dead] := by cases q <;> decide

/-- A publication adds at most its message. -/
theorem brokerLoad_published (hjob : Admitted worker job) (h : Published b job retry r b') :
    brokerLoad worker b'
      ≤ brokerLoad worker b + weight worker (RabbitMQ.Broker.target retry) job := by
  have hweight := hjob.weight_nonneg (RabbitMQ.Broker.target retry)
  cases h with
  | refused => omega
  | unconfirmed | confirmed =>
      exact le_of_eq (Lib.Broker.weigh_publish queues_nodup (mem_queues _))

theorem nack_of_none {tag : Nat} (h : b.messages.get? (.delivered tag) = none) (requeue : Bool) :
    b.nack tag requeue = b := by
  rw [nack_eq]
  unfold Lib.Broker.move
  rw [h]

/-- A settled delivery adds at most the weight that its message has where it goes. -/
theorem brokerLoad_nack {tag : Nat} (requeue : Bool) (hjob : Admitted worker job)
    (hm : ∀ m, b.messages.unacked tag = some m → m = job) :
    brokerLoad worker (b.nack tag requeue)
      ≤ brokerLoad worker b + if requeue then allowance worker job else 0 := by
  have hpos := hjob.allowance_le.1
  cases hslot : b.messages.get? (.delivered tag) with
  | none =>
      rw [nack_of_none hslot]
      split <;> omega
  | some m =>
      obtain rfl := hm m hslot
      rw [nack_eq]
      apply le_of_eq
      cases requeue <;> exact Lib.Broker.weigh_move_delivered queues_nodup (mem_queues _) hslot

theorem publish_error {publication : Publication} {err : GoError}
    (h : b.publish publication job retry = (.error err, b')) : isConfirmed publication = false := by
  cases publication with
  | confirmed => cases congrArg Prod.fst h
  | unconfirmed | refused => rfl

end Brokers

/-! ### Handlers -/

section Branches

variable {worker : Worker} {env : Env} {tag : Nat} {job : Job} {db db' : Db}
  {broker broker' : Broker} {stage stage' : Stage}

/-- **A handler pays for its steps.** -/
theorem Branch.load_le (h : Branch worker env tag job db broker stage stage' db' broker')
    (hjob : Admitted worker job)
    (htracked : ∀ m, broker.messages.unacked tag = some m → m = job)
    (hnext : ∀ category, stage = .republishing category → Admitted worker job.next) :
    stageLoad worker job stage' + brokerLoad worker broker' + (if !isFinished stage then 1 else 0)
      ≤ stageLoad worker job stage + brokerLoad worker broker
        + if isRepublishing stage && !isConfirmed env.publication then 8 * worker.maxAttempts
          else 0 := by
  obtain ⟨hpos, hle⟩ := hjob.allowance_le
  have hretry := hjob.stageLoad_retry
  have hweight : weight worker (RabbitMQ.Broker.target true) job.next
      = allowance worker job - 8 + 1 := congrArg (· + 1) allowance_next
  cases h with
  | malformed | start | load | complete | bury | record | acknowledge =>
      show _ + brokerLoad worker broker + 1 ≤ _ + brokerLoad worker broker + 0
      simp only [stageLoad]
      omega
  | unstarted =>
      have hstage := hretry "database_transient"
      show _ + brokerLoad worker broker + 1
        ≤ allowance worker job - 1 + brokerLoad worker broker + 0
      omega
  | unloaded =>
      have hstage := hretry "evaluation_source"
      show _ + brokerLoad worker broker + 1
        ≤ allowance worker job - 2 + brokerLoad worker broker + 0
      omega
  | uncompleted =>
      have hstage := hretry "database_transient"
      show _ + brokerLoad worker broker + 1
        ≤ allowance worker job - 3 + brokerLoad worker broker + 0
      omega
  | reject =>
      have hdead := brokerLoad_nack false hjob htracked
      rw [if_neg Bool.false_ne_true] at hdead
      show 0 + brokerLoad worker _ + 1 ≤ 1 + brokerLoad worker broker + 0
      omega
  | requeue =>
      have hwork := brokerLoad_nack true hjob htracked
      rw [if_pos rfl] at hwork
      show 0 + brokerLoad worker _ + 1 ≤ allowance worker job + 1 + brokerLoad worker broker + 0
      omega
  | republish hrun =>
      have hretried := brokerLoad_published (hnext _ rfl) (published_of_eq hrun)
      rw [hweight] at hretried
      have hcredit : 0 ≤ if !isConfirmed env.publication then 8 * worker.maxAttempts else 0 := by
        split <;> omega
      show 2 + brokerLoad worker _ + 1 ≤ allowance worker job - 4 + brokerLoad worker broker + _
      omega
  | unpublished hrun =>
      -- the broker may have the retry, and the delivery goes back as well
      have hretried := brokerLoad_published (hnext _ rfl) (published_of_eq hrun)
      rw [hweight] at hretried
      rw [publish_error hrun]
      show allowance worker job + 1 + brokerLoad worker _ + 1
        ≤ allowance worker job - 4 + brokerLoad worker broker + 8 * worker.maxAttempts
      omega
  | lost hstage =>
      rcases hstage with rfl | rfl | rfl
      all_goals
        show _ + brokerLoad worker broker + 1 ≤ _ + brokerLoad worker broker + 0
        simp only [stageLoad]
        omega
  | finished => exact le_rfl

theorem Branch.next_eq (h : Branch worker env tag job db broker stage stage' db' broker') :
    broker'.messages.next = broker.messages.next := by
  cases h with
  | republish hrun | unpublished hrun =>
      have hpublished := published_of_eq hrun
      cases hpublished <;> rfl
  | reject | requeue =>
      rw [nack_eq]
      exact Lib.Broker.next_move ..
  | _ => rfl

end Branches

/-- A step of the API leaves the broker alone or publishes the call's command. -/
theorem ApiBranch.relayed {env : Env} {entry : EvaluationJob.Entry} {db db' : Db}
    {broker broker' : Broker} {stage stage' : EvaluationJob.Stage}
    (h : ApiBranch env entry db broker stage stage' db' broker') :
    broker' = broker ∨ ∃ job r, stage = .publishing job
      ∧ Published broker (entry.command job env) false r broker' := by
  cases h with
  | publish hrun | unpublished hrun => exact Or.inr ⟨_, _, rfl, published_of_eq hrun⟩
  | _ => exact Or.inl rfl

/-! ## Steps -/

section Steps

variable {services : Services} {x y : System} {action : Action}

theorem Relayed.next_le {b : Broker} (h : Relayed x action b) :
    x.broker.messages.next ≤ b.messages.next := by
  cases h with
  | submitted _ _ hpublished | retried _ _ hpublished => cases hpublished <;> exact le_rfl
  | delivered =>
      show _ ≤ (x.broker.messages.deliver _ _).next
      unfold Lib.Broker.deliver
      split
      · exact le_rfl
      · exact Nat.le_succ _
  | rejected | returned => exact le_of_eq (Lib.Broker.next_move ..).symm
  | _ => exact le_rfl

theorem Step.delivered (hstep : Step services x action y)
    (h : ∀ tag handler, x.handlers tag = some handler → tag < x.broker.messages.next) (tag : Nat)
    (handler : Handler) (hh : y.handlers tag = some handler) : tag < y.broker.messages.next := by
  have hnext := hstep.relayed.next_le
  have hold : ∀ handler, x.handlers tag = some handler → tag < y.broker.messages.next :=
    fun handler hh => Nat.lt_of_lt_of_le (h tag handler hh) hnext
  cases hstep with
  | work hh₁ | crash hh₁ =>
      rcases update_eq_some hh with ⟨rfl, -⟩ | ⟨-, hh⟩
      · exact hold _ hh₁
      · exact hold _ hh
  | deliver hslot =>
      rcases update_eq_some hh with ⟨rfl, -⟩ | ⟨-, hh⟩
      · show _ < (x.broker.messages.deliver _ _).next
        unfold Lib.Broker.deliver
        rw [hslot]
        exact Nat.lt_succ_self _
      · exact hold _ hh
  | _ => exact hold _ hh

theorem Limited.step (hpos : 0 < services.worker.maxAttempts) (h : Limited services.worker x)
    (hstep : Step services x action y) : Limited services.worker y where
  conserved := h.conserved.step hpos hstep
  delivered := hstep.delivered h.delivered
  messages := by
    intro place m hm
    rcases hstep.origin hm with ⟨place', hold⟩ | ⟨cid, c, job, env, -, -, rfl⟩
      | ⟨tag, handler, category, hh, hstage, rfl⟩
    · exact h.messages place' m hold
    · exact ⟨le_rfl, hpos⟩
    · have hnonneg := (h.handlers tag handler hh).1
      refine ⟨?_, h.conserved.republishing tag handler category hh hstage⟩
      show 0 ≤ handler.job.attempt + 1
      omega
  handlers := by
    intro tag handler hh
    rcases hstep.handler_cases hh with hold | ⟨-, hwork⟩ | ⟨handler', hold, hjob, -⟩
    · exact h.handlers tag handler hold
    · exact h.messages _ _ hwork
    · rw [hjob]
      exact h.handlers tag handler' hold

/-- The load of a system with these handlers and another broker. -/
theorem load_of_handlers (worker : Worker) (hhandlers : y.handlers = x.handlers)
    (hnext : y.broker.messages.next = x.broker.messages.next) :
    load worker y + brokerLoad worker x.broker = load worker x + brokerLoad worker y.broker := by
  unfold load handlersLoad
  rw [hhandlers, hnext]
  omega

/-- The load after a handler has gone to another stage. -/
theorem Limited.load_of_update {worker : Worker} (h : Limited worker x) {tag : Nat}
    {handler : Handler} {stage : Stage} (hh : x.handlers tag = some handler)
    (hhandlers : y.handlers = Function.update x.handlers tag (some { handler with stage }))
    (hnext : y.broker.messages.next = x.broker.messages.next) :
    load worker y + brokerLoad worker x.broker + stageLoad worker handler.job handler.stage
      = load worker x + brokerLoad worker y.broker + stageLoad worker handler.job stage := by
  have hupdate := sumOf_update (g := fun _ => handlerLoad worker) (r := x.handlers)
    List.nodup_range (List.mem_range.mpr (h.delivered tag handler hh))
    (some { handler with stage })
  have hbefore : handlerLoad worker (x.handlers tag) = stageLoad worker handler.job handler.stage :=
    congrArg (handlerLoad worker) hh
  have hafter : handlerLoad worker (some { handler with stage })
      = stageLoad worker handler.job stage := rfl
  unfold load handlersLoad
  rw [hhandlers, hnext]
  omega

/-- The action pays for what it does, with what it brings and with the load. -/
def Pays (services : Services) (x : System) (action : Action) : Prop :=
  load services.worker (x.step services action) + (if effective x action then 1 else 0)
    ≤ load services.worker x
      + if disturbs x action then 8 * services.worker.maxAttempts else 0

theorem Pays.of_eq {e d : Bool} (hstep : x.step services action = y)
    (he : effective x action = e) (hd : disturbs x action = d)
    (h : load services.worker y + (if e then 1 else 0)
      ≤ load services.worker x + if d then 8 * services.worker.maxAttempts else 0) :
    Pays services x action := by
  unfold Pays
  rw [hstep, he, hd]
  exact h

/-- An action that finds nothing to do. -/
theorem Pays.of_idle (hstep : x.step services action = x) (he : effective x action = false)
    (hd : disturbs x action = false) : Pays services x action :=
  .of_eq hstep he hd le_rfl

theorem step_advance (services : Services) {cid : Nat} {c : EvaluationJob.Invocation}
    (hc : x.calls cid = some c) (env : Env) :
    ∃ stage db broker, ApiBranch env c.entry x.db x.broker c.stage stage db broker
      ∧ x.step services (.advance cid env) = { x with
          db, broker, calls := Function.update x.calls cid (some { c with stage }) } :=
  ⟨_, _, _, api_branch env c.entry x.db x.broker services.hash c.stage,
    by simp only [System.step, hc]⟩

theorem step_work (services : Services) {tag : Nat} {handler : Handler}
    (hh : x.handlers tag = some handler) (env : Env) :
    ∃ stage db broker,
      Branch services.worker env tag handler.job x.db x.broker handler.stage stage db broker
      ∧ x.step services (.work tag env) = { x with
          db, broker, handlers := Function.update x.handlers tag (some { handler with stage }) } :=
  ⟨_, _, _, process_branch services.worker env tag handler.job x.db x.broker handler.stage,
    by simp only [System.step, hh]⟩

theorem pays_advance (hpos : 0 < services.worker.maxAttempts) (cid : Nat) (env : Env) :
    Pays services x (.advance cid env) := by
  cases hc : x.calls cid with
  | none => exact .of_idle (by simp [System.step, hc]) rfl (by simp [disturbs, hc])
  | some c =>
      obtain ⟨stage, db, broker, hbranch, hstep⟩ := step_advance services hc env
      have hd : disturbs x (.advance cid env) = isPublishing c.stage := by
        simp only [disturbs, hc, Option.any_some]
      refine .of_eq hstep rfl hd ?_
      rcases hbranch.relayed with rfl | ⟨job, r, hstage, hpublished⟩
      · show load services.worker x + 0 ≤ load services.worker x + _
        split <;> omega
      · have hcommand : Admitted services.worker (c.entry.command job env) := ⟨le_rfl, hpos⟩
        have hbroker := brokerLoad_published hcommand hpublished
        have hweight : weight services.worker (RabbitMQ.Broker.target false)
            (c.entry.command job env) ≤ 8 * services.worker.maxAttempts :=
          hcommand.allowance_le.2
        have hload := load_of_handlers (x := x) (y := { x with
          db, broker, calls := Function.update x.calls cid (some { c with stage }) })
          services.worker rfl (by cases hpublished <;> rfl)
        dsimp only at hload
        rw [hstage]
        show _ + 0 ≤ _ + 8 * services.worker.maxAttempts
        omega

theorem pays_deliver (i : Nat) : Pays services x (.deliver i) := by
  cases hslot : x.broker.messages.get? (.queued .work i) with
  | none => exact .of_idle (by simp [System.step, hslot]) (by simp [effective, hslot]) rfl
  | some job =>
      have hstep : x.step services (.deliver i) = { x with
          broker := { x.broker with messages := x.broker.messages.deliver .work i }
          handlers := Function.update x.handlers x.broker.messages.next (some { job }) } := by
        simp only [System.step, hslot]
      have he : effective x (.deliver i) = true := by simp only [effective, hslot, Option.isSome]
      refine .of_eq hstep he rfl ?_
      have hweigh := Lib.Broker.weigh_deliver (w := weight services.worker) queues_nodup
        (mem_queues _) hslot
      have hnext : (x.broker.messages.deliver .work i).next = x.broker.messages.next + 1 := by
        unfold Lib.Broker.deliver
        rw [hslot]
      -- the handlers so far are those of other deliveries
      have hothers : sumOf (fun k => handlerLoad services.worker
            (Function.update x.handlers x.broker.messages.next (some { job }) k))
          (List.range x.broker.messages.next) = handlersLoad services.worker x := by
        apply sumOf_congr
        intro k hk
        rw [Function.update_of_ne (Nat.ne_of_lt (List.mem_range.mp hk))]
      show (x.broker.messages.deliver .work i).weigh _ _
          + sumOf (fun k => handlerLoad services.worker
              (Function.update x.handlers x.broker.messages.next (some { job }) k))
            (List.range (x.broker.messages.deliver .work i).next) + 1
        ≤ x.broker.messages.weigh _ _ + handlersLoad services.worker x + 0
      rw [hnext, List.range_succ, sumOf_append, hothers, Lib.sumOf_cons, Lib.sumOf_nil,
        Function.update_self]
      show _ + (_ + (allowance services.worker job - 1 + 0)) + 1 ≤ _
      have hwork : weight services.worker .work job = allowance services.worker job := rfl
      omega

theorem Limited.pays_work (h : Limited services.worker x) (tag : Nat) (env : Env) :
    Pays services x (.work tag env) := by
  cases hh : x.handlers tag with
  | none =>
      exact .of_idle (by simp [System.step, hh]) (by simp [effective, hh]) (by simp [disturbs, hh])
  | some handler =>
      have hjob := h.handlers tag handler hh
      have htracked : ∀ m, x.broker.messages.unacked tag = some m → m = handler.job := by
        intro m hm
        obtain ⟨_, hh', rfl⟩ := h.conserved.tracked tag m hm
        rw [Option.some.inj (hh'.symm.trans hh)]
      have hnext : ∀ category, handler.stage = .republishing category →
          Admitted services.worker handler.job.next := by
        intro category hstage
        have hnonneg : 0 ≤ handler.job.attempt + 1 := Int.add_nonneg hjob.1 Int.one_nonneg
        exact ⟨hnonneg, h.conserved.republishing tag handler category hh hstage⟩
      obtain ⟨stage, db, broker, hbranch, hstep⟩ := step_work services hh env
      have hpay := hbranch.load_le hjob htracked hnext
      have hload := h.load_of_update hh (y := { x with
        db, broker, handlers := Function.update x.handlers tag (some { handler with stage }) })
        rfl hbranch.next_eq
      have he : effective x (.work tag env) = !isFinished handler.stage := by
        simp only [effective, hh, Option.any_some]
      have hd : disturbs x (.work tag env)
          = (isRepublishing handler.stage && !isConfirmed env.publication) := by
        simp only [disturbs, hh, Option.any_some]
      refine .of_eq hstep he hd ?_
      dsimp only at hload
      omega

theorem Limited.pays_crash (h : Limited services.worker x) (tag : Nat) :
    Pays services x (.crash tag) := by
  cases hh : x.handlers tag with
  | none => exact .of_idle (by simp [System.step, hh]) rfl rfl
  | some handler =>
      have hnonneg := (h.handlers tag handler hh).stageLoad_nonneg handler.stage
      have hfinished : stageLoad services.worker handler.job .finished = 0 := rfl
      have hload := h.load_of_update hh (y := { x with
        handlers := Function.update x.handlers tag (some { handler with stage := .finished }) })
        rfl rfl
      dsimp only at hload
      refine .of_eq (y := { x with
        handlers := Function.update x.handlers tag (some { handler with stage := .finished }) })
        (by simp only [System.step, hh]) rfl rfl ?_
      show _ + 0 ≤ _ + 0
      omega

theorem Limited.pays_requeue (h : Limited services.worker x) (tag : Nat) :
    Pays services x (.requeue tag) := by
  cases hslot : x.broker.messages.unacked tag with
  | none =>
      refine .of_idle ?_ rfl (by simp [disturbs, hslot])
      simp only [System.step, nack_of_none hslot]
  | some job =>
      have hjob := h.messages (.delivery tag) job hslot
      have hle := hjob.allowance_le.2
      have hbroker := brokerLoad_nack true hjob fun m hm => Option.some.inj (hm.symm.trans hslot)
      have hload := load_of_handlers (x := x) (y := { x with broker := x.broker.nack tag true })
        services.worker rfl (Lib.Broker.next_move ..)
      rw [if_pos rfl] at hbroker
      dsimp only at hload
      refine .of_eq (y := { x with broker := x.broker.nack tag true }) (d := true) rfl rfl
        (by simp [disturbs, hslot]) ?_
      show _ + 0 ≤ _ + 8 * services.worker.maxAttempts
      omega

theorem pays_expire (i : Nat) : Pays services x (.expire i) := by
  have hload := load_of_handlers (x := x) (y := { x with broker := x.broker.expire i })
    services.worker rfl (Lib.Broker.next_move ..)
  dsimp only at hload
  cases hslot : x.broker.messages.get? (.queued .retry i) with
  | none =>
      refine .of_idle ?_ (by simp [effective, hslot]) rfl
      show { x with broker := { x.broker with messages := x.broker.messages.move _ _ } } = x
      unfold Lib.Broker.move
      rw [hslot]
  | some job =>
      have hmoved : brokerLoad services.worker (x.broker.expire i)
          + (allowance services.worker job + 1)
          = brokerLoad services.worker x.broker + allowance services.worker job :=
        Lib.Broker.weigh_move_queued queues_nodup (mem_queues _) (mem_queues _) hslot
      refine .of_eq (y := { x with broker := x.broker.expire i }) (e := true) rfl
        (by simp [effective, hslot]) rfl ?_
      show _ + 1 ≤ _ + 0
      omega

/-- Every step is paid for. -/
theorem Limited.pays (hpos : 0 < services.worker.maxAttempts) (h : Limited services.worker x)
    (action : Action) : Pays services x action := by
  cases action with
  | call cid entry =>
      refine .of_eq rfl rfl rfl ?_
      simp only [System.step]
      split <;> exact le_rfl
  | advance cid env => exact pays_advance hpos cid env
  | deliver i => exact pays_deliver i
  | work tag env => exact h.pays_work tag env
  | crash tag => exact h.pays_crash tag
  | requeue tag => exact h.pays_requeue tag
  | expire i => exact pays_expire i
  | gateway call info => exact .of_eq rfl rfl rfl le_rfl

theorem Limited.load_nonneg {worker : Worker} (h : Limited worker x) : 0 ≤ load worker x := by
  have hqueues : 0 ≤ brokerLoad worker x.broker := by
    apply sumOf_nonneg
    intro q _
    apply sumOf_nonneg
    intro m hm
    exact (h.messages (.queue q) m hm).weight_nonneg q
  have hhandlers : 0 ≤ handlersLoad worker x := by
    apply sumOf_nonneg
    intro tag _
    cases hh : x.handlers tag with
    | none => exact le_rfl
    | some handler => exact (h.handlers tag handler hh).stageLoad_nonneg handler.stage
  exact Int.add_nonneg hqueues hhandlers

end Steps

/-! ## The end -/

/-- A queue from which nothing can be taken is empty. -/
theorem queue_eq_nil {b : Broker} {q : Queue}
    (h : ∀ i, (b.messages.get? (.queued q i)).isSome = false) : b.messages.queues q = [] := by
  apply List.eq_nil_iff_length_eq_zero.mpr
  by_contra hne
  have hfirst : ((b.messages.queues q)[0]?).isSome = false := h 0
  rw [List.getElem?_eq_getElem (Nat.pos_of_ne_zero hne)] at hfirst
  cases hfirst

/-- **Retries end.**  In every run, each command that the API publishes, each
    delivery that the broker takes back and each retry that is not confirmed
    costs the broker and the workers at most eight steps for each attempt.  Where
    nothing is left to do, the work and retry queues are empty, and every command
    that was accepted is in the dead-letter queue, or its job has a result, or a
    worker has died or lost its acknowledgement with the delivery outstanding.
    A `Publish` that returns nil is taken to mean that the broker holds the
    message. -/
theorem retries_end (evaluators : List Evaluation.Evaluator) (maxAttempts : Int)
    (hash : EvaluationJob.Hash) (platform : Persistence.Db) (actions : List Action) :
    let worker := RabbitMQ.newWorker evaluators maxAttempts
    let steps := Lib.trace (System.step ⟨worker, hash⟩) (.init platform) actions
    let x := Lib.run (System.step ⟨worker, hash⟩) (.init platform) actions
    (steps.countP fun s => effective s.1 s.2.1 : Int)
        ≤ 8 * worker.maxAttempts * (steps.countP fun s => disturbs s.1 s.2.1)
      ∧ ((∀ action, effective x action = false) →
        x.broker.messages.queues .work = [] ∧ x.broker.messages.queues .retry = []
        ∧ ∀ c ∈ x.broker.accepted,
          (∃ m, Continues m c ∧ (m ∈ x.broker.messages.queues .dead
            ∨ ∃ tag, x.broker.messages.unacked tag = some m
              ∧ x.handlers tag = some ⟨m, .finished⟩))
          ∨ ∃ r ∈ x.db.results.rows, r.jobID = c.jobID) := by
  intro worker steps x
  have hpos := RabbitMQ.newWorker_maxAttempts_pos evaluators maxAttempts
  have hkeep : ∀ x action, Limited worker x → Limited worker (x.step ⟨worker, hash⟩ action) :=
    fun x action h => h.step hpos (step_cases ⟨worker, hash⟩ x action)
  have hinit : Limited worker (.init platform) := limited_init worker platform
  have hlimited : Limited worker x := Lib.run_invariant' hkeep actions hinit
  constructor
  · have hpays : ∀ x action, Limited worker x → Pays ⟨worker, hash⟩ x action :=
      fun x action h => h.pays hpos action
    have hpaid : (steps.countP fun s => effective s.1 s.2.1 : Int) + load worker x
        ≤ load worker (.init platform)
          + 8 * worker.maxAttempts * (steps.countP fun s => disturbs s.1 s.2.1) :=
      Lib.trace_potential hkeep hpays actions hinit
    have hzero : load worker (.init platform) = 0 := rfl
    have hnonneg : 0 ≤ load worker x := hlimited.load_nonneg
    omega
  · intro hdone
    have hwork : x.broker.messages.queues .work = [] := queue_eq_nil fun i => hdone (.deliver i)
    have hretry : x.broker.messages.queues .retry = [] := queue_eq_nil fun i => hdone (.expire i)
    refine ⟨hwork, hretry, ?_⟩
    intro c hc
    rcases hlimited.conserved.accepted c hc with ⟨place, m, hm, hcontinues⟩ | hcommitted
    · refine Or.inl ⟨m, hcontinues, ?_⟩
      cases place with
      | queue q =>
          cases q with
          | dead => exact Or.inl hm
          | work => exact absurd hm (List.eq_nil_iff_forall_not_mem.mp hwork m)
          | retry => exact absurd hm (List.eq_nil_iff_forall_not_mem.mp hretry m)
      | delivery tag =>
          obtain ⟨⟨job, stage⟩, hh, rfl⟩ := hlimited.conserved.tracked tag m hm
          have hfinished : (x.handlers tag).any (fun h => !isFinished h.stage) = false :=
            hdone (.work tag (sampleEnv "" ""))
          rw [hh, Option.any_some, Bool.not_eq_false'] at hfinished
          obtain rfl : stage = .finished := eq_finished hfinished
          exact Or.inr ⟨tag, hm, hh⟩
    · exact Or.inr (committed_iff.mp hcommitted)

-- `CompleteEvaluation` fails three times: two attempts of eight steps and one of six
example :
    let attempt := fun tag => Action.deliver 0 :: List.replicate 2 (.work tag (sampleEnv "" ""))
      ++ .work tag refusedEnv :: List.replicate 3 (.work tag (sampleEnv "" "")) ++ [.expire 0]
    let steps := Lib.trace (System.step sampleServices) (.init samplePlatform)
      (submitAndQueue ++ attempt 0 ++ attempt 1 ++ attempt 2)
    (steps.countP fun s => effective s.1 s.2.1) = 22
      ∧ (steps.countP fun s => disturbs s.1 s.2.1) = 1 := by
  decide +kernel

end Aegis.Evaluations
