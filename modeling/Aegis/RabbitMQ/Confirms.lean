/-
  Aegis.RabbitMQ.Confirms

  The publishing channel of a `Manager` (internal/rabbitmq/rabbitmq.go).  In
  Aegis.RabbitMQ a publication is one step with an outcome; here `Publish` is
  taken apart into the sending of its message and the wait for a confirmation.

  All calls of `Publish` share one channel of confirmations, and none looks at
  the delivery tag of what it receives: a call takes whichever confirmation
  comes next.  A call whose context ends while it waits leaves its own
  confirmation to the call after it.
-/

import Aegis.Lib.Runs
import Aegis.RabbitMQ

namespace Aegis.RabbitMQ

/-- A call of `Publish` in its `select`; it holds the mutex. -/
structure Publishing where
  job : Job
  retry : Bool
  /-- which message of the channel it has sent, from 0 -/
  message : Nat
deriving DecidableEq, Repr

/-- A call of `Publish` that has returned; `message` is `none` if it sent none. -/
structure Return where
  job : Job
  retry : Bool
  message : Option Nat
  result : Except GoError Unit
deriving DecidableEq

structure Manager where
  /-- how many messages were sent on the channel -/
  sent : Nat := 0
  /-- the broker's confirmations, which come in the order of the messages: acks
      and nacks -/
  answers : List Bool := []
  /-- how many of them were received from `manager.confirm` -/
  taken : Nat := 0
  closed : Bool := false
  waiting : Option Publishing := none
  returned : List Return := []

namespace Manager

inductive Action where
  /-- a call gets the mutex and sends; `failure` is the error of the sending -/
  | publish (job : Job) (retry : Bool) (failure : Option GoError)
  /-- the broker confirms the next message -/
  | confirm (ack : Bool)
  /-- the waiting call receives from `manager.confirm` -/
  | receive
  /-- the context of the waiting call is done -/
  | cancel (err : GoError)
  /-- the channel is closed, and with it `manager.confirm` -/
  | close
deriving DecidableEq

def errClosed : GoError := .new "channel/connection is not open"

def errNotAcknowledged : GoError := .new "RabbitMQ did not acknowledge publication"

/-- The waiting call returns and gives the mutex back. -/
def finish (x : Manager) (call : Publishing) (result : Except GoError Unit) : Manager :=
  { x with
    waiting := none
    returned := x.returned ++ [⟨call.job, call.retry, some call.message, result⟩] }

def step (x : Manager) : Action → Manager
  | .publish job retry failure =>
      match x.waiting with
      -- the mutex is not free
      | some _ => x
      | none =>
          match if x.closed then some errClosed else failure with
          | some err =>
              { x with returned := x.returned
                  ++ [⟨job, retry, none, .error (.wrap "publish evaluation job" err)⟩] }
          | none => { x with sent := x.sent + 1, waiting := some ⟨job, retry, x.sent⟩ }
  | .confirm ack =>
      if x.answers.length < x.sent ∧ x.closed = false then
        { x with answers := x.answers ++ [ack] }
      else x
  | .receive =>
      match x.waiting, x.answers[x.taken]? with
      | none, _ => x
      | some call, some ack =>
          { x.finish call (if ack then .ok () else .error errNotAcknowledged) with
            taken := x.taken + 1 }
      -- a receive from a closed channel does not block
      | some call, none => if x.closed then x.finish call (.error errNotAcknowledged) else x
  | .cancel err =>
      match x.waiting with
      | none => x
      | some call => x.finish call (.error err)
  | .close => { x with closed := true }

/-- A message is sent only when no confirmation of an earlier one is still to
    be received: no call before it was cancelled in its `select`. -/
def Settled (x : Manager) : Action → Prop
  | .publish .. => x.waiting = none → x.taken = x.sent
  | _ => True

instance (x : Manager) : DecidablePred x.Settled := fun action =>
  match action with
  | .publish .. => inferInstanceAs (Decidable (_ → _))
  | .confirm _ | .receive | .cancel _ | .close => inferInstanceAs (Decidable True)

/-- The broker has acknowledged the message that the call sent. -/
def Acked (x : Manager) (call : Return) : Prop :=
  ∃ m, call.message = some m ∧ x.answers[m]? = some true

instance (x : Manager) (call : Return) : Decidable (x.Acked call) :=
  decidable_of_iff (call.message.bind (fun m => x.answers[m]?) = some true) (by
    simp only [Acked, Option.bind_eq_some_iff])

/-- A waiting call waits for the confirmation that comes next. -/
structure Matched (x : Manager) : Prop where
  taken_le : x.taken ≤ x.answers.length
  answers_le : x.answers.length ≤ x.sent
  waiting : ∀ call, x.waiting = some call → call.message = x.taken ∧ x.sent = x.taken + 1
  returned : ∀ call ∈ x.returned, call.result = .ok () → x.Acked call

theorem matched_init : Matched {} where
  taken_le := Nat.le_refl _
  answers_le := Nat.le_refl _
  waiting := fun _ h => nomatch h
  returned := fun _ h => nomatch h

/-- A call that returns with an error, or with the ack of its message. -/
theorem Matched.finish {x : Manager} (h : Matched x) {call : Publishing}
    {result : Except GoError Unit} {taken : Nat} (htaken : taken ≤ x.answers.length)
    (hresult : result = .ok () → x.answers[call.message]? = some true) :
    Matched { x.finish call result with taken } where
  taken_le := htaken
  answers_le := h.answers_le
  waiting := fun _ h => nomatch h
  returned := by
    intro done hdone hok
    rcases List.mem_append.mp hdone with hold | hnew
    · exact h.returned done hold hok
    · obtain rfl := List.mem_singleton.mp hnew
      exact ⟨call.message, rfl, hresult hok⟩

theorem Matched.step {x : Manager} (h : Matched x) {action : Action} (hsettled : x.Settled action) :
    Matched (x.step action) := by
  cases action with
  | publish job retry failure =>
      simp only [Manager.step]
      split
      · exact h
      · next hfree =>
          split
          · refine ⟨h.taken_le, h.answers_le, h.waiting, ?_⟩
            intro done hdone hok
            rcases List.mem_append.mp hdone with hold | hnew
            · exact h.returned done hold hok
            · obtain rfl := List.mem_singleton.mp hnew
              cases hok
          · have hall : x.taken = x.sent := hsettled hfree
            refine ⟨h.taken_le, Nat.le_succ_of_le h.answers_le, ?_, h.returned⟩
            intro call hcall
            obtain rfl := Option.some.inj hcall
            exact ⟨hall.symm, congrArg (· + 1) hall.symm⟩
  | confirm ack =>
      simp only [Manager.step]
      split
      · next hnext =>
          have hlength : (x.answers ++ [ack]).length = x.answers.length + 1 := by simp
          refine ⟨?_, ?_, h.waiting, ?_⟩
          · dsimp only
            exact Nat.le_trans h.taken_le (by omega)
          · dsimp only
            omega
          · intro call hcall hok
            obtain ⟨m, hm, hack⟩ := h.returned call hcall hok
            refine ⟨m, hm, ?_⟩
            have hlt : m < x.answers.length := (List.getElem?_eq_some_iff.mp hack).1
            exact (List.getElem?_append_left hlt).trans hack
      · exact h
  | receive =>
      simp only [Manager.step]
      split
      · exact h
      · next call ack hcall hack =>
          have hlt : x.taken < x.answers.length := (List.getElem?_eq_some_iff.mp hack).1
          -- the confirmation that comes next is the one of this call's message
          have hown : call.message = x.taken := (h.waiting call hcall).1
          refine h.finish hlt ?_
          intro hok
          rw [hown, hack]
          cases ack with
          | true => rfl
          | false => cases hok
      · split
        · exact h.finish h.taken_le (fun hok => nomatch hok)
        · exact h
  | cancel err =>
      simp only [Manager.step]
      split
      · exact h
      · exact h.finish h.taken_le (fun hok => nomatch hok)
  | close => exact ⟨h.taken_le, h.answers_le, h.waiting, h.returned⟩

theorem matched_run {actions : List Action}
    (hsettled : ∀ x ∈ Lib.trace step {} actions, x.1.Settled x.2.1) :
    Matched (Lib.run step {} actions) :=
  Lib.run_invariant (C := Settled) (fun _ _ h hc => h.step hc) actions matched_init hsettled

/-- **`Publish` confirms its own message**, if each call is made when all
    earlier confirmations have been received: whatever the broker answers and
    whenever, a call that returns nil has sent a message that the broker has
    acknowledged. -/
theorem publish_confirms_own (actions : List Action)
    (hsettled : ∀ x ∈ Lib.trace step {} actions, x.1.Settled x.2.1) :
    ∀ call ∈ (Lib.run step {} actions).returned, call.result = .ok () →
      (Lib.run step {} actions).Acked call :=
  (matched_run hsettled).returned

/-- Three calls: the first is nacked, the second acked, and the third is
    cancelled while it waits. -/
theorem publish_confirms_own_cancelledLast :
    let job : Job := ⟨"j", "t", "e", "suite", "c", 0⟩
    let actions : List Action := [
      .publish job false none, .confirm false, .receive,
      .publish job false none, .confirm true, .receive,
      .publish job false none, .cancel (.ofSentinel .canceled)]
    ∀ call ∈ (Lib.run step {} actions).returned, call.result = .ok () →
      (Lib.run step {} actions).Acked call :=
  publish_confirms_own _ (by decide)

/-- The first call is cancelled after it has sent its message.  Its ack comes
    late and is received by the second call, which returns nil; the broker
    refuses the message of that call. -/
theorem cancelled_ack_confirms_next :
    let first : Job := ⟨"j", "t", "e", "suite", "c", 0⟩
    let second : Job := ⟨"k", "t", "f", "suite", "c", 0⟩
    let x := Lib.run step {} [
      .publish first false none, .cancel (.ofSentinel .canceled),
      .publish second false none, .confirm true, .receive, .confirm false]
    ⟨second, false, some 1, .ok ()⟩ ∈ x.returned
      ∧ ¬x.Acked ⟨second, false, some 1, .ok ()⟩ ∧ x.answers[1]? = some false := by
  decide

/-! ## As one step -/

/-- The outcome of the call for Aegis.RabbitMQ. -/
def publication (x : Manager) (call : Return) : Publication :=
  match call.result with
  | .ok _ => .confirmed
  | .error err => if x.Acked call then .unconfirmed err else .refused err

/-- Where `Publish` confirms its own message it is `Broker.publish`: that
    returns what the call has returned, and the broker takes the command if it
    has acknowledged the message. -/
theorem publish_one_step {actions : List Action}
    (hsettled : ∀ x ∈ Lib.trace step {} actions, x.1.Settled x.2.1) (b : Broker) :
    let x := Lib.run step {} actions
    ∀ call ∈ x.returned,
      (b.publish (x.publication call) call.job call.retry).1 = call.result
        ∧ (b.publish (x.publication call) call.job call.retry).2.accepted
          = if x.Acked call then b.accepted ++ [call.job] else b.accepted := by
  intro x call hcall
  have hacked := (matched_run hsettled).returned call hcall
  cases hresult : call.result with
  | ok u =>
      have hpublication : x.publication call = .confirmed := by
        unfold publication
        rw [hresult]
      rw [if_pos (hacked hresult), hpublication]
      cases call.retry <;> exact ⟨rfl, rfl⟩
  | error err =>
      have hpublication : x.publication call
          = if x.Acked call then .unconfirmed err else .refused err := by
        unfold publication
        rw [hresult]
      rw [hpublication]
      split
      · cases call.retry <;> exact ⟨rfl, rfl⟩
      · exact ⟨rfl, rfl⟩

end Manager

end Aegis.RabbitMQ
