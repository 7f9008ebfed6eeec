/-
  Aegis.Lib.Broker

  A message broker with acknowledged deliveries.

  A message waits in a queue, or it has been delivered under a tag and waits to
  be acknowledged.  A delivery that is settled may go to a queue, back to its
  own (requeued) or to another one (dead-lettered); so may a message whose time
  in a queue is over.  Queues are not ordered here: a delivery may take any
  message, which covers every order in which requeued messages come back.

  `At` says where a message is.  Each operation has two lemmas: where the
  messages went (`At.publish`, ...) and where they came from (`at_publish`,
  ...).  Conservation is proved with the first kind, what holds of every
  message with the second.  `weigh` adds up what the messages in the queues
  weigh, and each operation says what it changes.
-/

import Aegis.Lib.Table
import Mathlib.Data.List.Basic
import Mathlib.Logic.Function.Basic

namespace Aegis.Lib

/-- Queues named by `κ` and outstanding deliveries, of messages `μ`. -/
structure Broker (κ μ : Type) where
  queues : κ → List μ
  unacked : Nat → Option μ
  /-- the tag of the next delivery -/
  next : Nat
  fresh : ∀ tag, next ≤ tag → unacked tag = none

namespace Broker

inductive Place (κ : Type) where
  | queue (q : κ)
  | delivery (tag : Nat)
deriving DecidableEq

/-- One message of a place. -/
inductive Slot (κ : Type) where
  | queued (q : κ) (i : Nat)
  | delivered (tag : Nat)

def Slot.place {κ : Type} : Slot κ → Place κ
  | .queued q _ => .queue q
  | .delivered tag => .delivery tag

variable {κ μ : Type}

/-- The message is at the place. -/
def At (b : Broker κ μ) : Place κ → μ → Prop
  | .queue q, m => m ∈ b.queues q
  | .delivery tag, m => b.unacked tag = some m

def empty : Broker κ μ where
  queues := fun _ => []
  unacked := fun _ => none
  next := 0
  fresh := fun _ _ => rfl

theorem not_at_empty (place : Place κ) (m : μ) : ¬ (empty : Broker κ μ).At place m := by
  cases place with
  | queue q => exact List.not_mem_nil
  | delivery tag => exact nofun

def get? (b : Broker κ μ) : Slot κ → Option μ
  | .queued q i => (b.queues q)[i]?
  | .delivered tag => b.unacked tag

theorem at_of_get? {b : Broker κ μ} {slot : Slot κ} {m : μ} (h : b.get? slot = some m) :
    b.At slot.place m := by
  cases slot with
  | queued q i => exact List.mem_of_getElem? h
  | delivered tag => exact h

/-- A delivery has been made, so its tag is used. -/
theorem lt_next {b : Broker κ μ} {tag : Nat} {m : μ} (h : b.At (.delivery tag) m) :
    tag < b.next := by
  by_contra hge
  cases (b.fresh tag (Nat.le_of_not_lt hge)).symm.trans h

variable [DecidableEq κ]

def publish (b : Broker κ μ) (q : κ) (m : μ) : Broker κ μ :=
  { b with queues := Function.update b.queues q (b.queues q ++ [m]) }

/-- Acknowledging a delivery removes it. -/
def remove (b : Broker κ μ) : Slot κ → Broker κ μ
  | .queued q i => { b with queues := Function.update b.queues q ((b.queues q).eraseIdx i) }
  | .delivered tag =>
      { b with
        unacked := Function.update b.unacked tag none
        fresh := by
          intro tag' htag'
          by_cases heq : tag' = tag
          · rw [heq, Function.update_self]
          · rw [Function.update_of_ne heq, b.fresh tag' htag'] }

/-- Move a message to the end of a queue. -/
def move (b : Broker κ μ) (slot : Slot κ) (q : κ) : Broker κ μ :=
  match b.get? slot with
  | none => b
  | some m => (b.remove slot).publish q m

/-- Deliver the message at position `i` of a queue. -/
def deliver (b : Broker κ μ) (q : κ) (i : Nat) : Broker κ μ :=
  match b.get? (.queued q i) with
  | none => b
  | some m =>
      { queues := (b.remove (.queued q i)).queues
        unacked := Function.update b.unacked b.next (some m)
        next := b.next + 1
        fresh := by
          intro tag htag
          rw [Function.update_of_ne (by omega)]
          exact b.fresh tag (by omega) }

/-- Only deliveries use tags. -/
theorem next_move (b : Broker κ μ) (slot : Slot κ) (q : κ) : (b.move slot q).next = b.next := by
  unfold move
  split
  · rfl
  · cases slot <;> rfl

section Moves

variable {b : Broker κ μ} {place : Place κ} {m m' : μ} {q : κ} {i : Nat} {slot : Slot κ}

/-! ## Where messages go -/

theorem at_publish_self (b : Broker κ μ) (q : κ) (m : μ) : (b.publish q m).At (.queue q) m := by
  simp [At, publish]

theorem At.publish (h : b.At place m) (q : κ) (m' : μ) : (b.publish q m').At place m := by
  cases place with
  | delivery tag => exact h
  | queue q' =>
      by_cases hq : q' = q
      · subst hq
        simp only [At, Broker.publish, Function.update_self]
        exact List.mem_append_left _ h
      · simp only [At, Broker.publish, Function.update_of_ne hq]
        exact h

/-- A removal takes nothing but the message in its slot. -/
theorem At.remove (h : b.At place m) (slot : Slot κ) :
    (b.remove slot).At place m ∨ place = slot.place ∧ b.get? slot = some m := by
  cases place with
  | queue q =>
      cases slot with
      | delivered tag => exact Or.inl h
      | queued q' i =>
          by_cases hq : q = q'
          · subst hq
            simp only [At, Broker.remove, Function.update_self]
            obtain ⟨j, hj, rfl⟩ := List.mem_iff_getElem.mp h
            by_cases hji : j = i
            · subst hji
              exact Or.inr ⟨rfl, List.getElem?_eq_getElem hj⟩
            · exact Or.inl (List.mem_eraseIdx_iff_getElem.mpr ⟨j, hj, hji, rfl⟩)
          · left
            simp only [At, Broker.remove, Function.update_of_ne hq]
            exact h
  | delivery tag =>
      cases slot with
      | queued q i => exact Or.inl h
      | delivered tag' =>
          by_cases htag : tag = tag'
          · subst htag
            exact Or.inr ⟨rfl, h⟩
          · left
            simp only [At, Broker.remove, Function.update_of_ne htag]
            exact h

theorem At.move (h : b.At place m) (slot : Slot κ) (q : κ) :
    (b.move slot q).At place m ∨ place = slot.place ∧ (b.move slot q).At (.queue q) m := by
  unfold Broker.move
  split
  · exact Or.inl h
  · next m' hslot =>
      rcases h.remove slot with hstays | ⟨hplace, hm⟩
      · exact Or.inl (hstays.publish q m')
      · obtain rfl := Option.some.inj (hslot.symm.trans hm)
        exact Or.inr ⟨hplace, at_publish_self _ q _⟩

theorem At.deliver (h : b.At place m) (q : κ) (i : Nat) :
    (b.deliver q i).At place m
      ∨ b.get? (.queued q i) = some m ∧ (b.deliver q i).At (.delivery b.next) m := by
  unfold Broker.deliver
  split
  · exact Or.inl h
  · next m' hslot =>
      rcases h.remove (.queued q i) with hstays | ⟨-, hm⟩
      · left
        cases place with
        | queue q' => exact hstays
        | delivery tag =>
            have hne : tag ≠ b.next := Nat.ne_of_lt (lt_next h)
            simp only [At, Function.update_of_ne hne]
            exact h
      · obtain rfl := Option.some.inj (hslot.symm.trans hm)
        refine Or.inr ⟨hm, ?_⟩
        simp only [At, Function.update_self]

/-! ## Where messages come from -/

theorem at_publish (h : (b.publish q m').At place m) :
    b.At place m ∨ place = .queue q ∧ m = m' := by
  cases place with
  | delivery tag => exact Or.inl h
  | queue q' =>
      by_cases hq : q' = q
      · subst hq
        simp only [At, Broker.publish, Function.update_self, List.mem_append,
          List.mem_singleton] at h
        exact h.imp id fun hm => ⟨rfl, hm⟩
      · simp only [At, Broker.publish, Function.update_of_ne hq] at h
        exact Or.inl h

theorem at_remove (h : (b.remove slot).At place m) : b.At place m := by
  cases slot with
  | queued q i =>
      cases place with
      | delivery tag => exact h
      | queue q' =>
          by_cases hq : q' = q
          · subst hq
            simp only [At, Broker.remove, Function.update_self] at h
            exact List.mem_of_mem_eraseIdx h
          · simp only [At, Broker.remove, Function.update_of_ne hq] at h
            exact h
  | delivered tag =>
      cases place with
      | queue q => exact h
      | delivery tag' =>
          by_cases htag : tag' = tag
          · subst htag
            simp only [At, Broker.remove, Function.update_self] at h
            cases h
          · simp only [At, Broker.remove, Function.update_of_ne htag] at h
            exact h

theorem at_move (h : (b.move slot q).At place m) :
    b.At place m ∨ place = .queue q ∧ b.At slot.place m := by
  unfold Broker.move at h
  split at h
  · exact Or.inl h
  · next m' hslot =>
      rcases at_publish h with hold | ⟨hplace, rfl⟩
      · exact Or.inl (at_remove hold)
      · exact Or.inr ⟨hplace, at_of_get? hslot⟩

theorem at_deliver (h : (b.deliver q i).At place m) :
    b.At place m ∨ place = .delivery b.next ∧ b.get? (.queued q i) = some m := by
  unfold Broker.deliver at h
  split at h
  · exact Or.inl h
  · next m' hslot =>
      cases place with
      | queue q' =>
          have hrest : (b.remove (.queued q i)).At (.queue q') m := h
          exact Or.inl (at_remove hrest)
      | delivery tag =>
          by_cases htag : tag = b.next
          · subst htag
            simp only [At, Function.update_self] at h
            exact Or.inr ⟨rfl, hslot.trans h⟩
          · simp only [At, Function.update_of_ne htag] at h
            exact Or.inl h

end Moves

/-! ## Weights -/

/-- What the messages of the queues weigh, where a message of queue `q` weighs
    `w q`. -/
def weigh (qs : List κ) (w : κ → μ → Int) (b : Broker κ μ) : Int :=
  sumOf (fun q => sumOf (w q) (b.queues q)) qs

section Weights

variable {qs : List κ} {w : κ → μ → Int} {b : Broker κ μ} {q : κ} {i : Nat} {m : μ}

theorem weigh_publish (hqs : qs.Nodup) (hq : q ∈ qs) :
    (b.publish q m).weigh qs w = b.weigh qs w + w q m := by
  have hupdate := sumOf_update (g := fun q => sumOf (w q)) (r := b.queues) hqs hq
    (b.queues q ++ [m])
  rw [sumOf_append, sumOf_cons, sumOf_nil] at hupdate
  unfold weigh publish
  dsimp only
  omega

theorem weigh_remove_queued (hqs : qs.Nodup) (hq : q ∈ qs)
    (h : b.get? (.queued q i) = some m) :
    (b.remove (.queued q i)).weigh qs w + w q m = b.weigh qs w := by
  have hupdate := sumOf_update (g := fun q => sumOf (w q)) (r := b.queues) hqs hq
    ((b.queues q).eraseIdx i)
  have herase := sumOf_eraseIdx (f := w q) h
  unfold weigh remove
  dsimp only
  omega

theorem weigh_deliver (hqs : qs.Nodup) (hq : q ∈ qs) (h : b.get? (.queued q i) = some m) :
    (b.deliver q i).weigh qs w + w q m = b.weigh qs w := by
  rw [← weigh_remove_queued hqs hq h]
  unfold deliver
  rw [h]
  rfl

/-- An outstanding delivery weighs nothing until it is settled. -/
theorem weigh_move_delivered {tag : Nat} (hqs : qs.Nodup) (hq : q ∈ qs)
    (h : b.get? (.delivered tag) = some m) :
    (b.move (.delivered tag) q).weigh qs w = b.weigh qs w + w q m := by
  unfold move
  rw [h]
  exact weigh_publish hqs hq

theorem weigh_move_queued {q' : κ} (hqs : qs.Nodup) (hq : q ∈ qs) (hq' : q' ∈ qs)
    (h : b.get? (.queued q i) = some m) :
    (b.move (.queued q i) q').weigh qs w + w q m = b.weigh qs w + w q' m := by
  unfold move
  rw [h]
  dsimp only
  rw [weigh_publish hqs hq', ← weigh_remove_queued hqs hq h]
  omega

end Weights

end Broker

end Aegis.Lib
