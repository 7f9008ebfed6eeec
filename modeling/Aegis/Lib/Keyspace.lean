/-
  Aegis.Lib.Keyspace

  A keyspace of 64-bit counters that expire, with the commands of a key-value
  server on them.  A key whose expiry has passed reads as absent and is created
  anew by the next write; nothing else depends on when it is really removed.

  Times are in any unit; an expiry is the first instant at which the key is gone.
-/

import Mathlib.Logic.Function.Basic
import Mathlib.Algebra.Order.Ring.Int

namespace Aegis.Lib

structure Counter where
  value : Int
  /-- `none` when the key does not expire -/
  expiresAt : Option Int := none
deriving DecidableEq, Repr

/-- The counter is still there. -/
def Counter.live (counter : Counter) (now : Int) : Bool :=
  match counter.expiresAt with
  | none => true
  | some expiresAt => decide (now < expiresAt)

abbrev Keyspace (κ : Type) := κ → Option Counter

namespace Keyspace

section Reading

variable {κ : Type} (keys : Keyspace κ) (now : Int)

def empty : Keyspace κ := fun _ => none

/-- The counter under a key, unless it has expired. -/
def find (key : κ) : Option Counter :=
  (keys key).filter fun counter => counter.live now

/-- `GET key`, an absent key reading as 0. -/
def get (key : κ) : Int := ((find keys now key).getD ⟨0, none⟩).value

variable {keys now} {key : κ}

theorem find_of_none (h : keys key = none) : find keys now key = none := by
  rw [find, h]
  rfl

/-- A counter before its expiry. -/
theorem find_of_live {value expiresAt : Int} (h : keys key = some ⟨value, some expiresAt⟩)
    (hlive : now < expiresAt) : find keys now key = some ⟨value, some expiresAt⟩ := by
  rw [find, h, Option.filter_some, if_pos]
  exact decide_eq_true hlive

theorem live_of_find {counter : Counter} (h : find keys now key = some counter) :
    counter.live now = true :=
  (Option.filter_eq_some_iff.mp h).2

theorem find_of_later {later : Int} {counter : Counter} (h : find keys later key = some counter)
    (hle : now ≤ later) : find keys now key = some counter := by
  obtain ⟨hkey, hlive⟩ := Option.filter_eq_some_iff.mp h
  refine Option.filter_eq_some_iff.mpr ⟨hkey, ?_⟩
  unfold Counter.live at hlive ⊢
  split
  · rfl
  · next expiresAt hexpires =>
      rw [hexpires] at hlive
      have hlater : later < expiresAt := of_decide_eq_true hlive
      exact decide_eq_true (Int.lt_of_le_of_lt hle hlater)

theorem get_of_find {counter : Counter} (h : find keys now key = some counter) :
    get keys now key = counter.value := by
  rw [get, h]
  rfl

theorem get_of_absent (h : find keys now key = none) : get keys now key = 0 := by
  rw [get, h]
  rfl

/-- Reading a key depends on that key only. -/
theorem get_congr {keys' : Keyspace κ} (h : keys' key = keys key) :
    get keys' now key = get keys now key := by
  rw [get, get, find, find, h]

theorem get_of_none (h : keys key = none) : get keys now key = 0 :=
  get_of_absent (find_of_none h)

theorem get_of_live {value expiresAt : Int} (h : keys key = some ⟨value, some expiresAt⟩)
    (hlive : now < expiresAt) : get keys now key = value :=
  get_of_find (find_of_live h hlive)

end Reading

section Commands

variable {κ : Type} [DecidableEq κ] (keys : Keyspace κ) (now : Int)

def put (key : κ) (counter : Option Counter) : Keyspace κ := Function.update keys key counter

/-- `INCRBY key delta`; fails when the sum is not a 64-bit integer.  A key that
    is created has no expiry, one that is there keeps its own. -/
def incrBy (key : κ) (delta : Int) : Option (Keyspace κ) :=
  let counter := (find keys now key).getD ⟨0, none⟩
  if -(2 ^ 63) ≤ counter.value + delta ∧ counter.value + delta < 2 ^ 63 then
    some (put keys key (some { counter with value := counter.value + delta }))
  else none

/-- `EXPIRE key` in `after`; a time that is not positive deletes the key. -/
def expire (key : κ) (after : Int) : Keyspace κ :=
  match find keys now key with
  | none => keys
  | some counter =>
      if after ≤ 0 then put keys key none
      else put keys key (some { counter with expiresAt := some (now + after) })

/-- `DEL key`. -/
def del (key : κ) : Keyspace κ := put keys key none

variable {keys now} {key other : κ}

theorem put_self (counter : Option Counter) : put keys key counter key = counter :=
  Function.update_self ..

theorem put_of_ne (h : other ≠ key) (counter : Option Counter) :
    put keys key counter other = keys other := Function.update_of_ne h ..

/-! ## Rules -/

theorem incrBy_of_ne {delta : Int} {keys' : Keyspace κ}
    (hincr : incrBy keys now key delta = some keys') (h : other ≠ key) :
    keys' other = keys other := by
  unfold incrBy at hincr
  dsimp only at hincr
  split at hincr
  · rw [← Option.some.inj hincr]
    exact put_of_ne h _
  · exact absurd hincr (by simp)

/-- `INCRBY` within 64 bits. -/
theorem incrBy_eq {delta : Int} (hlow : -(2 ^ 63) ≤ get keys now key + delta)
    (hhigh : get keys now key + delta < 2 ^ 63) :
    incrBy keys now key delta = some (put keys key (some
      { (find keys now key).getD ⟨0, none⟩ with value := get keys now key + delta })) := by
  unfold incrBy
  rw [get] at hlow hhigh ⊢
  dsimp only
  rw [if_pos ⟨hlow, hhigh⟩]

theorem expire_of_ne {after : Int} (h : other ≠ key) :
    expire keys now key after other = keys other := by
  unfold expire
  cases find keys now key with
  | none => rfl
  | some counter =>
      dsimp only
      split
      · exact put_of_ne h _
      · exact put_of_ne h _

/-- What an `INCRBY` that succeeds leaves under its key. -/
theorem incrBy_eq_some {delta : Int} {keys' : Keyspace κ}
    (h : incrBy keys now key delta = some keys') :
    get keys now key + delta < 2 ^ 63
      ∧ keys' = put keys key (some
          { (find keys now key).getD ⟨0, none⟩ with value := get keys now key + delta }) := by
  unfold incrBy at h
  dsimp only at h
  split at h
  · next hfits => exact ⟨hfits.2, (Option.some.inj h).symm⟩
  · exact absurd h (by simp)

/-- `EXPIRE` after an `INCRBY` of the same key. -/
theorem expire_incrBy {delta after : Int} {keys' : Keyspace κ}
    (h : incrBy keys now key delta = some keys') :
    expire keys' now key after key
      = if after ≤ 0 then none else some ⟨get keys now key + delta, some (now + after)⟩ := by
  obtain ⟨-, rfl⟩ := incrBy_eq_some h
  have hlive : ((find keys now key).getD ⟨0, none⟩).live now = true := by
    cases hfind : find keys now key with
    | none => rfl
    | some counter => exact live_of_find hfind
  generalize (find keys now key).getD ⟨0, none⟩ = counter at hlive ⊢
  have hfind : find (put keys key (some { counter with value := get keys now key + delta })) now
      key = some { counter with value := get keys now key + delta } := by
    rw [find, put_self, Option.filter_some, if_pos]
    exact hlive
  rw [expire, hfind]
  dsimp only
  by_cases hafter : after ≤ 0
  · rw [if_pos hafter, if_pos hafter, put_self]
  · rw [if_neg hafter, if_neg hafter, put_self]

/-- **`INCRBY` followed by `EXPIRE`**: the key holds the sum until the new
    expiry, and no other key changes. -/
theorem incrBy_expire (keys : Keyspace κ) (now : Int) (key : κ) (delta after : Int)
    (hlow : -(2 ^ 63) ≤ get keys now key + delta) (hhigh : get keys now key + delta < 2 ^ 63)
    (hafter : 0 < after) :
    ∃ keys', incrBy keys now key delta = some keys'
      ∧ expire keys' now key after key = some ⟨get keys now key + delta, some (now + after)⟩
      ∧ ∀ other, other ≠ key → expire keys' now key after other = keys other := by
  have hincr := incrBy_eq hlow hhigh
  refine ⟨_, hincr, ?_, fun other h => (expire_of_ne h).trans (incrBy_of_ne hincr h)⟩
  rw [expire_incrBy hincr, if_neg (by omega)]

/-- `INCRBY` of a counter before its expiry, which stays. -/
theorem incrBy_of_live {value expiresAt delta : Int}
    (h : keys key = some ⟨value, some expiresAt⟩) (hlive : now < expiresAt)
    (hlow : -(2 ^ 63) ≤ value + delta) (hhigh : value + delta < 2 ^ 63) :
    incrBy keys now key delta = some (put keys key (some ⟨value + delta, some expiresAt⟩)) := by
  have hget := get_of_live h hlive
  rw [← hget] at hlow hhigh
  rw [incrBy_eq hlow hhigh, find_of_live h hlive, hget]
  rfl

end Commands

end Keyspace

end Aegis.Lib
