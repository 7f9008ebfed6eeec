/-
  Aegis.Go

  The parts of the Go language and standard library that the platform's code
  is written against: error chains (`errors.Is` / `errors.As`), `int64`
  arithmetic, `strings.TrimSpace`, and the UTC calendar of package `time`.

  An error is the chain of layers that `errors.Unwrap` walks, outermost first.
  A layer is a `*provider.Error`, a sentinel, a `net.Error`, or plain text.
-/

import Mathlib.Algebra.Order.Ring.Int
import Mathlib.Data.Rat.Defs

namespace Aegis

/-! ## Errors -/

/-- The sentinel errors compared with `errors.Is`. -/
inductive Sentinel where
  -- internal/persistence/store.go
  | errNotFound
  | errConflict
  | errAlreadyFinal
  | errModelForbidden
  -- internal/budget/budget.go
  | errExceeded
  -- internal/routing/router.go
  | errNoEligibleProvider
  -- package context
  | canceled
  | deadlineExceeded
deriving DecidableEq, Repr

/-- `provider.Error` without its `Cause`, which is the next layer of the chain. -/
structure ProviderError where
  provider : String
  category : String
  status : Int := 0
  retryable : Bool := false
  isPartial : Bool := false
deriving DecidableEq, Repr

/-- One error value of a chain. -/
inductive Layer where
  | provider (e : ProviderError)
  | sentinel (s : Sentinel)
  | net (timeout : Bool)
  | text (message : String)
deriving DecidableEq, Repr

/-- A non-nil `error`: the chain of its layers, outermost first. -/
structure GoError where
  chain : List Layer
deriving DecidableEq, Repr

namespace GoError

/-- `errors.New`. -/
def new (message : String) : GoError := ⟨[.text message]⟩

/-- A sentinel on its own. -/
def ofSentinel (s : Sentinel) : GoError := ⟨[.sentinel s]⟩

/-- `fmt.Errorf("message: %w", err)`. -/
def wrap (message : String) (err : GoError) : GoError := ⟨.text message :: err.chain⟩

/-- `errors.Is(err, s)`. -/
def is (err : GoError) (s : Sentinel) : Bool := err.chain.any (· == .sentinel s)

/-- `errors.As(err, &providerErr)` with `providerErr *provider.Error`. -/
def asProvider (err : GoError) : Option ProviderError :=
  err.chain.findSome? fun
    | .provider e => some e
    | _ => none

/-- `errors.As(err, &networkErr)` with `networkErr net.Error`: its `Timeout()`. -/
def asNet (err : GoError) : Option Bool :=
  err.chain.findSome? fun
    | .net timeout => some timeout
    | _ => none

end GoError

section Except

variable {α β : Type}

theorem bind_eq_ok {x : Except GoError α} {f : α → Except GoError β} {b : β} :
    (x >>= f) = .ok b ↔ ∃ a, x = .ok a ∧ f a = .ok b := by
  cases x with
  | error err => simp [bind, Except.bind]
  | ok a => simp [bind, Except.bind]

/-- A guard that throws, followed by the rest of a function. -/
theorem guard_eq_ok {p : Prop} [Decidable p] {err : GoError} {k : α → Except GoError β}
    {x : Except GoError β} {b : β} :
    (if p then (throw err : Except GoError α) >>= k else x) = .ok b ↔ ¬ p ∧ x = .ok b := by
  by_cases hp : p
  · simp [hp, bind, Except.bind, throw, throwThe, MonadExceptOf.throw]
  · simp [hp]

/-- A guard that throws at the end of a function. -/
theorem guard_end_eq_ok {p : Prop} [Decidable p] {err : GoError} {a : α} :
    (if p then (throw err : Except GoError α) else pure a) = .ok a ↔ ¬ p := by
  by_cases hp : p
  · simp [hp, throw, throwThe, MonadExceptOf.throw]
  · simp [hp, pure, Except.pure]

/-- A loop over checks succeeds if all of them do. -/
theorem forIn_eq_ok {check : α → Except GoError Unit} {xs : List α} {u : PUnit} :
    (forIn xs PUnit.unit fun x _ => do
        check x
        pure (ForInStep.yield PUnit.unit) : Except GoError PUnit) = .ok u
      ↔ ∀ x ∈ xs, check x = .ok () := by
  induction xs with
  | nil => simp [pure, Except.pure]
  | cons x xs ih =>
      rw [List.forIn_cons, List.forall_mem_cons, ← ih]
      cases hx : check x with
      | error err => simp [bind, Except.bind]
      | ok u => simp [bind, Except.bind, pure, Except.pure]

end Except

/-! ## int64 -/

/-- The largest `int64`. -/
def maxInt64 : Int := 2 ^ 63 - 1

/-- `big.Int.IsInt64`. -/
def isInt64 (x : Int) : Bool := decide (-(2 ^ 63) ≤ x ∧ x ≤ maxInt64)

/-- The `int64` congruent to `x` modulo `2^64`. -/
def wrap64 (x : Int) : Int := (x + 2 ^ 63) % 2 ^ 64 - 2 ^ 63

/-- Subtraction of `int64` values. -/
def sub64 (x y : Int) : Int := wrap64 (x - y)

theorem wrap64_of_isInt64 {x : Int} (h : isInt64 x = true) : wrap64 x = x := by
  have hrange := of_decide_eq_true h
  unfold maxInt64 at hrange
  unfold wrap64
  rw [Int.emod_eq_of_lt (by omega) (by omega)]
  omega

/-- A sum may be wrapped at every addition or once at the end. -/
theorem wrap64_wrap64_add (x y : Int) : wrap64 (wrap64 x + y) = wrap64 (x + y) := by
  unfold wrap64
  omega

/-! ## float64 -/

/-- A finite `float64`: its value, and whether it is the zero with the sign bit
    set.  That one equals the other zero but is printed as `-0`. -/
structure Float64 where
  value : ℚ
  negativeZero : Bool
  isZero : negativeZero = true → value = 0
deriving DecidableEq, Repr

namespace Float64

def ofRat (q : ℚ) : Float64 := ⟨q, false, Bool.noConfusion⟩

/-- The zero that `-0` is decoded to. -/
def minusZero : Float64 := ⟨0, true, fun _ => rfl⟩

instance : IntCast Float64 := ⟨fun n => ofRat n⟩

instance : NatCast Float64 := ⟨fun n => ofRat n⟩

end Float64

/-! ## strings.TrimSpace -/

/-- `unicode.IsSpace`. -/
def isSpace (c : Char) : Bool :=
  [0x09, 0x0a, 0x0b, 0x0c, 0x0d, 0x20, 0x85, 0xa0, 0x1680, 0x2028, 0x2029, 0x202f, 0x205f,
    0x3000].contains c.toNat || (0x2000 ≤ c.toNat && c.toNat ≤ 0x200a)

/-- `strings.TrimSpace(s)`. -/
def trimmed (s : String) : String :=
  String.ofList ((s.toList.dropWhile isSpace).reverse.dropWhile isSpace).reverse

/-- `strings.TrimSpace(s) == ""`. -/
def isBlank (s : String) : Bool := s.toList.all isSpace

/-! ## Time

Instants are microseconds since the Unix epoch, the resolution PostgreSQL
keeps. -/

abbrev Time := Int

namespace Time

def microsPerDay : Int := 86400000000

/-- Microseconds of a number of seconds. -/
def seconds (n : Int) : Int := n * 1000000

/-- The zero `time.Time`, 1 January of year 1. -/
def zero : Time := seconds (-62135596800)

/-- Day of the month, 1 to 31, of the day `z` days after 1 January 1970 in the
    proleptic Gregorian calendar.  Years are counted from 1 March, in 400-year
    eras, so that the leap day is the last day of a year. -/
def dayOfMonth (z : Int) : Int :=
  let doe := (z + 719468) % 146097
  let yoe := (doe - doe / 1460 + doe / 36524 - doe / 146096) / 365
  let doy := doe - (365 * yoe + yoe / 4 - yoe / 100)
  let mp := (5 * doy + 2) / 153
  doy - (153 * mp + 2) / 5 + 1

/-- `time.Date(now.UTC().Year(), now.UTC().Month(), now.UTC().Day(), 0, 0, 0, 0, time.UTC)`. -/
def startOfDay (now : Time) : Time := now / microsPerDay * microsPerDay

/-- `time.Date(now.UTC().Year(), now.UTC().Month(), 1, 0, 0, 0, 0, time.UTC)`. -/
def startOfMonth (now : Time) : Time :=
  (now / microsPerDay - (dayOfMonth (now / microsPerDay) - 1)) * microsPerDay

/-- `time.Since(started).Milliseconds()` read at `now`. -/
def sinceMillis (started now : Time) : Int := (now - started).tdiv 1000

end Time

-- 13 July 2026 belongs to the month that starts on 1 July; 29 February 2024 to
-- the one that starts 28 days earlier.
example : Time.startOfMonth (20647 * Time.microsPerDay + 5) = 20635 * Time.microsPerDay := by decide
example : Time.startOfMonth (19782 * Time.microsPerDay + 5) = 19754 * Time.microsPerDay := by decide

end Aegis
