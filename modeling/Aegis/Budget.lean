/-
  Aegis.Budget

  Fixed-precision cost and reservation decisions (internal/budget/budget.go).
  Token counts, prices and amounts are `int64` values, represented as
  integers; `CostMicroUSD` computes in `big.Int`, `CanReserve` in `int64`.
-/

import Aegis.Go
import Mathlib.Data.Rat.Floor

namespace Aegis.Budget

def tokensPerPriceUnit : Int := 1000000

/-- Provider cost, fractional micro-USD rounded upward. -/
def costMicroUSD (promptTokens completionTokens inputPrice outputPrice : Int) :
    Except GoError Int := do
  if promptTokens < 0 ∨ completionTokens < 0 ∨ inputPrice < 0 ∨ outputPrice < 0 then
    throw (.new "tokens and prices must not be negative")
  let total := promptTokens * inputPrice + completionTokens * outputPrice
  -- `QuoRem` truncates toward zero
  let quotient := total.tdiv tokensPerPriceUnit
  let remainder := total.tmod tokensPerPriceUnit
  let rounded := if remainder > 0 then quotient + 1 else quotient
  unless isInt64 rounded do
    throw (.new "calculated cost exceeds supported range")
  return rounded

/-- Prevents committed usage and active reservations from exceeding a limit;
    a zero limit means monetary admission is not enabled. -/
def canReserve (limit committed activeReservations requested : Int) : Except GoError Unit := do
  if limit = 0 then return ()
  if limit < 0 ∨ committed < 0 ∨ activeReservations < 0 ∨ requested < 0 then
    throw (.new "budget values must not be negative")
  if requested > limit ∨ committed > sub64 limit requested
      ∨ activeReservations > sub64 (sub64 limit requested) committed then
    throw (.ofSentinel .errExceeded)

/-- The quotient of `CostMicroUSD`, rounded up. -/
def roundUp (total : Int) : Int :=
  if total.tmod tokensPerPriceUnit > 0 then total.tdiv tokensPerPriceUnit + 1
  else total.tdiv tokensPerPriceUnit

theorem roundUp_eq {total : Int} (h : 0 ≤ total) : roundUp total = (total + 999999) / 1000000 := by
  have hdiv : total.tdiv tokensPerPriceUnit = total / 1000000 := Int.tdiv_eq_ediv_of_nonneg h
  have hmod : total.tmod tokensPerPriceUnit = total % 1000000 := Int.tmod_eq_emod_of_nonneg h
  unfold roundUp
  rw [hdiv, hmod]
  split <;> omega

/-- The rounded quotient is the ceiling of the exact one. -/
theorem roundUp_eq_ceil {total : Int} (h : 0 ≤ total) :
    roundUp total = ⌈(total : ℚ) / tokensPerPriceUnit⌉ := by
  have hunit : (0 : ℚ) < tokensPerPriceUnit := by
    unfold tokensPerPriceUnit
    norm_num
  have hreach : total ≤ (total + 999999) / 1000000 * 1000000 := by omega
  rw [roundUp_eq h]
  symm
  apply Int.ceil_eq_iff.mpr
  rw [lt_div_iff₀ hunit, div_le_iff₀ hunit]
  unfold tokensPerPriceUnit
  constructor
  · have hless : ((total + 999999) / 1000000 - 1) * 1000000 < total := by omega
    exact_mod_cast hless
  · exact_mod_cast hreach

/-- `CostMicroUSD` succeeds when nothing is negative and the cost is
    representable. -/
theorem costMicroUSD_eq_ok_iff {p c i o cost : Int} :
    costMicroUSD p c i o = .ok cost ↔
      (0 ≤ p ∧ 0 ≤ c ∧ 0 ≤ i ∧ 0 ≤ o) ∧ roundUp (p * i + c * o) = cost
        ∧ isInt64 cost = true := by
  unfold costMicroUSD
  by_cases hneg : p < 0 ∨ c < 0 ∨ i < 0 ∨ o < 0
  · have hnot : ¬(0 ≤ p ∧ 0 ≤ c ∧ 0 ≤ i ∧ 0 ≤ o) := by omega
    simp [hneg, hnot, bind, Except.bind, throw, throwThe, MonadExceptOf.throw]
  · have hall : 0 ≤ p ∧ 0 ≤ c ∧ 0 ≤ i ∧ 0 ≤ o := by omega
    simp only [hneg, if_false, bind, Except.bind, pure, Except.pure, hall, true_and, and_self]
    rw [← roundUp]
    split
    · next hfits =>
        rw [Except.ok.injEq]
        refine ⟨fun hcost => ⟨hcost, by rw [← hcost]; exact hfits⟩, fun hcost => hcost.1⟩
    · next hlarge =>
        refine iff_of_false (by simp [throw, throwThe, MonadExceptOf.throw]) ?_
        rintro ⟨rfl, hfits⟩
        exact hlarge hfits

/-- A successful cost is never negative. -/
theorem costMicroUSD_nonneg {p c i o cost : Int} (h : costMicroUSD p c i o = .ok cost) :
    0 ≤ cost := by
  obtain ⟨⟨hp, hc, hi, ho⟩, hcost, -⟩ := costMicroUSD_eq_ok_iff.mp h
  have hpi : 0 ≤ p * i := Int.mul_nonneg hp hi
  have hco : 0 ≤ c * o := Int.mul_nonneg hc ho
  rw [roundUp_eq (by omega)] at hcost
  omega

/-- **Costs are monotone.** What costs no more tokens at no higher prices
    than a representable cost is representable and no more expensive. -/
theorem costMicroUSD_mono {p p' c c' i i' o o' cost : Int} (hp : 0 ≤ p) (hpp : p ≤ p')
    (hc : 0 ≤ c) (hcc : c ≤ c') (hi : 0 ≤ i) (hii : i ≤ i') (ho : 0 ≤ o) (hoo : o ≤ o')
    (h : costMicroUSD p' c' i' o' = .ok cost) :
    ∃ lower, costMicroUSD p c i o = .ok lower ∧ lower ≤ cost := by
  obtain ⟨⟨hp', hc', hi', ho'⟩, hcost, hfits⟩ := costMicroUSD_eq_ok_iff.mp h
  have hpi : 0 ≤ p * i := Int.mul_nonneg hp hi
  have hco : 0 ≤ c * o := Int.mul_nonneg hc ho
  have hinput : p * i ≤ p' * i' := Int.mul_le_mul hpp hii hi hp'
  have houtput : c * o ≤ c' * o' := Int.mul_le_mul hcc hoo ho hc'
  rw [roundUp_eq (by omega)] at hcost
  have hle : roundUp (p * i + c * o) ≤ cost := by
    rw [roundUp_eq (by omega)]
    omega
  have hnonneg : 0 ≤ roundUp (p * i + c * o) := by
    rw [roundUp_eq (by omega)]
    omega
  have hfits' : isInt64 (roundUp (p * i + c * o)) = true := by
    have hrange := of_decide_eq_true hfits
    exact decide_eq_true ⟨by omega, by omega⟩
  exact ⟨_, costMicroUSD_eq_ok_iff.mpr ⟨⟨hp, hc, hi, ho⟩, rfl, hfits'⟩, hle⟩

/-- `CanReserve` in exact arithmetic: neither difference wraps where it is
    evaluated, because the comparison before it was false. -/
theorem canReserve_eq {limit committed active requested : Int} (hmax : limit ≤ maxInt64) :
    canReserve limit committed active requested
      = if limit = 0 then .ok ()
        else if limit < 0 ∨ committed < 0 ∨ active < 0 ∨ requested < 0 then
          .error (.new "budget values must not be negative")
        else if limit < committed + active + requested then .error (.ofSentinel .errExceeded)
        else .ok () := by
  unfold canReserve
  by_cases hzero : limit = 0
  · simp only [hzero, if_true]
    rfl
  · by_cases hneg : limit < 0 ∨ committed < 0 ∨ active < 0 ∨ requested < 0
    · simp only [hzero, hneg, if_false, if_true]
      rfl
    · have hexceeds : (requested > limit ∨ committed > sub64 limit requested
          ∨ active > sub64 (sub64 limit requested) committed)
            ↔ limit < committed + active + requested := by
        unfold sub64 wrap64
        unfold maxInt64 at hmax
        omega
      simp only [hzero, hneg, hexceeds, if_false]
      rfl

/-- **Admission bound.** A limit that is set and representable admits a
    request only when it covers everything committed, reserved and requested. -/
theorem le_of_canReserve {limit committed active requested : Int}
    (h : canReserve limit committed active requested = .ok ()) (hpos : 0 < limit)
    (hmax : limit ≤ maxInt64) : committed + active + requested ≤ limit := by
  rw [canReserve_eq hmax, if_neg (by omega)] at h
  split_ifs at h with hneg hexceeds
  omega

/-- A limit admits a request that it covers. -/
theorem canReserve_of_le {limit committed active requested : Int} (hmax : limit ≤ maxInt64)
    (hcommitted : 0 ≤ committed) (hactive : 0 ≤ active) (hrequested : 0 ≤ requested)
    (hle : committed + active + requested ≤ limit) :
    canReserve limit committed active requested = .ok () := by
  rw [canReserve_eq hmax, if_neg (by omega : ¬(limit < 0 ∨ committed < 0 ∨ active < 0
    ∨ requested < 0)), if_neg (by omega : ¬limit < committed + active + requested), ite_self]

/-- A limit that is set admits no negative request. -/
theorem nonneg_of_canReserve {limit committed active requested : Int}
    (h : canReserve limit committed active requested = .ok ()) (hpos : 0 < limit) :
    0 ≤ requested := by
  unfold canReserve at h
  have hne : ¬ limit = 0 := by omega
  simp only [hne, if_false, bind, Except.bind, pure, Except.pure] at h
  by_cases hneg : limit < 0 ∨ committed < 0 ∨ active < 0 ∨ requested < 0
  · simp [hneg, throw, throwThe, MonadExceptOf.throw] at h
  · omega

/-- The differences of `CanReserve` do not overflow where they are evaluated:
    each only when the comparison before it was false. -/
theorem differences_fit {limit committed requested : Int} (hmax : limit ≤ maxInt64)
    (hcommitted : 0 ≤ committed) (hrequested : 0 ≤ requested) (hfirst : requested ≤ limit) :
    isInt64 (limit - requested) = true
      ∧ (committed ≤ limit - requested → isInt64 (limit - requested - committed) = true) := by
  unfold isInt64 maxInt64 at *
  refine ⟨decide_eq_true ⟨by omega, by omega⟩, fun hsecond => decide_eq_true ⟨by omega, by omega⟩⟩

/-- The exact results of the subtractions that `CanReserve` evaluates.  `||` stops
    at the first comparison that holds. -/
def differences (limit committed activeReservations requested : Int) : List Int :=
  if limit = 0 then []
  else if limit < 0 ∨ committed < 0 ∨ activeReservations < 0 ∨ requested < 0 then []
  else if requested > limit then []
  else if committed > sub64 limit requested then [limit - requested]
  else [limit - requested, sub64 limit requested - committed]

theorem differences_isInt64 {limit committed active requested : Int} (hmax : limit ≤ maxInt64) :
    ∀ d ∈ differences limit committed active requested, isInt64 d = true := by
  intro d hd
  unfold differences at hd
  split_ifs at hd with hzero hneg hfirst hsecond
  · cases hd
  · cases hd
  · cases hd
  · obtain ⟨hfits, -⟩ := differences_fit hmax (by omega : 0 ≤ committed) (by omega : 0 ≤ requested)
      (by omega)
    rw [List.mem_singleton.mp hd]
    exact hfits
  · obtain ⟨hfits, hfits'⟩ := differences_fit hmax (by omega : 0 ≤ committed)
      (by omega : 0 ≤ requested) (by omega)
    have hsub : sub64 limit requested = limit - requested := wrap64_of_isInt64 hfits
    rw [hsub] at hd hsecond
    rcases List.mem_cons.mp hd with rfl | hd
    · exact hfits
    · rw [List.mem_singleton.mp hd]
      exact hfits' (by omega)

/-- **Budget arithmetic is exact at every limit.** For all `int64` values, the
    cost is the ceiling of the exact quotient or out of range, and a reservation
    is decided as over unbounded integers. -/
theorem budget_exact (promptTokens completionTokens inputPrice outputPrice : Int64)
    (limit committed active cost : Int64) :
    (∀ result, costMicroUSD promptTokens.toInt completionTokens.toInt inputPrice.toInt
          outputPrice.toInt = .ok result
        ↔ (0 ≤ promptTokens.toInt ∧ 0 ≤ completionTokens.toInt ∧ 0 ≤ inputPrice.toInt
            ∧ 0 ≤ outputPrice.toInt)
          ∧ result = ⌈((promptTokens.toInt * inputPrice.toInt
              + completionTokens.toInt * outputPrice.toInt : Int) : ℚ) / tokensPerPriceUnit⌉
          ∧ isInt64 result = true)
      ∧ (canReserve limit.toInt committed.toInt active.toInt cost.toInt = .ok ()
        ↔ limit.toInt = 0
          ∨ (0 ≤ limit.toInt ∧ 0 ≤ committed.toInt ∧ 0 ≤ active.toInt ∧ 0 ≤ cost.toInt)
            ∧ committed.toInt + active.toInt + cost.toInt ≤ limit.toInt)
      ∧ (canReserve limit.toInt committed.toInt active.toInt cost.toInt
            = .error (.ofSentinel .errExceeded)
        ↔ limit.toInt ≠ 0
          ∧ (0 ≤ limit.toInt ∧ 0 ≤ committed.toInt ∧ 0 ≤ active.toInt ∧ 0 ≤ cost.toInt)
          ∧ limit.toInt < committed.toInt + active.toInt + cost.toInt)
      ∧ ∀ d ∈ differences limit.toInt committed.toInt active.toInt cost.toInt,
          isInt64 d = true := by
  have hmax : limit.toInt ≤ maxInt64 := by
    have := limit.toInt_lt
    unfold maxInt64
    omega
  refine ⟨?_, ?_, ?_, differences_isInt64 hmax⟩
  · intro result
    rw [costMicroUSD_eq_ok_iff]
    apply and_congr_right
    rintro ⟨hp, hc, hi, ho⟩
    have hinput := Int.mul_nonneg hp hi
    have houtput := Int.mul_nonneg hc ho
    rw [roundUp_eq_ceil (by omega), eq_comm]
  · rw [canReserve_eq hmax]
    split_ifs with hzero hneg hexceeds
    · simp [hzero]
    · refine iff_of_false (by simp) ?_
      omega
    · refine iff_of_false (by simp) ?_
      omega
    · refine iff_of_true rfl ?_
      omega
  · rw [canReserve_eq hmax]
    split_ifs with hzero hneg hexceeds
    · simp [hzero]
    · refine iff_of_false (by simp [GoError.new, GoError.ofSentinel]) ?_
      omega
    · refine iff_of_true rfl ?_
      omega
    · refine iff_of_false (by simp) ?_
      omega

end Aegis.Budget
