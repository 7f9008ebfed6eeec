/-
  Aegis.RateLimit.Limiter

  Distributed admission control on Redis (internal/ratelimit/redis.go).

  Redis runs a script as one step, so each script is a function on the
  keyspace.  Lua numbers are doubles: a comparison in a script sees rounded
  values, while `INCRBY` adds 64-bit integers.  A command that fails ends its
  script, and what the script did before stays.

  The source formats the keys as text under the limiter's prefix
  (`prefix:bucket:window:requests` and so on); here they are a type.
-/

import Aegis.Gateway.Service
import Aegis.Lib.Double
import Aegis.Lib.Keyspace

namespace Aegis.RateLimit

open Aegis.Gateway (Decision Limits)
open Aegis.Lib (Keyspace toDouble)

inductive Key where
  | requests (bucket : String) (window : Int)
  | tokens (bucket : String) (window : Int)
  | concurrent (bucket : String)
deriving DecidableEq, Repr

abbrev Redis := Keyspace Key

/-! ## Scripts -/

/-- `tonumber(x) + tonumber(y)`. -/
def luaAdd (x y : Int) : Int := toDouble (toDouble x + toDouble y)

/-- The error of an `INCR` or `INCRBY` beyond 64 bits. -/
def overflow : GoError := .new "ERR increment or decrement would overflow"

/-- `allowScript`. -/
def allowScript (requestsKey tokensKey concurrentKey : Key) (limits : Limits)
    (estimatedTokens ttlSeconds : Int) (now : Time) (redis : Redis) :
    Except GoError (Int × Int) × Redis :=
  let requests := redis.get now requestsKey
  let tokens := redis.get now tokensKey
  let concurrent := redis.get now concurrentKey
  if luaAdd requests 1 > toDouble limits.requestsPerMinute then (.ok (0, 1), redis)
  else if luaAdd tokens estimatedTokens > toDouble limits.tokensPerMinute then (.ok (0, 2), redis)
  else if luaAdd concurrent 1 > toDouble limits.maxConcurrent then (.ok (0, 3), redis)
  else
    match redis.incrBy now requestsKey 1 with
    | none => (.error overflow, redis)
    | some redis =>
        let redis := redis.expire now requestsKey (Time.seconds 60)
        match redis.incrBy now tokensKey estimatedTokens with
        | none => (.error overflow, redis)
        | some redis =>
            let redis := redis.expire now tokensKey (Time.seconds 60)
            match redis.incrBy now concurrentKey 1 with
            | none => (.error overflow, redis)
            | some redis =>
                (.ok (1, 0), redis.expire now concurrentKey (Time.seconds ttlSeconds))

/-- `finishScript`. -/
def finishScript (key : Key) (now : Time) (redis : Redis) : Except GoError Int × Redis :=
  if toDouble (redis.get now key) ≤ 1 then (.ok 0, redis.del key)
  else
    match redis.incrBy now key (-1) with
    | none => (.error overflow, redis)
    | some redis => (.ok (redis.get now key), redis)

/-! ## The limiter -/

/-- One distributed concurrency slot. -/
structure Permit where
  key : Key
  released : Bool := false
deriving DecidableEq, Repr

/-- `time.Now().UTC().Unix() / 60`. -/
def windowOf (now : Time) : Int := (now / Time.seconds 1).tdiv 60

/-- `int64(concurrencyTTL.Seconds())`. -/
def ttlSeconds (concurrencyTTL : Int) : Int := concurrencyTTL.tdiv (Time.seconds 1)

/-- The reasons of a rejection, by the script's code. -/
def reasonOf (code : Int) : String :=
  if code = 1 then "requests_per_minute"
  else if code = 2 then "tokens_per_minute"
  else if code = 3 then "maximum_concurrency"
  else ""

/-- `Limiter.Allow`, the script running at `now`. -/
def allow (bucket : String) (limits : Limits) (estimatedTokens concurrencyTTL : Int) (now : Time)
    (redis : Redis) : Except GoError (Decision × Option Permit) × Redis :=
  if bucket = "" ∨ limits.requestsPerMinute ≤ 0 ∨ limits.tokensPerMinute ≤ 0
      ∨ limits.maxConcurrent ≤ 0 ∨ estimatedTokens < 0 then
    (.error (.new "invalid rate-limit input"), redis)
  else
    match allowScript (.requests bucket (windowOf now)) (.tokens bucket (windowOf now))
        (.concurrent bucket) limits estimatedTokens (ttlSeconds concurrencyTTL) now redis with
    | (.error err, redis) => (.error (.wrap "execute rate-limit script" err), redis)
    | (.ok (allowed, code), redis) =>
        if allowed = 1 then (.ok (⟨true, ""⟩, some ⟨.concurrent bucket, false⟩), redis)
        else (.ok (⟨false, reasonOf code⟩, none), redis)

/-- `Permit.Release`; a permit already released does nothing. -/
def Permit.release (permit : Permit) (now : Time) (redis : Redis) :
    Except GoError Unit × Permit × Redis :=
  if permit.released then (.ok (), permit, redis)
  else
    match finishScript permit.key now redis with
    | (.error err, redis) =>
        (.error (.wrap "release concurrency permit" err), { permit with released := true }, redis)
    | (.ok _, redis) => (.ok (), { permit with released := true }, redis)

/-! ## What the scripts do below `2^53` -/

section Scripts

variable {requestsKey tokensKey concurrentKey : Key} {limits : Limits}
  {estimatedTokens ttl : Int} {now : Time} {redis : Redis}

/-- The limits are not negative, and exact as doubles. -/
structure Exact (limits : Limits) : Prop where
  requests_nonneg : 0 ≤ limits.requestsPerMinute
  requests_lt : limits.requestsPerMinute < 2 ^ 53
  tokens_nonneg : 0 ≤ limits.tokensPerMinute
  tokens_lt : limits.tokensPerMinute < 2 ^ 53
  concurrent_nonneg : 0 ≤ limits.maxConcurrent
  concurrent_lt : limits.maxConcurrent < 2 ^ 53

instance (limits : Limits) : Decidable (Exact limits) :=
  decidable_of_iff (0 ≤ limits.requestsPerMinute ∧ limits.requestsPerMinute < 2 ^ 53
      ∧ 0 ≤ limits.tokensPerMinute ∧ limits.tokensPerMinute < 2 ^ 53
      ∧ 0 ≤ limits.maxConcurrent ∧ limits.maxConcurrent < 2 ^ 53)
    ⟨fun ⟨hr, hr', ht, ht', hc, hc'⟩ => ⟨hr, hr', ht, ht', hc, hc'⟩,
      fun ⟨hr, hr', ht, ht', hc, hc'⟩ => ⟨hr, hr', ht, ht', hc, hc'⟩⟩

/-- An admission: every sum is within its limit, each counter holds it with a
    new expiry, and no other key changes. -/
structure Admitted (requestsKey tokensKey concurrentKey : Key) (limits : Limits)
    (estimatedTokens ttl : Int) (now : Time) (redis redis' : Redis) : Prop where
  requests_le : redis.get now requestsKey + 1 ≤ limits.requestsPerMinute
  tokens_le : redis.get now tokensKey + estimatedTokens ≤ limits.tokensPerMinute
  concurrent_le : redis.get now concurrentKey + 1 ≤ limits.maxConcurrent
  requests : redis' requestsKey
    = some ⟨redis.get now requestsKey + 1, some (now + Time.seconds 60)⟩
  tokens : redis' tokensKey
    = some ⟨redis.get now tokensKey + estimatedTokens, some (now + Time.seconds 60)⟩
  concurrent : redis' concurrentKey
    = some ⟨redis.get now concurrentKey + 1, some (now + Time.seconds ttl)⟩
  others : ∀ key, key ≠ requestsKey → key ≠ tokensKey → key ≠ concurrentKey →
    redis' key = redis key

/-- **`allowScript`** on counters below `2^53`: beyond a limit it rejects and
    changes nothing, otherwise it admits. -/
theorem allowScript_cases (hlimits : Exact limits) (hestimated : 0 ≤ estimatedTokens)
    (httl : 0 < ttl) (hrt : requestsKey ≠ tokensKey) (hrc : requestsKey ≠ concurrentKey)
    (htc : tokensKey ≠ concurrentKey)
    (hrequests : 0 ≤ redis.get now requestsKey ∧ redis.get now requestsKey < 2 ^ 53)
    (htokens : 0 ≤ redis.get now tokensKey ∧ redis.get now tokensKey < 2 ^ 53)
    (hconcurrent : 0 ≤ redis.get now concurrentKey ∧ redis.get now concurrentKey < 2 ^ 53) :
    (∃ code, allowScript requestsKey tokensKey concurrentKey limits estimatedTokens ttl now redis
          = (.ok (0, code), redis)
        ∧ (limits.requestsPerMinute < redis.get now requestsKey + 1
          ∨ limits.tokensPerMinute < redis.get now tokensKey + estimatedTokens
          ∨ limits.maxConcurrent < redis.get now concurrentKey + 1))
      ∨ ∃ redis', allowScript requestsKey tokensKey concurrentKey limits estimatedTokens ttl now
          redis = (.ok (1, 0), redis')
        ∧ Admitted requestsKey tokensKey concurrentKey limits estimatedTokens ttl now redis
            redis' := by
  -- the comparisons of the script are exact
  have hr := Lib.toDouble_add_le_iff hrequests.1 hrequests.2 (by decide : (0 : Int) ≤ 1)
    hlimits.requests_lt
  have ht := Lib.toDouble_add_le_iff htokens.1 htokens.2 hestimated hlimits.tokens_lt
  have hc := Lib.toDouble_add_le_iff hconcurrent.1 hconcurrent.2 (by decide : (0 : Int) ≤ 1)
    hlimits.concurrent_lt
  unfold allowScript luaAdd
  dsimp only
  rw [Lib.toDouble_of_lt hlimits.requests_nonneg hlimits.requests_lt,
    Lib.toDouble_of_lt hlimits.tokens_nonneg hlimits.tokens_lt,
    Lib.toDouble_of_lt hlimits.concurrent_nonneg hlimits.concurrent_lt]
  split
  · next hover =>
      exact Or.inl ⟨1, rfl, Or.inl (Int.not_le.mp fun hle => Int.not_lt.mpr (hr.mpr hle) hover)⟩
  next hr' =>
  split
  · next hover =>
      exact Or.inl ⟨2, rfl, Or.inr (Or.inl
        (Int.not_le.mp fun hle => Int.not_lt.mpr (ht.mpr hle) hover))⟩
  next ht' =>
  split
  · next hover =>
      exact Or.inl ⟨3, rfl, Or.inr (Or.inr
        (Int.not_le.mp fun hle => Int.not_lt.mpr (hc.mpr hle) hover))⟩
  next hc' =>
  have hrle : redis.get now requestsKey + 1 ≤ limits.requestsPerMinute := hr.mp (Int.not_lt.mp hr')
  have htle : redis.get now tokensKey + estimatedTokens ≤ limits.tokensPerMinute :=
    ht.mp (Int.not_lt.mp ht')
  have hcle : redis.get now concurrentKey + 1 ≤ limits.maxConcurrent := hc.mp (Int.not_lt.mp hc')
  have hbounds := And.intro hlimits.requests_lt (And.intro hlimits.tokens_lt hlimits.concurrent_lt)
  -- within the limits no command overflows; each key is written once
  obtain ⟨r₁, hr₁, hown₁, hother₁⟩ := Keyspace.incrBy_expire redis now requestsKey 1
    (Time.seconds 60) (by omega) (by omega) (by decide)
  rw [hr₁]
  dsimp only
  generalize r₁.expire now requestsKey (Time.seconds 60) = s₁ at hown₁ hother₁ ⊢
  have hget₁ : s₁.get now tokensKey = redis.get now tokensKey :=
    Keyspace.get_congr (hother₁ tokensKey hrt.symm)
  obtain ⟨r₂, hr₂, hown₂, hother₂⟩ := Keyspace.incrBy_expire s₁ now tokensKey estimatedTokens
    (Time.seconds 60) (by omega) (by omega) (by decide)
  rw [hr₂]
  dsimp only
  generalize r₂.expire now tokensKey (Time.seconds 60) = s₂ at hown₂ hother₂ ⊢
  have hget₂ : s₂.get now concurrentKey = redis.get now concurrentKey :=
    Keyspace.get_congr ((hother₂ concurrentKey htc.symm).trans (hother₁ concurrentKey hrc.symm))
  obtain ⟨r₃, hr₃, hown₃, hother₃⟩ := Keyspace.incrBy_expire s₂ now concurrentKey 1
    (Time.seconds ttl) (by omega) (by omega) (by unfold Time.seconds; omega)
  rw [hr₃]
  rw [hget₁] at hown₂
  rw [hget₂] at hown₃
  refine Or.inr ⟨_, rfl, hrle, htle, hcle, ?_, ?_, hown₃, ?_⟩
  · rw [hother₃ requestsKey hrc, hother₂ requestsKey hrt]
    exact hown₁
  · rw [hother₃ tokensKey htc]
    exact hown₂
  · intro key hr ht hc
    rw [hother₃ key hc, hother₂ key ht]
    exact hother₁ key hr

/-- An answer other than 1 comes before any command that writes. -/
theorem allowScript_rejected {allowed code : Int} {redis' : Redis}
    (h : allowScript requestsKey tokensKey concurrentKey limits estimatedTokens ttl now redis
      = (.ok (allowed, code), redis')) (hallowed : allowed ≠ 1) : redis' = redis := by
  unfold allowScript at h
  dsimp only at h
  split at h
  · exact (congrArg Prod.snd h).symm
  split at h
  · exact (congrArg Prod.snd h).symm
  split at h
  · exact (congrArg Prod.snd h).symm
  -- from here on the script fails or answers 1
  split at h
  · exact absurd (congrArg Prod.fst h) (by simp)
  split at h
  · exact absurd (congrArg Prod.fst h) (by simp)
  split at h
  · exact absurd (congrArg Prod.fst h) (by simp)
  · have hone : ((1 : Int), (0 : Int)) = (allowed, code) := Except.ok.inj (congrArg Prod.fst h)
    exact absurd (congrArg Prod.fst hone).symm hallowed

/-- The concurrency counter after `allowScript`, whatever the limits: an
    admission adds one and sets the expiry, anything else leaves it alone. -/
theorem allowScript_concurrent (hrc : requestsKey ≠ concurrentKey)
    (htc : tokensKey ≠ concurrentKey) {answer : Except GoError (Int × Int)} {redis' : Redis}
    (h : allowScript requestsKey tokensKey concurrentKey limits estimatedTokens ttl now redis
      = (answer, redis')) :
    (answer = .ok (1, 0) ∧ redis.get now concurrentKey + 1 < 2 ^ 63
        ∧ redis' concurrentKey = if Time.seconds ttl ≤ 0 then none
            else some ⟨redis.get now concurrentKey + 1, some (now + Time.seconds ttl)⟩)
      ∨ (∀ code, answer ≠ .ok (1, code)) ∧ redis' concurrentKey = redis concurrentKey := by
  unfold allowScript at h
  dsimp only at h
  split at h
  · cases h
    exact Or.inr ⟨by simp, rfl⟩
  split at h
  · cases h
    exact Or.inr ⟨by simp, rfl⟩
  split at h
  · cases h
    exact Or.inr ⟨by simp, rfl⟩
  -- a command that fails ends the script before the concurrency counter changes
  split at h
  · cases h
    exact Or.inr ⟨by simp, rfl⟩
  next r₁ hr₁ =>
  have hkept₁ : r₁.expire now requestsKey (Time.seconds 60) concurrentKey
      = redis concurrentKey :=
    (Keyspace.expire_of_ne hrc.symm).trans (Keyspace.incrBy_of_ne hr₁ hrc.symm)
  split at h
  · cases h
    exact Or.inr ⟨by simp, hkept₁⟩
  next r₂ hr₂ =>
  have hkept₂ : r₂.expire now tokensKey (Time.seconds 60) concurrentKey = redis concurrentKey :=
    ((Keyspace.expire_of_ne htc.symm).trans (Keyspace.incrBy_of_ne hr₂ htc.symm)).trans hkept₁
  split at h
  · cases h
    exact Or.inr ⟨by simp, hkept₂⟩
  next r₃ hr₃ =>
  cases h
  have hget : (r₂.expire now tokensKey (Time.seconds 60)).get now concurrentKey
      = redis.get now concurrentKey := Keyspace.get_congr hkept₂
  refine Or.inl ⟨rfl, ?_, ?_⟩
  · rw [← hget]
    exact (Keyspace.incrBy_eq_some hr₃).1
  · rw [Keyspace.expire_incrBy hr₃, hget]

/-- **`finishScript`** on a counter before its expiry: the last permit deletes
    the key, another one is subtracted and the expiry stays. -/
theorem finishScript_cases {key : Key} {value expiresAt : Int}
    (hkey : redis key = some ⟨value, some expiresAt⟩) (hlive : now < expiresAt)
    (hpos : 0 < value) (hlt : value < 2 ^ 53) :
    (finishScript key now redis).2
      = Keyspace.put redis key (if value = 1 then none else some ⟨value - 1, some expiresAt⟩) := by
  unfold finishScript
  rw [Keyspace.get_of_live hkey hlive, Lib.toDouble_of_lt (Int.le_of_lt hpos) hlt]
  by_cases hlast : value = 1
  · rw [if_pos (by omega), if_pos hlast]
    rfl
  · rw [if_neg (by omega), if_neg hlast,
      Keyspace.incrBy_of_live hkey hlive (by omega) (by omega)]
    rfl

/-- `finishScript` on any counter that is not negative: the key is gone
    afterwards, or the counter was more than 1 and is one less. -/
theorem finishScript_own (now : Time) {key : Key}
    (hrange : ∀ counter, redis key = some counter → 0 ≤ counter.value ∧ counter.value < 2 ^ 63) :
    (finishScript key now redis).2 key = none
      ∨ ∃ counter, redis key = some counter ∧ 1 < counter.value
          ∧ (finishScript key now redis).2 key
            = some { counter with value := counter.value - 1 } := by
  unfold finishScript
  split
  · exact Or.inl (Keyspace.put_self ..)
  next hmore =>
  cases hfind : redis.find now key with
  | none =>
      -- an absent counter reads as 0
      rw [Keyspace.get_of_absent hfind] at hmore
      exact absurd (by decide) hmore
  | some counter =>
      have hkey : redis key = some counter := (Option.filter_eq_some_iff.mp hfind).1
      have hget := Keyspace.get_of_find hfind
      have hvalue := hrange counter hkey
      have hmany : 1 < counter.value := by
        apply Int.not_le.mp
        intro hfew
        rw [hget, Lib.toDouble_of_lt hvalue.1 (by omega)] at hmore
        exact hmore hfew
      rw [Keyspace.incrBy_eq (by rw [hget]; omega) (by rw [hget]; omega), hfind, hget]
      exact Or.inr ⟨counter, hkey, hmany, Keyspace.put_self ..⟩

theorem finishScript_of_ne {key other : Key} (h : other ≠ key) :
    (finishScript key now redis).2 other = redis other := by
  unfold finishScript
  split
  · exact Keyspace.put_of_ne h _
  · split
    · rfl
    · next hincr => exact Keyspace.incrBy_of_ne hincr h

end Scripts

/-! ## What the limiter does -/

section Allow

variable {bucket : String} {limits : Limits} {estimatedTokens concurrencyTTL : Int} {now : Time}
  {redis redis' : Redis}

/-- There is room for one more request in a bucket. -/
structure Room (bucket : String) (limits : Limits) (estimatedTokens : Int) (now : Time)
    (redis : Redis) : Prop where
  requests : redis.get now (.requests bucket (windowOf now)) + 1 ≤ limits.requestsPerMinute
  tokens : redis.get now (.tokens bucket (windowOf now)) + estimatedTokens ≤ limits.tokensPerMinute
  concurrent : redis.get now (.concurrent bucket) + 1 ≤ limits.maxConcurrent

instance : Decidable (Room bucket limits estimatedTokens now redis) :=
  decidable_of_iff (redis.get now (.requests bucket (windowOf now)) + 1 ≤ limits.requestsPerMinute
      ∧ redis.get now (.tokens bucket (windowOf now)) + estimatedTokens ≤ limits.tokensPerMinute
      ∧ redis.get now (.concurrent bucket) + 1 ≤ limits.maxConcurrent)
    ⟨fun ⟨hr, ht, hc⟩ => ⟨hr, ht, hc⟩, fun ⟨hr, ht, hc⟩ => ⟨hr, ht, hc⟩⟩

/-- What `Allow` requires of its arguments. -/
structure Valid (bucket : String) (limits : Limits) (estimatedTokens : Int) : Prop where
  bucket : bucket ≠ ""
  requests : 0 < limits.requestsPerMinute
  tokens : 0 < limits.tokensPerMinute
  concurrent : 0 < limits.maxConcurrent
  estimated : 0 ≤ estimatedTokens

/-- **A rejection changes nothing.** -/
theorem allow_rejected {decision : Decision}
    (h : allow bucket limits estimatedTokens concurrencyTTL now redis
      = (.ok (decision, none), redis')) : redis' = redis := by
  unfold allow at h
  split at h
  · exact absurd (congrArg Prod.fst h) (by simp)
  · split at h
    · exact absurd (congrArg Prod.fst h) (by simp)
    · next hscript =>
        split at h
        · exact absurd (congrArg Prod.fst h) (by simp)
        · next hallowed =>
            exact (congrArg Prod.snd h).symm.trans (allowScript_rejected hscript hallowed)

/-- The concurrency counter after `Allow`, whatever the limits. -/
theorem allow_concurrent {result : Except GoError (Decision × Option Permit)}
    (h : allow bucket limits estimatedTokens concurrencyTTL now redis = (result, redis')) :
    (∃ decision, result = .ok (decision, some ⟨.concurrent bucket, false⟩)
        ∧ redis.get now (.concurrent bucket) + 1 < 2 ^ 63
        ∧ redis' (.concurrent bucket) = if Time.seconds (ttlSeconds concurrencyTTL) ≤ 0 then none
            else some ⟨redis.get now (.concurrent bucket) + 1,
              some (now + Time.seconds (ttlSeconds concurrencyTTL))⟩)
      ∨ (∀ decision permit, result ≠ .ok (decision, some permit))
        ∧ redis' (.concurrent bucket) = redis (.concurrent bucket) := by
  unfold allow at h
  split at h
  · cases h
    exact Or.inr ⟨by simp, rfl⟩
  split at h
  · next hscript =>
      cases h
      rcases allowScript_concurrent Key.noConfusion Key.noConfusion hscript with
        ⟨hanswer, -⟩ | ⟨-, hsame⟩
      · cases hanswer
      · exact Or.inr ⟨by simp, hsame⟩
  · next allowed code _ hscript =>
      rcases allowScript_concurrent Key.noConfusion Key.noConfusion hscript with
        ⟨hanswer, hfits, hcounter⟩ | ⟨hanswer, hsame⟩
      · cases hanswer
        cases h
        exact Or.inl ⟨_, rfl, hfits, hcounter⟩
      · have hallowed : allowed ≠ 1 := by
          rintro rfl
          exact hanswer code rfl
        rw [if_neg hallowed] at h
        cases h
        exact Or.inr ⟨by simp, hsame⟩

/-- `Allow` grants no permit and changes nothing, which it does only for want of
    room or for invalid arguments, or it grants one as the script does. -/
theorem allow_cases (bucket : String) (estimatedTokens : Int) (hlimits : Exact limits)
    (httl : 0 < ttlSeconds concurrencyTTL)
    (hrequests : 0 ≤ redis.get now (.requests bucket (windowOf now))
      ∧ redis.get now (.requests bucket (windowOf now)) < 2 ^ 53)
    (htokens : 0 ≤ redis.get now (.tokens bucket (windowOf now))
      ∧ redis.get now (.tokens bucket (windowOf now)) < 2 ^ 53)
    (hconcurrent : 0 ≤ redis.get now (.concurrent bucket)
      ∧ redis.get now (.concurrent bucket) < 2 ^ 53) :
    (∃ result, allow bucket limits estimatedTokens concurrencyTTL now redis = (result, redis)
        ∧ (∀ decision permit, result ≠ .ok (decision, some permit))
        ∧ (Valid bucket limits estimatedTokens →
            ¬ Room bucket limits estimatedTokens now redis))
      ∨ ∃ redis', allow bucket limits estimatedTokens concurrencyTTL now redis
          = (.ok (⟨true, ""⟩, some ⟨.concurrent bucket, false⟩), redis')
        ∧ 0 ≤ estimatedTokens
        ∧ Admitted (.requests bucket (windowOf now)) (.tokens bucket (windowOf now))
            (.concurrent bucket) limits estimatedTokens (ttlSeconds concurrencyTTL) now redis
            redis' := by
  unfold allow
  split
  · next hinvalid =>
      refine Or.inl ⟨_, rfl, by simp, ?_⟩
      rintro ⟨hbucket, hr, ht, hc, he⟩
      rcases hinvalid with h | h | h | h | h
      · exact absurd h hbucket
      all_goals omega
  · next hvalid =>
      have hestimated : 0 ≤ estimatedTokens := by omega
      rcases allowScript_cases hlimits hestimated httl Key.noConfusion Key.noConfusion
        Key.noConfusion hrequests htokens hconcurrent with
        ⟨code, hscript, hover⟩ | ⟨redis', hscript, hadmitted⟩
      · rw [hscript]
        refine Or.inl ⟨_, rfl, by simp, ?_⟩
        rintro - ⟨hr, ht, hc⟩
        omega
      · rw [hscript]
        exact Or.inr ⟨redis', rfl, hestimated, hadmitted⟩

/-- A decision comes for valid arguments, and a permit with the ones that allow. -/
theorem allow_ok {decision : Decision} {permit : Option Permit}
    (h : allow bucket limits estimatedTokens concurrencyTTL now redis
      = (.ok (decision, permit), redis')) :
    Valid bucket limits estimatedTokens ∧ decision.allowed = permit.isSome := by
  unfold allow at h
  split at h
  · exact absurd (congrArg Prod.fst h) (by simp)
  next hvalid =>
  refine ⟨⟨by tauto, by omega, by omega, by omega, by omega⟩, ?_⟩
  split at h
  · exact absurd (congrArg Prod.fst h) (by simp)
  · split at h
    · cases h
      rfl
    · cases h
      rfl

end Allow

/-- Only the first `Release` of a permit runs the script, and none runs it
    again if that fails. -/
theorem Permit.release_of_held {permit : Permit} (h : permit.released = false) (now : Time)
    (redis : Redis) :
    (permit.release now redis).2
      = ({ permit with released := true }, (finishScript permit.key now redis).2) := by
  unfold Permit.release
  rw [if_neg (by simp [h])]
  split
  · next hscript => rw [hscript]
  · next hscript => rw [hscript]

end Aegis.RateLimit
