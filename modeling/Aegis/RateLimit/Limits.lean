/-
  Aegis.RateLimit.Limits

  One bucket, shared by any number of gateways: their scripts run one after the
  other, in any order, on one clock.

  The counters of a minute live for a minute after their last admission, hence
  to the end of the window.  The concurrency counter is refreshed by every
  admission and outlives every permit that is released in time.  Two roundings
  of the code limit this: `EXPIRE` takes whole seconds, and Lua compares
  doubles.
-/

import Aegis.Lib.Runs
import Aegis.Lib.Table
import Aegis.RateLimit.Limiter

namespace Aegis.RateLimit

open Aegis.Gateway (Decision Limits)
open Aegis.Lib (Keyspace sumOf)

/-- What the gateways agree on. -/
structure Terms where
  bucket : String
  limits : Limits
  concurrencyTTL : Int

/-- An admission. -/
structure Grant where
  admittedAt : Time
  tokens : Int
  permit : Permit
deriving DecidableEq, Repr

structure Bucket where
  redis : Redis
  /-- every admission so far -/
  grants : List Grant
  clock : Time

inductive Action where
  | allow (now : Time) (estimatedTokens : Int)
  | release (now : Time) (grant : Nat)

/-- When the script runs. -/
def Action.now : Action → Time
  | .allow now _ => now
  | .release now _ => now

namespace Bucket

/-- Before the first admission, at the Unix epoch. -/
def new : Bucket where
  redis := Keyspace.empty
  grants := []
  clock := 0

/-- One script.  The clock does not go back. -/
def step (terms : Terms) (x : Bucket) : Action → Bucket
  | .allow now estimatedTokens =>
      if now < x.clock then x
      else
        match RateLimit.allow terms.bucket terms.limits estimatedTokens terms.concurrencyTTL now
            x.redis with
        | (.ok (_, some permit), redis) =>
            { redis, clock := now, grants := x.grants ++ [⟨now, estimatedTokens, permit⟩] }
        | (_, redis) => { x with redis, clock := now }
  | .release now grant =>
      if now < x.clock then x
      else
        match x.grants[grant]? with
        | none => x
        | some g =>
            let (_, permit, redis) := g.permit.release now x.redis
            { redis, clock := now, grants := x.grants.set grant { g with permit } }

/-- Time and tokens of every admission. -/
def tally (x : Bucket) : List (Time × Int) := x.grants.map fun g => (g.admittedAt, g.tokens)

/-- The admissions of a minute. -/
def admissionsIn (x : Bucket) (window : Int) : Nat :=
  x.tally.countP fun entry => windowOf entry.1 == window

/-- The tokens estimated for them. -/
def tokensIn (x : Bucket) (window : Int) : Int :=
  sumOf Prod.snd (x.tally.filter fun entry => windowOf entry.1 == window)

/-- The permits that have not been released. -/
def held (x : Bucket) : Nat := x.grants.countP fun g => !g.permit.released

/-- At `now`, every permit not yet released is younger than `concurrencyTTL`. -/
def Young (terms : Terms) (x : Bucket) (now : Time) : Prop :=
  ∀ g ∈ x.grants, g.permit.released = false → now < g.admittedAt + terms.concurrencyTTL

instance (terms : Terms) (x : Bucket) (now : Time) : Decidable (Young terms x now) :=
  inferInstanceAs (Decidable (∀ g ∈ x.grants, _ → _))

end Bucket

/-! ## Minutes -/

/-- The end of a minute. -/
def windowEnd (window : Int) : Time := Time.seconds (60 * (window + 1))

/-- A minute is at least as long as the rest of its window. -/
theorem windowEnd_le {now : Time} (hnow : 0 ≤ now) :
    now < windowEnd (windowOf now) ∧ windowEnd (windowOf now) ≤ now + Time.seconds 60 := by
  have hseconds : 0 ≤ now / Time.seconds 1 := Int.ediv_nonneg hnow (by decide)
  have hwindow : windowOf now = now / 1000000 / 60 := Int.tdiv_eq_ediv_of_nonneg hseconds
  rw [hwindow]
  unfold windowEnd Time.seconds
  have h : ∀ n : Int, n < 60 * (n / 1000000 / 60 + 1) * 1000000
      ∧ 60 * (n / 1000000 / 60 + 1) * 1000000 ≤ n + 60 * 1000000 := by
    intro n
    omega
  exact h now

/-- The counter holds `value`, at least until `deadline`. -/
def Tracks (counter : Option Lib.Counter) (value : Int) (deadline : Time) : Prop :=
  (counter = none ∧ value = 0)
    ∨ ∃ expiresAt, counter = some ⟨value, some expiresAt⟩ ∧ deadline ≤ expiresAt

theorem Tracks.get {redis : Redis} {key : Key} {value : Int} {deadline now : Time}
    (h : Tracks (redis key) value deadline) (hnow : now < deadline) :
    redis.get now key = value := by
  rcases h with ⟨hnone, rfl⟩ | ⟨expiresAt, hsome, hdeadline⟩
  · exact Keyspace.get_of_none hnone
  · exact Keyspace.get_of_live hsome (Int.lt_of_lt_of_le hnow hdeadline)

/-- A counter of the current minute changes by the admission, another stays. -/
theorem Tracks.granted {counter counter' : Option Lib.Counter} {value added : Int} {now : Time}
    {w : Int} (h : Tracks counter value (windowEnd w)) (hnow : 0 ≤ now)
    (hown : windowOf now = w → counter' = some ⟨value + added, some (now + Time.seconds 60)⟩)
    (hother : windowOf now ≠ w → counter' = counter) :
    Tracks counter' (value + if windowOf now = w then added else 0) (windowEnd w) := by
  by_cases hw : windowOf now = w
  · rw [if_pos hw]
    refine Or.inr ⟨_, hown hw, ?_⟩
    rw [← hw]
    exact (windowEnd_le hnow).2
  · rw [if_neg hw, hother hw, Int.add_zero]
    exact h

/-! ## The bucket -/

namespace Bucket

/-- A list of admissions after another one. -/
theorem admissionsIn_append (x : Bucket) (redis : Redis) (clock : Time) (g : Grant) (w : Int) :
    (admissionsIn ⟨redis, x.grants ++ [g], clock⟩ w : Int)
      = x.admissionsIn w + if windowOf g.admittedAt = w then 1 else 0 := by
  simp only [admissionsIn, tally, List.map_append, List.map_cons, List.map_nil,
    List.countP_append, List.countP_singleton, beq_iff_eq]
  by_cases h : windowOf g.admittedAt = w
  · simp [h]
  · simp [h]

theorem tokensIn_append (x : Bucket) (redis : Redis) (clock : Time) (g : Grant) (w : Int) :
    tokensIn ⟨redis, x.grants ++ [g], clock⟩ w
      = x.tokensIn w + if windowOf g.admittedAt = w then g.tokens else 0 := by
  simp only [tokensIn, tally, List.map_append, List.map_cons, List.map_nil, List.filter_append,
    Lib.sumOf_append]
  by_cases h : windowOf g.admittedAt = w
  · simp [h]
  · simp [h]

/-- Releasing a permit changes neither the times nor the tokens. -/
theorem tally_release (x : Bucket) (redis : Redis) (clock : Time) {i : Nat} {g : Grant}
    (hg : x.grants[i]? = some g) (permit : Permit) :
    tally ⟨redis, x.grants.set i { g with permit }, clock⟩ = x.tally := by
  have hmap : (x.grants.map fun g => (g.admittedAt, g.tokens))[i]?
      = some (g.admittedAt, g.tokens) := by
    rw [List.getElem?_map, hg]
    rfl
  obtain ⟨hlt, hget⟩ := List.getElem?_eq_some_iff.mp hmap
  simp only [tally, List.map_set]
  rw [← hget, List.set_getElem_self]

/-- The redis counters say what was granted. -/
structure Kept (terms : Terms) (x : Bucket) : Prop where
  clock_nonneg : 0 ≤ x.clock
  past : ∀ g ∈ x.grants, g.admittedAt ≤ x.clock ∧ g.permit.key = .concurrent terms.bucket
  requests : ∀ w, Tracks (x.redis (.requests terms.bucket w)) (x.admissionsIn w) (windowEnd w)
  tokens : ∀ w, Tracks (x.redis (.tokens terms.bucket w)) (x.tokensIn w) (windowEnd w)
  slots : (x.redis (.concurrent terms.bucket) = none ∧ x.held = 0)
    ∨ ∃ expiresAt, x.redis (.concurrent terms.bucket) = some ⟨x.held, some expiresAt⟩
        ∧ 0 < x.held
        ∧ ∀ g ∈ x.grants, g.permit.released = false →
            g.admittedAt + terms.concurrencyTTL ≤ expiresAt
  requests_le : ∀ w, (x.admissionsIn w : Int) ≤ terms.limits.requestsPerMinute
  tokens_le : ∀ w, 0 ≤ x.tokensIn w ∧ x.tokensIn w ≤ terms.limits.tokensPerMinute
  held_le : (x.held : Int) ≤ terms.limits.maxConcurrent

theorem kept_new {terms : Terms} (hexact : Exact terms.limits) : Kept terms new where
  clock_nonneg := Int.le_refl _
  past := fun _ h => absurd h List.not_mem_nil
  requests := fun _ => Or.inl ⟨rfl, rfl⟩
  tokens := fun _ => Or.inl ⟨rfl, rfl⟩
  slots := Or.inl ⟨rfl, rfl⟩
  requests_le := fun _ => hexact.requests_nonneg
  tokens_le := fun _ => ⟨Int.le_refl _, hexact.tokens_nonneg⟩
  held_le := hexact.concurrent_nonneg

/-- A permit that is held keeps the concurrency counter alive. -/
theorem Kept.live {terms : Terms} {x : Bucket} (h : Kept terms x) {now : Time}
    (hyoung : Young terms x now) (hheld : 0 < x.held) :
    ∃ expiresAt, x.redis (.concurrent terms.bucket) = some ⟨x.held, some expiresAt⟩
      ∧ now < expiresAt
      ∧ ∀ g ∈ x.grants, g.permit.released = false →
          g.admittedAt + terms.concurrencyTTL ≤ expiresAt := by
  rcases h.slots with ⟨-, hnone⟩ | ⟨expiresAt, hsome, -, hlater⟩
  · omega
  · obtain ⟨g, hg, hreleased⟩ := List.countP_pos_iff.mp hheld
    have hunreleased : g.permit.released = false := by simpa using hreleased
    exact ⟨expiresAt, hsome,
      Int.lt_of_lt_of_le (hyoung g hg hunreleased) (hlater g hg hunreleased), hlater⟩

/-- The concurrency counter reads as the number of permits held. -/
theorem Kept.get_concurrent {terms : Terms} {x : Bucket} (h : Kept terms x) {now : Time}
    (hyoung : Young terms x now) : x.redis.get now (.concurrent terms.bucket) = x.held := by
  by_cases hheld : 0 < x.held
  · obtain ⟨expiresAt, hsome, hlive, -⟩ := h.live hyoung hheld
    exact Keyspace.get_of_live hsome hlive
  · rcases h.slots with ⟨hnone, hzero⟩ | ⟨_, -, hpos, -⟩
    · rw [Keyspace.get_of_none hnone, hzero]
      rfl
    · exact absurd hpos hheld

/-- Time passes. -/
theorem Kept.wait {terms : Terms} {x : Bucket} (h : Kept terms x) {now : Time}
    (hnow : x.clock ≤ now) : Kept terms { x with clock := now } :=
  ⟨Int.le_trans h.clock_nonneg hnow,
    fun g hg => ⟨Int.le_trans (h.past g hg).1 hnow, (h.past g hg).2⟩,
    h.requests, h.tokens, h.slots, h.requests_le, h.tokens_le, h.held_le⟩

section Steps

variable {terms : Terms} {x : Bucket}

/-- An admission. -/
theorem Kept.granted (h : Kept terms x) {now : Time} (hclock : x.clock ≤ now)
    (hyoung : Young terms x now)
    (httl : Time.seconds (ttlSeconds terms.concurrencyTTL) = terms.concurrencyTTL)
    {estimatedTokens : Int} (hestimated : 0 ≤ estimatedTokens) {redis' : Redis}
    (hadmitted : Admitted (.requests terms.bucket (windowOf now))
      (.tokens terms.bucket (windowOf now)) (.concurrent terms.bucket) terms.limits
      estimatedTokens (ttlSeconds terms.concurrencyTTL) now x.redis redis') :
    Kept terms ⟨redis', x.grants ++ [⟨now, estimatedTokens, ⟨.concurrent terms.bucket, false⟩⟩],
      now⟩ := by
  have hnow : 0 ≤ now := Int.le_trans h.clock_nonneg hclock
  have hend := (windowEnd_le hnow).1
  have hrequests := (h.requests (windowOf now)).get hend
  have htokens := (h.tokens (windowOf now)).get hend
  have hconcurrent := h.get_concurrent hyoung
  have hheld : held ⟨redis', x.grants
      ++ [⟨now, estimatedTokens, ⟨.concurrent terms.bucket, false⟩⟩], now⟩ = x.held + 1 := by
    simp [held]
  refine ⟨hnow, ?_, ?_, ?_, Or.inr ⟨now + terms.concurrencyTTL, ?_, ?_, ?_⟩, ?_, ?_, ?_⟩
  · intro g hg
    rcases List.mem_append.mp hg with hg | hg
    · exact ⟨Int.le_trans (h.past g hg).1 hclock, (h.past g hg).2⟩
    · rw [List.mem_singleton.mp hg]
      exact ⟨Int.le_refl _, rfl⟩
  · intro w
    rw [admissionsIn_append]
    refine (h.requests w).granted hnow ?_ ?_
    · rintro rfl
      rw [← hrequests]
      exact hadmitted.requests
    · intro hw
      exact hadmitted.others _ (fun he => hw (Key.requests.inj he).2.symm) Key.noConfusion
        Key.noConfusion
  · intro w
    rw [tokensIn_append]
    refine (h.tokens w).granted hnow ?_ ?_
    · rintro rfl
      rw [← htokens]
      exact hadmitted.tokens
    · intro hw
      exact hadmitted.others _ Key.noConfusion (fun he => hw (Key.tokens.inj he).2.symm)
        Key.noConfusion
  · rw [hheld]
    dsimp only
    rw [hadmitted.concurrent, hconcurrent, httl]
    rfl
  · rw [hheld]
    omega
  · intro g hg _
    rcases List.mem_append.mp hg with hg | hg
    · exact Int.add_le_add_right (Int.le_trans (h.past g hg).1 hclock) _
    · rw [List.mem_singleton.mp hg]
  · intro w
    rw [admissionsIn_append]
    have hle := h.requests_le w
    have hsum := hadmitted.requests_le
    rw [hrequests] at hsum
    by_cases hw : windowOf now = w
    · rw [if_pos hw, ← hw]
      exact hsum
    · rw [if_neg hw]
      exact hle
  · intro w
    rw [tokensIn_append]
    have hle := h.tokens_le w
    have hsum := hadmitted.tokens_le
    rw [htokens] at hsum
    by_cases hw : windowOf now = w
    · rw [if_pos hw, ← hw]
      have hle' := h.tokens_le (windowOf now)
      exact ⟨Int.add_nonneg hle'.1 hestimated, hsum⟩
    · rw [if_neg hw, Int.add_zero]
      exact hle
  · have hsum := hadmitted.concurrent_le
    rw [hconcurrent] at hsum
    rw [hheld]
    exact hsum

theorem Kept.allow (h : Kept terms x) (hexact : Exact terms.limits) {n : Int} (hn : 0 < n)
    (hwhole : terms.concurrencyTTL = Time.seconds n) {now : Time} {estimatedTokens : Int}
    (hyoung : Young terms x now) : Kept terms (x.step terms (.allow now estimatedTokens)) := by
  simp only [step]
  split
  · exact h
  next hlate =>
  have hclock : x.clock ≤ now := Int.not_lt.mp hlate
  have hnow : 0 ≤ now := Int.le_trans h.clock_nonneg hclock
  have hend := (windowEnd_le hnow).1
  have hseconds : ttlSeconds terms.concurrencyTTL = n := by
    rw [ttlSeconds, hwhole]
    exact Int.mul_tdiv_cancel n (by decide)
  -- what the script reads
  have hrequests := (h.requests (windowOf now)).get hend
  have htokens := (h.tokens (windowOf now)).get hend
  have hconcurrent := h.get_concurrent hyoung
  have hrequests_le := h.requests_le (windowOf now)
  have htokens_le := h.tokens_le (windowOf now)
  have hheld_le := h.held_le
  have hbounds := And.intro hexact.requests_lt
    (And.intro hexact.tokens_lt hexact.concurrent_lt)
  rcases allow_cases terms.bucket estimatedTokens hexact
    (by rw [hseconds]; exact hn) (by rw [hrequests]; omega) (by rw [htokens]; omega)
    (by rw [hconcurrent]; omega) with
    ⟨result, hallow, hnone, -⟩ | ⟨redis', hallow, hestimated, hadmitted⟩
  · rw [hallow]
    cases result with
    | error err => exact h.wait hclock
    | ok answer =>
        obtain ⟨decision, permit⟩ := answer
        cases permit with
        | none => exact h.wait hclock
        | some permit => exact absurd rfl (hnone decision permit)
  · rw [hallow]
    exact h.granted hclock hyoung (by rw [hseconds, hwhole]) hestimated hadmitted

/-- One permit fewer is held. -/
theorem held_release (x : Bucket) (redis : Redis) (clock : Time) {i : Nat} {g : Grant}
    (hg : x.grants[i]? = some g) (hheld : g.permit.released = false) (key : Key) :
    held ⟨redis, x.grants.set i { g with permit := ⟨key, true⟩ }, clock⟩ + 1 = x.held := by
  have hset := Lib.countP_set_add hg (fun g => !g.permit.released)
    { g with permit := ⟨key, true⟩ }
  rw [hheld] at hset
  exact hset

/-- The first release of a permit. -/
theorem Kept.finish (h : Kept terms x) (hexact : Exact terms.limits) {now : Time}
    (hclock : x.clock ≤ now) (hyoung : Young terms x now) {i : Nat} {g : Grant}
    (hg : x.grants[i]? = some g) (hheld : g.permit.released = false) :
    Kept terms ⟨(finishScript g.permit.key now x.redis).2,
      x.grants.set i { g with permit := ⟨g.permit.key, true⟩ }, now⟩ := by
  have hmem : g ∈ x.grants := List.mem_of_getElem? hg
  have hkey := (h.past g hmem).2
  have hpos : 0 < x.held := List.countP_pos_iff.mpr ⟨g, hmem, by simp [hheld]⟩
  have hheld_le := h.held_le
  have hconcurrent := hexact.concurrent_lt
  obtain ⟨expiresAt, hsome, hlive, hlater⟩ := h.live hyoung hpos
  rw [hkey, finishScript_cases hsome hlive (by omega) (by omega)]
  generalize hredis : Keyspace.put x.redis (.concurrent terms.bucket) _ = redis'
  have hothers : ∀ key, key ≠ .concurrent terms.bucket → redis' key = x.redis key := by
    intro key hne
    rw [← hredis]
    exact Keyspace.put_of_ne hne _
  have hless := held_release x redis' now hg hheld (.concurrent terms.bucket)
  have htally := tally_release x redis' now hg ⟨.concurrent terms.bucket, true⟩
  -- whoever still holds a permit held it before
  have hrest : ∀ g' ∈ x.grants.set i { g with permit := ⟨.concurrent terms.bucket, true⟩ },
      g'.permit.released = false → g' ∈ x.grants := by
    intro g' hg' hunreleased
    rcases List.mem_or_eq_of_mem_set hg' with hold | rfl
    · exact hold
    · exact absurd hunreleased (by simp)
  refine ⟨Int.le_trans h.clock_nonneg hclock, ?_, ?_, ?_, ?_, ?_, ?_, ?_⟩
  · intro g' hg'
    rcases List.mem_or_eq_of_mem_set hg' with hold | rfl
    · exact ⟨Int.le_trans (h.past g' hold).1 hclock, (h.past g' hold).2⟩
    · exact ⟨Int.le_trans (h.past g hmem).1 hclock, rfl⟩
  · intro w
    simp only [admissionsIn, htally]
    rw [hothers _ Key.noConfusion]
    exact h.requests w
  · intro w
    simp only [tokensIn, htally]
    rw [hothers _ Key.noConfusion]
    exact h.tokens w
  · have hown : redis' (.concurrent terms.bucket)
        = if (x.held : Int) = 1 then none else some ⟨x.held - 1, some expiresAt⟩ := by
      rw [← hredis]
      exact Keyspace.put_self ..
    by_cases hlast : x.held = 1
    · rw [if_pos (by omega)] at hown
      exact Or.inl ⟨hown, by omega⟩
    · rw [if_neg (by omega)] at hown
      refine Or.inr ⟨expiresAt, ?_, by omega, fun g' hg' hunreleased =>
        hlater g' (hrest g' hg' hunreleased) hunreleased⟩
      refine hown.trans ?_
      rw [← hless]
      simp
  · intro w
    simp only [admissionsIn, htally]
    exact h.requests_le w
  · intro w
    simp only [tokensIn, htally]
    exact h.tokens_le w
  · omega

theorem Kept.release (h : Kept terms x) (hexact : Exact terms.limits) {now : Time} {i : Nat}
    (hyoung : Young terms x now) : Kept terms (x.step terms (.release now i)) := by
  simp only [step]
  split
  · exact h
  next hlate =>
  have hclock : x.clock ≤ now := Int.not_lt.mp hlate
  split
  · exact h
  next g hg =>
  by_cases hreleased : g.permit.released = true
  · -- a second release
    obtain ⟨hlt, rfl⟩ := List.getElem?_eq_some_iff.mp hg
    have hsame : x.grants.set i x.grants[i] = x.grants := List.set_getElem_self hlt
    simp only [Permit.release, hreleased, if_true]
    rw [hsame]
    exact h.wait hclock
  · have hheld : g.permit.released = false := by simpa using hreleased
    have hrelease := Permit.release_of_held hheld now x.redis
    generalize g.permit.release now x.redis = result at hrelease ⊢
    obtain ⟨err, rest⟩ := result
    cases hrelease
    exact h.finish hexact hclock hyoung hg hheld

end Steps

/-! ## Runs -/

/-- **The limits hold across gateways.**  When `concurrencyTTL` is a whole
    number of seconds and every permit is released before it has passed, no
    minute is granted more requests or tokens than its limits, the concurrency
    counter counts the permits held, and a rejection changes nothing. -/
theorem limits_hold (terms : Terms) (hexact : Exact terms.limits) {n : Int} (hn : 0 < n)
    (hwhole : terms.concurrencyTTL = Time.seconds n) (actions : List Action)
    (htimely : ∀ t ∈ Lib.trace (step terms) new actions, Young terms t.1 t.2.1.now) :
    let x := Lib.run (step terms) new actions
    (∀ window, (x.admissionsIn window : Int) ≤ terms.limits.requestsPerMinute
        ∧ x.tokensIn window ≤ terms.limits.tokensPerMinute)
      ∧ (∀ now, Young terms x now → x.redis.get now (.concurrent terms.bucket) = x.held)
      ∧ (x.held : Int) ≤ terms.limits.maxConcurrent
      ∧ ∀ now estimatedTokens decision redis',
          RateLimit.allow terms.bucket terms.limits estimatedTokens terms.concurrencyTTL now
              x.redis = (.ok (decision, none), redis') →
            redis' = x.redis := by
  have hkept : Kept terms (Lib.run (step terms) new actions) := by
    refine Lib.run_invariant (C := fun x action => Young terms x action.now) ?_ actions
      (kept_new hexact) htimely
    intro x action hx hyoung
    cases action with
    | allow now estimatedTokens => exact hx.allow hexact hn hwhole hyoung
    | release now grant => exact hx.release hexact hyoung
  intro x
  refine ⟨fun window => ⟨hkept.requests_le window, (hkept.tokens_le window).2⟩,
    fun now hyoung => hkept.get_concurrent hyoung, hkept.held_le, ?_⟩
  intro now estimatedTokens decision redis' hrejected
  exact allow_rejected hrejected

/-- One slot, taken again after its release and refused in between. -/
def oneSlot : Terms where
  bucket := "t"
  limits := { requestsPerMinute := 5, tokensPerMinute := 100, maxConcurrent := 1 }
  concurrencyTTL := Time.seconds 120

def slotReused : List Action :=
  [.allow 0 10, .allow (Time.seconds 1) 10, .release (Time.seconds 2) 0,
    .allow (Time.seconds 3) 10]

theorem limits_hold_slotReused :
    (Lib.run (step oneSlot) new slotReused).admissionsIn 0 = 2
      ∧ ((Lib.run (step oneSlot) new slotReused).held : Int) ≤ 1 :=
  ⟨by decide +kernel,
    (limits_hold oneSlot ⟨by decide, by decide, by decide, by decide, by decide, by decide⟩
      (n := 120) (by decide) rfl slotReused (by decide +kernel)).2.2.1⟩

/-- `EXPIRE` gets 1 second for a `concurrencyTTL` of 1.5 seconds.  A permit
    still held after 1.2 seconds is no longer counted, and the only slot is
    granted a second time. -/
theorem fraction_of_ttl_lost :
    let terms := { oneSlot with concurrencyTTL := 1500000 }
    let actions := [.allow 0 10, .allow 1200000 10]
    let x := Lib.run (step terms) new actions
    (∀ t ∈ Lib.trace (step terms) new actions, Young terms t.1 t.2.1.now)
      ∧ Young terms x x.clock
      ∧ x.held = 2 ∧ terms.limits.maxConcurrent = 1
      ∧ x.redis.get x.clock (.concurrent terms.bucket) = 1 := by
  decide +kernel

end Bucket

end Aegis.RateLimit
