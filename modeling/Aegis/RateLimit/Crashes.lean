/-
  Aegis.RateLimit.Crashes

  Permits that are never released, because the gateway that holds them died.

  All permits of a bucket share one counter with one expiry, and every
  admission renews it.  A lost slot is therefore forgotten when the whole
  counter expires, `concurrencyTTL` after the last admission, not after its
  own.  It goes in time when no permit is admitted while it is still young
  (`Spared`); any later admission within that time keeps it alive.
-/

import Aegis.RateLimit.Limits

namespace Aegis.RateLimit

open Aegis.Lib (Keyspace)

namespace Bucket

/-- The permits admitted at or after `now - concurrencyTTL` and not released. -/
def young (terms : Terms) (x : Bucket) (now : Time) : Nat :=
  x.grants.countP fun g =>
    !g.permit.released && decide (now - terms.concurrencyTTL ≤ g.admittedAt)

/-- At `now`, every permit not yet released is of a holder that crashed or is
    not older than `concurrencyTTL`.  Permits are numbered by their admission. -/
def Timely (terms : Terms) (crashed : Nat → Bool) (x : Bucket) (now : Time) : Prop :=
  ∀ p ∈ x.grants.zipIdx, p.1.permit.released = false → crashed p.2 = false →
    now ≤ p.1.admittedAt + terms.concurrencyTTL

/-- `Allow` finds room for the permit. -/
def admits (terms : Terms) (x : Bucket) : Action → Bool
  | .allow now estimatedTokens => decide (x.clock ≤ now) &&
      match (RateLimit.allow terms.bucket terms.limits estimatedTokens terms.concurrencyTTL now
        x.redis).1 with
      | .ok (_, some _) => true
      | _ => false
  | .release _ _ => false

/-- A permit is admitted only when `concurrencyTTL` has passed since the
    admission of every permit whose holder crashed. -/
def Spared (terms : Terms) (crashed : Nat → Bool) (x : Bucket) (action : Action) : Prop :=
  x.admits terms action = true →
    ∀ p ∈ x.grants.zipIdx, crashed p.2 = true →
      p.1.admittedAt + terms.concurrencyTTL ≤ action.now

instance (terms : Terms) (crashed : Nat → Bool) (x : Bucket) (now : Time) :
    Decidable (Timely terms crashed x now) :=
  inferInstanceAs (Decidable (∀ p ∈ x.grants.zipIdx, _ → _ → _))

instance (terms : Terms) (crashed : Nat → Bool) (x : Bucket) (action : Action) :
    Decidable (Spared terms crashed x action) :=
  inferInstanceAs (Decidable (_ → ∀ p ∈ x.grants.zipIdx, _ → _))

/-! ## Steps -/

/-- What `EXPIRE` is given for the concurrency counter. -/
def ttl (terms : Terms) : Int := Time.seconds (ttlSeconds terms.concurrencyTTL)

/-- Dropping the fraction of a second does not lengthen the expiry. -/
theorem ttl_le {terms : Terms} (h : 0 < ttl terms) : ttl terms ≤ terms.concurrencyTTL := by
  have hself : ttl terms = terms.concurrencyTTL - terms.concurrencyTTL.tmod 1000000 :=
    Int.tdiv_mul_self ..
  -- truncation is toward zero, so the duration has the sign of its seconds
  have hnonneg : 0 ≤ terms.concurrencyTTL := by
    apply Int.not_lt.mp
    intro hneg
    have hneg_div : 0 ≤ (-terms.concurrencyTTL).tdiv 1000000 :=
      Int.tdiv_nonneg (by omega) (by decide)
    rw [Int.neg_tdiv] at hneg_div
    have hpos : 0 < terms.concurrencyTTL.tdiv 1000000 * 1000000 := h
    omega
  have hmod := Int.tmod_nonneg 1000000 hnonneg
  omega

/-- What one script can do to the concurrency counter and the permits. -/
inductive Stepped (terms : Terms) (x : Bucket) (now : Time) : Bucket → Prop
  | idle {x' : Bucket} (hgrants : x'.grants = x.grants)
      (hcounter : x'.redis (.concurrent terms.bucket) = x.redis (.concurrent terms.bucket)) :
      Stepped terms x now x'
  | granted {x' : Bucket} (tokens : Int)
      (hgrants : x'.grants = x.grants ++ [⟨now, tokens, ⟨.concurrent terms.bucket, false⟩⟩])
      (hfits : x.redis.get now (.concurrent terms.bucket) + 1 < 2 ^ 63)
      (hcounter : x'.redis (.concurrent terms.bucket)
        = if ttl terms ≤ 0 then none
          else some ⟨x.redis.get now (.concurrent terms.bucket) + 1, some (now + ttl terms)⟩) :
      Stepped terms x now x'
  | released {x' : Bucket} {i : Nat} {g : Grant} (hg : x.grants[i]? = some g)
      (hheld : g.permit.released = false)
      (hgrants : x'.grants = x.grants.set i { g with permit := ⟨g.permit.key, true⟩ })
      (hredis : x'.redis = (finishScript g.permit.key now x.redis).2) : Stepped terms x now x'

theorem step_cases (terms : Terms) (x : Bucket) (action : Action) :
    Stepped terms x action.now (x.step terms action) := by
  cases action with
  | allow now tokens =>
      simp only [step, Action.now]
      split
      · exact .idle rfl rfl
      generalize hallow : RateLimit.allow terms.bucket terms.limits tokens terms.concurrencyTTL now
        x.redis = answer
      obtain ⟨result, redis'⟩ := answer
      rcases allow_concurrent hallow with ⟨decision, rfl, hfits, hcounter⟩ | ⟨hnone, hsame⟩
      · exact .granted tokens rfl hfits hcounter
      · cases result with
        | error err => exact .idle rfl hsame
        | ok answer =>
            obtain ⟨decision, permit⟩ := answer
            cases permit with
            | none => exact .idle rfl hsame
            | some permit => exact absurd rfl (hnone decision permit)
  | release now i =>
      simp only [step, Action.now]
      split
      · exact .idle rfl rfl
      split
      · exact .idle rfl rfl
      next g hg =>
      by_cases hreleased : g.permit.released = true
      · -- a second release
        obtain ⟨hlt, rfl⟩ := List.getElem?_eq_some_iff.mp hg
        have hsame : x.grants.set i x.grants[i] = x.grants := List.set_getElem_self hlt
        simp only [Permit.release, hreleased, if_true]
        exact .idle hsame rfl
      · have hheld : g.permit.released = false := by simpa using hreleased
        have hrelease := Permit.release_of_held hheld now x.redis
        generalize g.permit.release now x.redis = result at hrelease ⊢
        obtain ⟨err, rest⟩ := result
        cases hrelease
        exact .released hg hheld rfl rfl

/-! ## What the counter counts -/

/-- The counter was created by the admission number `first` and each later one
    came before the expiry that the admission before it had set.  It counts no
    permit from before. -/
structure Epoch (terms : Terms) (x : Bucket) (counter : Lib.Counter) (first : Nat) : Prop where
  range : 0 < counter.value ∧ counter.value < 2 ^ 63
  expires : ∃ last, x.tally.getLast? = some last
    ∧ counter.expiresAt = some (last.1 + ttl terms)
  renewed : ∀ i a b, first ≤ i → x.tally[i]? = some a → x.tally[i + 1]? = some b →
    b.1 < a.1 + ttl terms
  counted : counter.value ≤ ((x.grants.drop first).countP fun g => !g.permit.released : Nat)

structure Counted (terms : Terms) (x : Bucket) : Prop where
  keys : ∀ g ∈ x.grants, g.permit.key = .concurrent terms.bucket
  epoch : ∀ counter, x.redis (.concurrent terms.bucket) = some counter →
    0 < ttl terms ∧ ∃ first, Epoch terms x counter first

theorem counted_new (terms : Terms) : Counted terms new :=
  ⟨fun _ h => absurd h List.not_mem_nil, fun _ h => absurd h (by simp [new, Keyspace.empty])⟩

section Steps

variable {terms : Terms} {x x' : Bucket} {now : Time}

/-- Admitted while the counter is there. -/
theorem Epoch.granted {counter : Lib.Counter} {first : Nat} (h : Epoch terms x counter first)
    (hlive : counter.live now = true) (hfits : counter.value + 1 < 2 ^ 63) {tokens : Int}
    (hgrants : x'.grants = x.grants ++ [⟨now, tokens, ⟨.concurrent terms.bucket, false⟩⟩]) :
    Epoch terms x' ⟨counter.value + 1, some (now + ttl terms)⟩ first := by
  obtain ⟨last, hlast, hexpires⟩ := h.expires
  have htally : x'.tally = x.tally ++ [(now, tokens)] := by simp [tally, hgrants]
  have hbefore : now < last.1 + ttl terms := by
    rw [Lib.Counter.live, hexpires] at hlive
    exact of_decide_eq_true hlive
  have hcounted := h.counted
  have hrange := h.range
  have hfirst : first ≤ x.grants.length := by
    apply Nat.le_of_not_lt
    intro hlt
    rw [List.drop_eq_nil_of_le (Nat.le_of_lt hlt), List.countP_nil] at hcounted
    omega
  have hpos : 0 < counter.value + 1 := by omega
  refine ⟨⟨hpos, hfits⟩, ⟨(now, tokens), by rw [htally, List.getLast?_concat], rfl⟩, ?_, ?_⟩
  · intro i a b hi ha hb
    rw [htally] at ha hb
    rcases Nat.lt_trichotomy (i + 1) x.tally.length with hlt | heq | hgt
    · rw [List.getElem?_append_left (by omega)] at ha hb
      exact h.renewed i a b hi ha hb
    · -- the admission before is the last one, and its expiry has not passed
      rw [List.getElem?_append_left (by omega)] at ha
      rw [List.getElem?_append_right (by omega), heq, Nat.sub_self] at hb
      have hi' : i = x.tally.length - 1 := by omega
      rw [List.getLast?_eq_getElem?, ← hi', ha] at hlast
      cases hlast
      cases hb
      exact hbefore
    · rw [List.getElem?_eq_none (by simp; omega)] at hb
      cases hb
  · rw [hgrants, List.drop_append_of_le_length hfirst, List.countP_append]
    simp only [List.countP_singleton, Bool.not_false, if_true]
    omega

/-- Admitted when the counter is absent or has expired. -/
theorem epoch_first {tokens : Int}
    (hgrants : x'.grants = x.grants ++ [⟨now, tokens, ⟨.concurrent terms.bucket, false⟩⟩]) :
    Epoch terms x' ⟨1, some (now + ttl terms)⟩ x.grants.length := by
  have htally : x'.tally = x.tally ++ [(now, tokens)] := by simp [tally, hgrants]
  have hone : (0 : Int) < 1 ∧ (1 : Int) < 2 ^ 63 := by decide
  refine ⟨hone, ⟨(now, tokens), by rw [htally, List.getLast?_concat], rfl⟩, ?_, ?_⟩
  · intro i a b hi ha hb
    rw [List.getElem?_eq_none (by simp [tally, hgrants]; omega)] at hb
    cases hb
  · rw [hgrants, List.drop_left]
    exact Int.le_refl 1

/-- A release takes its permit out of the count, or was no longer in it. -/
theorem Epoch.released {counter : Lib.Counter} {first : Nat} (h : Epoch terms x counter first)
    (hmore : 1 < counter.value) {i : Nat} {g : Grant} (hg : x.grants[i]? = some g)
    (hheld : g.permit.released = false)
    (hgrants : x'.grants = x.grants.set i { g with permit := ⟨g.permit.key, true⟩ }) :
    Epoch terms x' { counter with value := counter.value - 1 } first := by
  have htally : x'.tally = x.tally := by
    have hrelease := tally_release x x'.redis x'.clock hg ⟨g.permit.key, true⟩
    rw [← hgrants] at hrelease
    exact hrelease
  have hcounted := h.counted
  have hrange : 0 < counter.value - 1 ∧ counter.value - 1 < 2 ^ 63 := by
    have hlt := h.range.2
    omega
  refine ⟨hrange, ?_, ?_, ?_⟩
  · rw [htally]
    exact h.expires
  · rw [htally]
    exact h.renewed
  · rw [hgrants, List.drop_set]
    dsimp only
    split
    · omega
    · next hi =>
        have hdrop : (x.grants.drop first)[i - first]? = some g := by
          rw [List.getElem?_drop, Nat.add_sub_of_le (Nat.le_of_not_lt hi)]
          exact hg
        have hset := Lib.countP_set_add hdrop (fun g => !g.permit.released)
          { g with permit := ⟨g.permit.key, true⟩ }
        simp only [hheld, Bool.not_false, Bool.not_true, Bool.toNat_true, Bool.toNat_false] at hset
        omega

theorem Counted.step (h : Counted terms x) (hstep : Stepped terms x now x') :
    Counted terms x' := by
  cases hstep with
  | idle hgrants hcounter =>
      refine ⟨by rw [hgrants]; exact h.keys, ?_⟩
      rw [hcounter]
      intro counter hsome
      obtain ⟨hpos, first, hrange, hexpires, hrenewed, hcounted⟩ := h.epoch counter hsome
      have htally : x'.tally = x.tally := by rw [tally, hgrants]; rfl
      refine ⟨hpos, first, hrange, ?_, ?_, ?_⟩
      · rw [htally]
        exact hexpires
      · rw [htally]
        exact hrenewed
      · rw [hgrants]
        exact hcounted
  | granted tokens hgrants hfits hcounter =>
      refine ⟨?_, ?_⟩
      · rw [hgrants]
        intro g hg
        rcases List.mem_append.mp hg with hg | hg
        · exact h.keys g hg
        · rw [List.mem_singleton.mp hg]
      · rw [hcounter]
        intro counter hsome
        split at hsome
        · cases hsome
        next hpos =>
        cases hsome
        refine ⟨Int.not_le.mp hpos, ?_⟩
        cases hfind : x.redis.find now (.concurrent terms.bucket) with
        | none =>
            rw [Keyspace.get_of_absent hfind]
            exact ⟨_, epoch_first hgrants⟩
        | some old =>
            rw [Keyspace.get_of_find hfind] at hfits ⊢
            obtain ⟨hkey, hlive⟩ := Option.filter_eq_some_iff.mp hfind
            obtain ⟨-, first, hepoch⟩ := h.epoch old hkey
            exact ⟨first, hepoch.granted hlive hfits hgrants⟩
  | @released _ g hg hheld hgrants hredis =>
      have hkey := h.keys g (List.mem_of_getElem? hg)
      refine ⟨?_, ?_⟩
      · rw [hgrants]
        intro g' hg'
        rcases List.mem_or_eq_of_mem_set hg' with hold | rfl
        · exact h.keys g' hold
        · exact hkey
      · intro counter hsome
        rw [hredis, hkey] at hsome
        have hrange : ∀ counter, x.redis (.concurrent terms.bucket) = some counter →
            0 ≤ counter.value ∧ counter.value < 2 ^ 63 := by
          intro counter hcounter
          obtain ⟨-, first, hepoch⟩ := h.epoch counter hcounter
          exact ⟨Int.le_of_lt hepoch.range.1, hepoch.range.2⟩
        rcases finishScript_own now hrange with hnone | ⟨old, hold, hmore, hless⟩
        · rw [hnone] at hsome
          cases hsome
        · rw [hless] at hsome
          cases hsome
          obtain ⟨hpos, first, hepoch⟩ := h.epoch old hold
          exact ⟨hpos, first, hepoch.released hmore hg hheld hgrants⟩

end Steps

/-! ## Runs -/

/-- `concurrencyTTL` lies between the admission of a permit whose holder
    crashed and the next one. -/
def Alone (terms : Terms) (crashed : Nat → Bool) (x : Bucket) : Prop :=
  ∀ i a b, crashed i = true → x.tally[i]? = some a → x.tally[i + 1]? = some b →
    a.1 + terms.concurrencyTTL ≤ b.1

/-- Whoever is not admitted gets no permit. -/
theorem admits_of_grants {terms : Terms} {x : Bucket} {action : Action}
    (h : x.grants.length < (x.step terms action).grants.length) :
    x.admits terms action = true := by
  cases action with
  | allow now estimatedTokens =>
      simp only [step] at h
      split at h
      · exact absurd h (Nat.lt_irrefl _)
      next hclock =>
        rw [admits, decide_eq_true (Int.not_lt.mp hclock), Bool.true_and]
        split at h
        · next hallow => rw [hallow]
        · exact absurd h (Nat.lt_irrefl _)
  | release now grant =>
      simp only [step] at h
      split at h
      · exact absurd h (Nat.lt_irrefl _)
      split at h
      · exact absurd h (Nat.lt_irrefl _)
      · rw [List.length_set] at h
        exact absurd h (Nat.lt_irrefl _)

theorem Alone.step {terms : Terms} {crashed : Nat → Bool} {x : Bucket} {action : Action}
    (h : Alone terms crashed x) (hspared : Spared terms crashed x action) :
    Alone terms crashed (x.step terms action) := by
  have hstep := step_cases terms x action
  have hadmits : x.grants.length < (x.step terms action).grants.length →
      x.admits terms action = true := admits_of_grants
  generalize x.step terms action = x' at hstep hadmits ⊢
  cases hstep with
  | idle hgrants =>
      have htally : x'.tally = x.tally := by rw [tally, hgrants]; rfl
      intro i a b
      rw [htally]
      exact h i a b
  | granted tokens hgrants =>
      have htally : x'.tally = x.tally ++ [(action.now, tokens)] := by simp [tally, hgrants]
      intro i a b hcrashed ha hb
      rw [htally] at ha hb
      rcases Nat.lt_trichotomy (i + 1) x.tally.length with hlt | heq | hgt
      · rw [List.getElem?_append_left (by omega)] at ha hb
        exact h i a b hcrashed ha hb
      · rw [List.getElem?_append_left (by omega), tally, List.getElem?_map] at ha
        rw [List.getElem?_append_right (by omega), heq, Nat.sub_self] at hb
        obtain ⟨g, hg, rfl⟩ := Option.map_eq_some_iff.mp ha
        cases hb
        exact hspared (hadmits (by simp [hgrants])) (g, i)
          (List.mk_mem_zipIdx_iff_getElem?.mpr hg) hcrashed
      · rw [List.getElem?_eq_none (by simp; omega)] at hb
        cases hb
  | @released _ g hg _ hgrants _ =>
      have htally := tally_release x x'.redis x'.clock hg ⟨g.permit.key, true⟩
      rw [← hgrants] at htally
      intro j a b
      rw [show x'.tally = x.tally from htally]
      exact h j a b

/-- **Crashed holders are forgotten.**  When no permit is admitted within
    `concurrencyTTL` after that of a holder that crashes, and every other
    permit is released within `concurrencyTTL` of its admission, the
    concurrency counter is at no time more than the number of permits that are
    younger than `concurrencyTTL` and not released. -/
theorem crashed_forgotten (terms : Terms) (crashed : Nat → Bool) (actions : List Action)
    (hspared : ∀ t ∈ Lib.trace (step terms) new actions, Spared terms crashed t.1 t.2.1) :
    let x := Lib.run (step terms) new actions
    ∀ now, Timely terms crashed x now →
      x.redis.get now (.concurrent terms.bucket) ≤ x.young terms now := by
  have hcounted : Counted terms (Lib.run (step terms) new actions) :=
    Lib.run_invariant' (fun x action hx => hx.step (step_cases terms x action)) actions
      (counted_new terms)
  have halone : Alone terms crashed (Lib.run (step terms) new actions) :=
    Lib.run_invariant (I := Alone terms crashed) (C := Spared terms crashed)
      (fun _ _ hx hs => hx.step hs) actions (fun _ _ _ _ ha => absurd ha (by simp [new, tally]))
      hspared
  intro x now htimely
  cases hfind : x.redis.find now (.concurrent terms.bucket) with
  | none =>
      rw [Keyspace.get_of_absent hfind]
      exact Int.natCast_nonneg _
  | some counter =>
      obtain ⟨hkey, hlive⟩ := Option.filter_eq_some_iff.mp hfind
      obtain ⟨hpos, first, hepoch⟩ := hcounted.epoch counter hkey
      obtain ⟨last, hlast, hexpires⟩ := hepoch.expires
      have hbefore : now < last.1 + ttl terms := by
        rw [Lib.Counter.live, hexpires] at hlive
        exact of_decide_eq_true hlive
      have httl := ttl_le hpos
      -- a permit of this epoch is young, or it is of a crashed holder and the next
      -- admission came too late to renew the expiry
      have hyoung : ∀ g ∈ x.grants.drop first, (!g.permit.released) = true →
          (!g.permit.released && decide (now - terms.concurrencyTTL ≤ g.admittedAt)) = true := by
        intro g hg hheld
        rw [hheld, Bool.true_and, decide_eq_true_eq]
        obtain ⟨j, hj⟩ := List.mem_iff_getElem?.mp hg
        rw [List.getElem?_drop] at hj
        have htally : x.tally[first + j]? = some (g.admittedAt, g.tokens) := by
          rw [tally, List.getElem?_map, hj]
          rfl
        apply Int.not_lt.mp
        intro hold
        have hcrashed : crashed (first + j) = true := by
          by_contra hok
          have hwithin := htimely (g, first + j) (List.mk_mem_zipIdx_iff_getElem?.mpr hj)
            (by simpa using hheld) (by simpa using hok)
          exact Int.not_lt.mpr hwithin (Int.add_lt_of_lt_sub_right hold)
        cases hnext : x.tally[first + j + 1]? with
        | some b =>
            have hsoon := hepoch.renewed _ _ b (Nat.le_add_right first j) htally hnext
            have hlate := halone _ _ b hcrashed htally hnext
            have hrenewed : b.1 < g.admittedAt + terms.concurrencyTTL :=
              Int.lt_of_lt_of_le hsoon (Int.add_le_add_left httl _)
            exact Int.not_lt.mpr hlate hrenewed
        | none =>
            have hend : first + j = x.tally.length - 1 := by
              have hlt := (List.getElem?_eq_some_iff.mp htally).1
              have hge := List.getElem?_eq_none_iff.mp hnext
              omega
            rw [List.getLast?_eq_getElem?, ← hend] at hlast
            rw [show x.tally[first + j]? = some last from hlast] at htally
            cases htally
            have hlater : now < g.admittedAt + terms.concurrencyTTL :=
              Int.lt_of_lt_of_le hbefore (Int.add_le_add_left httl _)
            exact Int.lt_asymm hlater (Int.add_lt_of_lt_sub_right hold)
      rw [Keyspace.get_of_find hfind]
      have hmono := List.countP_mono_left hyoung
      have hdrop : (x.grants.drop first).countP (fun g =>
          !g.permit.released && decide (now - terms.concurrencyTTL ≤ g.admittedAt))
            ≤ x.young terms now := (List.drop_sublist first x.grants).countP_le
      have hcount : counter.value
          ≤ ((x.grants.drop first).countP fun g => !g.permit.released : Nat) := hepoch.counted
      omega

/-- The holder of the first permit crashes; the slot is admitted again when its
    `concurrencyTTL` has passed. -/
theorem crashed_forgotten_readmitted :
    let actions := [.allow 0 10, .allow (Time.seconds 60) 10, .allow (Time.seconds 120) 10,
      .release (Time.seconds 130) 1]
    let x := Lib.run (step oneSlot) new actions
    x.grants.length = 2 ∧ x.redis.get (Time.seconds 140) (.concurrent "t") ≤ 0 :=
  ⟨by decide +kernel,
    crashed_forgotten oneSlot (fun i => i == 0) _ (by decide +kernel) (Time.seconds 140)
      (by decide +kernel)⟩

/-- Five slots and a `concurrencyTTL` of 120 seconds.  The holder of the permit
    admitted at 0 s crashes.  The permit admitted at 100 s renews the expiry and
    is released at 200 s, in time.  At 210 s no permit counts any more, and the
    counter still is 1. -/
theorem crashed_slot_renewed :
    let terms := { oneSlot with
      limits := { requestsPerMinute := 5, tokensPerMinute := 100, maxConcurrent := 5 } }
    let actions := [.allow 0 10, .allow (Time.seconds 100) 10, .release (Time.seconds 200) 1]
    let x := Lib.run (step terms) new actions
    (∀ t ∈ Lib.trace (step terms) new actions, Timely terms (fun i => i == 0) t.1 t.2.1.now)
      ∧ Timely terms (fun i => i == 0) x (Time.seconds 210)
      ∧ x.redis.get (Time.seconds 210) (.concurrent "t") = 1
      ∧ x.young terms (Time.seconds 210) = 0 := by
  decide +kernel

end Bucket

end Aegis.RateLimit
