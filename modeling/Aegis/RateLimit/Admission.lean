/-
  Aegis.RateLimit.Admission

  `admit` and `releasePermits` (internal/gateway/service.go) on one Redis.
  `admit` asks the tenant's bucket and then the key's, each by a script of its
  own; between any two scripts those of other calls may run.  Each call is a
  machine whose steps are its scripts.

  `share` is what a call has added to a counter and not taken back.  It is
  gone when the counter is: the shares of all calls add up to the counter
  (`get_eq_sum_share`).

  A call that is turned away gives its concurrency slots back and nothing
  else.  One that the tenant's bucket admits and the key's bucket rejects has
  used a request and its tokens of the tenant's minute, and so has one that
  loses the tenant bucket's answer.
-/

import Mathlib.Algebra.BigOperators.Group.Finset.Piecewise
import Aegis.Lib.Runs
import Aegis.RateLimit.Limiter

namespace Aegis.RateLimit

open Aegis.Gateway (Decision Fault Limits Principal Service admission)
open Aegis.Lib (Keyspace)
open Aegis.Persistence (TenantPolicy)

/-! ## Calls -/

/-- The buckets of a caller, in the order `admit` asks them. -/
def buckets (principal : Principal) : List String :=
  ["tenant:" ++ principal.tenantID, "key:" ++ principal.apiKeyID]

/-- The `concurrencyTTL` of `admit`. -/
def admitTTL : Int := Time.seconds 120

inductive Stage where
  /-- in the loop of `admit`; with no bucket left it has returned the permits -/
  | asking (rest : List String) (permits : List Permit)
  /-- in `releasePermits` of `admit`; with no permit left it has returned the error -/
  | undoing (permits : List Permit) (err : GoError)
  /-- in `releasePermits` of the caller -/
  | releasing (permits : List Permit)
deriving DecidableEq

/-- A call of `admit`, to the release of its permits. -/
structure Admit where
  principal : Principal
  limits : Limits
  estimatedTokens : Int
  stage : Stage

namespace Admit

def start (principal : Principal) (limits : Limits) (estimatedTokens : Int) : Admit :=
  ⟨principal, limits, estimatedTokens, .asking (buckets principal) []⟩

/-- `admit` has returned an error or a rejection, its clean-up included. -/
def refused (a : Admit) : Bool :=
  match a.stage with
  | .undoing [] _ => true
  | _ => false

/-- The body of the loop, once `Allow` has answered. -/
def answered (a : Admit) (answer : Except GoError (Decision × Option Permit)) : Admit :=
  match a.stage with
  | .asking (_ :: rest) permits =>
      match answer with
      | .error err => { a with stage := .undoing permits err }
      | .ok (decision, permit) =>
          if decision.allowed then { a with stage := .asking rest (permits ++ permit.toList) }
          else
            let err := .new ("rate limit rejected: " ++ decision.reason)
            { a with stage := .undoing permits err }
  | _ => a

/-- `Allow` on a bucket, as the caller sees it. -/
def ask (a : Admit) (bucket : String) (fault : Option Fault) (now : Time) (redis : Redis) :
    Except GoError (Decision × Option Permit) × Redis :=
  match fault with
  | none => allow bucket a.limits a.estimatedTokens admitTTL now redis
  | some (.refused err) => (.error err, redis)
  | some (.unacknowledged err) =>
      (.error err, (allow bucket a.limits a.estimatedTokens admitTTL now redis).2)

/-- `_ = permit.Release(ctx)`. -/
def giveBack (permit : Permit) (fault : Option Fault) (now : Time) (redis : Redis) : Redis :=
  match fault with
  | some (.refused _) => redis
  | _ => (permit.release now redis).2.2

/-- The next script of a call. -/
def step (a : Admit) (fault : Option Fault) (now : Time) (redis : Redis) : Admit × Redis :=
  match a.stage with
  | .asking (bucket :: _) _ =>
      let (answer, redis) := a.ask bucket fault now redis
      (a.answered answer, redis)
  | .asking [] permits => ({ a with stage := .releasing permits }, redis)
  | .undoing (permit :: rest) err =>
      ({ a with stage := .undoing rest err }, giveBack permit fault now redis)
  | .undoing [] _ => (a, redis)
  | .releasing (permit :: rest) =>
      ({ a with stage := .releasing rest }, giveBack permit fault now redis)
  | .releasing [] => (a, redis)

/-- Without a decision that allows, `admit` cleans up. -/
theorem answered_refused {a : Admit} {bucket : String} {rest : List String}
    {permits : List Permit} (hstage : a.stage = .asking (bucket :: rest) permits)
    {answer : Except GoError (Decision × Option Permit)}
    (hanswer : ∀ decision permit, answer = .ok (decision, permit) → decision.allowed = false) :
    ∃ err, a.answered answer = { a with stage := .undoing permits err } := by
  cases answer with
  | error err => exact ⟨err, by simp only [answered, hstage]⟩
  | ok answer =>
      obtain ⟨decision, permit⟩ := answer
      have hallowed := hanswer decision permit rfl
      exact ⟨_, by simp only [answered, hstage, hallowed]; rfl⟩

/-- What `admit` has returned. -/
def result (a : Admit) : Option (Except GoError Unit) :=
  match a.stage with
  | .asking [] _ => some (.ok ())
  | .undoing _ err => some (.error err)
  | _ => none

/-- The loop is the gateway's `admission`, on the same answers. -/
theorem result_eq_admission (service : Service) (hlimited : service.limited = true)
    (principal : Principal) (policy : TenantPolicy) (estimatedTokens : Int)
    (answer : String → Limits → Int → Except GoError (Decision × Option Permit)) :
    let limits : Limits := ⟨policy.requestsPerMinute, policy.tokensPerMinute, policy.maxConcurrent⟩
    (((start principal limits estimatedTokens).answered
        (answer ("tenant:" ++ principal.tenantID) limits estimatedTokens)).answered
        (answer ("key:" ++ principal.apiKeyID) limits estimatedTokens)).result
      = some (admission service principal policy estimatedTokens
          fun bucket limits tokens => (answer bucket limits tokens).map Prod.fst) := by
  intro limits
  simp only [admission, hlimited, start, buckets]
  generalize "tenant:" ++ principal.tenantID = tenant
  generalize "key:" ++ principal.apiKeyID = key
  cases hfirst : answer tenant limits estimatedTokens with
  | error err => simp [answered, hfirst, limits, result, bind, Except.bind, Except.map]
  | ok first =>
      cases hallowed : first.1.allowed with
      | false =>
          simp [answered, hfirst, hallowed, limits, result, bind, Except.bind, Except.map, throw,
            throwThe, MonadExceptOf.throw]
      | true =>
          cases hsecond : answer key limits estimatedTokens with
          | error err =>
              simp [answered, hfirst, hallowed, hsecond, limits, result, bind, Except.bind,
                Except.map, pure, Except.pure]
          | ok second =>
              cases hagain : second.1.allowed with
              | false =>
                  simp [answered, hfirst, hallowed, hsecond, hagain, limits, result, bind,
                    Except.bind, Except.map, pure, Except.pure, throw, throwThe,
                    MonadExceptOf.throw]
              | true =>
                  simp [answered, hfirst, hallowed, hsecond, hagain, limits, result, bind,
                    Except.bind, Except.map, pure, Except.pure]

end Admit

/-! ## The system -/

/-- Any number of calls on one Redis. -/
structure Admissions where
  redis : Redis
  admits : List Admit
  /-- what each call has added to a counter since the counter was created -/
  shares : Key → Nat → Int
  clock : Time

namespace Admissions

inductive Action where
  | start (principal : Principal) (limits : Limits) (estimatedTokens : Int)
  | step (call : Nat) (now : Time) (fault : Option Fault)

/-- Before the first call, at the Unix epoch. -/
def new : Admissions where
  redis := Keyspace.empty
  admits := []
  shares := fun _ _ => 0
  clock := 0

/-- What a call has added to a counter that is still there. -/
def share (x : Admissions) (now : Time) (key : Key) (call : Nat) : Int :=
  if (x.redis.find now key).isSome then x.shares key call else 0

/-- One script; the clock does not go back.  What the script changes goes to
    its call's share. -/
def step (x : Admissions) : Action → Admissions
  | .start principal limits estimatedTokens =>
      { x with admits := x.admits ++ [Admit.start principal limits estimatedTokens] }
  | .step call now fault =>
      if now < x.clock then x
      else
        match x.admits[call]? with
        | none => x
        | some a =>
            let (a', redis) := a.step fault now x.redis
            { redis, admits := x.admits.set call a', clock := now,
              shares := fun key other => x.share now key other
                + if other = call then redis.get now key - x.redis.get now key else 0 }

/-- What one step can do. -/
inductive Stepped (x : Admissions) : Action → Admissions → Prop
  | idle {action : Action} : Stepped x action x
  | started (principal : Principal) (limits : Limits) (estimatedTokens : Int) :
      Stepped x (.start principal limits estimatedTokens)
        { x with admits := x.admits ++ [Admit.start principal limits estimatedTokens] }
  | ran {call : Nat} {now : Time} {fault : Option Fault} {a a' : Admit} {redis : Redis}
      (hclock : x.clock ≤ now) (ha : x.admits[call]? = some a)
      (hstep : a.step fault now x.redis = (a', redis)) :
      Stepped x (.step call now fault)
        { redis, admits := x.admits.set call a', clock := now,
          shares := fun key other => x.share now key other
            + if other = call then redis.get now key - x.redis.get now key else 0 }

theorem step_cases (x : Admissions) (action : Action) : Stepped x action (x.step action) := by
  cases action with
  | start principal limits estimatedTokens => exact .started principal limits estimatedTokens
  | step call now fault =>
      simp only [step]
      split
      · exact .idle
      · next hlate =>
          split
          · exact .idle
          · next a ha =>
              exact .ran (Int.not_lt.mp hlate) ha rfl

/-! ## Shares -/

/-- Calls that have not begun have no share, and the shares of the others are
    the counter. -/
structure Accounted (x : Admissions) : Prop where
  fresh : ∀ key call, x.admits.length ≤ call → x.shares key call = 0
  total : ∀ now key, x.clock ≤ now →
    x.redis.get now key = (Finset.range x.admits.length).sum (x.share now key)

theorem accounted_new : Accounted new :=
  ⟨fun _ _ _ => rfl, fun _ _ _ => rfl⟩

theorem share_of_zero {x : Admissions} {key : Key} {call : Nat} (h : x.shares key call = 0)
    (now : Time) : x.share now key call = 0 := by
  rw [share, h, ite_self]

theorem Accounted.step {x x' : Admissions} {action : Action} (h : Accounted x)
    (hstep : Stepped x action x') : Accounted x' := by
  cases hstep with
  | idle => exact h
  | started principal limits estimatedTokens =>
      refine ⟨?_, ?_⟩
      · intro key call hcall
        rw [List.length_append, List.length_singleton] at hcall
        exact h.fresh key call (by omega)
      · intro now key hnow
        have hlast : x.share now key x.admits.length = 0 :=
          share_of_zero (h.fresh key _ (Nat.le_refl _)) now
        rw [List.length_append, List.length_singleton, Finset.sum_range_succ]
        refine (h.total now key hnow).trans ?_
        exact (Int.add_zero _).symm.trans (congrArg _ hlast.symm)
  | @ran call now fault a a' redis hclock ha hran =>
      have hlt : call < x.admits.length := (List.getElem?_eq_some_iff.mp ha).1
      refine ⟨?_, ?_⟩
      · intro key other hother
        rw [List.length_set] at hother
        have hne : other ≠ call := by omega
        dsimp only
        rw [if_neg hne, share_of_zero (h.fresh key other hother) now]
        rfl
      · intro later key hlater
        rw [List.length_set]
        cases hfind : redis.find later key with
        | none =>
            rw [Keyspace.get_of_absent hfind]
            refine (Finset.sum_eq_zero ?_).symm
            intro other _
            simp only [share, hfind, Option.isSome_none, Bool.false_eq_true, if_false]
        | some counter =>
            -- the counter is there since the script ran
            have hnow := Keyspace.find_of_later hfind hlater
            rw [Keyspace.get_of_find hfind]
            have hshares : ∀ other, (if (redis.find later key).isSome then x.share now key other
                  + (if other = call then redis.get now key - x.redis.get now key else 0) else 0)
                = x.share now key other
                  + if other = call then counter.value - x.redis.get now key else 0 := by
              intro other
              rw [hfind, Keyspace.get_of_find hnow]
              rfl
            calc counter.value
                = (Finset.range x.admits.length).sum (x.share now key)
                    + (counter.value - x.redis.get now key) := by
                  rw [← h.total now key hclock]
                  omega
              _ = (Finset.range x.admits.length).sum fun other => x.share now key other
                    + if other = call then counter.value - x.redis.get now key else 0 := by
                  rw [Finset.sum_add_distrib, Finset.sum_ite_eq', if_pos (Finset.mem_range.mpr hlt)]
              _ = _ := (Finset.sum_congr rfl fun other _ => hshares other).symm

/-- **The counters are the sums of the shares**, in every run. -/
theorem get_eq_sum_share (actions : List Action) (now : Time) (key : Key) :
    let x := Lib.run step new actions
    x.clock ≤ now → x.redis.get now key = (Finset.range x.admits.length).sum (x.share now key) := by
  have haccounted : Accounted (Lib.run step new actions) :=
    Lib.run_invariant' (fun x action hx => hx.step (step_cases x action)) actions accounted_new
  exact haccounted.total now key

/-! ## Refusals -/

/-- No counter is negative or beyond `2^53`. -/
def Bounded (redis : Redis) : Prop :=
  ∀ key counter, redis key = some counter → 0 ≤ counter.value ∧ counter.value < 2 ^ 53

theorem Bounded.get {redis : Redis} (h : Bounded redis) (now : Time) (key : Key) :
    0 ≤ redis.get now key ∧ redis.get now key < 2 ^ 53 := by
  cases hfind : redis.find now key with
  | none =>
      rw [Keyspace.get_of_absent hfind]
      decide
  | some counter =>
      rw [Keyspace.get_of_find hfind]
      exact h key counter (Option.filter_eq_some_iff.mp hfind).1

theorem Bounded.admitted {requestsKey tokensKey concurrentKey : Key} {limits : Limits}
    {estimatedTokens ttl : Int} {now : Time} {redis redis' : Redis} (h : Bounded redis)
    (hexact : Exact limits) (hestimated : 0 ≤ estimatedTokens)
    (hadmitted : Admitted requestsKey tokensKey concurrentKey limits estimatedTokens ttl now redis
      redis') : Bounded redis' := by
  intro key counter hkey
  have hrequests := h.get now requestsKey
  have htokens := h.get now tokensKey
  have hconcurrent := h.get now concurrentKey
  have hle := And.intro hadmitted.requests_le
    (And.intro hadmitted.tokens_le hadmitted.concurrent_le)
  have hlt := And.intro hexact.requests_lt (And.intro hexact.tokens_lt hexact.concurrent_lt)
  by_cases hr : key = requestsKey
  · rw [hr, hadmitted.requests] at hkey
    cases hkey
    dsimp only
    omega
  by_cases ht : key = tokensKey
  · rw [ht, hadmitted.tokens] at hkey
    cases hkey
    dsimp only
    omega
  by_cases hc : key = concurrentKey
  · rw [hc, hadmitted.concurrent] at hkey
    cases hkey
    dsimp only
    omega
  · rw [hadmitted.others key hr ht hc] at hkey
    exact h key counter hkey

theorem Bounded.finish {redis : Redis} (h : Bounded redis) (key : Key) (now : Time) :
    Bounded (finishScript key now redis).2 := by
  have hrange : ∀ counter, redis key = some counter →
      0 ≤ counter.value ∧ counter.value < 2 ^ 63 := by
    intro counter hcounter
    have hbounds := h key counter hcounter
    omega
  intro other counter hother
  by_cases heq : other = key
  · rw [heq] at hother
    rcases finishScript_own now hrange with hnone | ⟨old, hold, hmore, hless⟩
    · rw [hnone] at hother
      cases hother
    · rw [hless] at hother
      cases hother
      have hbounds := h key old hold
      dsimp only
      omega
  · rw [finishScript_of_ne heq] at hother
    exact h other counter hother

theorem Bounded.giveBack {redis : Redis} (h : Bounded redis) (permit : Permit)
    (fault : Option Fault) (now : Time) : Bounded (Admit.giveBack permit fault now redis) := by
  have hrelease : Bounded (permit.release now redis).2.2 := by
    cases hreleased : permit.released with
    | true =>
        rw [Permit.release, if_pos hreleased]
        exact h
    | false =>
        rw [Permit.release_of_held hreleased]
        exact h.finish permit.key now
  unfold Admit.giveBack
  split
  · exact h
  · exact hrelease

/-- The answer of a call arrives if the call had an effect. -/
def acknowledged : Option Fault → Bool
  | some (.unacknowledged _) => false
  | _ => true

/-- No answer of `Allow` is lost, and when the tenant's bucket has granted a
    permit the key's bucket answers and has room. -/
def Served (a : Admit) (fault : Option Fault) (now : Time) (redis : Redis) : Prop :=
  match a.stage with
  | .asking (bucket :: _) permits =>
      acknowledged fault = true
        ∧ (permits ≠ [] →
            fault.isNone = true ∧ Room bucket a.limits a.estimatedTokens now redis)
  | _ => True

/-- Limits are exact, and each `Allow` is served. -/
def Smooth (x : Admissions) : Action → Prop
  | .start _ limits _ => Exact limits
  | .step call now fault => ∀ a ∈ x.admits[call]?, Served a fault now x.redis

instance (a : Admit) (fault : Option Fault) (now : Time) (redis : Redis) :
    Decidable (Served a fault now redis) :=
  match hstage : a.stage with
  | .asking (bucket :: _) permits =>
      decidable_of_iff (acknowledged fault = true ∧ (permits ≠ [] →
        fault.isNone = true ∧ Room bucket a.limits a.estimatedTokens now redis))
        (by rw [Served, hstage])
  | .asking [] _ => isTrue (by rw [Served, hstage]; trivial)
  | .undoing _ _ => isTrue (by rw [Served, hstage]; trivial)
  | .releasing _ => isTrue (by rw [Served, hstage]; trivial)

instance (x : Admissions) (action : Action) : Decidable (Smooth x action) :=
  match action with
  | .start _ limits _ => inferInstanceAs (Decidable (Exact limits))
  | .step call now fault =>
      inferInstanceAs (Decidable (∀ a ∈ x.admits[call]?, Served a fault now x.redis))

/-- Where a call can be, and what it has added. -/
inductive Place (a : Admit) (shares : Key → Int) : Prop
  | first (hstage : a.stage = .asking (buckets a.principal) [])
      (hnothing : ∀ key, shares key = 0)
  | second (permit : Permit) (hstage : a.stage = .asking ["key:" ++ a.principal.apiKeyID] [permit])
      (hvalid : Valid ("key:" ++ a.principal.apiKeyID) a.limits a.estimatedTokens)
  | admitted (permits : List Permit) (hstage : a.stage = .asking [] permits)
  | releasing (permits : List Permit) (hstage : a.stage = .releasing permits)
  | refused (err : GoError) (hstage : a.stage = .undoing [] err)
      (hnothing : ∀ key, shares key = 0)

theorem Place.mono {a : Admit} {shares shares' : Key → Int} (h : Place a shares)
    (hzero : ∀ key, shares key = 0 → shares' key = 0) : Place a shares' := by
  cases h with
  | first hstage hnothing => exact .first hstage fun key => hzero key (hnothing key)
  | second permit hstage hvalid => exact .second permit hstage hvalid
  | admitted permits hstage => exact .admitted permits hstage
  | releasing permits hstage => exact .releasing permits hstage
  | refused err hstage hnothing => exact .refused err hstage fun key => hzero key (hnothing key)

structure Clean (x : Admissions) : Prop where
  fresh : ∀ key call, x.admits.length ≤ call → x.shares key call = 0
  bounded : Bounded x.redis
  exact : ∀ a ∈ x.admits, Exact a.limits
  place : ∀ i a, x.admits[i]? = some a → Place a (x.shares · i)

section Steps

variable {a a' : Admit} {fault : Option Fault} {now : Time} {redis redis' : Redis}

/-- Asking a bucket with room for it, or changing nothing. -/
theorem ask_cases (bucket : String) (now : Time) (hbounded : Bounded redis)
    (hexact : Exact a.limits) (hacknowledged : acknowledged fault = true) :
    ((∃ answer, a.ask bucket fault now redis = (answer, redis)
        ∧ (∀ decision permit, answer = .ok (decision, permit) → decision.allowed = false)
        ∧ (fault = none → Valid bucket a.limits a.estimatedTokens →
            ¬ Room bucket a.limits a.estimatedTokens now redis))
      ∨ ∃ redis', a.ask bucket fault now redis
          = (.ok (⟨true, ""⟩, some ⟨.concurrent bucket, false⟩), redis')
        ∧ Valid bucket a.limits a.estimatedTokens ∧ Bounded redis') := by
  cases fault with
  | some fault =>
      cases fault with
      | refused err => exact Or.inl ⟨_, rfl, by simp, by simp⟩
      | unacknowledged err => cases hacknowledged
  | none =>
      rcases allow_cases bucket a.estimatedTokens hexact (by decide : 0 < ttlSeconds admitTTL)
        (hbounded.get now _) (hbounded.get now _) (hbounded.get now _) with
        ⟨result, hallow, hnone, hroom⟩ | ⟨redis', hallow, hestimated, hadmitted⟩
      · refine Or.inl ⟨result, hallow, ?_, fun _ => hroom⟩
        rintro decision permit rfl
        rw [(allow_ok hallow).2]
        cases permit with
        | none => rfl
        | some permit => exact absurd rfl (hnone decision permit)
      · exact Or.inr ⟨redis', hallow, (allow_ok hallow).1,
          hbounded.admitted hexact hestimated hadmitted⟩

/-- A script that changes nothing adds nothing. -/
theorem add_unchanged {shares : Key → Int} (h : ∀ key, shares key = 0) (key : Key) :
    shares key + (redis.get now key - redis.get now key) = 0 := by
  rw [h key, Int.sub_self]
  rfl

/-- A step of a call that is served. -/
theorem Place.step {shares : Key → Int} (h : Place a shares) (hbounded : Bounded redis)
    (hexact : Exact a.limits) (hserved : Served a fault now redis)
    (hstep : a.step fault now redis = (a', redis')) :
    Bounded redis' ∧ a'.limits = a.limits
      ∧ Place a' fun key => shares key + (redis'.get now key - redis.get now key) := by
  cases h with
  | first hstage hnothing =>
      simp only [Served, hstage, buckets] at hserved
      simp only [Admit.step, hstage, buckets] at hstep
      rcases ask_cases ("tenant:" ++ a.principal.tenantID) now hbounded hexact hserved.1 with
        ⟨answer, hask, hrejected, -⟩ | ⟨redis₁, hask, hvalid, hbounded₁⟩
      · obtain ⟨err, hanswered⟩ := Admit.answered_refused hstage hrejected
        rw [hask] at hstep
        dsimp only at hstep
        rw [hanswered] at hstep
        cases hstep
        exact ⟨hbounded, rfl, .refused err rfl (add_unchanged hnothing)⟩
      · rw [hask] at hstep
        simp only [Admit.answered, hstage, buckets, if_true] at hstep
        cases hstep
        have hkey : "key:" ++ a.principal.apiKeyID ≠ "" := by simp
        refine ⟨hbounded₁, rfl, .second _ rfl ?_⟩
        exact ⟨hkey, hvalid.requests, hvalid.tokens, hvalid.concurrent, hvalid.estimated⟩
  | second permit hstage hvalid =>
      simp only [Served, hstage] at hserved
      simp only [Admit.step, hstage] at hstep
      obtain ⟨hfault, hroom⟩ := hserved.2 (by simp)
      rcases ask_cases ("key:" ++ a.principal.apiKeyID) now hbounded hexact hserved.1 with
        ⟨answer, -, -, hfull⟩ | ⟨redis₁, hask, -, hbounded₁⟩
      · exact absurd hroom (hfull (Option.isNone_iff_eq_none.mp hfault) hvalid)
      · rw [hask] at hstep
        simp only [Admit.answered, hstage, if_true] at hstep
        cases hstep
        exact ⟨hbounded₁, rfl, .admitted _ rfl⟩
  | admitted permits hstage =>
      simp only [Admit.step, hstage] at hstep
      cases hstep
      exact ⟨hbounded, rfl, .releasing _ rfl⟩
  | releasing permits hstage =>
      cases permits with
      | nil =>
          simp only [Admit.step, hstage] at hstep
          cases hstep
          exact ⟨hbounded, rfl, .releasing _ hstage⟩
      | cons permit rest =>
          simp only [Admit.step, hstage] at hstep
          cases hstep
          exact ⟨hbounded.giveBack permit fault now, rfl, .releasing _ rfl⟩
  | refused err hstage hnothing =>
      simp only [Admit.step, hstage] at hstep
      cases hstep
      exact ⟨hbounded, rfl, .refused err hstage (add_unchanged hnothing)⟩

end Steps

theorem clean_new : Clean new where
  fresh := fun _ _ _ => rfl
  bounded := by
    intro key counter h
    cases h
  exact := fun _ h => absurd h List.not_mem_nil
  place := fun _ _ h => absurd h (by simp [new])

theorem Clean.step {x x' : Admissions} {action : Action} (h : Clean x) (hsmooth : Smooth x action)
    (hstep : Stepped x action x') : Clean x' := by
  cases hstep with
  | idle => exact h
  | started principal limits estimatedTokens =>
      refine ⟨?_, h.bounded, ?_, ?_⟩
      · intro key call hcall
        rw [List.length_append, List.length_singleton] at hcall
        exact h.fresh key call (by omega)
      · intro a ha
        rcases List.mem_append.mp ha with ha | ha
        · exact h.exact a ha
        · rw [List.mem_singleton.mp ha]
          exact hsmooth
      · intro i a ha
        rcases Nat.lt_trichotomy i x.admits.length with hlt | rfl | hgt
        · rw [List.getElem?_append_left hlt] at ha
          exact h.place i a ha
        · rw [List.getElem?_append_right (Nat.le_refl _), Nat.sub_self] at ha
          cases ha
          exact .first rfl fun key => h.fresh key _ (Nat.le_refl _)
        · rw [List.getElem?_eq_none (by simp; omega)] at ha
          cases ha
  | @ran call now fault a a' redis hclock ha hran =>
      -- what others have added, and what this call had, is still there or has expired
      have hzero : ∀ i key, x.shares key i = 0 → x.share now key i = 0 :=
        fun i key hshare => share_of_zero hshare now
      obtain ⟨hbounded, hlimits, hplace⟩ := ((h.place call a ha).mono (hzero call)).step h.bounded
        (h.exact a (List.mem_of_getElem? ha)) (hsmooth a ha) hran
      refine ⟨?_, hbounded, ?_, ?_⟩
      · intro key other hother
        rw [List.length_set] at hother
        have hlt : call < x.admits.length := (List.getElem?_eq_some_iff.mp ha).1
        dsimp only
        rw [if_neg (by omega), hzero other key (h.fresh key other hother)]
        rfl
      · intro b hb
        rcases List.mem_or_eq_of_mem_set hb with hb | rfl
        · exact h.exact b hb
        · rw [hlimits]
          exact h.exact a (List.mem_of_getElem? ha)
      · intro i b hb
        by_cases hi : i = call
        · subst hi
          rw [List.getElem?_set_self (List.getElem?_eq_some_iff.mp ha).1] at hb
          cases hb
          simpa only [if_true] using hplace
        · rw [List.getElem?_set_ne (Ne.symm hi)] at hb
          refine (h.place i b hb).mono ?_
          intro key hshare
          dsimp only
          rw [if_neg hi, hzero i key hshare]
          rfl

/-- **A refused admission leaves nothing.**  When no answer of `Allow` is lost
    and the key's bucket never turns away a call that the tenant's bucket
    admitted, a call that was refused has, after its clean-up and at any later
    time, no share in any counter. -/
theorem refused_leaves_nothing (actions : List Action)
    (hsmooth : ∀ t ∈ Lib.trace step new actions, Smooth t.1 t.2.1) :
    let x := Lib.run step new actions
    ∀ i a, x.admits[i]? = some a → a.refused = true → ∀ now key, x.share now key i = 0 := by
  have hclean : Clean (Lib.run step new actions) :=
    Lib.run_invariant (C := Smooth) (fun x action hx hs => hx.step hs (step_cases x action)) actions
      clean_new hsmooth
  intro x i a ha hrefused now key
  unfold Admit.refused at hrefused
  cases hclean.place i a ha with
  | first hstage hnothing => exact share_of_zero (hnothing key) now
  | second permit hstage =>
      rw [hstage] at hrefused
      exact absurd hrefused (by simp)
  | admitted permits hstage =>
      rw [hstage] at hrefused
      exact absurd hrefused (by simp)
  | releasing permits hstage =>
      rw [hstage] at hrefused
      exact absurd hrefused (by simp)
  | refused err hstage hnothing => exact share_of_zero (hnothing key) now

/-- One slot for a tenant and its only key. -/
def single : Principal := ⟨"t", "k", ""⟩

def oneAtATime : Limits := { requestsPerMinute := 5, tokensPerMinute := 100, maxConcurrent := 1 }

/-- The second call finds the tenant's slot taken. -/
theorem refused_leaves_nothing_taken :
    let x := Lib.run step new [.start single oneAtATime 10, .start single oneAtATime 10,
      .step 0 0 none, .step 0 0 none, .step 1 (Time.seconds 1) none]
    (x.admits[1]?.map Admit.refused) = some true
      ∧ x.share (Time.seconds 2) (.requests "tenant:t" 0) 1 = 0 :=
  ⟨by decide +kernel,
    refused_leaves_nothing _ (by decide +kernel) 1 _ rfl (by decide +kernel) _ _⟩

/-- One slot.  The first call has released the tenant's slot and not yet the
    key's when the second call asks: the tenant's bucket admits it, the key's
    rejects it, and it gives the tenant's slot back.  The request and the ten
    tokens of the tenant's minute stay used. -/
theorem key_rejection_keeps_request :
    let x := Lib.run step new [.start single oneAtATime 10, .start single oneAtATime 10,
      .step 0 0 none, .step 0 0 none, .step 0 (Time.seconds 1) none, .step 0 (Time.seconds 1) none,
      .step 1 (Time.seconds 1) none, .step 1 (Time.seconds 1) none, .step 1 (Time.seconds 1) none]
    (x.admits[1]?.map Admit.refused) = some true
      ∧ x.share (Time.seconds 1) (.requests "tenant:t" 0) 1 = 1
      ∧ x.share (Time.seconds 1) (.tokens "tenant:t" 0) 1 = 10
      ∧ x.share (Time.seconds 1) (.concurrent "tenant:t") 1 = 0
      ∧ x.redis.get (Time.seconds 1) (.requests "tenant:t" 0) = 2 := by
  decide +kernel

end Admissions

end Aegis.RateLimit
