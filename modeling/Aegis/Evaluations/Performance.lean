/-
  Aegis.Evaluations.Performance

  The thresholds of an evaluation job, from the stored request to the findings.

  `LoadEvaluationInput` scales milliseconds to nanoseconds and
  `Performance.Evaluate` adds the token counts, both in `int64`.  A sum that
  wraps is negative, so its threshold is never exceeded.  A product that wraps
  may be anything: a threshold of 18446744073710 ms becomes less than half a
  millisecond.  `performance_exact_iff` says for which values the findings are
  still those of the exact comparison.
-/

import Aegis.Evaluations.System

namespace Aegis.Evaluations

open Aegis.Evaluation (Finding Input milliseconds millisecond performance performanceChecks)
open Aegis.Persistence (RequestRow)
open Aegis.Persistence.Evaluations
open Aegis.Request (Choice Json)

/-! ## What is stored -/

/-- A completed request of a tenant, as an evaluation reads it. -/
structure Source (db : Persistence.Db) (tenantID requestID : String) where
  row : RequestRow
  stored : db.request? requestID = some row
  tenant : row.tenantID = tenantID
  completed : row.status = .completed
  completedAt : Time
  finished : row.completedAt = some completedAt
  choice : Choice
  answered : (row.responseBody.bind fun response => response.choices.head?) = some choice

/-- The measured values, in milliseconds, tokens and micro-USD. -/
structure Measured where
  providerMS : Int
  totalMS : Int
  promptTokens : Int
  completionTokens : Int
  costMicroUSD : Int

/-- A count that a `BIGINT` column with `CHECK (... >= 0)` can hold. -/
def Count (x : Int) : Prop := 0 ≤ x ∧ x ≤ maxInt64

instance (x : Int) : Decidable (Count x) := inferInstanceAs (Decidable (_ ∧ _))

structure Measured.Admissible (m : Measured) : Prop where
  providerMS : Count m.providerMS
  totalMS : Count m.totalMS
  promptTokens : Count m.promptTokens
  completionTokens : Count m.completionTokens
  costMicroUSD : Count m.costMicroUSD

section Load

variable {db : Persistence.Db} {tenantID jobID requestID : String}

def Source.measured (source : Source db tenantID requestID) : Measured where
  providerMS := providerLatencyMS db source.row.id
  totalMS := epochMillis (source.completedAt - source.row.createdAt)
  promptTokens := source.row.promptTokens.getD 0
  completionTokens := source.row.completionTokens.getD 0
  costMicroUSD := source.row.actualCostMicroUSD.getD 0

/-- The input of the evaluators. -/
def Source.input (source : Source db tenantID requestID) (parameters : Parameters) : Input where
  response := source.choice.message.content
  requestedFormat := parameters.requestedFormat
  providerLatency := milliseconds source.measured.providerMS
  totalLatency := milliseconds source.measured.totalMS
  promptTokens := source.measured.promptTokens
  completionTokens := source.measured.completionTokens
  costMicroUSD := source.measured.costMicroUSD
  maxProviderLatency := milliseconds parameters.maxProviderMS
  maxTotalLatency := milliseconds parameters.maxTotalMS
  maxTokens := parameters.maxTokens
  maxCostMicroUSD := parameters.maxCostMicroUSD
  blockedTerms := parameters.blockedTerms

/-- The row that the second statement of `LoadEvaluationInput` finds. -/
theorem Source.find_row (source : Source db tenantID requestID) :
    (db.requests.rows.find? fun r =>
      r.tenantID == tenantID && r.id == requestID && r.status == .completed) = some source.row := by
  obtain ⟨hmem, hid⟩ := db.request?_eq_some_iff.mp source.stored
  have hmatches : (source.row.tenantID == tenantID && source.row.id == requestID
      && source.row.status == .completed) = true := by
    simp [source.tenant, hid, source.completed]
  cases hfind : db.requests.rows.find? fun r =>
      r.tenantID == tenantID && r.id == requestID && r.status == .completed with
  | none =>
      have hnone := List.find?_eq_none.mp hfind source.row hmem
      exact absurd hmatches hnone
  | some row =>
      -- there is one row with the identifier
      have hrow := List.find?_some hfind
      simp only [Bool.and_eq_true, beq_iff_eq] at hrow
      have hsame : db.request? requestID = some row :=
        db.request?_eq_some_iff.mpr ⟨List.mem_of_find?_eq_some hfind, hrow.1.2⟩
      rw [← hsame, source.stored]

/-- `LoadEvaluationInput` succeeds for a completed request. -/
theorem loadInput_of_source {db : Db} {job : EvaluationJob}
    (hjob : getEvaluation tenantID jobID db = .ok (job, db))
    (source : Source db.platform tenantID job.requestID) :
    loadInput tenantID jobID db = .ok (source.input (decodeParameters job.parameters), db) := by
  have hsource : loadSource db.platform tenantID job.requestID = .ok {
      response := source.choice.message.content
      providerLatency := milliseconds source.measured.providerMS
      totalLatency := milliseconds source.measured.totalMS
      promptTokens := source.measured.promptTokens
      completionTokens := source.measured.completionTokens
      costMicroUSD := source.measured.costMicroUSD } := by
    unfold loadSource
    rw [source.find_row]
    simp only [source.finished, source.answered]
    rfl
  unfold loadInput
  simp only [hjob, hsource, bind, Except.bind, pure, Except.pure]
  rfl

end Load

/-! ## The thresholds -/

/-- The four thresholds of a job fit in an `int64`. -/
structure Bounded (p : Parameters) : Prop where
  maxProviderMS : isInt64 p.maxProviderMS = true
  maxTotalMS : isInt64 p.maxTotalMS = true
  maxTokens : isInt64 p.maxTokens = true
  maxCostMicroUSD : isInt64 p.maxCostMicroUSD = true

theorem isInt64_decodeInt {old : Int} (value : Json) (hold : isInt64 old = true) :
    isInt64 (decodeInt old value) = true := by
  cases value with
  | num x =>
      simp only [decodeInt, Events.decodeInt64]
      by_cases hfits : x.value.den = 1 ∧ isInt64 x.value.num = true
      · simp only [if_pos hfits]
        exact hfits.2
      · simpa only [if_neg hfits] using hold
  | _ => exact hold

theorem Bounded.decodeMember {p : Parameters} (h : Bounded p) (entry : String × Json) :
    Bounded (p.decodeMember entry) := by
  unfold Parameters.decodeMember
  dsimp only
  split
  · -- the format and the blocked terms leave the thresholds alone
    split <;> exact ⟨h.1, h.2, h.3, h.4⟩
  · split
    · split <;> exact ⟨h.1, h.2, h.3, h.4⟩
    · split
      · exact { h with maxProviderMS := isInt64_decodeInt entry.2 h.maxProviderMS }
      · split
        · exact { h with maxTotalMS := isInt64_decodeInt entry.2 h.maxTotalMS }
        · split
          · exact { h with maxTokens := isInt64_decodeInt entry.2 h.maxTokens }
          · split
            · exact { h with maxCostMicroUSD := isInt64_decodeInt entry.2 h.maxCostMicroUSD }
            · exact h

/-- Whatever a job's parameters are, the decoded thresholds are `int64` values. -/
theorem bounded_decodeParameters (parameters : Json) : Bounded (decodeParameters parameters) := by
  have hzero : Bounded {} := ⟨rfl, rfl, rfl, rfl⟩
  cases parameters with
  | obj members =>
      show Bounded (members.foldl Parameters.decodeMember {})
      exact List.foldlRecOn members _ hzero fun p h entry _ => h.decodeMember entry
  | _ => exact hzero

/-! ## The findings -/

/-- The findings are those of the exact comparison: a threshold is reported iff it
    is positive and the measured value exceeds it. -/
structure Judges (m : Measured) (p : Parameters) (findings : List Finding) : Prop where
  providerLatency : "provider_latency" ∈ findings.map Finding.code
    ↔ 0 < p.maxProviderMS ∧ p.maxProviderMS < m.providerMS
  totalLatency : "total_latency" ∈ findings.map Finding.code
    ↔ 0 < p.maxTotalMS ∧ p.maxTotalMS < m.totalMS
  tokenCount : "token_count" ∈ findings.map Finding.code
    ↔ 0 < p.maxTokens ∧ p.maxTokens < m.promptTokens + m.completionTokens
  cost : "cost" ∈ findings.map Finding.code
    ↔ 0 < p.maxCostMicroUSD ∧ p.maxCostMicroUSD < m.costMicroUSD

/-- A code is reported iff one of the checks with it failed. -/
theorem mem_codes_performance {input : Input} {duration : Int} {code : String} :
    code ∈ (performance input duration).findings.map Finding.code
      ↔ ∃ check ∈ performanceChecks input, check.1 = true ∧ check.2.1 = code := by
  simp only [performance, List.map_map, List.mem_map, List.mem_filter, Function.comp_apply]
  constructor
  · rintro ⟨check, ⟨hmem, hfailed⟩, hcode⟩
    exact ⟨check, hmem, hfailed, hcode⟩
  · rintro ⟨check, hmem, hfailed, hcode⟩
    exact ⟨check, ⟨hmem, hfailed⟩, hcode⟩

/-- The nanoseconds of `ms` milliseconds, reduced to the 64 bits of a `Duration`. -/
def residue (ms : Int) : Int := ms * 1000000 % 2 ^ 64

/-- The order of a threshold and a latency survives the scaling: an exceeded
    threshold is positive and below a latency that is itself positive, and one
    that is not exceeded does not come to look so. -/
def Comparable (threshold latency : Int) : Prop :=
  if 0 < threshold ∧ threshold < latency then
    0 < residue threshold ∧ residue threshold < residue latency ∧ residue latency < 2 ^ 63
  else
    residue threshold = 0 ∨ residue latency ≤ residue threshold ∨ 2 ^ 63 ≤ residue latency

instance (threshold latency : Int) : Decidable (Comparable threshold latency) :=
  inferInstanceAs (Decidable (ite _ _ _))

/-- The comparison of two wrapped numbers, on the residues. -/
theorem pos_and_lt_milliseconds (threshold latency : Int) :
    (0 < milliseconds threshold ∧ milliseconds threshold < milliseconds latency)
      ↔ (0 < residue threshold ∧ residue threshold < residue latency
          ∧ residue latency < 2 ^ 63) := by
  simp only [milliseconds, residue, millisecond, wrap64]
  generalize threshold * 1000000 = a
  generalize latency * 1000000 = b
  omega

theorem comparable_iff (threshold latency : Int) :
    ((0 < milliseconds threshold ∧ milliseconds threshold < milliseconds latency)
        ↔ (0 < threshold ∧ threshold < latency))
      ↔ Comparable threshold latency := by
  rw [pos_and_lt_milliseconds]
  have hnonneg : 0 ≤ residue threshold := Int.emod_nonneg _ (by decide)
  unfold Comparable
  by_cases hexceeded : 0 < threshold ∧ threshold < latency
  · rw [if_pos hexceeded, iff_true_right hexceeded]
  · rw [if_neg hexceeded, iff_false_right hexceeded]
    omega

/-- Milliseconds whose nanoseconds fit in an `int64`, some 292 years, compare as
    they should. -/
theorem comparable_of_isInt64 {threshold latency : Int}
    (ht : isInt64 (threshold * millisecond) = true) (hl : isInt64 (latency * millisecond) = true) :
    Comparable threshold latency := by
  rw [← comparable_iff]
  simp only [milliseconds, wrap64_of_isInt64 ht, wrap64_of_isInt64 hl]
  unfold millisecond
  omega

/-- The sum of two counts wraps to a negative number, so a positive threshold is
    then not reported. -/
theorem token_count_iff {maxTokens prompt completion : Int} (hmax : isInt64 maxTokens = true)
    (hp : Count prompt) (hc : Count completion) :
    ((0 < maxTokens ∧ maxTokens < wrap64 (prompt + completion))
        ↔ (0 < maxTokens ∧ maxTokens < prompt + completion))
      ↔ (0 < maxTokens → prompt + completion ≤ maxInt64) := by
  have hbound := (of_decide_eq_true hmax).2
  unfold Count maxInt64 at *
  unfold wrap64
  omega

section Judgement

variable {db : Persistence.Db} {tenantID requestID : String}

/-- Each code stands for one check. -/
theorem Source.codes (source : Source db tenantID requestID) (p : Parameters) (duration : Int) :
    let codes := (performance (source.input p) duration).findings.map Finding.code
    let m := source.measured
    ("provider_latency" ∈ codes ↔ 0 < milliseconds p.maxProviderMS
        ∧ milliseconds p.maxProviderMS < milliseconds m.providerMS)
      ∧ ("total_latency" ∈ codes ↔ 0 < milliseconds p.maxTotalMS
        ∧ milliseconds p.maxTotalMS < milliseconds m.totalMS)
      ∧ ("token_count" ∈ codes ↔ 0 < p.maxTokens
        ∧ p.maxTokens < wrap64 (m.promptTokens + m.completionTokens))
      ∧ ("cost" ∈ codes ↔ 0 < p.maxCostMicroUSD ∧ p.maxCostMicroUSD < m.costMicroUSD) := by
  simp only [mem_codes_performance]
  simp only [performanceChecks, List.exists_mem_cons_iff, List.not_mem_nil, false_and, exists_false,
    or_false, String.reduceEq, and_false, and_true, false_or, decide_eq_true_eq]
  exact ⟨Iff.rfl, Iff.rfl, Iff.rfl, Iff.rfl⟩

/-- The findings are exact iff the scaling keeps the order of both latencies and
    their thresholds and the token counts of a limited job do not overflow. -/
theorem Source.judges_iff (source : Source db tenantID requestID)
    (hm : source.measured.Admissible) {p : Parameters} (hp : Bounded p) (duration : Int) :
    Judges source.measured p (performance (source.input p) duration).findings
      ↔ Comparable p.maxProviderMS source.measured.providerMS
        ∧ Comparable p.maxTotalMS source.measured.totalMS
        ∧ (0 < p.maxTokens →
            source.measured.promptTokens + source.measured.completionTokens ≤ maxInt64) := by
  obtain ⟨hprovider, htotal, htokens, hcost⟩ := source.codes p duration
  rw [← comparable_iff, ← comparable_iff,
    ← token_count_iff hp.maxTokens hm.promptTokens hm.completionTokens, ← hprovider, ← htotal,
    ← htokens]
  constructor
  · intro h
    exact ⟨h.providerLatency, h.totalLatency, h.tokenCount⟩
  · rintro ⟨hp, ht, hc⟩
    exact ⟨hp, ht, hc, hcost⟩

end Judgement

/-- **Thresholds are judged exactly, unless a scaled latency or the token sum
    overflows.**  For every stored completed request and every job's parameters,
    `LoadEvaluationInput` succeeds, and the findings on its input are those of the
    exact comparison if and only if the 64 bits suffice. -/
theorem performance_exact_iff {db : Db} {tenantID jobID : String} {job : EvaluationJob}
    (hjob : getEvaluation tenantID jobID db = .ok (job, db))
    (source : Source db.platform tenantID job.requestID)
    (hm : source.measured.Admissible) (duration : Int) :
    let p := decodeParameters job.parameters
    ∃ input, loadInput tenantID jobID db = .ok (input, db)
      ∧ (Judges source.measured p (performance input duration).findings
        ↔ Comparable p.maxProviderMS source.measured.providerMS
          ∧ Comparable p.maxTotalMS source.measured.totalMS
          ∧ (0 < p.maxTokens →
              source.measured.promptTokens + source.measured.completionTokens ≤ maxInt64)) := by
  intro p
  have hbounded : Bounded p := bounded_decodeParameters job.parameters
  exact ⟨_, loadInput_of_source hjob source, source.judges_iff hm hbounded duration⟩

/-- Tenant `t` has a request that took five milliseconds and a job with a limit on
    the total latency. -/
def limitedJob (maxTotalMS : Int) : Db where
  platform :=
    { samplePlatform with
      requests := ⟨[{
        id := "r", tenantID := "t", apiKeyID := "k", userID := none, idempotencyKey := "a"
        canonicalRequestHash := [1], modelID := "m", status := .completed
        streamRequested := false, correlationID := "c", createdAt := 0, updatedAt := 5000
        completedAt := some 5000, promptTokens := some 2, completionTokens := some 1
        actualCostMicroUSD := some 7
        responseBody := some {
          id := "r", object := "chat.completion", created := 0, model := "m"
          choices := [⟨0, ⟨"assistant", "hi"⟩, "stop"⟩], usage := ⟨2, 1, 3⟩
          aegis := ⟨"r", .completed⟩ } }], List.pairwise_singleton _ _⟩ }
  jobs := ⟨[{
    id := "j", tenantID := "t", requestID := "r", idempotencyKey := "e"
    canonicalRequestHash := [1], jobType := "suite", correlationID := "c"
    parameters := .obj [("max_total_latency_ms", .num maxTotalMS)], requestedAt := 0 }],
    List.pairwise_singleton _ _⟩
  results := Lib.Table.empty
  jobs_of_results := fun _ h => absurd h List.not_mem_nil

def limitedSource (maxTotalMS : Int) : Source (limitedJob maxTotalMS).platform "t" "r" where
  row := (limitedJob maxTotalMS).platform.requests.rows.head (List.cons_ne_nil _ _)
  stored := rfl
  tenant := rfl
  completed := rfl
  completedAt := 5000
  finished := rfl
  choice := ⟨0, ⟨"assistant", "hi"⟩, "stop"⟩
  answered := rfl

theorem limitedSource_admissible (maxTotalMS : Int) :
    (limitedSource maxTotalMS).measured.Admissible := by
  have hmeasured : (limitedSource maxTotalMS).measured = ⟨0, 5, 2, 1, 7⟩ := rfl
  rw [hmeasured]
  constructor <;> decide

theorem performance_exact_three :
    ∃ input, loadInput "t" "j" (limitedJob 3) = .ok (input, limitedJob 3)
      ∧ Judges (limitedSource 3).measured { maxTotalMS := 3 } (performance input 0).findings := by
  have hjob : getEvaluation "t" "j" (limitedJob 3)
      = .ok (((limitedJob 3).jobs.rows.head (List.cons_ne_nil _ _)).toJob none, limitedJob 3) := rfl
  obtain ⟨input, hload, hjudges⟩ :=
    performance_exact_iff hjob (limitedSource 3) (limitedSource_admissible 3) 0
  refine ⟨input, hload, hjudges.mpr ⟨?_, ?_, ?_⟩⟩
  · exact comparable_of_isInt64 (by decide) (by decide)
  · exact comparable_of_isInt64 (by decide) (by decide)
  · decide

/-- 18446744073710 ms, over 500 years, become 448384 ns: a request of five
    milliseconds is reported as too slow. -/
theorem total_latency_misjudged :
    ∃ input, loadInput "t" "j" (limitedJob 18446744073710)
        = .ok (input, limitedJob 18446744073710)
      ∧ (limitedSource 18446744073710).measured.Admissible
      ∧ (limitedSource 18446744073710).measured.totalMS = 5
      ∧ "total_latency" ∈ (performance input 0).findings.map Finding.code
      ∧ ¬ Judges (limitedSource 18446744073710).measured { maxTotalMS := 18446744073710 }
          (performance input 0).findings := by
  have hload : loadInput "t" "j" (limitedJob 18446744073710)
      = .ok ((limitedSource 18446744073710).input { maxTotalMS := 18446744073710 },
        limitedJob 18446744073710) := by rfl
  have hreported : "total_latency" ∈ (performance ((limitedSource 18446744073710).input
      { maxTotalMS := 18446744073710 }) 0).findings.map Finding.code := by decide +kernel
  refine ⟨_, hload, limitedSource_admissible _, rfl, hreported, ?_⟩
  intro hjudges
  have hexceeded := (hjudges.totalLatency.mp hreported).2
  exact absurd hexceeded (by decide +kernel)

end Aegis.Evaluations
