/-
  Aegis.Evaluation

  Deterministic response evaluators (internal/evaluation/evaluation.go): what
  they read and what they return.  An evaluator is a function of its input and
  of the time it took, which `time.Since` measures.

  Durations are nanoseconds in an `int64`, as in package `time`.
-/

import Aegis.Go

namespace Aegis.Evaluation

/-- `time.Millisecond`. -/
def millisecond : Int := 1000000

/-- `time.Duration(ms) * time.Millisecond`. -/
def milliseconds (ms : Int) : Int := wrap64 (ms * millisecond)

/-- The data needed by the evaluators. -/
structure Input where
  response : String
  requestedFormat : String := ""
  providerLatency : Int
  totalLatency : Int
  promptTokens : Int
  completionTokens : Int
  costMicroUSD : Int
  maxProviderLatency : Int := 0
  maxTotalLatency : Int := 0
  maxTokens : Int := 0
  maxCostMicroUSD : Int := 0
  blockedTerms : List String := []
deriving DecidableEq, Repr

/-- A masked observation. -/
structure Finding where
  code : String
  severity : String
  message : String
  masked : String := ""
deriving DecidableEq, Repr

inductive Outcome where
  | pass
  | fail
deriving DecidableEq, Repr

/-- The text stored and sent for an outcome. -/
def Outcome.text : Outcome → String
  | .pass => "pass"
  | .fail => "fail"

structure Result where
  name : String
  version : String
  scoreMilli : Int
  status : Outcome
  findings : List Finding
  duration : Int
deriving DecidableEq, Repr

/-- `Evaluate`, with the measured duration. -/
abbrev Evaluator := Input → Int → Result

/-- The thresholds `Performance` checks: whether one is exceeded, with the code
    and the message of the finding. -/
def performanceChecks (input : Input) : List (Bool × String × String) :=
  [(decide (0 < input.maxProviderLatency ∧ input.maxProviderLatency < input.providerLatency),
      "provider_latency", "provider latency exceeded threshold"),
    (decide (0 < input.maxTotalLatency ∧ input.maxTotalLatency < input.totalLatency),
      "total_latency", "total latency exceeded threshold"),
    (decide (0 < input.maxTokens
        ∧ input.maxTokens < wrap64 (input.promptTokens + input.completionTokens)),
      "token_count", "token count exceeded threshold"),
    (decide (0 < input.maxCostMicroUSD ∧ input.maxCostMicroUSD < input.costMicroUSD),
      "cost", "cost exceeded threshold")]

/-- `Performance.Evaluate`. -/
def performance : Evaluator := fun input duration =>
  let findings := ((performanceChecks input).filter Prod.fst).map fun check =>
    { code := check.2.1, severity := "medium", message := check.2.2 : Finding }
  { name := "performance"
    version := "1.0.0"
    scoreMilli := max 0 (1000 - findings.length * 250)
    status := if findings.length > 0 then .fail else .pass
    findings
    duration }

end Aegis.Evaluation
