import Mathlib.Data.Finset.Basic
import Mathlib.Data.Rat.Floor
import Mathlib.Data.String.Basic
import BidScope.Core.Gains
import BidScope.Core.KeyOrder

/-!
# The evaluation's metrics

`evaluation/metrics.py`: what retrieval, classification and latency of an
evaluation run are scored by. Numbers are exact, and so is every division,
which raises on a zero divisor; the discount of nDCG is a parameter.

* `recallAtK`, `ndcgAtK`: a ranking against the set of relevant ids.
* `binaryClassificationMetrics`, `multiclassClassificationMetrics`:
  predictions against labels.
* `percentileLatency`: P50 and P95 of a sample.
-/
namespace BidScope.L11

/-- What a metric raises. -/
inductive MetricError where
  | value (message : String)
  | zeroDivision
  | index
  deriving DecidableEq, Repr

section Field

variable {𝕜 : Type} [Field 𝕜] [LinearOrder 𝕜]

/-- `a / b` -/
def divide (a b : 𝕜) : Except MetricError 𝕜 :=
  if b = 0 then .error .zeroDivision else .ok (a / b)

/-- `a / b if b else 0.0` -/
def divideOrZero (a b : 𝕜) : Except MetricError 𝕜 := if b ≠ 0 then divide a b else .ok 0

end Field

/-! ## Rankings -/

/-- `list(dict.fromkeys(ranked))`
mirrors evaluation/metrics.py:95-97 -/
def uniqueRanked (ranked : List String) : List String := Gains.firsts [] ranked

/-- mirrors evaluation/metrics.py:100-104 -/
def recallAtK (relevant : Finset String) (ranked : List String) (k : Int) :
    Except MetricError Rat :=
  if relevant = ∅ ∨ k ≤ 0 then .ok 0
  else
    divide (relevant ∩ ((uniqueRanked ranked).take k.toNat).toFinset).card relevant.card

/-- mirrors evaluation/metrics.py:107-119 -/
def ndcgAtK {𝕜 : Type} [Field 𝕜] [LinearOrder 𝕜] (discount : Gains.Discount 𝕜)
    (relevant : Finset String) (ranked : List String) (k : Int) : Except MetricError 𝕜 :=
  if relevant = ∅ ∨ k ≤ 0 then .ok 0
  else
    let uniqueRanked := uniqueRanked ranked
    let dcg := (((uniqueRanked.take k.toNat).zipIdx.filter fun e => e.1 ∈ relevant).map
      fun e => discount.weight e.2).sum
    let idealCount := min relevant.card k.toNat
    let ideal := ((List.range idealCount).map discount.weight).sum
    divideOrZero dcg ideal

/-! ## Classification -/

structure Scores where
  precision : Rat
  recallScore : Rat
  f1 : Rat
  deriving DecidableEq, Repr

/-- The counts that precision and recall are made of. -/
structure Confusion where
  truePositive : Nat
  falsePositive : Nat
  falseNegative : Nat
  deriving DecidableEq, Repr

/-- Of pairs of what is and what is predicted.
mirrors evaluation/metrics.py:135-141, 165-173 -/
def confusion (pairs : List (Bool × Bool)) : Confusion where
  truePositive := pairs.countP fun e => e.1 && e.2
  falsePositive := pairs.countP fun e => !e.1 && e.2
  falseNegative := pairs.countP fun e => e.1 && !e.2

/-- mirrors evaluation/metrics.py:142-153, 174-184 -/
def Confusion.scores (c : Confusion) : Except MetricError Scores := do
  let precision ← divideOrZero (c.truePositive : Rat) (c.truePositive + c.falsePositive)
  let recallScore ← divideOrZero (c.truePositive : Rat) (c.truePositive + c.falseNegative)
  let f1 ← divideOrZero (2 * precision * recallScore) (precision + recallScore)
  return { precision, recallScore, f1 }

/-- A value where a bool is expected. -/
inductive Value where
  | bool (b : Bool)
  | other
  deriving DecidableEq, Repr

def Value.bool? : Value → Option Bool
  | .bool b => some b
  | .other => none

/-- The values, if all of them are bools.
mirrors evaluation/metrics.py:122-124 -/
def validateBooleanSequence (values : List Value) (name : String) :
    Except MetricError (List Bool) :=
  match values.mapM Value.bool? with
  | some bools => .ok bools
  | none => .error (.value (name ++ " must contain only bool values"))

/-- mirrors evaluation/metrics.py:127-153 -/
def binaryClassificationMetrics (actual predicted : List Value) : Except MetricError Scores := do
  if actual.length ≠ predicted.length then
    throw (.value "actual and predicted must have the same length")
  let actual ← validateBooleanSequence actual "actual"
  let predicted ← validateBooleanSequence predicted "predicted"
  (confusion (actual.zip predicted)).scores

structure MulticlassMetrics where
  perLabel : List (String × Scores)
  macroScores : Scores
  accuracy : Rat
  deriving DecidableEq, Repr

/-- `sorted(set(actual) | set(predicted))` -/
def labelsOf (actual predicted : List String) : List String :=
  KeyOrder.orderBy (fun label : String => label) (Gains.firsts [] (actual ++ predicted))

/-- The counts of one label against all the others. -/
def labelConfusion (actual predicted : List String) (label : String) : Confusion :=
  confusion ((actual.zip predicted).map fun e => (e.1 == label, e.2 == label))

/-- `sum(values) / len(values) if values else 0.0` -/
def average (values : List Rat) : Except MetricError Rat :=
  if values ≠ [] then divide values.sum values.length else .ok 0

/-- mirrors evaluation/metrics.py:192-196 -/
def accuracyOf (actual predicted : List String) : Except MetricError Rat :=
  if actual ≠ [] then
    divide ((actual.zip predicted).countP fun e => e.1 == e.2 : Rat) actual.length
  else .ok 0

/-- mirrors evaluation/metrics.py:156-196 -/
def multiclassClassificationMetrics (actual predicted : List String) :
    Except MetricError MulticlassMetrics := do
  if actual.length ≠ predicted.length then
    throw (.value "actual and predicted must have the same length")
  let perLabel ← (labelsOf actual predicted).mapM fun label => do
    return (label, ← (labelConfusion actual predicted label).scores)
  let precision ← average (perLabel.map (·.2.precision))
  let recallScore ← average (perLabel.map (·.2.recallScore))
  let f1 ← average (perLabel.map (·.2.f1))
  let accuracy ← accuracyOf actual predicted
  return { perLabel, macroScores := { precision, recallScore, f1 }, accuracy }

/-! ## Latencies -/

/-- A value where a latency is expected; a bool is not a number here. -/
inductive Latency where
  | number (ms : Rat)
  | notFinite
  | notNumber
  deriving DecidableEq, Repr

/-- mirrors evaluation/metrics.py:229-235 -/
def validateNonnegativeFinite (value : Latency) (name : String) : Except MetricError Rat :=
  match value with
  | .number result =>
    if result < 0 then .error (.value (name ++ " must be a nonnegative finite number"))
    else .ok result
  | .notFinite | .notNumber => .error (.value (name ++ " must be a nonnegative finite number"))

/-- `values[i]` -/
def valueAt (values : List Rat) (i : Nat) : Except MetricError Rat :=
  match values[i]? with
  | some v => .ok v
  | none => .error .index

/-- The inner function; the fraction is not negative.
mirrors evaluation/metrics.py:244-250 -/
def percentile (values : List Rat) (fraction : Rat) : Except MetricError Rat := do
  let position := ((values.length : Rat) - 1) * fraction
  let lower := ⌊position⌋₊
  let upper := ⌈position⌉₊
  if lower = upper then valueAt values lower
  else
    let low ← valueAt values lower
    let high ← valueAt values upper
    return low + (high - low) * (position - lower)

structure Percentiles where
  p50 : Rat
  p95 : Rat
  deriving DecidableEq, Repr

/-- mirrors evaluation/metrics.py:238-252 -/
def percentileLatency (latenciesMs : List Latency) : Except MetricError Percentiles := do
  if latenciesMs = [] then
    return { p50 := 0, p95 := 0 }
  let validated ← latenciesMs.mapM (validateNonnegativeFinite · "latency")
  let values := KeyOrder.orderBy (fun v : Rat => v) validated
  return { p50 := ← percentile values (1 / 2), p95 := ← percentile values (19 / 20) }

end BidScope.L11
