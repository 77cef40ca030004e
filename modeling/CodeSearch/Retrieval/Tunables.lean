import CodeSearch.Json.Number
import CodeSearch.Record.Unfit
import CodeSearch.Scalar
/-!
# Sizes and weights of the pipeline

The numbers that a search can be tuned by: how many candidates each stage lets through, and how the
scores of the stages are blended. A size that is no integer can be compared with, but cannot end a list.
-/

namespace CodeSearch

/-- The sizes and weights of the pipeline. -/
structure Tunables (α : Type) where
  prefilterSize : Number
  recallSize : Number
  similarityThreshold : α
  /-- The number of results unless another is asked for. -/
  resultSize : Number
  lexicalBlend : α
  structuralBlend : α
  retentionRatio : α
  patternRetentionRatio : α
  patternMinRetained : Number
  patternThresholdFactor : α
  patternSizeMultiplier : Number
  /-- The identifiers of a fragment that go into its query. -/
  patternMaxIdentifiers : Int
  /-- Those that cannot be used. -/
  unfit : Unfit := []

/-- The identifiers of a fragment that go into its query unless another number is asked for. -/
def patternMaxIdentifiers : Int := 20

namespace Tunables

attribute [local instance] powInt

/-- The sizes and weights that hold unless others are asked for. -/
def standard {α : Type} [Scalar α] : Tunables α where
  prefilterSize := .whole 100
  recallSize := .whole 50
  similarityThreshold := Scalar.ratio 3 10
  resultSize := .whole 10
  lexicalBlend := Scalar.ratio 7 10
  structuralBlend := Scalar.ratio 3 10
  retentionRatio := Scalar.ratio 8 10
  patternRetentionRatio := Scalar.ratio 5 10
  patternMinRetained := .whole 5
  patternThresholdFactor := Scalar.ratio 8 10
  patternSizeMultiplier := .whole 2
  patternMaxIdentifiers := CodeSearch.patternMaxIdentifiers

/-- A share that is larger than this keeps all candidates, and one that is smaller than its negative keeps
none. -/
def largestShare : Int := 2 ^ (40 : Nat)

/-- The share that a value sets. -/
def shareOf (value : Json) : Except Fault Float := do
  match ← Number.ofJson value with
  | .whole n => return Decimal.ofInt (max (-largestShare) (min largestShare n))
  | .real x => return x

/-- What a number is compared with. It stays finite, so that it has a product with zero. -/
def bar (value : Json) : Except Fault Float := do return (← Number.ofJson value).nearest

def thresholdName : String := "similarity_threshold"

def factorName : String := "pattern_threshold_factor"

/-- The factor for the threshold of a record, which must have a product with it. -/
def factor (record : Json.Fields) (value : Json) : Except Fault Float := do
  let _ ← ((record.get? thresholdName).getD (.float 1)).times value
  bar value

/-- A record with a factor, which is the usual one if it has none. -/
def withFactor (record : Json.Fields) : Json.Fields :=
  match record.get? factorName with
  | some _ => record
  | none => record.set factorName (.float (standard : Tunables Float).patternThresholdFactor)

open Lenient in
/-- The sizes and weights that a record gives, and the usual ones for those it leaves out. The number of
identifiers is not the record's to give. -/
def read (record : Json.Fields) : Tunables Float :=
  let usual : Tunables Float := standard
  run (do
    return {
      prefilterSize := ← setting record "prefilter_size" usual.prefilterSize Number.ofJson
      recallSize := ← setting record "vector_recall_size" usual.recallSize Number.ofJson
      similarityThreshold := ← setting record thresholdName usual.similarityThreshold bar
      resultSize := ← setting record "final_result_size" usual.resultSize Number.ofJson
      lexicalBlend := ← setting record "lexical_blend" usual.lexicalBlend Json.toWeight
      structuralBlend := ← setting record "structural_blend" usual.structuralBlend Json.toWeight
      retentionRatio := ← setting record "retention_ratio" usual.retentionRatio shareOf
      patternRetentionRatio :=
        ← setting record "pattern_retention_ratio" usual.patternRetentionRatio shareOf
      patternMinRetained :=
        ← setting record "pattern_min_retained" usual.patternMinRetained Number.ofJson
      patternThresholdFactor := ← setting (withFactor record) factorName usual.patternThresholdFactor
        (factor record)
      patternSizeMultiplier :=
        ← setting record "pattern_size_multiplier" usual.patternSizeMultiplier Number.ofJson
      patternMaxIdentifiers := usual.patternMaxIdentifiers })
    fun (tunables : Tunables Float) unfit => { tunables with unfit }

/-- The sizes and weights that may be given. -/
def names : List String :=
  ["prefilter_size", "vector_recall_size", thresholdName, "final_result_size", "lexical_blend",
    "structural_blend", "retention_ratio", "pattern_retention_ratio", "pattern_min_retained",
    factorName, "pattern_size_multiplier"]

/-- The sizes and weights that a record gives, which may give nothing else. -/
def ofRecord (record : Json.Fields) : Except Fault (Tunables Float) := do
  record.only names
  return read record

end Tunables

end CodeSearch
