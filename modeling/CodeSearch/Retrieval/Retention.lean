import CodeSearch.Json.Number
import CodeSearch.Scalar
/-!
# How many candidates are kept

The graph keeps a share of the candidates. The share is taken of a product rounded to nine places, so
that a product that misses an integer by a hair counts as that integer.
-/

namespace CodeSearch.Retrieval

variable {α : Type} [Scalar α]

/-- The candidates kept of a number of them: the share rounded up. -/
def retained (ratio : α) (count : Int) : Except Fault Int := do
  let share ← (Scalar.ceiling9 (ratio * Scalar.ofInt count)).mapError Fault.ofNotFinite
  return min count share

/-- The candidates kept for a fragment of code: the share rounded down, but no fewer than a minimum. A
minimum that is no integer can be compared with. -/
def patternRetained (ratio : α) (minimum : Number) (count : Int) : Except Fault Int := do
  let share ← (Scalar.floor9 (ratio * Scalar.ofInt count)).mapError Fault.ofNotFinite
  let kept := if minimum.less (.whole share) then .whole share else minimum
  if kept.less (.whole count) then kept.toSize else return count

/-! ## Shares of values of any kind -/

/-- As `retained`, of values that may be integers or doubles. -/
def retainedOf (ratio count : Json) : Except Fault Json := do
  count.lesser (.int (← (← ratio.times count).round9.ceiling))

/-- As `patternRetained`, of values that may be integers or doubles. -/
def patternRetainedOf (ratio minimum count : Json) : Except Fault Json := do
  let share ← (← ratio.times count).round9.floor
  count.lesser (← minimum.greater (.int share))

end CodeSearch.Retrieval
