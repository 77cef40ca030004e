import CodeSearch.Json.Access
/-!
# Numbers of either kind

An integer and a double are compared and multiplied exactly as long as an integer is involved in no
arithmetic of doubles: there it becomes the nearest double, and one beyond all doubles is a fault. A truth
value counts as an integer. Values that are no numbers have no order and no product.
-/

namespace CodeSearch

inductive Number where
  | whole (n : Int)
  | real (x : Float)

namespace Number

attribute [local instance] powNat powInt

/-- The number that a value is, if it is one. -/
def ofJson? : Json → Option Number
  | .int n => some (.whole n)
  | .bool b => some (.whole (if b then 1 else 0))
  | .float x => some (.real x)
  | _ => none

/-- The number that a value is. -/
def ofJson (value : Json) : Except Fault Number := ((ofJson? value).map .ok).getD (.error .wrongType)

/-- One number is smaller than another one. Something that is no number is neither. -/
def less : Number → Number → Bool
  | .whole m, .whole n => m < n
  | .real x, .real y => x < y
  | .whole n, .real x =>
    match Decimal.ceiling x with
    | .ok above => n < above
    | .error .nan => false
    | .error .infinite => 0 < x
  | .real x, .whole n =>
    match Decimal.floor x with
    | .ok below => below < n
    | .error .nan => false
    | .error .infinite => x < 0

/-- One number is no larger than another one. Something that is no number is not. -/
def atMost : Number → Number → Bool
  | .whole m, .whole n => m ≤ n
  | .real x, .real y => x ≤ y
  | .whole n, .real x =>
    match Decimal.floor x with
    | .ok below => n ≤ below
    | .error .nan => false
    | .error .infinite => 0 < x
  | .real x, .whole n =>
    match Decimal.ceiling x with
    | .ok above => above ≤ n
    | .error .nan => false
    | .error .infinite => x < 0

/-- The nearest double. -/
def toFloat : Number → Except Fault Float
  | .whole n => (Json.int n).toDouble
  | .real x => .ok x

/-- The nearest double; for an integer beyond all doubles, the last one on its side. -/
def nearest : Number → Float
  | .whole n =>
    let x := Decimal.ofInt n
    if !x.isInf then x else Decimal.encode (n < 0) (2 ^ (53 : Nat) - 1) 971
  | .real x => x

def times : Number → Number → Except Fault Number
  | .whole m, .whole n => .ok (.whole (m * n))
  | a, b => do return .real ((← a.toFloat) * (← b.toFloat))

/-- The number rounded to nine places. -/
def round9 : Number → Number
  | .whole n => .whole n
  | .real x => .real (Decimal.roundPlaces 9 x)

/-- The least integer not below. -/
def ceiling : Number → Except Fault Int
  | .whole n => .ok n
  | .real x => (Decimal.ceiling x).mapError Fault.ofNotFinite

/-- The greatest integer not above. -/
def floor : Number → Except Fault Int
  | .whole n => .ok n
  | .real x => (Decimal.floor x).mapError Fault.ofNotFinite

/-- The number as a count of items; one that is no integer counts none. -/
def toSize : Number → Except Fault Int
  | .whole n => .ok n
  | .real _ => .error .wrongType

/-- More than any list has items. -/
def beyondLists : Int := 2 ^ (63 : Nat)

/-- How many items there may be of a list that ends as soon as it has as many as a number says. -/
def bound (limit : Number) : Int :=
  match limit.ceiling with
  | .ok n => n
  | .error _ => if limit.less (.whole 0) then 0 else beyondLists

end Number

namespace Json

/-- Copies of this value can be strung together. -/
def isRepeatable : Json → Bool
  | .arr _ | .str _ => true
  | _ => false

/-- A number of copies that is out of all bounds. -/
def isBoundless : Json → Bool
  | .int n => n < -Number.beyondLists || Number.beyondLists ≤ n
  | _ => false

/-- The product of two values, which must be numbers. Where a text or a list should be repeated, a number
of copies out of all bounds is noticed first. -/
def times (a b : Json) : Except Fault Number :=
  match Number.ofJson? a, Number.ofJson? b with
  | some x, some y => x.times y
  | _, _ =>
    if a.isRepeatable && b.isBoundless || b.isRepeatable && a.isBoundless then .error .overflow
    else .error .wrongType

/-- One value is smaller than another one; only numbers have an order. -/
def isLess (a b : Json) : Except Fault Bool := do return (← Number.ofJson a).less (← Number.ofJson b)

/-- The first of two values unless the second is smaller. -/
def lesser (a b : Json) : Except Fault Json := do return if ← b.isLess a then b else a

/-- The first of two values unless the second is larger. -/
def greater (a b : Json) : Except Fault Json := do return if ← a.isLess b then b else a

/-! ## Limits -/

/-- A limit that lets nothing through. -/
def isSpent (limit : Json) : Except Fault Bool := do return (← Number.ofJson limit).atMost (.whole 0)

/-- How many items of a list a value lets through. Null lets all of them through. -/
def sliceEnd : Json → Except Fault Int
  | .null => .ok Number.beyondLists
  | value => value.toSize

end Json

end CodeSearch
