import CodeSearch.Decimal.Binary
/-!
# The text of a double

`Decimal.fixed` writes a fixed number of places. `Decimal.shortest` writes the fewest significant
digits that read back as the same double, and of several such texts the nearest; `Decimal.text` sets
those digits positionally or with an exponent, as its format says.
-/

namespace CodeSearch.Decimal

attribute [local instance] powNat

/-- The decimal digits of a natural number, `0` for zero. -/
def digitText (n : Nat) : List Char := (toString n).toList

/-- A text extended by zeros at its left up to a width. -/
def padZeros (width : Nat) (digits : List Char) : List Char :=
  List.replicate (width - digits.length) '0' ++ digits

/-- A natural number of `10 ^ -places` units with a decimal point. -/
def pointed (places units : Nat) : List Char :=
  let digits := padZeros (places + 1) (digitText units)
  let whole := digits.length - places
  if places = 0 then digits else digits.take whole ++ '.' :: digits.drop whole

/-- The text of a double with a fixed number of places, rounded from its exact value with ties to
the even neighbour. -/
def fixed (places : Nat) (x : Float) : String :=
  match decode x with
  | .nan => "nan"
  | .infinite negative => if negative then "-inf" else "inf"
  | .finite b =>
    let text := pointed places (roundDiv (b.ratio.1 * 10 ^ places) b.ratio.2)
    String.ofList (if b.negative then '-' :: text else text)

/-- Decimal digits and the power of ten of the last of them. -/
structure Digits where
  digits : Nat
  exponent : Int
deriving DecidableEq, Repr

/-- The quotient in units of `10 ^ exponent`, as numerator and denominator. -/
def inUnits (exponent : Int) (ratio : Nat × Nat) : Nat × Nat :=
  if 0 ≤ exponent then (ratio.1, ratio.2 * 10 ^ exponent.toNat)
  else (ratio.1 * 10 ^ (-exponent).toNat, ratio.2)

/-- The number of decimal digits before the point of a quotient of positive numbers, counted down
below zero by the zeros that follow the point. -/
def magnitude (ratio : Nat × Nat) : Int :=
  if ratio.1 ≥ ratio.2 then (digitText (ratio.1 / ratio.2)).length
  else 1 - ((digitText ((ratio.2 - 1) / ratio.1)).length : Int)

/-- The two neighbours of a quotient on the grid of a number of significant digits, nearer first. -/
def neighbours (count : Nat) (ratio : Nat × Nat) : List Digits :=
  let exponent := magnitude ratio - count
  let units := inUnits exponent ratio
  let low := units.1 / units.2
  let near := roundDiv units.1 units.2
  let far := if near = low then low + 1 else low
  [⟨near, exponent⟩, ⟨far, exponent⟩]

/-- All digits of a finite double. -/
def exactDigits (b : Binary) : Digits :=
  if 0 ≤ b.exponent then ⟨b.mantissa * 2 ^ b.exponent.toNat, 0⟩
  else ⟨b.mantissa * 5 ^ (-b.exponent).toNat, b.exponent⟩

/-- The fewest digits that read back as the same double, and the nearest of those. -/
def shortest (b : Binary) : Digits :=
  let same := encode false b.mantissa b.exponent
  let reads (d : Digits) : Bool := ofDigits false d.digits d.exponent == same
  match ((List.range 17).flatMap fun n => neighbours (n + 1) b.ratio).find? reads with
  | some d => d
  | none => exactDigits b

/-- The text without trailing zeros, and how many there were. -/
def dropZeros (digits : List Char) : List Char × Nat :=
  let kept := (digits.reverse.dropWhile (· == '0')).reverse
  (kept, digits.length - kept.length)

/-- How the digits of a double are set. -/
structure Format where
  /-- A number below `10 ^ positionalTo` is written without exponent. -/
  positionalTo : Int
  /-- A number of at least `10 ^ positionalFrom` is written without exponent. -/
  positionalFrom : Int
  nan : String
  infinity : String
deriving Repr

/-- Numbers from a ten-thousandth up to ten to the sixteenth are written positionally. -/
def plainFormat : Format := ⟨16, -4, "nan", "inf"⟩

/-- Digits with the point after the first `point` of them; `point` may lie outside of them. -/
def placePoint (digits : List Char) (point : Int) : List Char :=
  if point ≤ 0 then '0' :: '.' :: (List.replicate (-point).toNat '0' ++ digits)
  else if point.toNat ≥ digits.length then
    digits ++ List.replicate (point.toNat - digits.length) '0' ++ ['.', '0']
  else digits.take point.toNat ++ '.' :: digits.drop point.toNat

/-- Digits with an exponent of at least two places. -/
def withExponent (digits : List Char) (exponent : Int) : List Char :=
  let mantissa := match digits with
    | [] => ['0']
    | [d] => [d]
    | d :: rest => d :: '.' :: rest
  mantissa ++ 'e' :: (if exponent < 0 then '-' else '+') ::
    padZeros 2 (digitText exponent.natAbs)

/-- The text of a double by its fewest digits. -/
def text (format : Format) (x : Float) : String :=
  match decode x with
  | .nan => format.nan
  | .infinite negative => if negative then "-" ++ format.infinity else format.infinity
  | .finite b =>
    let body :=
      if b.mantissa = 0 then ['0', '.', '0']
      else
        let d := shortest b
        let (digits, zeros) := dropZeros (digitText d.digits)
        let point : Int := digits.length + zeros + d.exponent
        if format.positionalFrom < point && point ≤ format.positionalTo then placePoint digits point
        else withExponent digits (point - 1)
    String.ofList (if b.negative then '-' :: body else body)

end CodeSearch.Decimal
