import CodeSearch.Instances
/-!
# Doubles as exact numbers

A finite double is `± mantissa · 2 ^ exponent`. `Decimal.decode` reads that form off the bits, and
`Decimal.nearest` goes the other way: it gives the double nearest to a quotient of natural numbers,
a tie going to the even mantissa. Everything between the two is exact arithmetic on natural numbers.
-/

namespace CodeSearch.Decimal

attribute [local instance] powNat

/-- A finite double: `mantissa · 2 ^ exponent`, with its sign. -/
structure Binary where
  negative : Bool
  mantissa : Nat
  exponent : Int
deriving DecidableEq, Repr

/-- What a double stands for. -/
inductive Reading where
  | nan
  | infinite (negative : Bool)
  | finite (value : Binary)
deriving DecidableEq, Repr

/-- The exponent of the unit in the last place of the smallest doubles. -/
def leastExponent : Int := -1074

/-- What the bits of a double say: sign, eleven bits of exponent, fifty-two of fraction. -/
def decode (x : Float) : Reading :=
  let bits := x.toBits.toNat
  let negative := bits / 2 ^ (63 : Nat) == 1
  let field : Nat := bits / 2 ^ (52 : Nat) % 2 ^ (11 : Nat)
  let fraction : Nat := bits % 2 ^ (52 : Nat)
  if field = 2047 then
    if fraction = 0 then .infinite negative else .nan
  else if field = 0 then .finite ⟨negative, fraction, leastExponent⟩
  else .finite ⟨negative, 2 ^ (52 : Nat) + fraction, (field : Int) - 1075⟩

/-- The quotient of two natural numbers rounded to the nearest, a tie to the even neighbour. -/
def roundDiv (num den : Nat) : Nat :=
  let quotient := num / den
  let twice := 2 * (num % den)
  if twice > den || (twice == den && quotient % 2 == 1) then quotient + 1 else quotient

/-- The quotient `num / (den · 2 ^ exponent)` as numerator and denominator. -/
def scaleBy (exponent : Int) (num den : Nat) : Nat × Nat :=
  if 0 ≤ exponent then (num, den * 2 ^ exponent.toNat) else (num * 2 ^ (-exponent).toNat, den)

/-- The exponent at which the quotient of two positive numbers has a mantissa of 53 bits, unless it
is so small that only fewer are left. -/
def ulpExponent (num den : Nat) : Int :=
  let guess : Int := (num.log2 : Int) - den.log2 - 53
  let scaled := scaleBy guess num den
  let exponent := if scaled.1 / scaled.2 < 2 ^ (53 : Nat) then guess else guess + 1
  max exponent leastExponent

/-- The double with a mantissa below `2 ^ 53`, or equal to it, at an exponent. A mantissa that has
been rounded up to `2 ^ 53` moves into the next exponent by itself. -/
def encode (negative : Bool) (mantissa : Nat) (exponent : Int) : Float :=
  let magnitude :=
    if mantissa < 2 ^ (52 : Nat) then mantissa
    else (exponent + 1075).toNat * 2 ^ (52 : Nat) + (mantissa - 2 ^ (52 : Nat))
  let bounded := min magnitude (2047 * 2 ^ (52 : Nat))
  Float.ofBits (UInt64.ofNat ((if negative then 2 ^ (63 : Nat) else 0) + bounded))

/-- The double nearest to `num / den`, a tie going to the even mantissa. -/
def nearest (negative : Bool) (num den : Nat) : Float :=
  if num = 0 then encode negative 0 leastExponent
  else
    let exponent := ulpExponent num den
    let scaled := scaleBy exponent num den
    encode negative (roundDiv scaled.1 scaled.2) exponent

/-- About the number of decimal digits of a positive number: at most one less than it is, as long as the
number has fewer than ten million of them. -/
def decimalSize (n : Nat) : Nat := n.log2 * 30103 / 100000 + 1

/-- The double nearest to `digits · 10 ^ exponent`. Far outside the range of doubles the answer is
infinite or zero, whatever the digits. -/
def ofDigits (negative : Bool) (digits : Nat) (exponent : Int) : Float :=
  if digits = 0 then encode negative 0 leastExponent
  else
    let size : Int := decimalSize digits + exponent
    if size > 800 then encode negative (2 ^ (52 : Nat)) 1024
    else if size < -800 then encode negative 0 leastExponent
    else if 0 ≤ exponent then nearest negative (digits * 10 ^ exponent.toNat) 1
    else nearest negative digits (10 ^ (-exponent).toNat)

/-- The double nearest to an integer. -/
def ofInt (n : Int) : Float := nearest (n < 0) n.natAbs 1

/-- The absolute value of a finite double as a quotient. -/
def Binary.ratio (b : Binary) : Nat × Nat :=
  if 0 ≤ b.exponent then (b.mantissa * 2 ^ b.exponent.toNat, 1)
  else (b.mantissa, 2 ^ (-b.exponent).toNat)

/-- Why a double has no integer near it. -/
inductive NotFinite where
  | nan
  | infinite
deriving DecidableEq, Repr

/-- Apply a rule for finite doubles. -/
def onFinite {α : Type} (x : Float) (rule : Binary → α) : Except NotFinite α :=
  match decode x with
  | .nan => .error .nan
  | .infinite _ => .error .infinite
  | .finite b => .ok (rule b)

/-- A natural number with the sign of a double. -/
def signed (negative : Bool) (n : Nat) : Int := if negative then -(n : Int) else n

/-- The nearest integer, a tie to the even neighbour. -/
def round (x : Float) : Except NotFinite Int :=
  onFinite x fun b => signed b.negative (roundDiv b.ratio.1 b.ratio.2)

/-- The integer part. -/
def truncate (x : Float) : Except NotFinite Int :=
  onFinite x fun b => signed b.negative (b.ratio.1 / b.ratio.2)

/-- A double that is an integer. -/
def integral? (x : Float) : Option Int :=
  match decode x with
  | .finite b =>
    if b.ratio.1 % b.ratio.2 = 0 then some (signed b.negative (b.ratio.1 / b.ratio.2)) else none
  | _ => none

/-- The double rounded to a number of decimal places: the multiple of `10 ^ -places` nearest to its
exact value, a tie to the even one, and of that the nearest double. -/
def roundPlaces (places : Nat) (x : Float) : Float :=
  match decode x with
  | .finite b =>
    nearest b.negative (roundDiv (b.ratio.1 * 10 ^ places) b.ratio.2) (10 ^ places)
  | _ => x

/-- The least integer not below. -/
def ceiling (x : Float) : Except NotFinite Int :=
  onFinite x fun b => -((-signed b.negative b.ratio.1).fdiv b.ratio.2)

/-- The greatest integer not above. -/
def floor (x : Float) : Except NotFinite Int :=
  onFinite x fun b => (signed b.negative b.ratio.1).fdiv b.ratio.2

end CodeSearch.Decimal
