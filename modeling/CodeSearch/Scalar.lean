import CodeSearch.Fault
import CodeSearch.Sorting.Runs
/-!
# Numbers that scores are made of

Ranking needs few operations on numbers, and the class `Scalar` names them. Programs run on doubles;
the same definitions make sense for other numbers, such as the reals.
-/

namespace CodeSearch

class Scalar (α : Type) extends Add α, Sub α, Mul α, Div α, Neg α where
  ofInt : Int → α
  /-- Natural logarithm. -/
  log : α → α
  sqrt : α → α
  less : α → α → Bool
  /-- Equality of numbers; something that is no number does not equal itself. -/
  same : α → α → Bool
  /-- The least integer not below the number rounded to nine places. -/
  ceiling9 : α → Except Decimal.NotFinite Int
  /-- The greatest integer not above the number rounded to nine places. -/
  floor9 : α → Except Decimal.NotFinite Int

namespace Scalar

variable {α β : Type} [Scalar α]

def zero : α := ofInt 0

def one : α := ofInt 1

/-- The quotient of two integers. -/
def ratio (num den : Int) : α := ofInt num / ofInt den

/-- A number at all. -/
def isNumber (x : α) : Bool := same x x

/-- The first of two numbers unless the second is smaller. -/
def smaller (a b : α) : α := if less b a then b else a

/-- The first of two numbers unless the second is larger. -/
def larger (a b : α) : α := if less a b then b else a

/-- A number moved into an interval; what is no number goes to its upper end. -/
def clamp (low high x : α) : α := larger low (smaller high x)

/-- A number moved into an interval; what is no number stays so. -/
def clip (low high x : α) : α := if less x low then low else if less high x then high else x

/-- The sum of numbers, added up from the left. -/
def sum (xs : List α) : α := xs.foldl (· + ·) zero

/-- The greatest of some numbers, the first if there are several. -/
def greatest? : List α → Option α
  | [] => none
  | x :: rest => some (rest.foldl larger x)

end Scalar

/-! ## Sorting -/

namespace Scalar

variable {α β : Type} [Scalar α]

/-- A list by descending key; items of equal keys keep their order. Keys that are no numbers have no order,
and where there are some the list is sorted by runs. -/
def sortDescending (key : β → α) (items : List β) : List β :=
  if items.all fun item => isNumber (key item) then
    items.mergeSort fun a b => !less (key a) (key b)
  else Sorting.byRuns (fun a b => less (key b) (key a)) items

end Scalar

instance : Scalar Float where
  ofInt := Decimal.ofInt
  log := Float.log
  sqrt := Float.sqrt
  less a b := a < b
  same a b := a == b
  ceiling9 x := Decimal.ceiling (Decimal.roundPlaces 9 x)
  floor9 x := Decimal.floor (Decimal.roundPlaces 9 x)

/-- The first items of a list, as many as a number says; a negative number leaves out as many items at
the end. -/
def upTo {β : Type} (count : Int) (items : List β) : List β :=
  if 0 ≤ count then items.take count.toNat else items.take (items.length - count.natAbs)

/-- The first characters of a text, counted as by `upTo`. -/
def textUpTo (count : Int) (text : String) : String :=
  Text.ofCodes (upTo count (Text.codes text.toList))

end CodeSearch
