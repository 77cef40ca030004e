import CodeSearch.Json.Parser
import CodeSearch.Record.Issue
import CodeSearch.Text.Half
/-!
# Checked records

A record is read field by field, and the issues of all fields are gathered in the order of the fields.
Readers are lenient where the meaning is plain: an integer may be given as a truth value, as a double
without fraction, or in digits.
-/

namespace CodeSearch.Record

attribute [local instance] powInt

/-- A value that has been read, or all issues that stand against it. -/
inductive Checked (α : Type) where
  | good (value : α)
  | bad (issues : List Issue)

namespace Checked

variable {α β : Type}

/-- One problem, at the place itself. -/
def fail (problem : Problem) : Checked α := .bad [⟨[], problem⟩]

def issues : Checked α → List Issue
  | .good _ => []
  | .bad issues => issues

def map (f : α → β) : Checked α → Checked β
  | .good value => .good (f value)
  | .bad issues => .bad issues

/-- Both values, or the issues of both. -/
def seq (f : Checked (α → β)) (a : Checked α) : Checked β :=
  match f, a with
  | .good f, .good a => .good (f a)
  | f, a => .bad (f.issues ++ a.issues)

/-- A further check of a value that has been read. -/
def andThen (a : Checked α) (check : α → Checked β) : Checked β :=
  match a with
  | .good value => check value
  | .bad issues => .bad issues

/-- The issues one step further out. -/
def under (step : Step) : Checked α → Checked α
  | .good value => .good value
  | .bad issues => .bad (issues.map (Issue.under step))

def value? : Checked α → Option α
  | .good value => some value
  | .bad _ => none

instance : Functor Checked := ⟨map, fun a => map fun _ => a⟩

instance : Applicative Checked where
  pure := .good
  seq f a := seq f (a ())

end Checked

/-- All values in order, or the issues of all. -/
def collect {α : Type} : List (Checked α) → Checked (List α)
  | [] => .good []
  | a :: rest => (a.map List.cons).seq (collect rest)

/-! ## Readers of values -/

def text : Json → Checked String
  | .str s => .good s
  | _ => .fail .notText

def textOrNull : Json → Checked (Option String)
  | .null => .good none
  | .str s => .good (some s)
  | _ => .fail .notText

/-- What is read from a text, in which no half of a pair may stand. -/
def fromText {α : Type} (read : String → Except Problem α) (s : String) : Checked α :=
  if Text.isWhole s then
    match read s with
    | .ok value => .good value
    | .error problem => .fail problem
  else .fail .brokenText

/-- Two underscores stand side by side. -/
def hasDoubleUnderscore : List Char → Bool
  | '_' :: '_' :: _ => true
  | _ :: rest => hasDoubleUnderscore rest
  | [] => false

/-- The text has underscores, and each of them stands alone between two other characters. -/
def hasLooseDigits (text : List Char) : Bool :=
  text.contains '_' && text.head? ≠ some '_' && text.getLast? ≠ some '_' && !hasDoubleUnderscore text

/-- An integer in plain digits: a minus sign or none, and a zero alone or digits that start with another
one. The sign counts as a digit where there are too many of them, which is said even if something else
follows. -/
def plainInteger (text : List Char) : Except Problem Int :=
  let (negative, body) := match text with
    | '-' :: rest => (true, rest)
    | rest => (false, rest)
  match Json.readWhole? body with
  | none => .error .unreadableInteger
  | some (digits, rest) =>
    if text.length - rest.length > Decimal.integerDigitLimit then .error .integerTooLarge
    else if rest.isEmpty then .ok (Decimal.signed negative (Json.digitsValue digits))
    else .error .unreadableInteger

/-- What follows the zeros at the start of a number, and the underscores between them. Of the zeros before
a point, or before nothing at all, the last is kept. -/
def dropLeadingZeros : List Char → List Char
  | [last] => [last]
  | c :: '.' :: rest => c :: '.' :: rest
  | c :: rest => if c = '0' || c = '_' then dropLeadingZeros rest else c :: rest
  | [] => []

/-- The text before a point that zeros follow, one at least, and nothing else. -/
def dropZeroFraction (text : List Char) : List Char :=
  match text.dropWhile (· ≠ '.') with
  | _ :: '0' :: fraction => if fraction.all (· = '0') then text.takeWhile (· ≠ '.') else text
  | _ => text

/-- A minus sign, if there is one, and what follows it. A plus sign is dropped. -/
def splitSign : List Char → List Char × List Char
  | '-' :: rest => (['-'], rest)
  | '+' :: rest => ([], rest)
  | text => ([], text)

/-- Plain digits for the digits of an integer that are not plain: with white space around them, with a
plus sign or zeros in front, with zeros after a point, or with underscores. A digit has to follow the
sign. -/
def plainDigits (text : List Char) : Option (List Char) :=
  let (sign, body) := splitSign (Decimal.trimNumber text)
  if body.head?.all fun c => !c.isDigit then none
  else
    let whole := dropZeroFraction (if body.head? = some '0' then dropLeadingZeros body else body)
    if hasLooseDigits whole then some (sign ++ whole.filter (· ≠ '_'))
    else if (sign ++ whole).length < text.length then some (sign ++ whole)
    else none

/-- The integer in a text. -/
def integerText (s : String) : Except Problem Int :=
  match plainInteger s.toList, plainDigits s.toList with
  | .error .unreadableInteger, some digits => plainInteger digits
  | answer, _ => answer

/-- An integer that a double may stand for lies below this on either side of zero. -/
def integerLimit : Int := 2 ^ (63 : Nat)

def integer : Json → Checked Int
  | .int n => .good n
  | .bool b => .good (if b then 1 else 0)
  | .float x =>
    match Decimal.decode x with
    | .finite _ =>
      match Decimal.integral? x with
      | some n =>
        if -integerLimit < n && n < integerLimit then .good n else .fail .integerTooLarge
      | none => .fail .fractional
    | _ => .fail .notFinite
  | .str s => fromText integerText s
  | _ => .fail .notInteger

/-- A natural number. -/
def natural (value : Json) : Checked Nat :=
  (integer value).andThen fun n => if 0 ≤ n then .good n.toNat else .fail .negative

/-- A double in a text, in digits of ASCII. Single underscores may stand inside, but then no white space
around it. -/
def doubleText? (s : String) : Option Float :=
  let text := s.toList
  let trimmed := Decimal.trimNumber text
  let loose := hasLooseDigits text && trimmed = text
  if !trimmed.all (fun c => c.toNat < 128) || (text.contains '_' && !loose) then none
  else Decimal.readDouble? (String.ofList (text.filter (· ≠ '_')))

/-- The nearest double, unless it is infinite. -/
def finiteDouble (n : Int) : Checked Float :=
  let x := Decimal.ofInt n
  if x.isInf then .fail .notNumber else .good x

def double : Json → Checked Float
  | .int n => finiteDouble n
  | .float x => .good x
  | .bool b => .good (if b then 1 else 0)
  | .str s => fromText (fun s => (doubleText? s).elim (.error .unreadableNumber) .ok) s
  | _ => .fail .notNumber

def doubleOrNull : Json → Checked (Option Float)
  | .null => .good none
  | value => (double value).map some

/-- The items of a list, each read in its place. -/
def items {α : Type} (problem : Problem) (read : Json → Checked α) : Json → Checked (List α)
  | .arr values => collect (values.zipIdx.map fun (value, n) => (read value).under (.index n))
  | _ => .fail problem

def texts : Json → Checked (List String) := items .notTuple text

/-- The fields of an object, with the texts they hold. -/
def textMapping : Json → Checked (List (String × String))
  | .obj fields =>
    collect (fields.map fun (name, value) => ((text value).map (name, ·)).under (.field name))
  | _ => .fail .notMapping

/-- The fields of an object, whatever they hold. -/
def mapping : Json → Checked Json.Fields
  | .obj fields => .good fields
  | _ => .fail .notMapping

/-! ## Readers of fields -/

/-- A field that must be there. -/
def required {α : Type} (name : String) (read : Json → Checked α) (record : Json.Fields) : Checked α :=
  match record.get? name with
  | some value => (read value).under (.field name)
  | none => Checked.under (.field name) (.fail .missing)

/-- A field with a value to go by when it is not there. -/
def optional {α : Type} (name : String) (default : α) (read : Json → Checked α)
    (record : Json.Fields) : Checked α :=
  match record.get? name with
  | some value => (read value).under (.field name)
  | none => .good default

end CodeSearch.Record
