import CodeSearch.Decimal.Binary
import CodeSearch.Text.Blank
import CodeSearch.Text.Lowercase
import CodeSearch.Text.WordChar
/-!
# Numbers in texts

Reading an integer or a double from a text. Blanks around the number, digits of any script and single
underscores between digits are allowed.
-/

namespace CodeSearch.Decimal

attribute [local instance] powNat

/-- White space that may stand around a number: all but the control characters that separate fields and
records. -/
def isNumberBlank (c : Char) : Bool := Text.isBlank c && !(28 ≤ c.toNat && c.toNat ≤ 31)

/-- A text without the white space around a number. -/
def trimNumber (text : List Char) : List Char :=
  ((text.dropWhile isNumberBlank).reverse.dropWhile isNumberBlank).reverse

/-- A sign, if there is one, and what follows. -/
def takeSign : List Char → Bool × List Char
  | '-' :: rest => (true, rest)
  | '+' :: rest => (false, rest)
  | text => (false, text)

/-- A text that starts with a digit. -/
def startsWithDigit : List Char → Bool
  | [] => false
  | c :: _ => Text.isDecimalDigit c

/-- The digits at the start of a text and what follows them. After a digit, an underscore before
another digit is passed over. -/
def takeDigitsFrom (afterDigit : Bool) : List Char → List Nat × List Char
  | [] => ([], [])
  | c :: rest =>
    match Text.digitValue? c with
    | some d =>
      let (digits, tail) := takeDigitsFrom true rest
      (d :: digits, tail)
    | none =>
      if afterDigit && c == '_' && startsWithDigit rest then takeDigitsFrom false rest
      else ([], c :: rest)

/-- The digits at the start of a text, where one underscore may stand between two of them, and what
follows. No digits at all give the empty list. -/
def takeDigits (text : List Char) : List Nat × List Char := takeDigitsFrom false text

/-- The value of a list of decimal digits, most significant first. -/
def digitsValue (digits : List Nat) : Nat := digits.foldl (fun n d => 10 * n + d) 0

/-- The greatest number of digits of an integer that is read. -/
def integerDigitLimit : Nat := 4300

/-- What is said of an integer with more digits than are read. -/
def tooManyDigits (digits : Nat) : String :=
  s!"Exceeds the limit ({integerDigitLimit} digits) for integer string conversion: value has {digits} " ++
    "digits; use sys.set_int_max_str_digits() to increase the limit"

/-- Why a text is no integer. -/
inductive NotInteger where
  | unreadable
  /-- There are more digits than are read. -/
  | tooLong (digits : Nat)
deriving DecidableEq, Repr

/-- An integer: a sign or none, and digits. That there are too many of them is said even if something
else follows. -/
def readInt (text : String) : Except NotInteger Int :=
  let (negative, body) := takeSign (trimNumber text.toList)
  let (digits, rest) := takeDigits body
  if digits.isEmpty || rest.head? = some '_' then .error .unreadable
  else if digits.length > integerDigitLimit then .error (.tooLong digits.length)
  else if rest.isEmpty then .ok (signed negative (digitsValue digits))
  else .error .unreadable

/-- The names of the doubles that have no digits, in lower case. -/
def namedDouble? (negative : Bool) (name : List Char) : Option Float :=
  let lowered := String.ofList (name.map Text.asciiLowerChar)
  if lowered = "inf" || lowered = "infinity" then some (encode negative (2 ^ (52 : Nat)) 1024)
  else if lowered = "nan" then some (0.0 / 0.0)
  else none

/-- An exponent at the end of a number; none at all counts as zero. -/
def readExponent? : List Char → Option Int
  | [] => some 0
  | c :: rest =>
    if c = 'e' || c = 'E' then
      let (negative, body) := takeSign rest
      match takeDigits body with
      | ([], _) => none
      | (digits, []) => some (signed negative (digitsValue digits))
      | _ => none
    else none

/-- A double: digits with a point, a fraction and an exponent, or one of the names. -/
def readDouble? (text : String) : Option Float :=
  let (negative, body) := takeSign (trimNumber text.toList)
  let (whole, afterWhole) := takeDigits body
  let (fraction, tail) := match afterWhole with
    | '.' :: rest => takeDigits rest
    | rest => ([], rest)
  if whole.isEmpty && fraction.isEmpty then namedDouble? negative body
  else
    (readExponent? tail).map fun exponent =>
      ofDigits negative (digitsValue (whole ++ fraction)) (exponent - fraction.length)

end CodeSearch.Decimal
