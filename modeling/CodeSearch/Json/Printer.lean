import CodeSearch.Json.Value
import CodeSearch.Decimal.Shortest
import CodeSearch.Text.Half
import CodeSearch.Text.Printable
/-!
# Writing data values

`Json.render` writes a value in the data format, on one line or indented, and with characters beyond
ASCII as they are or by their codes. `Json.display` writes it as messages and keys show it: a text as
it is, and inside brackets in quotes.
-/

namespace CodeSearch.Json

/-- A hexadecimal digit below 16, in lower case. -/
def hexDigit (n : Nat) : Char :=
  if n < 10 then Char.ofNat (48 + n) else Char.ofNat (87 + n)

/-- A number with a fixed count of hexadecimal digits. -/
def hexText : Nat → Nat → List Char
  | 0, _ => []
  | width + 1, n => hexText width (n / 16) ++ [hexDigit (n % 16)]

/-- One code unit behind a backslash. -/
def unitEscape (n : Nat) : List Char := '\\' :: 'u' :: hexText 4 n

/-- A character in a text in quotes. -/
def escapeChar (c : Char) : List Char :=
  match c with
  | '"' => ['\\', '"']
  | '\\' => ['\\', '\\']
  | '\n' => ['\\', 'n']
  | '\r' => ['\\', 'r']
  | '\t' => ['\\', 't']
  | '\x0c' => ['\\', 'f']
  | '\x08' => ['\\', 'b']
  | c => if c.toNat < 32 then unitEscape c.toNat else [c]

/-- A code of a text in quotes, in characters of ASCII. -/
def escapeCode (code : Nat) : List Char :=
  if code < 127 then escapeChar (Char.ofNat code)
  else if code < 0x10000 then unitEscape code
  else
    unitEscape (0xd800 + (code - 0x10000) / 0x400) ++ unitEscape (0xdc00 + (code - 0x10000) % 0x400)

/-- A text in quotes. -/
def quote (asciiOnly : Bool) (text : List Char) : List Char :=
  let body := if asciiOnly then (Text.codes text).flatMap escapeCode else text.flatMap escapeChar
  '"' :: (body ++ ['"'])

/-- The spelling of doubles in the data format. -/
def floatFormat : Decimal.Format := { Decimal.plainFormat with nan := "NaN", infinity := "Infinity" }

/-- How values are written. -/
structure Style where
  /-- Characters beyond ASCII are written by their codes. -/
  asciiOnly : Bool := false
  /-- Each item is on a line of its own, indented by so many blanks per level. -/
  indent : Option Nat := none
deriving Repr

/-- What stands before an item at a depth. -/
def Style.lineStart (style : Style) (depth : Nat) : List Char :=
  match style.indent with
  | none => []
  | some width => '\n' :: List.replicate (width * depth) ' '

/-- What stands between two items at a depth. -/
def Style.separator (style : Style) (depth : Nat) : List Char :=
  match style.indent with
  | none => [',', ' ']
  | some _ => ',' :: style.lineStart depth

mutual

/-- The characters of a value at a depth. -/
def chars (style : Style) (depth : Nat) : Json → List Char
  | .null => ['n', 'u', 'l', 'l']
  | .bool true => ['t', 'r', 'u', 'e']
  | .bool false => ['f', 'a', 'l', 's', 'e']
  | .int n => (toString n).toList
  | .float x => (Decimal.text floatFormat x).toList
  | .str s => quote style.asciiOnly s.toList
  | .arr [] => ['[', ']']
  | .arr (item :: items) =>
    '[' :: (style.lineStart (depth + 1) ++ chars style (depth + 1) item
      ++ itemChars style (depth + 1) items ++ style.lineStart depth ++ [']'])
  | .obj [] => ['{', '}']
  | .obj ((name, value) :: fields) =>
    '{' :: (style.lineStart (depth + 1) ++ quote style.asciiOnly name.toList ++ ':' :: ' '
      :: chars style (depth + 1) value
      ++ fieldChars style (depth + 1) fields ++ style.lineStart depth ++ ['}'])

/-- The further items of a list. -/
def itemChars (style : Style) (depth : Nat) : List Json → List Char
  | [] => []
  | item :: items =>
    style.separator depth ++ chars style depth item ++ itemChars style depth items

/-- The further fields of an object. -/
def fieldChars (style : Style) (depth : Nat) : List (String × Json) → List Char
  | [] => []
  | (name, value) :: fields =>
    style.separator depth ++ quote style.asciiOnly name.toList ++ ':' :: ' '
      :: chars style depth value ++ fieldChars style depth fields

end

/-- The text of a value in the data format. -/
def render (style : Style) (value : Json) : String := String.ofList (chars style 0 value)

/-! ## Values in messages and keys -/

/-- A code that is shown as a number. -/
def numberedCode (code : Nat) : List Char :=
  if code < 0x100 then '\\' :: 'x' :: hexText 2 code
  else if code < 0x10000 then '\\' :: 'u' :: hexText 4 code
  else '\\' :: 'U' :: hexText 8 code

/-- A code of a text in quotes of one kind: halves and unprintable characters are shown by numbers. -/
def showCode (mark : Char) (code : Nat) : List Char :=
  if Text.isHalf code then numberedCode code
  else
    let c := Char.ofNat code
    if c == mark || c == '\\' then ['\\', c]
    else if c == '\n' then ['\\', 'n']
    else if c == '\r' then ['\\', 'r']
    else if c == '\t' then ['\\', 't']
    else if Text.isPrintable c then [c]
    else numberedCode code

/-- A text in single quotes, or in double ones if it holds a single but no double quote. -/
def showText (text : String) : List Char :=
  let cs := text.toList
  let mark := if cs.contains '\'' && !cs.contains '"' then '"' else '\''
  mark :: ((Text.codes cs).flatMap (showCode mark) ++ [mark])

mutual

/-- The characters of a value inside brackets. -/
def showChars : Json → List Char
  | .null => "None".toList
  | .bool true => "True".toList
  | .bool false => "False".toList
  | .int n => (toString n).toList
  | .float x => (Decimal.text Decimal.plainFormat x).toList
  | .str s => showText s
  | .arr [] => ['[', ']']
  | .arr (item :: items) => '[' :: (showChars item ++ showItems items ++ [']'])
  | .obj [] => ['{', '}']
  | .obj ((name, value) :: fields) =>
    '{' :: (showText name ++ ':' :: ' ' :: showChars value ++ showFields fields ++ ['}'])

/-- The further items of a list. -/
def showItems : List Json → List Char
  | [] => []
  | item :: items => ',' :: ' ' :: showChars item ++ showItems items

/-- The further fields of an object. -/
def showFields : List (String × Json) → List Char
  | [] => []
  | (name, value) :: fields =>
    ',' :: ' ' :: showText name ++ ':' :: ' ' :: showChars value ++ showFields fields

end

/-- A value as a message or a key shows it: a text as it is. -/
def display : Json → String
  | .str s => s
  | value => String.ofList (showChars value)

/-- A text in quotes, as messages show it. -/
def quoted (text : String) : String := String.ofList (showText text)

end CodeSearch.Json
