import CodeSearch.Json.Value
import CodeSearch.Text.Half
/-!
# Reading data values

`Json.parse` reads a text that holds one value. A failure names what is wrong and where: readers pass
on the rest of the text at the place of the failure, and `Json.parse` turns that rest into a position,
a line and a column.

Three spellings beyond the standard are read: `NaN`, `Infinity` and `-Infinity`. Of two fields of one
name the later value counts, in the place of the earlier one.
-/

namespace CodeSearch.Json

/-- What is wrong with a text that is no value. -/
inductive Issue where
  | expectedValue
  | expectedName
  | expectedColon
  | expectedComma
  | extraData
  | openString
  | controlCharacter
  | badEscape
  | badUnicodeEscape
  | byteOrderMark
  /-- An integer of more digits than are read. -/
  | longInteger (digits : Nat)
  /-- A list or an object inside more of them than are read. -/
  | deepList
  | deepObject
deriving DecidableEq, Repr

def Issue.text : Issue → String
  | .expectedValue => "Expecting value"
  | .expectedName => "Expecting property name enclosed in double quotes"
  | .expectedColon => "Expecting ':' delimiter"
  | .expectedComma => "Expecting ',' delimiter"
  | .extraData => "Extra data"
  | .openString => "Unterminated string starting at"
  | .controlCharacter => "Invalid control character at"
  | .badEscape => "Invalid \\escape"
  | .badUnicodeEscape => "Invalid \\uXXXX escape"
  | .byteOrderMark => "Unexpected UTF-8 BOM (decode using utf-8-sig)"
  | .longInteger digits => Decimal.tooManyDigits digits
  | .deepList => "maximum recursion depth exceeded while decoding a JSON array from a unicode string"
  | .deepObject => "maximum recursion depth exceeded while decoding a JSON object from a unicode string"

/-- The text is not in the data format. -/
def Issue.isSyntax : Issue → Bool
  | .longInteger _ | .deepList | .deepObject => false
  | _ => true

/-- The values of the text are nested too deeply. -/
def Issue.isDepth : Issue → Bool
  | .deepList | .deepObject => true
  | _ => false

/-- An issue and the rest of the text at the place where it shows. -/
structure Failure where
  issue : Issue
  rest : List Char

/-- The blanks between the parts of a value. -/
def isGap (c : Char) : Bool := c == ' ' || c == '\t' || c == '\n' || c == '\r'

def skipGap (text : List Char) : List Char := text.dropWhile isGap

def hexValue? (c : Char) : Option Nat :=
  if '0' ≤ c && c ≤ '9' then some (c.toNat - 48)
  else if 'a' ≤ c && c ≤ 'f' then some (c.toNat - 87)
  else if 'A' ≤ c && c ≤ 'F' then some (c.toNat - 55)
  else none

/-- The value of four hexadecimal digits. -/
def hex4? (a b c d : Char) : Option Nat := do
  let a ← hexValue? a
  let b ← hexValue? b
  let c ← hexValue? c
  let d ← hexValue? d
  some (((a * 16 + b) * 16 + c) * 16 + d)

/-- The character that a single letter after a backslash stands for. -/
def escaped? : Char → Option Char
  | '"' => some '"'
  | '\\' => some '\\'
  | '/' => some '/'
  | 'b' => some '\x08'
  | 'f' => some '\x0c'
  | 'n' => some '\n'
  | 'r' => some '\r'
  | 't' => some '\t'
  | _ => none

def isHighSurrogate (n : Nat) : Bool := 0xd800 ≤ n && n ≤ 0xdbff

def isLowSurrogate (n : Nat) : Bool := 0xdc00 ≤ n && n ≤ 0xdfff

/-- The character of a pair of code units. -/
def pairChar (high low : Nat) : Char :=
  Char.ofNat (0x10000 + (high - 0xd800) * 0x400 + (low - 0xdc00))

/-- What a text in quotes is made of: characters, and code units given by four digits. -/
inductive Piece where
  | char (c : Char)
  | unit (n : Nat)

/-- The characters of the pieces: two units that make a pair give one character, and half of a pair that
stands alone has a character that stands for it. -/
def joinPieces : List Piece → List Char
  | [] => []
  | .char c :: rest => c :: joinPieces rest
  | .unit high :: .unit low :: rest =>
    if isHighSurrogate high && isLowSurrogate low then
      Text.keepChar (pairChar high low) ++ joinPieces rest
    else Text.ofCode high ++ joinPieces (.unit low :: rest)
  | .unit n :: rest => Text.ofCode n ++ joinPieces rest

/-- Put a piece in front of what has been read. -/
def prependPiece (piece : Piece) (answer : List Piece × List Char) : List Piece × List Char :=
  (piece :: answer.1, answer.2)

/-- The pieces of a text in quotes, after the first quote. `start` is the rest of the text at that
quote. After a code of four digits at least one more character has to follow. -/
def readPieces (start : List Char) : List Char → Except Failure (List Piece × List Char)
  | [] => .error ⟨.openString, start⟩
  | '"' :: rest => .ok ([], rest)
  | '\\' :: 'u' :: a :: b :: c :: d :: next :: rest =>
    match hex4? a b c d with
    | none => .error ⟨.badUnicodeEscape, 'u' :: a :: b :: c :: d :: next :: rest⟩
    | some n => (readPieces start (next :: rest)).map (prependPiece (.unit n))
  | '\\' :: 'u' :: rest => .error ⟨.badUnicodeEscape, 'u' :: rest⟩
  | ['\\'] => .error ⟨.openString, start⟩
  | '\\' :: c :: rest =>
    match escaped? c with
    | none => .error ⟨.badEscape, '\\' :: c :: rest⟩
    | some d => (readPieces start rest).map (prependPiece (.char d))
  | c :: rest =>
    if c.toNat < 32 then .error ⟨.controlCharacter, c :: rest⟩
    else (readPieces start rest).map (prependPiece (.char c))

/-- A text in quotes, after the first quote. -/
def readString (start text : List Char) : Except Failure (String × List Char) :=
  (readPieces start text).map fun (pieces, rest) => (String.ofList (joinPieces pieces), rest)

def isDigit (c : Char) : Bool := '0' ≤ c && c ≤ '9'

/-- The value of a list of digit characters. -/
def digitsValue (digits : List Char) : Nat :=
  digits.foldl (fun n c => 10 * n + (c.toNat - 48)) 0

/-- The digits before the point: a zero alone, or digits that start with another one. -/
def readWhole? : List Char → Option (List Char × List Char)
  | '0' :: rest => some (['0'], rest)
  | c :: rest =>
    if isDigit c then some (c :: rest.takeWhile isDigit, rest.dropWhile isDigit) else none
  | [] => none

/-- The digits after a point; a point that no digit follows is left standing. -/
def readFraction : List Char → List Char × List Char
  | '.' :: rest =>
    let digits := rest.takeWhile isDigit
    if digits.isEmpty then ([], '.' :: rest) else (digits, rest.dropWhile isDigit)
  | text => ([], text)

/-- The exponent; a letter that no digits follow is left standing. -/
def readExponent (text : List Char) : Option Int × List Char :=
  match text with
  | c :: rest =>
    if c == 'e' || c == 'E' then
      let (negative, body) := match rest with
        | '-' :: more => (true, more)
        | '+' :: more => (false, more)
        | more => (false, more)
      let digits := body.takeWhile isDigit
      if digits.isEmpty then (none, text)
      else (some (Decimal.signed negative (digitsValue digits)), body.dropWhile isDigit)
    else (none, text)
  | [] => (none, text)

/-- A number: an integer if neither a fraction nor an exponent follows its digits, else a double. -/
def readNumber (text : List Char) : Except Failure (Json × List Char) :=
  let (negative, body) := match text with
    | '-' :: rest => (true, rest)
    | rest => (false, rest)
  match readWhole? body with
  | none => .error ⟨.expectedValue, text⟩
  | some (whole, afterWhole) =>
    let (fraction, afterFraction) := readFraction afterWhole
    let (exponent, rest) := readExponent afterFraction
    if fraction.isEmpty && exponent.isNone then
      if whole.length > Decimal.integerDigitLimit then .error ⟨.longInteger whole.length, text⟩
      else .ok (.int (Decimal.signed negative (digitsValue whole)), rest)
    else
      .ok (.float (Decimal.ofDigits negative (digitsValue (whole ++ fraction))
        (exponent.getD 0 - fraction.length)), rest)

/-- A word that stands for a value. -/
def readWord (text : List Char) : Option (Json × List Char) :=
  match text with
  | 'n' :: 'u' :: 'l' :: 'l' :: rest => some (.null, rest)
  | 't' :: 'r' :: 'u' :: 'e' :: rest => some (.bool true, rest)
  | 'f' :: 'a' :: 'l' :: 's' :: 'e' :: rest => some (.bool false, rest)
  | 'N' :: 'a' :: 'N' :: rest => some (.float (0.0 / 0.0), rest)
  | 'I' :: 'n' :: 'f' :: 'i' :: 'n' :: 'i' :: 't' :: 'y' :: rest => some (.float (1.0 / 0.0), rest)
  | '-' :: 'I' :: 'n' :: 'f' :: 'i' :: 'n' :: 'i' :: 't' :: 'y' :: rest =>
    some (.float (-1.0 / 0.0), rest)
  | _ => none

/-- Lists and objects are read to this depth. -/
def nestingLimit : Nat := 990

mutual

/-- A value at the start of a text. `fuel` bounds the number of values and fields ahead, and `depth` how
deeply lists and objects may still be nested. -/
def readValue : Nat → Nat → List Char → Except Failure (Json × List Char)
  | 0, _, text => .error ⟨.expectedValue, text⟩
  | fuel + 1, depth, text =>
    match text with
    | '"' :: rest => do
      let (value, after) ← readString text rest
      .ok (.str value, after)
    | '{' :: rest =>
      if depth = 0 then .error ⟨.deepObject, text⟩
      else
        match skipGap rest with
        | '}' :: after => .ok (.obj [], after)
        | body => readFields fuel (depth - 1) [] body
    | '[' :: rest =>
      if depth = 0 then .error ⟨.deepList, text⟩
      else
        match skipGap rest with
        | ']' :: after => .ok (.arr [], after)
        | body => readItems fuel (depth - 1) [] body
    | _ =>
      match readWord text with
      | some answer => .ok answer
      | none => readNumber text

/-- The fields of an object from a field name on; `before` are the fields read so far. -/
def readFields : Nat → Nat → Fields → List Char → Except Failure (Json × List Char)
  | 0, _, _, text => .error ⟨.expectedName, text⟩
  | fuel + 1, depth, before, text =>
    match text with
    | '"' :: rest => do
      let (name, afterName) ← readString text rest
      match skipGap afterName with
      | ':' :: body => do
        let (value, afterValue) ← readValue fuel depth (skipGap body)
        let fields := before.set name value
        match skipGap afterValue with
        | '}' :: after => .ok (.obj fields, after)
        | ',' :: more => readFields fuel depth fields (skipGap more)
        | more => .error ⟨.expectedComma, more⟩
      | body => .error ⟨.expectedColon, body⟩
    | _ => .error ⟨.expectedName, text⟩

/-- The items of a list from a value on; `before` are the items read so far, latest first. -/
def readItems : Nat → Nat → List Json → List Char → Except Failure (Json × List Char)
  | 0, _, _, text => .error ⟨.expectedValue, text⟩
  | fuel + 1, depth, before, text => do
    let (value, afterValue) ← readValue fuel depth text
    match skipGap afterValue with
    | ']' :: after => .ok (.arr (value :: before).reverse, after)
    | ',' :: more => readItems fuel depth (value :: before) (skipGap more)
    | more => .error ⟨.expectedComma, more⟩

end

/-- An issue with its place in the text: the number of characters before it, and line and column
counted from one. -/
structure SyntaxError where
  issue : Issue
  position : Nat
  line : Nat
  column : Nat
deriving DecidableEq, Repr

def SyntaxError.message (e : SyntaxError) : String :=
  if e.issue.isSyntax then s!"{e.issue.text}: line {e.line} column {e.column} (char {e.position})"
  else e.issue.text

/-- The place of a rest within a text. -/
def Failure.locate (failure : Failure) (text : List Char) : SyntaxError :=
  let before := text.take (text.length - failure.rest.length)
  let lastLine := (before.reverse.takeWhile (· ≠ '\n')).reverse
  ⟨failure.issue, (Text.codes before).length, before.count '\n' + 1, (Text.codes lastLine).length + 1⟩

/-- The value that is all of a text, blanks around it apart. -/
def parseChars (text : List Char) : Except Failure Json :=
  match text with
  | '\ufeff' :: _ => .error ⟨.byteOrderMark, text⟩
  | _ => do
    let (value, rest) ← readValue (text.length + 1) nestingLimit (skipGap text)
    match skipGap rest with
    | [] => .ok value
    | more => .error ⟨.extraData, more⟩

/-- Read a text that holds one value. -/
def parse (text : String) : Except SyntaxError Json :=
  (parseChars text.toList).mapError (·.locate text.toList)

end CodeSearch.Json
