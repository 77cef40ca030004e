import CodeSearch.Text.Blank
import CodeSearch.Text.WordChar
/-!
# The parts of an identifier

An identifier is cut where its letter case says that a word begins, and at underscores. A word begins
at a capital after a small letter or a digit, and at the last capital of a run of capitals that a small
letter follows: `HTTPServer` has the parts `HTTP` and `Server`.
-/

namespace CodeSearch.Token

/-- How identifiers are cut. -/
structure SplitRules where
  camelCase : Bool := true
  snakeCase : Bool := true
deriving DecidableEq, Repr

/-- A word begins at `c`, which stands between `before` and `after`. -/
def beginsWord (before c : Char) (after : List Char) : Bool :=
  Text.isAsciiUpper c &&
    (Text.isAsciiLower before || Text.isDecimalDigit before ||
      (Text.isAsciiUpper before && (match after with
        | next :: _ => Text.isAsciiLower next
        | [] => false)))

/-- The pieces of a text, cut before each character at which a word begins. -/
def cutWords : List Char → List (List Char)
  | [] => []
  | [c] => [[c]]
  | c :: d :: rest =>
    match cutWords (d :: rest) with
    | [] => [[c]]
    | piece :: pieces =>
      if beginsWord c d rest then [c] :: piece :: pieces else (c :: piece) :: pieces

/-- The pieces of a text between underscores that are not empty. -/
def cutUnderscores (piece : List Char) : List (List Char) :=
  Text.runsOf (· != '_') piece

/-- The parts of one word: between its underscores, or the word itself unless it has nothing else. -/
def snakeParts (rules : SplitRules) (piece : List Char) : List (List Char) :=
  if rules.snakeCase then cutUnderscores piece
  else if piece.all (· == '_') then [] else [piece]

/-- The words of an identifier by letter case; a blank inside it separates words too. -/
def camelParts (rules : SplitRules) (word : List Char) : List (List Char) :=
  if rules.camelCase then (cutWords word).flatMap Text.words else [word]

/-- The parts of an identifier, with their letter case. -/
def splitIdentifier (rules : SplitRules) (word : List Char) : List (List Char) :=
  (camelParts rules word).flatMap (snakeParts rules)

end CodeSearch.Token
