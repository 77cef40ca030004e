import CodeSearch.Token.Identifier
import CodeSearch.Text.Lowercase
/-!
# Tokens of program text

A text is read as identifiers, its maximal runs of letters, digits and underscores. An identifier of
several parts gives the whole identifier and then its parts, one of a single part that part; a
hexadecimal literal inside it stays whole. Tokens are in lower case and in the order of the text.
-/

namespace CodeSearch.Token

/-- What counts as a token. -/
structure Rules extends SplitRules where
  /-- Shorter tokens are dropped, hexadecimal literals excepted. -/
  minLength : Int := 2
  keepHex : Bool := true
  dropStopwords : Bool := false
deriving DecidableEq, Repr

/-- Words too common to search for. -/
def stopwords : List String := ["the", "a", "an", "is", "are", "was", "were", "be", "been"]

def isHexDigit (c : Char) : Bool :=
  Text.isAsciiDigit c || ('a' ≤ c && c ≤ 'f') || ('A' ≤ c && c ≤ 'F')

/-- A stretch of an identifier: plain, or a hexadecimal literal. -/
inductive Stretch where
  | plain (text : List Char)
  | hex (text : List Char)
deriving DecidableEq, Repr

/-- Put a character in front of a list of stretches. -/
def Stretch.prepend (c : Char) : List Stretch → List Stretch
  | .plain text :: rest => .plain (c :: text) :: rest
  | rest => .plain [c] :: rest

/-- The stretches of an identifier. A literal is `0x` and all hexadecimal digits that follow, at
least one. -/
def stretches : List Char → List Stretch
  | [] => []
  | '0' :: 'x' :: d :: rest =>
    if isHexDigit d then
      .hex ('0' :: 'x' :: d :: rest.takeWhile isHexDigit) :: stretches (rest.dropWhile isHexDigit)
    else Stretch.prepend '0' (stretches ('x' :: d :: rest))
  | c :: rest => Stretch.prepend c (stretches rest)
termination_by text => text.length
decreasing_by
  all_goals simp_wf
  have := (List.dropWhile_sublist (l := rest) isHexDigit).length_le
  omega

def lowered (text : List Char) : String := String.ofList (text.map Text.asciiLowerChar)

/-- A token is kept if it is long enough and no stopword that is to be dropped. -/
def Rules.keeps (rules : Rules) (token : String) : Bool :=
  rules.minLength ≤ token.length && !(rules.dropStopwords && stopwords.contains token)

/-- The tokens of a plain stretch: whole, if it has several parts, and its parts. -/
def plainTokens (rules : Rules) (word : List Char) : List String :=
  let parts := splitIdentifier rules.toSplitRules word
  let candidates := if parts.length > 1 then word :: parts else parts
  (candidates.map lowered).filter rules.keeps

def Stretch.tokens (rules : Rules) : Stretch → List String
  | .plain word => plainTokens rules word
  | .hex literal => [lowered literal]

/-- The tokens of an identifier. -/
def identifierTokens (rules : Rules) (word : List Char) : List String :=
  if rules.keepHex then (stretches word).flatMap (Stretch.tokens rules) else plainTokens rules word

/-- The identifiers of a text. -/
def identifiers (text : List Char) : List (List Char) := Text.runsOf Text.isIdentifierChar text

/-- The tokens of a text. -/
def tokenize (rules : Rules) (text : List Char) : List String :=
  (identifiers text).flatMap (identifierTokens rules)

/-- The tokens of a text by the standard rules, by which chunks and queries are read. -/
def tokens (text : String) : List String := tokenize {} text.toList

end CodeSearch.Token
