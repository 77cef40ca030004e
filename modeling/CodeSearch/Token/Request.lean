import CodeSearch.Json.Number
/-!
# Requests for tokens

Texts, identifiers and the least length of tokens given as values of any kind. A length that is no integer can
be compared with, and one that is no number is a fault as soon as there is a word to compare.
-/

namespace CodeSearch.Token

/-- The least length that a value asks for. No length is below something that is no number. -/
def leastLength (value : Json) : Except Fault Int := do
  match ← Number.ofJson value with
  | .whole n => return n
  | .real x => return if x.isNaN then 0 else (Number.real x).bound

/-- A text has words whose length is compared. -/
def comparesLength (rules : Rules) (text : List Char) : Bool :=
  let lenient := { rules with minLength := 0, dropStopwords := false }
  let strict := { rules with minLength := Number.beyondLists }
  (tokenize lenient text).length ≠ (tokenize strict text).length

/-- The tokens of a text, none shorter than a value says. -/
def tokenizeFor (rules : Rules) (least : Json) (text : Json) : Except Fault (List String) := do
  let text := (← text.toText).toList
  match leastLength least with
  | .ok minLength => return tokenize { rules with minLength } text
  | .error fault =>
    if comparesLength rules text then throw fault
    return tokenize rules text

/-- The parts of an identifier. What is no text cannot be cut, or cannot be trimmed where it is not cut. -/
def splitFor (rules : SplitRules) : Json → Except Fault (List String)
  | .str word => .ok ((splitIdentifier rules word.toList).map String.ofList)
  | .arr _ | .obj _ => .error (if rules.camelCase then .wrongType else .missingMember)
  | _ => .error (if rules.camelCase || rules.snakeCase then .wrongType else .missingMember)

end CodeSearch.Token
