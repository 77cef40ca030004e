import CodeSearch.Json.Access
/-!
# Queries given as values

A query is a text. Of other values only an empty list or object can be read, and asks for nothing; what
else is read like a text, item by item, ends in a fault.
-/

namespace CodeSearch.Query

/-- A text of blanks only, which has one at least. -/
def isBlankItem (s : String) : Bool := s ≠ "" && Text.allBlank s

/-- The fault of reading a term of items: one that is no text is noticed only if the term comes to it. -/
def termFault : List Json → Fault
  | [] => .wrongType
  | .str s :: rest => if s = "\"" || isBlankItem s then .wrongType else termFault rest
  | _ :: _ => .missingMember

/-- The fault of reading items that begin with a term or a phrase. -/
def startFault : List Json → Fault
  | .str "\"" :: _ => .missingMember
  | items => termFault items

/-- The query of items of a list, each read like a character of a text. `position` is the number of items
before them. -/
def ofItems (whole : List Json) (position : Nat) : List Json → Except Fault Query
  | [] => .ok (ofClauses [])
  | .str s :: rest =>
    if isBlankItem s then ofItems whole (position + 1) rest
    else if ["", "+", "-", "+-"].contains s then
      let dangling : Fault := .danglingItem s (.arr whole) position
      match rest with
      | [] => .error dangling
      | .str t :: more =>
        if isBlankItem t then
          if 0 < position then ofItems whole (position + 1) (.str t :: more) else .error dangling
        else .error (startFault (.str t :: more))
      | _ :: _ => .error .missingMember
    else .error (startFault (.str s :: rest))
  | _ :: _ => .error .missingMember

/-- The query that a value asks for. -/
def ofJson : Json → Except Fault Query
  | .str text => (parse text).mapError .badQuery
  | .arr items => ofItems items 0 items
  | .obj [] => .ok (ofClauses [])
  | .obj _ => .error .missingKey
  | _ => .error .wrongType

end CodeSearch.Query
