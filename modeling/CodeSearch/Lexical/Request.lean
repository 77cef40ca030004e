import CodeSearch.Lexical.Segment
import CodeSearch.Query.Given
/-!
# Requests to the lexical index

Searches and deletions by queries, patterns and limits that are values of any kind, and an index opened by
settings that are. Each value is looked at where it is needed, and not before.
-/

namespace CodeSearch.LexicalIndex

open Lexical CodeSearch.Action

section Search

variable {α : Type} [Scalar α]

/-- As `ranked`, up to a limit of any kind. A limit that is no integer can be spent, but ends no list. -/
def rankedUpTo (ix : LexicalIndex α) (q : Query) (field : Field) (limit : Json)
    (kind : Option ChunkKind) : Except Fault (List (Hit α)) := do
  if (← limit.isSpent) || q.isEmpty || (ix.model? field).isNone then return []
  ix.unfit.check parameterNames
  ix.ranked q field (← limit.toSize) kind

/-- As `search`, for a query and a limit of any kind. -/
def searchFor (ix : LexicalIndex α) (query limit : Json) (kind : Option ChunkKind) :
    Except Fault (List (Hit α)) := do
  ix.rankedUpTo (← Query.ofJson query) .content limit kind

/-- A value has a wildcard, as a text or as an element. -/
def hasWildcard : Json → Except Fault Bool
  | .str pattern => .ok (Text.hasWildcard pattern)
  | value => do
    let names ← (← value.elements).mapM Json.entryName
    return names.any ["*", "?", "["].contains

/-- As `matching`, for a pattern and a limit of any kind. A pattern that is no text is noticed where it is
compared with the first entry. -/
def matchingUpTo (ix : LexicalIndex α) (pattern : Json) (field : Field) (limit : Json) :
    Except Fault (List (Hit α)) := do
  let count := (← Number.ofJson limit).bound
  if count ≤ 0 || ix.view.entries.isEmpty then return []
  (ix.matching (← pattern.toText) field count).mapM Hit.checked

/-- As `searchField`, for a pattern and a limit of any kind. -/
def searchFieldFor (ix : LexicalIndex α) (field : Field) (pattern limit : Json) :
    Except Fault (List (Hit α)) := do
  if ← hasWildcard pattern then ix.matchingUpTo pattern field limit
  else ix.rankedUpTo (← Query.ofJson pattern) field limit none

end Search

/-- As `deleteByQuery`, for a query of any kind. -/
def deleteFor {α : Type} (query : Json) : Action (LexicalIndex α) Nat := do
  deleteSelected (← ofExcept (Query.ofJson query))

/-! ## Settings -/

/-- The number of segments beyond which a value has them put into one. -/
def segmentLimit (value : Json) : Except Fault Int := do
  match ← Number.ofJson value with
  | .whole n => return n
  | .real x =>
    match Decimal.floor x with
    | .ok n => return n
    | .error _ => return if x < 0 then -Number.beyondLists else Number.beyondLists

/-- An integer fits into a word, so that counts can be multiplied with it. -/
def fitsWord (n : Int) : Bool := Int.bmod n Parameter.wordSize = n

/-- A parameter that a value sets. What is to be multiplied with counts, which is a number of more than the
parameter, has to fit into a word if it is an integer. -/
def parameterOf (more : Int) (value : Json) : Except Fault (Parameter Float) := do
  match ← Number.ofJson value with
  | .whole n => if fitsWord (n + more) then return .whole n else throw .overflow
  | .real x => return .real x

/-- The number of segments beyond which they are put into one, unless another is asked for. -/
def usualSegments : Int := 10

open Lenient in
/-- Open an index with the settings of a record. -/
def openWith (directory : Option Path) (record : Json.Fields) (d : Disk) :
    Except Fault (LexicalIndex Float) :=
  run (do
    let k1 ← setting record "k1" (.real (Scalar.ratio 12 10)) (parameterOf 1)
    let b ← setting record "b" (.real (Scalar.ratio 75 100)) (parameterOf 0)
    return (k1, b))
    fun (k1, b) unfit => openAt directory k1 b (record.given "max_segments" usualSegments segmentLimit)
      unfit d

end CodeSearch.LexicalIndex
