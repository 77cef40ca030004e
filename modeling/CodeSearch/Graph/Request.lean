import CodeSearch.Graph.Score
import CodeSearch.Json.Number
/-!
# Requests to the graph

Scores and neighbours for ids, hints and limits that are values of any kind.
-/

namespace CodeSearch

namespace QueryHints

open Record

/-- Values without those that equal an earlier one. -/
def distinct (values : List Json) : List Json :=
  values.foldl (fun kept value => if kept.any value.same then kept else kept ++ [value]) []

/-- The elements of a value as a set, which only values that can name entries may be in. -/
def setOf (value : Json) : Except Fault Json := do
  let elements ← value.elements
  elements.forM fun element => (element.entryName).map fun _ => ()
  return .arr (distinct elements)

/-- The hints that sets give by their names. -/
def read (record : Json.Fields) : Checked QueryHints :=
  QueryHints.mk
    <$> optional "package_hints" [] texts record
    <*> optional "api_hints" [] texts record
    <*> optional "import_hints" [] texts record
    <*> optional "mapping_hints" [] texts record

/-- The hints that a record gives by their names. Every value of the record is made a set first. -/
def ofRecord (record : Json.Fields) : Except Fault QueryHints := do
  let sets ← record.mapM fun (name, value) => do return (name, ← setOf value)
  match read sets with
  | .good hints => return hints
  | .bad issues => throw (.invalidRecord issues)

end QueryHints

namespace CodeGraph

/-- The names of ids that are the elements of a value of any kind. -/
def namesOf (ids : Json) : Except Fault (List String) := do (← ids.elements).mapM Json.entryName

/-- As `queryScores`, for ids of any kind. -/
def queryScoresFor (g : CodeGraph Float) (ids : Json) (hints : QueryHints) :
    Except Fault (List (String × Float)) := do
  g.queryScores (← namesOf ids) hints

/-- As `patternScores`, for a source and ids of any kind. -/
def patternScoresFor (g : CodeGraph Float) (ids source : Json) (kind : Option ChunkKind) :
    Except Fault (List (String × Float)) := do
  let hints := PatternHints.ofSource (← source.toText) kind
  g.patternScores (← namesOf ids) hints

end CodeGraph

namespace Relations

/-- Names can be put in order: those of texts, and those of numbers. -/
def checkOrder (names : List String) : Except Fault Unit :=
  let values := names.map Json.ofEntryName
  if names.length ≤ 1 || names.all Json.namesText || values.all (Number.ofJson? · |>.isSome) then .ok ()
  else .error .wrongType

/-- The chunks related to a chunk can be put in order, and what it calls is named by texts. -/
def checkRelated (r : Relations) (name : String) : Except Fault Unit := do
  let called := (r.calls.get? name).getD []
  checkOrder called
  if !called.all Json.namesText then throw .missingMember
  checkOrder (((r.packageOf.get? name).bind r.packageMembers.get?).getD [])

/-- As `neighbors`, for an id and a limit of any kind. -/
def neighborsFor (r : Relations) (id limit : Json) : Except Fault (List String) := do
  let name ← id.entryName
  r.checkRelated name
  return r.neighbors name (← limit.sliceEnd)

end Relations

end CodeSearch
