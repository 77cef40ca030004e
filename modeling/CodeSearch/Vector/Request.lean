import CodeSearch.Json.Number
import CodeSearch.Vector.Snapshot
/-!
# Requests to the vector index

Searches by texts, ids and limits that are values of any kind, and an index opened by settings that are.
Each value is looked at where it is needed, and not before. A limit that is no integer can be compared
with.
-/

namespace CodeSearch.VectorIndex

open CodeSearch.Vector

/-- As `findVector`, with limits of any kind. -/
def findVectorUpTo (ix : VectorIndex Float) (query : Tensor Float) (limit least : Json)
    (exclude : Option String) : Except Fault (List (Similar Float)) := do
  let snapshot ← ix.view
  if snapshot.rows.isEmpty then return []
  let count := (← Number.ofJson limit).bound
  if count ≤ 0 then return []
  let found ← compared (ix.choiceFor snapshot) snapshot query count
  nearest found count (← Number.ofJson least).nearest exclude

/-- What comes of a search and what it leaves behind: the snapshot is read only if there is a vector to
compare with. -/
def answering (ix : VectorIndex Float) (query : Except Fault (Option (Tensor Float))) (limit least : Json)
    (exclude : Option String) : Except Fault (List (Similar Float)) × VectorIndex Float :=
  match query with
  | .error fault => (.error fault, ix)
  | .ok none => (.ok [], ix)
  | .ok (some query) => (ix.findVectorUpTo query limit least exclude, ix.refreshed)

/-- As `findVector`, for values of any kind. -/
def findVectorFor (vector limit least exclude : Json) (ix : VectorIndex Float) :
    Except Fault (List (Similar Float)) × VectorIndex Float :=
  ix.answering (.ok (some (.ofJson vector))) limit least exclude.entryName.toOption

/-- As `findText`, for values of any kind. -/
def findTextFor (text limit least : Json) (ix : VectorIndex Float) :
    Except Fault (List (Similar Float)) × VectorIndex Float :=
  let query : Except Fault (Option (Tensor Float)) := do
    if ix.size = 0 then return none
    if ← limit.isSpent then return none
    return some (.ofList (← ix.embedder.vectorFor text))
  ix.answering query limit least none

/-- As `findChunk`, for values of any kind. -/
def findChunkFor (id limit least : Json) (ix : VectorIndex Float) :
    Except Fault (List (Similar Float)) × VectorIndex Float :=
  let query : Except Fault (Option (Tensor Float)) := do
    return (ix.entries.get? (← id.entryName)).map fun e => .ofList e.vector
  ix.answering query limit least id.entryName.toOption

/-- What is known of the vector of an id of any kind. It is told only of ids that are texts. -/
def entryOf (ix : VectorIndex Float) (id : Json) : Except Fault (Option (Entry Float)) := do
  match ix.entries.get? (← id.entryName) with
  | none => return none
  | some e =>
    Chunk.noIssues ((Record.text id).under (.field "chunk_id")).issues
    return some e

/-- As `remove`, for an id of any kind, which is not looked at if there is nothing to remove. -/
def removeFor (id : Json) (ix : VectorIndex Float) : Except Fault Bool × VectorIndex Float :=
  if ix.entries.isEmpty then (.ok false, ix)
  else
    match id.entryName with
    | .ok name =>
      let (found, ix) := ix.remove name
      (.ok found, ix)
    | .error fault => (.error fault, ix)

/-! ## Settings -/

/-- The workers that embed texts unless another number is asked for. -/
def usualWorkers : Int := 4

/-- The number of rows from which on a search chooses among them, unless another one is asked for. -/
def usualPreselection : Number := .whole 50000

/-- The number of workers that a value sets. Null leaves it open. -/
def workersOf : Json → Except Fault Int
  | .null => .ok usualWorkers
  | value => do return (← Number.ofJson value).bound

/-- Open an index with the settings of a record. -/
def openWith (embedder : Embedder Float) (snapshotPath : Option Path) (record : Json.Fields) (d : Disk) :
    Except Fault (VectorIndex Float) :=
  openAt embedder snapshotPath ((record.get? "dimension").getD .null)
    (record.given "max_workers" usualWorkers workersOf)
    (record.given "ann_threshold" usualPreselection Number.ofJson)
    d

/-- Open the index again from the disk, with a width given as before. -/
def reopened (ix : VectorIndex Float) (dimension : Json) (d : Disk) : Except Fault (VectorIndex Float) :=
  openAt ix.embedder ix.snapshotPath dimension ix.workers ix.preselection d

end CodeSearch.VectorIndex
