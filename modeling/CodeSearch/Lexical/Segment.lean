import CodeSearch.Lexical.Index
import CodeSearch.Chunk.Record
/-!
# The stored form of the lexical index

A directory holds numbered segments, each a list of changes, and a manifest that names the segments in
order. The index is what the changes of all segments make of an empty one.
-/

namespace CodeSearch.Lexical

/-- A number with six places, its sign included. -/
def sixPlaces (n : Int) : List Char :=
  if n < 0 then '-' :: Decimal.padZeros 5 (Decimal.digitText n.natAbs)
  else Decimal.padZeros 6 (Decimal.digitText n.toNat)

/-- The name of the file of a segment. -/
def segmentName (n : Int) : String :=
  "segment_" ++ String.ofList (sixPlaces n) ++ ".json"

def manifestName : String := "manifest.json"

/-- A change as a stored record. -/
def Change.json : Change → Json
  | .add chunk => .obj [("op", .str "add"), ("chunk", chunk.json)]
  | .delete id => .obj [("op", .str "delete"), ("id", id)]

/-- The file of a segment. -/
def segmentContent (changes : List Change) : Content :=
  .text (Json.render {} (.obj [("ops", .arr (changes.map Change.json))]))

/-- The file of a manifest. -/
def manifestContent (segments : List String) (nextSegment : Int) : Content :=
  .text (Json.render {} (.obj [("version", .int 1), ("segments", .arr (segments.map .str)),
    ("next_segment", .int nextSegment)]))

/-- A name stands for a text. -/
def isText (text : String) : Json → Bool
  | .str s => s = text
  | _ => false

/-- Delete the entry that a stored value names. Where there are no entries, or the value is no text, there
is nothing to delete; but where there are some, the value must be able to name one. -/
def deleteNamed (entries : Keyed String Entry) (name : Json) : Except Fault (Keyed String Entry) :=
  match name with
  | .str id => .ok (entries.erase id)
  | other => if entries.isEmpty || other.isName then .ok entries else .error .wrongType

/-- What a stored change makes of the entries. A record of no valid chunk is passed over, and so is a
change of unknown name. -/
def applyStored (entries : Keyed String Entry) (stored : Json) : Except Fault (Keyed String Entry) := do
  let name := (← stored.field? "op").getD .null
  if isText "add" name then
    match Chunk.ofJson (← stored.item "chunk") with
    | .ok chunk => return entries.put chunk.id (.ofChunk chunk)
    | .error (.invalidChunk _ _) => return entries
    | .error fault => throw fault
  else if isText "delete" name then
    deleteNamed entries ((← stored.field? "id").getD .null)
  else return entries

/-- What a stored segment makes of the entries. -/
def applySegment (entries : Keyed String Entry) (segment : Json) : Except Fault (Keyed String Entry) := do
  let changes ← ((← segment.field? "ops").getD (.arr [])).elements
  changes.foldlM applyStored entries

/-- What the segments of some names in a directory make of the entries. -/
def applySegments (d : Disk) (directory : Path) :
    Keyed String Entry → List Json → Except Fault (Keyed String Entry × List String)
  | entries, [] => .ok (entries, [])
  | entries, .str name :: rest => do
    let segment ← d.readStored .readLexical (directory.child name)
    let entries ← applySegment entries segment
    let (entries, names) ← applySegments d directory entries rest
    return (entries, name :: names)
  | _, _ :: _ => .error .wrongType

end CodeSearch.Lexical

namespace CodeSearch.LexicalIndex

open Lexical

variable {α : Type}

/-- Read the index that a manifest describes. -/
def load (ix : LexicalIndex α) (d : Disk) (directory : Path) : Except Fault (LexicalIndex α) := do
  let manifest ← d.readStored .readLexical (directory.child manifestName)
  let listed ← ((← manifest.field? "segments").getD (.arr [])).elements
  let next ← ((← manifest.field? "next_segment").getD (.int (listed.length + 1))).toInteger
  let (entries, segments) ← applySegments d directory .empty listed
  return { ix with entries, segments, nextSegment := next, generation := ix.generation + 1 }

/-- Open an index: read it, if its directory holds a manifest, and begin an empty one otherwise. -/
def openAt (directory : Option Path) (k1 b : Parameter α) (maxSegments : Except Fault Int)
    (unfit : Unfit) (d : Disk) : Except Fault (LexicalIndex α) :=
  let ix := { blank directory k1 b maxSegments with unfit }
  match directory with
  | none => .ok ix
  | some directory => do
    if ← d.holds (directory.child manifestName) then ix.load d directory else return ix

/-- Open the index again from the disk, as it was opened before. -/
def reopened (ix : LexicalIndex α) (d : Disk) : Except Fault (LexicalIndex α) :=
  openAt ix.directory ix.k1 ix.b ix.maxSegments ix.unfit d

/-! ## Writes -/

open CodeSearch.Action

/-- Write the manifest of the index. -/
def writeManifest (directory : Path) : Action (LexicalIndex α) Unit := do
  let ix ← memory
  store .writeLexical (directory.child manifestName) (manifestContent ix.segments ix.nextSegment)

/-- Write a segment under the next number, which is used up by it. -/
def writeSegment (directory : Path) (changes : List Change) : Action (LexicalIndex α) String := do
  let ix ← memory
  let name := segmentName ix.nextSegment
  store .writeLexical (directory.child name) (segmentContent changes)
  modifyMemory fun ix => { ix with nextSegment := ix.nextSegment + 1 }
  return name

/-- Remove the files of segments that no manifest names any more. -/
def discardSegments (directory : Path) (names : List String) : Action (LexicalIndex α) Unit :=
  names.forM fun name => discard (directory.child name)

/-- Put all entries into one segment that takes the place of all others. Every chunk has to make a
record. -/
def compact (directory : Path) : Action (LexicalIndex α) Unit := do
  let ix ← memory
  let _ ← ofExcept (ix.entries.values.mapM fun e => e.chunk.stored)
  let name ← writeSegment directory (ix.entries.values.map fun e => .add e.chunk)
  modifyMemory fun ix => { ix with segments := [name] }
  writeManifest directory
  discardSegments directory ix.segments

/-- Bring the snapshot up to date and the pending changes to the disk. If that fails they stay
pending, while searches see them all the same. -/
def commit : Action (LexicalIndex α) Unit := do
  modifyMemory refreshed
  let ix ← memory
  match ix.directory with
  | none => setMemory { ix with pending := [] }
  | some directory =>
    if !ix.pending.isEmpty then
      let name ← writeSegment directory ix.pending
      modifyMemory fun ix => { ix with segments := ix.segments ++ [name] }
      writeManifest directory
      modifyMemory fun ix => { ix with pending := [] }
      let ix ← memory
      if (← ofExcept ix.maxSegments) < ix.segments.length then compact directory

/-- The index with an entry, and the change pending. -/
def added (ix : LexicalIndex α) (e : Entry) : LexicalIndex α :=
  { ix with entries := ix.entries.put e.chunk.id e, pending := ix.pending ++ [.add e.chunk] }

/-- The index without the entry of an id, and the change pending. -/
def deleted (ix : LexicalIndex α) (id : String) : LexicalIndex α :=
  match ix.entries.get? id with
  | some e => { ix with entries := ix.entries.erase id, pending := ix.pending ++ [.delete e.chunk.idValue] }
  | none => ix

/-- The index one generation on. -/
def advanced (ix : LexicalIndex α) : LexicalIndex α := { ix with generation := ix.generation + 1 }

/-- Add entries one after the other, up to the first whose chunk has no id to stand under or makes no record.
In the latter case that one is added too, but no change is pending for it. -/
def addAll : List Entry → LexicalIndex α → Except Fault Unit × LexicalIndex α
  | [], ix => (.ok (), ix)
  | e :: rest, ix =>
    match e.chunk.checkId, e.chunk.stored with
    | .ok _, .ok _ => addAll rest (ix.added e)
    | .ok _, .error fault => (.error fault, { ix with entries := ix.entries.put e.chunk.id e })
    | .error fault, _ => (.error fault, ix)

/-- Add entries and commit once. An entry takes the place of an older one of its id. -/
def insertPrepared (entries : List Entry) : Action (LexicalIndex α) Nat := do
  let (answer, ix) := addAll entries (← memory)
  setMemory ix
  ofExcept answer
  modifyMemory advanced
  commit
  return entries.length

/-- Index chunks and commit once. -/
def insertBatch (chunks : List Chunk) : Action (LexicalIndex α) Nat := do
  insertPrepared (← ofExcept (chunks.mapM Entry.prepare))

/-- Index a chunk and commit. -/
def insert (chunk : Chunk) : Action (LexicalIndex α) Unit := do
  let _ ← insertBatch [chunk]

/-- Delete the chunks that a query selects and commit. -/
def deleteSelected (q : Query) : Action (LexicalIndex α) Nat := do
  if q.isEmpty then return 0
  modifyMemory refreshed
  let ix ← memory
  let doomed := (ix.view.entries.filter fun e => q.selects e.tokens).map fun e => e.chunk.id
  if !doomed.isEmpty then
    setMemory (doomed.foldl deleted ix).advanced
    commit
  return doomed.length

/-- Delete the chunks that a query text selects and commit. -/
def deleteByQuery (text : String) : Action (LexicalIndex α) Nat := do
  deleteSelected (← ofExcept ((Query.parse text).mapError .badQuery))

/-- Delete everything, stored segments included. -/
def clear : Action (LexicalIndex α) Unit := do
  let old ← memory
  setMemory { old with entries := .empty, pending := [], generation := old.generation + 1 }
  match old.directory with
  | none => pure ()
  | some directory =>
    modifyMemory fun ix => { ix with segments := [] }
    writeManifest directory
    discardSegments directory old.segments

/-- Commit what is pending. -/
def close : Action (LexicalIndex α) Unit := do
  let ix ← memory
  if !ix.pending.isEmpty then commit

end CodeSearch.LexicalIndex
