import CodeSearch.Vector.Index
import CodeSearch.Chunk.Record
/-!
# The stored form of the vector index

The whole index is stored as one value: its width, the vectors with their times, and the chunk records.
-/

namespace CodeSearch.VectorIndex

open CodeSearch.Vector CodeSearch.Action

/-- The stored value of a vector. -/
def entryJson (e : Entry Float) : Json :=
  .obj [("vector", .arr (e.vector.map .float)), ("inserted_at", .float e.insertedAt)]

/-- The stored value of an index, of which every chunk makes a record. -/
def payload (ix : VectorIndex Float) : Except Fault Json := do
  let chunks ← ix.chunks.items.mapM fun (id, chunk) => do return (id, ← chunk.stored)
  return .obj [("version", .int 1),
    ("dimension", ix.dimension),
    ("entries", .obj (ix.entries.items.map fun (id, e) => (id, entryJson e))),
    ("chunks", .obj chunks)]

/-- Store the index at a path, its own one if none is given. -/
def save (target : Option Path) : Action (VectorIndex Float) Unit := do
  let ix ← memory
  match target.or ix.snapshotPath with
  | none => throw .noSnapshotPath
  | some path =>
    store .saveVectors path (.binary (← ofExcept ix.payload))
    modifyMemory fun ix => { ix with dirty := false }

/-- Store the index if there is something to store and a path for it. -/
def close : Action (VectorIndex Float) Unit := do
  let ix ← memory
  if ix.snapshotPath.isSome && ix.dirty then save none

/-- Embed chunks, insert them, and store the index if it has a path. -/
def insertBatch (now : Float) (chunks : List Chunk) : Action (VectorIndex Float) Nat := do
  let ix ← memory
  let vectors ← ofExcept (ix.embedChunks chunks)
  let (answer, ix) := ix.insertEmbedded now chunks (vectors.map .ofList)
  setMemory ix
  let inserted ← ofExcept answer
  if ix.snapshotPath.isSome then save none
  return inserted

/-! ## Loading -/

/-- Faults in the outer shape of a stored value are faults of loading. -/
def loadFault (path : Path) : Fault → Fault
  | .invalidChunk reason id => .storage .loadVectorChunks path.text (.invalidChunk reason id)
  | .badValue .undecodable => .storage .loadVectors path.text (.badValue .undecodable)
  | .badValue reason => .badValue reason
  | fault => .storage .loadVectors path.text fault

/-- The value that a file holds in a form that is no text. -/
def readPayload (d : Disk) (path : Path) : Except Fault Json := do
  match ← d.read path with
  | .binary value => return value
  | .text _ => throw (.badValue .undecodable)

/-- The stored width, the stored vectors, and the chunks, in the order in which they are looked at. -/
def readParts (d : Disk) (path : Path) :
    Except Fault (Json × Json × List (String × Chunk)) := do
  let value ← readPayload d path
  let width := ((← value.field? "dimension").getD .null)
  let entries ← value.item "entries"
  let records ← (← value.item "chunks").fields
  let chunks ← records.mapM fun (id, record) => do return (id, ← Chunk.ofJson record)
  return (width, entries, chunks)

/-- A vector from its stored value. -/
def readEntry (value : Json) : Except Fault (Entry Float) := do
  let vector ← (Tensor.ofJson (← value.item "vector")).flatten
  let time ← ((← value.field? "inserted_at").getD (.float 0)).toDouble
  return ⟨vector, time⟩

/-- Read a stored index. Its width must be the one that is asked for, if one is. -/
def load (ix : VectorIndex Float) (d : Disk) (path : Path) : Except Fault (VectorIndex Float) := do
  let (width, entries, chunks) ← (readParts d path).mapError (loadFault path)
  if !ix.dimension.isNull && !width.isNull && !width.same ix.dimension then
    throw (.dimensionMismatch ix.dimension width)
  let entries ← (← entries.fields).mapM fun (id, value) => do return (id, ← readEntry value)
  return { ix with
    entries := .ofList entries
    chunks := .ofList chunks
    dimension := if width.isNull then ix.dimension else width
    generation := ix.generation + 1 }

/-- Open an index: read it, if its file is there, and begin an empty one otherwise. -/
def openAt (embedder : Embedder Float) (snapshotPath : Option Path) (dimension : Json)
    (workers : Except Fault Int) (preselection : Except Fault Number) (d : Disk) :
    Except Fault (VectorIndex Float) := do
  checkTable dimension
  let ix := blank embedder snapshotPath dimension workers preselection
  match snapshotPath with
  | none => return ix
  | some path => if ← d.holds path then ix.load d path else return ix

end CodeSearch.VectorIndex
