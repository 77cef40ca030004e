import CodeSearch.Chunk.Unchecked
import CodeSearch.Disk.Basic
/-!
# The chunk store

The store holds one chunk per id, in the order in which the ids came in, and knows for each id what its
content is: another content under a taken id is refused. The store is written as a list of chunk
records.
-/

namespace CodeSearch

structure ChunkStore where
  chunks : Keyed String Chunk := .empty

namespace ChunkStore

/-- A store without chunks. -/
def empty : ChunkStore := {}

def get? (s : ChunkStore) (id : String) : Option Chunk := s.chunks.get? id

def contains (s : ChunkStore) (id : String) : Bool := s.chunks.has id

def size (s : ChunkStore) : Nat := s.chunks.size

/-- All chunks in the order of their ids. -/
def toList (s : ChunkStore) : List Chunk := s.chunks.values

/-- A chunk of this id and another content is there. -/
def conflicts (s : ChunkStore) (c : Chunk) : Bool := (s.get? c.id).any fun old => old.content ≠ c.content

/-- Register a chunk. It takes the place of an older one of its id, which must have its content. -/
def put (s : ChunkStore) (c : Chunk) : Except Fault ChunkStore := do
  c.checkStorable
  match s.get? c.id with
  | some old =>
    if old.content = c.content then return ⟨s.chunks.put c.id c⟩
    else throw (.invalidChunk (.taken c.id old.citation) (.str c.id))
  | none => return ⟨s.chunks.put c.id c⟩

/-- Take out a chunk; the answer tells whether it was there. -/
def remove (s : ChunkStore) (id : String) : Bool × ChunkStore :=
  (s.contains id, ⟨s.chunks.erase id⟩)

/-! ## Ids of any kind -/

/-- As `get?`. -/
def getFor (s : ChunkStore) (id : Json) : Except Fault (Option Chunk) := do return s.get? (← id.entryName)

/-- As `contains`. -/
def containsFor (s : ChunkStore) (id : Json) : Except Fault Bool := do return s.contains (← id.entryName)

/-- As `remove`; the id is not looked at if there is nothing to remove. -/
def removeFor (s : ChunkStore) (id : Json) : Except Fault (Bool × ChunkStore) := do
  if s.chunks.isEmpty then return (false, s)
  return s.remove (← id.entryName)

/-! ## The stored form -/

open CodeSearch.Action

attribute [local instance] zeroNat

/-- Register the chunk of a stored record, if it is one that the store takes. The answer is the number
of chunks registered. -/
def loadRecord (record : Json) : Action ChunkStore Nat := do
  let s ← memory
  match Chunk.ofJson record >>= s.put with
  | .ok s =>
    setMemory s
    return 1
  | .error (.invalidChunk _ _) => return 0
  | .error fault => throw fault

/-- Register the chunks of a stored list. The answer is their number. -/
def load (path : Path) : Action ChunkStore Nat := do
  let stored ← ofExcept ((← disk).readStored .loadChunks path)
  let records ← ofExcept stored.elements
  return (← records.mapM loadRecord).sum

/-- The file of a store, of which every chunk makes a record. -/
def content (s : ChunkStore) : Except Fault Content := do
  return .text (Json.render {} (.arr (← s.toList.mapM Chunk.stored)))

/-- Write the store to a path. -/
def save (path : Path) : Action ChunkStore Unit := do
  let s ← memory
  store .saveChunks path (← ofExcept s.content)

/-- Open a store: read it, if its file is there, and begin an empty one otherwise. -/
def openAt (path : Option Path) (d : Disk) : Except Fault ChunkStore :=
  match path with
  | some path => do
    if ← d.holds path then
      let (answer, s, _) := (load path).runOn empty d
      answer.map fun _ => s
    else return empty
  | none => .ok empty

end ChunkStore

end CodeSearch
