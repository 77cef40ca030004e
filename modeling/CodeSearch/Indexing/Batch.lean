import CodeSearch.ChunkStore
import CodeSearch.Graph.Basic
import CodeSearch.Indexing.ChunkFile
import CodeSearch.Indexing.Exclusion
import CodeSearch.Indexing.Report
import CodeSearch.Lexical.Segment
import CodeSearch.Vector.Snapshot
/-!
# Indexing batches of chunks

A batch of chunks goes into all indexes in two phases. `Indexer.prepare` only reads: it drops repeated
ids and collisions, tokenizes and embeds. `Indexer.commit` writes what has been prepared to the vector
index, the lexical index, the store and the graph, one batch at a time; as other batches may have been
committed since, it looks for collisions again. The vectors go first, because their widths are checked
before anything is written.
-/

namespace CodeSearch

/-- All indexes that chunks are written to. -/
structure Indexer where
  lexical : LexicalIndex Float
  vectors : Option (VectorIndex Float) := none
  graph : Option (CodeGraph Float) := none
  store : ChunkStore := .empty
  /-- Where the store is kept, if it is. -/
  storeFile : Option Path := none
  excludePatterns : Json := Chunk.textsJson Indexing.standardPatterns
  producers : List Indexing.Producer := [.chunkFiles]

namespace Indexing

/-- A batch that is ready to be committed: a vector for each entry, unless there is no vector index. -/
structure Batch where
  /-- The number of chunks that came in. -/
  received : Nat
  entries : List Lexical.Entry
  vectors : List (List Float)
  complaints : List Complaint

namespace Batch

def chunks (b : Batch) : List Chunk := b.entries.map Lexical.Entry.chunk

/-- The items of a list at some places. -/
def pick {β : Type} (items : List β) (places : List Nat) : Except Fault (List β) :=
  places.mapM fun n =>
    match items[n]? with
    | some item => .ok item
    | none => .error .missingItem

/-- The batch without the chunks whose id a store has for other content. -/
def dropCollisions (b : Batch) (s : ChunkStore) : Except Fault Batch := do
  let placed := b.entries.zipIdx
  let kept := placed.filter fun (e, _) => !s.conflicts e.chunk
  if kept.length = b.entries.length then return b
  let vectors ← if b.vectors.isEmpty then pure [] else pick b.vectors (kept.map Prod.snd)
  let dropped := b.entries.filter fun e => s.conflicts e.chunk
  return { b with
    entries := kept.map Prod.fst
    vectors := vectors
    complaints := b.complaints ++ dropped.map fun e => .collision e.chunk }

end Batch

/-- Chunks with each id once. A chunk with the id of an earlier one, or of one in the store, and with
other content is a collision; a repeated id with the same content is left out. -/
def distinct (s : ChunkStore) (chunks : List Chunk) : Keyed String Chunk × List Complaint :=
  chunks.foldl (fun (accepted, complaints) c =>
    match (accepted.get? c.id).or (s.get? c.id) with
    | some old =>
      if old.content ≠ c.content then (accepted, complaints ++ [.collision c])
      else if accepted.has c.id then (accepted, complaints)
      else (accepted.put c.id c, complaints)
    | none => (accepted.put c.id c, complaints)) (.empty, [])

/-- The entries of the chunks that can be indexed, and the faults of those that are not taken. A chunk that
is not one at all ends the preparation. -/
def prepareAll : List Chunk → Except Fault (List Lexical.Entry × List Complaint)
  | [] => .ok ([], [])
  | c :: rest =>
    match Lexical.Entry.prepare c with
    | .ok e => (prepareAll rest).map fun (entries, complaints) => (e :: entries, complaints)
    | .error (.invalidChunk reason id) =>
      (prepareAll rest).map fun (entries, complaints) =>
        (entries, .failed (.invalidChunk reason id) :: complaints)
    | .error fault => .error fault

end Indexing

namespace Indexer

open CodeSearch.Action CodeSearch.Indexing

/-- The entries of a batch, and the complaints about the chunks that are left out. -/
def draft (ix : Indexer) (chunks : List Chunk) : Except Fault (List Lexical.Entry × List Complaint) := do
  chunks.forM Chunk.checkId
  let (accepted, collisions) := distinct ix.store chunks
  let (entries, refused) ← prepareAll accepted.values
  return (entries, collisions ++ refused)

/-- Prepare a batch: what the indexes are now is only looked at. -/
def prepare (ix : Indexer) (chunks : List Chunk) : Except Fault Batch := do
  let (entries, complaints) ← ix.draft chunks
  let vectors ← match ix.vectors with
    | some v => v.embedChunks (entries.map Lexical.Entry.chunk)
    | none => pure []
  return ⟨chunks.length, entries, vectors, complaints⟩

/-- The preparation of a batch comes to embed the texts of its chunks all at once. -/
def embedsAtOnce (ix : Indexer) (chunks : List Chunk) : Bool :=
  match ix.vectors, ix.draft chunks with
  | some v, .ok (entries, _) => v.embedsAtOnce (entries.map Lexical.Entry.chunk)
  | _, _ => false

/-- Work on the vector index, if there is one. -/
def onVectors (work : Action (VectorIndex Float) Unit) : Action Indexer Unit := do
  match (← memory).vectors with
  | none => pure ()
  | some v => onPart (fun _ => v) (fun ix v => { ix with vectors := some v }) work

/-- Insert vectors, if there is an index for them. -/
def insertVectors (now : Float) (batch : Batch) : Action (VectorIndex Float) Unit := do
  let (answer, v) :=
    (← memory).insertEmbedded now batch.chunks (batch.vectors.map Tensor.ofList)
  setMemory v
  let _ ← ofExcept answer

/-- Index entries for lexical search. -/
def insertEntries (batch : Batch) : Action Indexer Unit :=
  onPart Indexer.lexical (fun ix lexical => { ix with lexical }) do
    let _ ← LexicalIndex.insertPrepared batch.entries

/-- Register a chunk in the store. -/
def register (c : Chunk) : Action Indexer Unit := do
  let ix ← memory
  setMemory { ix with store := ← ofExcept (ix.store.put c) }

/-- Store the vector index and the chunk store, as far as they have a place on the disk. -/
def persist : Action Indexer Unit := do
  let ix ← memory
  if ix.vectors.any fun v => v.snapshotPath.isSome then onVectors (VectorIndex.save none)
  match ix.storeFile with
  | some path => onPart Indexer.store (fun ix store => { ix with store }) (ChunkStore.save path)
  | none => pure ()

/-- Do work, and give the fault of the storage that has ended it, if one has. -/
def storageFault? (work : Action Indexer Unit) : Action Indexer (Option Fault) :=
  tryCatch (do work; return none) fun fault =>
    if fault.isStorage then return some fault else throw fault

/-- Make the graph anew from the store. -/
def rebuildGraph : Action Indexer Unit := do
  let ix ← memory
  match ix.graph with
  | none => pure ()
  | some g =>
    let (answer, g) := g.rebuild ix.store.toList
    setMemory { ix with graph := some g }
    ofExcept answer

/-- Write a prepared batch to all indexes. That an index cannot be stored is reported, and leaves it
changed in memory. -/
def commit (now : Float) (prepared : Batch) : Action Indexer Report := do
  let batch ← ofExcept (prepared.dropCollisions (← memory).store)
  onVectors (insertVectors now batch)
  let lexicalFault ← storageFault? (insertEntries batch)
  batch.chunks.forM register
  let storeFault ← storageFault? persist
  rebuildGraph
  let ix ← memory
  let faults := lexicalFault.toList ++ storeFault.toList
  return {
    received := batch.received
    indexed := batch.entries.length
    complaints := batch.complaints ++ faults.map .failed
    lexicalCount := ix.lexical.count
    vectorCount := (ix.vectors.map VectorIndex.size).getD 0
    persisted := faults.isEmpty }

/-- Index a batch of chunks. -/
def indexChunks (now : Float) (chunks : List Chunk) : Action Indexer Report := do
  let batch ← ofExcept ((← memory).prepare chunks)
  commit now batch

end Indexer

end CodeSearch
