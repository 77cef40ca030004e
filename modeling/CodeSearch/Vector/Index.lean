import CodeSearch.Json.Number
import CodeSearch.Vector.Cosine
import CodeSearch.Vector.Embedder
import CodeSearch.Chunk.Unchecked
import CodeSearch.Disk.Basic
/-!
# The vector index

The index holds a vector and a chunk per id. Searches compare a query vector with every stored vector
and answer by descending similarity, in the order of the index where similarities are equal. They read
a snapshot that is made anew when the generation of the index has moved on since. From a number of rows
on a search chooses among them beforehand; which ones it takes is given from outside.
-/

namespace CodeSearch

/-- A stored vector. -/
structure Vector.Entry (α : Type) where
  vector : List α
  /-- Seconds since the epoch. -/
  insertedAt : Float

/-- A vector of a snapshot with its chunk and its length. -/
structure Vector.Row (α : Type) where
  id : String
  chunk : Chunk
  vector : List α
  norm : α

/-- The rows of one generation, all of one width. -/
structure Vector.Snapshot (α : Type) where
  generation : Nat
  rows : List (Vector.Row α)

/-- How a search chooses among the rows of a large snapshot. -/
structure Vector.Choice (α : Type) where
  /-- How many rows are taken for each result that is wanted. -/
  overfetch : Int := 4
  /-- The places of the rows that are worth a comparison with a vector, where so many are taken. -/
  places : List (Vector.Row α) → List α → Nat → List Nat

/-- A chunk that a search has found, with its similarity. -/
structure Vector.Similar (α : Type) where
  chunkId : String
  chunk : Chunk
  similarity : α

/-- A found chunk that can be told: its id is a text. -/
def Vector.Similar.checked {α : Type} (found : Vector.Similar α) : Except Fault (Vector.Similar α) :=
  (Chunk.noIssues found.chunk.idIssues).map fun _ => found

structure VectorIndex (α : Type) where
  embedder : Embedder α
  /-- Where the index is stored, if it is. -/
  snapshotPath : Option Path
  /-- The width of all vectors: null until it is known, and then a number, unless the index was given or
  has been stored with another value. -/
  dimension : Json
  workers : Except Fault Int
  /-- The number of rows from which on a search chooses among them beforehand, if it can be compared with. -/
  preselection : Except Fault Number
  entries : Keyed String (Vector.Entry α)
  chunks : Keyed String Chunk
  generation : Nat
  /-- There are changes since the index was last stored. -/
  dirty : Bool
  snapshot : Vector.Snapshot α
  /-- How a search chooses among many rows. Without it all of them are compared. -/
  choice : Option (Vector.Choice α) := none

namespace VectorIndex

open CodeSearch.Vector

attribute [local instance] powInt

variable {α : Type}

/-- An index without vectors. -/
def blank (embedder : Embedder α) (snapshotPath : Option Path) (dimension : Json)
    (workers : Except Fault Int) (preselection : Except Fault Number) : VectorIndex α where
  embedder := embedder
  snapshotPath := snapshotPath
  dimension := dimension
  workers := workers
  preselection := preselection
  entries := .empty
  chunks := .empty
  generation := 0
  dirty := false
  snapshot := ⟨0, []⟩

/-- The number of vectors. -/
def size (ix : VectorIndex α) : Nat := ix.entries.size

def contains (ix : VectorIndex α) (id : String) : Bool := ix.entries.has id

def chunk? (ix : VectorIndex α) (id : String) : Option Chunk := ix.chunks.get? id

/-- The flat vectors of the texts of chunks. -/
def embedChunks (ix : VectorIndex α) (chunks : List Chunk) : Except Fault (List (List α)) := do
  chunks.forM Chunk.checkText
  ix.embedder.vectors ix.workers (chunks.map Chunk.searchableText)

/-- The texts of chunks are embedded all at once: there are some, they can be made, and the embedder takes them
so. -/
def embedsAtOnce (ix : VectorIndex α) (chunks : List Chunk) : Bool :=
  ix.embedder.embedBatch.isSome && !chunks.isEmpty && (chunks.forM Chunk.checkText).toBool

/-! ## Writes -/

/-- Check chunks and vectors against a width that may not be known yet, and give the width. -/
def checkWidths : Json → List (Chunk × Tensor α) → Except Fault Json
  | width, [] => .ok width
  | width, (chunk, vector) :: rest => do
    chunk.checkFilled
    let length ← vector.length
    match width with
    | .null => checkWidths (.int length) rest
    | expected =>
      if (Json.int length).same expected then checkWidths expected rest
      else throw (.dimensionMismatch expected (.int length))

/-- The index with a vector and its chunk. -/
def put (ix : VectorIndex α) (now : Float) (chunk : Chunk) (vector : List α) : VectorIndex α :=
  { ix with
    entries := ix.entries.put chunk.id ⟨vector, now⟩
    chunks := ix.chunks.put chunk.id chunk }

/-- Put vectors one after the other, up to the first that is no array of numbers or whose chunk has no id to
stand under. -/
def putAll (now : Float) (ix : VectorIndex α) :
    List (Chunk × Tensor α) → Except Fault Unit × VectorIndex α
  | [] => (.ok (), ix)
  | (chunk, vector) :: rest =>
    match vector.flatten, chunk.checkId with
    | .ok vector, .ok _ => putAll now (ix.put now chunk vector) rest
    | .error fault, _ => (.error fault, ix)
    | .ok _, .error fault => (.error fault, ix)

/-- The index one generation on, with something to store. -/
def advanced (ix : VectorIndex α) : VectorIndex α :=
  { ix with generation := ix.generation + 1, dirty := true }

/-- Insert vectors that have been computed. All are checked before the first is put. -/
def insertEmbedded (now : Float) (chunks : List Chunk) (vectors : List (Tensor α))
    (ix : VectorIndex α) : Except Fault Nat × VectorIndex α :=
  if chunks.length ≠ vectors.length then
    (.error (.badValue (.countMismatch chunks.length vectors.length)), ix)
  else
    match checkWidths ix.dimension (chunks.zip vectors) with
    | .error fault => (.error fault, ix)
    | .ok dimension =>
      match putAll now ix (chunks.zip vectors) with
      | (.error fault, ix) => (.error fault, ix)
      | (.ok _, ix) =>
        let ix := { ix with dimension }
        (.ok chunks.length, if chunks.isEmpty then ix else ix.advanced)

/-- Embed a chunk and insert it. -/
def insert (now : Float) (chunk : Chunk) (ix : VectorIndex α) : Except Fault Nat × VectorIndex α :=
  match (do chunk.checkText; ix.embedder.vector chunk.searchableText) with
  | .ok vector => ix.insertEmbedded now [chunk] [.ofList vector]
  | .error fault => (.error fault, ix)

/-- Take out a vector; the answer tells whether it was there. -/
def remove (ix : VectorIndex α) (id : String) : Bool × VectorIndex α :=
  if ix.entries.has id then
    (true, { ix with entries := ix.entries.erase id, chunks := ix.chunks.erase id }.advanced)
  else (false, ix)

/-- Take out all vectors. The width stays. -/
def clear (ix : VectorIndex α) : VectorIndex α :=
  { ix with entries := .empty, chunks := .empty }.advanced

/-! ## Searches -/

section Search
variable [Scalar α]

/-- The rows of the vectors that have a chunk. -/
def rows (ix : VectorIndex α) : List (Row α) :=
  ix.entries.items.filterMap fun (id, e) =>
    (ix.chunks.get? id).map fun chunk => ⟨id, chunk, e.vector, norm e.vector⟩

/-- All rows have one width. -/
def evenWidth : List (Row α) → Bool
  | [] => true
  | row :: rest => rest.all fun other => other.vector.length = row.vector.length

/-- A row has fewer columns than this, as its size is counted in bytes. -/
def columnLimit : Int := 2 ^ (60 : Nat)

/-- A table without rows can be made for a width: for a number of columns, and for any value that counts
as none. -/
def checkTable (width : Json) : Except Fault Unit :=
  if !width.isTruthy then .ok ()
  else
    match width with
    | .int n => if n < 0 || columnLimit ≤ n then .error (.badValue .other) else .ok ()
    | _ => .error .wrongType

/-- The snapshot that searches read: the one at hand, unless the index has moved on. -/
def view (ix : VectorIndex α) : Except Fault (Snapshot α) :=
  if ix.snapshot.generation = ix.generation then .ok ix.snapshot
  else if ix.rows.isEmpty then (checkTable ix.dimension).map fun _ => ⟨ix.generation, []⟩
  else if evenWidth ix.rows then ix.preselection.map fun _ => ⟨ix.generation, ix.rows⟩
  else .error (.badValue .other)

/-- The index with the snapshot that a search leaves behind. -/
def refreshed (ix : VectorIndex α) : VectorIndex α :=
  match ix.view with
  | .ok snapshot => { ix with snapshot }
  | .error _ => ix

/-- A similarity stands before another one: it is larger, or the other is no number. -/
def standsBefore (a b : α) : Bool :=
  Scalar.less b a || (Scalar.isNumber a && !Scalar.isNumber b)

/-- The choice that a search makes among the rows of a snapshot, of which there must be enough. -/
def choiceFor (ix : VectorIndex α) (s : Snapshot α) : Option (Choice α) :=
  match ix.preselection with
  | .ok least => if least.atMost (.whole s.rows.length) then ix.choice else none
  | .error _ => none

/-- The rows of a snapshot that are compared with a vector: all, unless there is a choice among them. A choice gives no
more rows than are taken. Nothing can be chosen for a vector without length. -/
def chosen (choice : Option (Choice α)) (s : Snapshot α) (query : List α) (wanted : Int) : List (Row α) :=
  match choice with
  | none => s.rows
  | some choice =>
    if Scalar.same (norm query) Scalar.zero then s.rows
    else
      let count := min s.rows.length (wanted * choice.overfetch).toNat
      ((choice.places s.rows query count).take count).filterMap fun n => s.rows[n]?

/-- Rows with their similarities to a vector, best first; equal ones in their order. -/
def ranked (rows : List (Row α)) (query : List α) : List (Similar α) :=
  let length := norm query
  (rows.map fun row =>
    (⟨row.id, row.chunk, rowSimilarity row.vector row.norm query length⟩ : Similar α)).mergeSort
      fun a b => !standsBefore b.similarity a.similarity

/-- The chunks of a snapshot by their similarity to a vector, which must have the width of its rows. -/
def compared (choice : Option (Choice α)) (s : Snapshot α) (query : Tensor α) (maxResults : Int) :
    Except Fault (List (Similar α)) := do
  let query ← query.flatten
  match s.rows.head? with
  | none => return []
  | some row =>
    if query.length ≠ row.vector.length then
      throw (.widths row.vector.length query.length)
    return ranked (chosen choice s query (maxResults + 1)) query

/-- The first of some chunks by descending similarity that are as similar as asked for, one id left out. -/
def nearest (found : List (Similar α)) (maxResults : Int) (minSimilarity : α)
    (exclude : Option String) : Except Fault (List (Similar α)) :=
  let near := found.takeWhile fun s => !Scalar.less s.similarity minSimilarity
  ((near.filter fun s => some s.chunkId ≠ exclude).take maxResults.toNat).mapM Similar.checked

/-- The chunks most similar to a vector, at least as similar as asked for, one id left out. -/
def findVector (ix : VectorIndex α) (query : Tensor α) (maxResults : Int) (minSimilarity : α)
    (exclude : Option String) : Except Fault (List (Similar α)) := do
  let snapshot ← ix.view
  if snapshot.rows.isEmpty || maxResults ≤ 0 then return []
  nearest (← compared (ix.choiceFor snapshot) snapshot query maxResults) maxResults minSimilarity exclude

/-- The chunks most similar to a text. -/
def findText (ix : VectorIndex α) (text : String) (maxResults : Int) (minSimilarity : α) :
    Except Fault (List (Similar α)) := do
  if ix.size = 0 || maxResults ≤ 0 then return []
  let vector ← ix.embedder.vector text
  ix.findVector (.ofList vector) maxResults minSimilarity none

/-- A search for a text comes to read the snapshot. -/
def readsFor (ix : VectorIndex α) (text : String) (maxResults : Int) : Bool :=
  ix.size ≠ 0 && 0 < maxResults &&
    match ix.embedder.vector text with
    | .ok _ => true
    | .error _ => false

/-- The chunks most similar to a stored one, which is left out. -/
def findChunk (ix : VectorIndex α) (id : String) (maxResults : Int) (minSimilarity : α) :
    Except Fault (List (Similar α)) :=
  match ix.entries.get? id with
  | none => .ok []
  | some e => ix.findVector (.ofList e.vector) maxResults minSimilarity (some id)

end Search

end VectorIndex

end CodeSearch
