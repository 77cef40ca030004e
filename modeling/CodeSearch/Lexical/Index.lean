import CodeSearch.Lexical.Bm25
import CodeSearch.Lexical.Entry
import CodeSearch.Disk.Basic
import CodeSearch.Json.Number
import CodeSearch.Record.Unfit
import CodeSearch.Text.Glob
/-!
# The lexical index

The index holds an entry per chunk id, in the order in which the ids came in. Searches read a snapshot
of the entries, which is made anew when the generation of the index has moved on since. Changes that
are not on the disk yet are kept as pending.

`LexicalIndex.search` ranks the chunks that a query selects by their relevance; names and paths can
also be searched by patterns with wildcards.
-/

namespace CodeSearch

/-- A change that has to go to the disk. -/
inductive Lexical.Change where
  | add (chunk : Chunk)
  /-- The entry of an id, as it was set, is gone. -/
  | delete (id : Json)

/-- The entries of one generation. -/
structure Lexical.Snapshot where
  generation : Nat
  entries : List Lexical.Entry

structure LexicalIndex (α : Type) where
  /-- Where the index is stored, if it is. -/
  directory : Option Path
  k1 : Lexical.Parameter α
  b : Lexical.Parameter α
  /-- With more segments than this, all are put into one. -/
  maxSegments : Except Fault Int
  entries : Keyed String Lexical.Entry
  pending : List Lexical.Change
  /-- The names of the segments on the disk, in order. -/
  segments : List String
  /-- The number of the next segment. -/
  nextSegment : Int
  generation : Nat
  snapshot : Lexical.Snapshot
  /-- Which of `k1` and `b` cannot be computed with. -/
  unfit : Unfit := []

namespace LexicalIndex

open Lexical

variable {α : Type}

/-- An index without entries. -/
def blank (directory : Option Path) (k1 b : Parameter α) (maxSegments : Except Fault Int) :
    LexicalIndex α where
  directory := directory
  k1 := k1
  b := b
  maxSegments := maxSegments
  entries := .empty
  pending := []
  segments := []
  nextSegment := 1
  generation := 0
  snapshot := ⟨0, []⟩

/-- The snapshot that searches read: the one at hand, unless the index has moved on. -/
def view (ix : LexicalIndex α) : Snapshot :=
  if ix.snapshot.generation = ix.generation then ix.snapshot
  else ⟨ix.generation, ix.entries.values⟩

/-- The index with a snapshot of its own generation. -/
def refreshed (ix : LexicalIndex α) : LexicalIndex α := { ix with snapshot := ix.view }

/-- The number of chunks. -/
def count (ix : LexicalIndex α) : Nat := ix.view.entries.length

/-- The chunk of an id. -/
def chunk? (ix : LexicalIndex α) (id : String) : Option Chunk :=
  (ix.view.entries.find? fun e => e.chunk.id = id).map Entry.chunk

/-- All chunks, in the order in which their ids came in. -/
def chunks (ix : LexicalIndex α) : List Chunk := ix.view.entries.map Entry.chunk

/-! ## Searches -/

section Search
variable [Scalar α]

/-- The relevance model of a field, unless no entry has tokens in it. -/
def model? (ix : LexicalIndex α) (field : Field) : Option (Bm25 α) :=
  let corpus := ix.view.entries.map field.tokens
  if corpus.all List.isEmpty then none else some ⟨corpus, ix.k1, ix.b⟩

/-- An entry of the kind that is asked for, if one is. -/
def ofKind (kind : Option ChunkKind) (e : Entry) : Bool :=
  match kind with
  | none => true
  | some kind => e.chunk.kind? = some kind

/-- The chunks that a query selects by the tokens of a field, with their scores, best first; chunks of
equal scores in the order of the index. -/
def rank (ix : LexicalIndex α) (q : Query) (field : Field) (maxResults : Int)
    (kind : Option ChunkKind) : List (Hit α) :=
  if maxResults ≤ 0 || q.isEmpty then []
  else
    match ix.model? field with
    | none => []
    | some m =>
      let scored := ix.view.entries.zip (m.scores q.positiveTerms)
      let hits := scored.filter fun (e, score) =>
        ofKind kind e && q.selects (field.tokens e) && Scalar.less Scalar.zero score
      ((Scalar.sortDescending Prod.snd hits).take maxResults.toNat).map fun (e, score) =>
        ⟨e.chunk, score⟩

/-- The names of the parameters. -/
def parameterNames : List String := ["k1", "b"]

/-- As `rank`, where the parameters must be fit to be computed with, and the hits to be told. -/
def ranked (ix : LexicalIndex α) (q : Query) (field : Field) (maxResults : Int)
    (kind : Option ChunkKind) : Except Fault (List (Hit α)) := do
  if 0 < maxResults && !q.isEmpty && (ix.model? field).isSome then ix.unfit.check parameterNames
  (ix.rank q field maxResults kind).mapM Hit.checked

/-- The chunks that are relevant to a query, best first. -/
def search (ix : LexicalIndex α) (text : String) (maxResults : Int)
    (kind : Option ChunkKind) : Except Fault (List (Hit α)) := do
  ix.ranked (← (Query.parse text).mapError .badQuery) .content maxResults kind

/-- The chunks whose field a pattern describes, in the order of the index. -/
def matching (ix : LexicalIndex α) (pattern : String) (field : Field) (maxResults : Int) :
    List (Hit α) :=
  if maxResults ≤ 0 then []
  else
    ((ix.view.entries.filter fun e => Text.glob pattern (field.text e)).take maxResults.toNat).map
      fun e => ⟨e.chunk, Scalar.one⟩

/-- Search a field by a pattern with wildcards or, if it has none, by a query. -/
def searchField (ix : LexicalIndex α) (field : Field) (pattern : String) (maxResults : Int) :
    Except Fault (List (Hit α)) :=
  if Text.hasWildcard pattern then (ix.matching pattern field maxResults).mapM Hit.checked
  else do ix.ranked (← (Query.parse pattern).mapError .badQuery) field maxResults none

/-- Search the qualified names. -/
def searchName (ix : LexicalIndex α) (pattern : String) (maxResults : Int) :
    Except Fault (List (Hit α)) :=
  ix.searchField .name pattern maxResults

/-- Search the file paths. -/
def searchPath (ix : LexicalIndex α) (pattern : String) (maxResults : Int) :
    Except Fault (List (Hit α)) :=
  ix.searchField .path pattern maxResults

end Search

end LexicalIndex

end CodeSearch
