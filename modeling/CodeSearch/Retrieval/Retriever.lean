import CodeSearch.Graph.Score
import CodeSearch.Lexical.Index
import CodeSearch.Rerank.Fusion
import CodeSearch.Retrieval.PatternQuery
import CodeSearch.Retrieval.Retention
import CodeSearch.Retrieval.Tunables
import CodeSearch.Vector.Index
/-!
# The retriever

What the pipeline works with: the indexes, of which only the lexical one must be there, a way to look up
chunks, a reranker, and the sizes and weights that can be tuned.
-/

namespace CodeSearch

structure Retriever (α : Type) where
  lexical : LexicalIndex α
  vectors : Option (VectorIndex α) := none
  graph : Option (CodeGraph α) := none
  reranker : Option (Rerank.Reranker α) := none
  /-- Where chunks are looked up before the indexes are. -/
  lookup : Option (String → Except Fault (Option Chunk)) := none
  tunables : Tunables α

namespace Retriever

variable {α : Type}

/-- The chunk of an id: as looked up, or as an index holds it. -/
def chunk? (r : Retriever α) (id : String) : Except Fault (Option Chunk) := do
  let found ← match r.lookup with
    | some lookup => lookup id
    | none => pure none
  return found.or ((r.lexical.chunk? id).or (r.vectors.bind fun v => v.chunk? id))

section Related
variable [Scalar α]

/-- The neighbours of a chunk in the graph that some results do not hold yet, with their chunks. A
neighbour that no index knows is passed over. -/
def graphNeighbors (r : Retriever α) (id : String) (maxResults : Int) (before : List Chunk)
    (seen : List String) : Except Fault (List Chunk) :=
  match r.graph with
  | none => .ok before
  | some g =>
    if maxResults ≤ before.length then .ok before
    else do
      let fresh := (g.relations.neighbors id maxResults).filter fun other => !seen.contains other
      let chunks ← fresh.mapM r.chunk?
      return before ++ chunks.filterMap fun c => c

/-- The chunks related to a chunk: those of similar vectors, then its neighbours in the graph. -/
def related (r : Retriever α) (id : String) (maxResults : Int) : Except Fault (List Chunk) := do
  let similar ← match r.vectors with
    | some v => v.findChunk id maxResults r.tunables.similarityThreshold
    | none => pure []
  let near := similar.filter fun s => s.chunkId ≠ id
  let before := near.map Vector.Similar.chunk
  return upTo maxResults
    (← r.graphNeighbors id maxResults before (id :: near.map Vector.Similar.chunkId))

end Related

/-- The retriever with a graph made from some chunks, with the usual weights. -/
def rebuildGraph [Scalar α] (r : Retriever α) (chunks : List Chunk) : Retriever α :=
  { r with graph := some (({ weights := .standard } : CodeGraph α).build chunks) }

end Retriever

end CodeSearch
