import CodeSearch.Graph.Request
import CodeSearch.Query.Given
import CodeSearch.Retrieval.Pipeline
import CodeSearch.Vector.Request
/-!
# Requests to the retriever

Searches for queries, fragments, ids and limits that are values of any kind. What a stage cannot use means
that there are no results, as does everything else that goes wrong in a stage.
-/

namespace CodeSearch.Retriever

open Retrieval

/-- The limit that a value sets; null leaves it to the retriever. -/
def limitOf : Json → Except Fault (Option Number)
  | .null => .ok none
  | value => do return some (← Number.ofJson value)

/-- The results for a query that is no text: none, unless it can be read so far that its fault is told. -/
def findNone (r : Retriever Float) (query : Json) (maxResults : Option Number) :
    Except Fault (List (RankedCandidate Float)) := do
  if (← r.limit maxResults).atMost (.whole 0) then return []
  let _ ← Query.ofJson query
  return []

/-- As `find`, for a query and a limit of any kind. -/
def findFor (r : Retriever Float) (query limit : Json) : Outcome Float :=
  match query, limitOf limit with
  | .str query, .ok limit => r.find query limit
  | query, .ok limit => .early r (r.findNone query limit)
  | _, .error _ => .early r (.ok [])

/-- As `findPattern`, for values of any kind. A source has to be one that a beginning can be taken of. -/
def findPatternFor (r : Retriever Float) (source hint : Json) (kind : Option ChunkKind) (limit : Json) :
    Outcome Float :=
  match source, limitOf limit with
  | .str source, .ok limit =>
    match hint with
    | .str hint => r.findPattern source (some hint) kind limit
    | hint => if hint.isTruthy then .early r (.ok []) else r.findPattern source none kind limit
  | .str _, .error _ | .arr _, _ => .early r (.ok [])
  | _, _ => { results := .error .wrongType, vectors := r.vectors }

/-- What similarities are compared with, where it may not be a number. -/
def least (r : Retriever Float) : Json :=
  match r.tunables.unfit.use [Tunables.thresholdName] r.tunables.similarityThreshold with
  | .ok threshold => .float threshold
  | .error _ => .null

/-- The chunks similar to that of an id, and the vector index after the search. -/
def similarFor (r : Retriever Float) (id limit : Json) :
    Except Fault (List (Vector.Similar Float)) × Option (VectorIndex Float) :=
  match r.vectors with
  | none => (.ok [], none)
  | some v =>
    let (found, v) := v.findChunkFor id limit r.least
    (found, some v)

/-- The neighbours in the graph that fill up some results, where a limit of any kind leaves room for them. -/
def neighborsFor (r : Retriever Float) (name : String) (limit : Json)
    (near : List (Vector.Similar Float)) : Except Fault (List Chunk) := do
  let before := near.map Vector.Similar.chunk
  match r.graph with
  | none => return before
  | some g =>
    if !(Number.whole before.length).less (← Number.ofJson limit) then return before
    g.relations.checkRelated name
    r.graphNeighbors name (← limit.sliceEnd) before (name :: near.map Vector.Similar.chunkId)

/-- As `related`, for an id and a limit of any kind; and the vector index after the search. -/
def relatedFor (r : Retriever Float) (id limit : Json) :
    Except Fault (List Chunk) × Option (VectorIndex Float) :=
  match id.entryName with
  | .error fault => (.error fault, r.vectors)
  | .ok name =>
    let (similar, vectors) := r.similarFor id limit
    let found : Except Fault (List Chunk) := do
      let near := (← similar).filter fun s => s.chunkId ≠ name
      let found ← r.neighborsFor name limit near
      return upTo (← limit.sliceEnd) found
    (found, vectors)

end CodeSearch.Retriever
