import CodeSearch.Retrieval.Retriever
/-!
# The pipeline

A search goes through stages. The lexical index gives the candidates; the graph adds a structural score
and keeps the best; the vector index confirms those that are similar to the request; the reranker is
asked about these; and the best of all are the results. A stage whose component is missing passes the
candidates on. Searches for a query and for a fragment of code go through the same stages with sizes and
rules of their own.
-/

namespace CodeSearch.Retrieval

variable {α : Type} [Scalar α]

/-- A candidate within the pipeline. -/
structure Candidate (α : Type) where
  chunk : Chunk
  lexicalScore : α
  /-- The lexical score relative to the greatest one. -/
  normalized : α
  structuralScore : α
  stageScore : α
  similarity : α

/-- What a search asks of each stage. A size or a threshold that cannot be used is a fault of the stage that
needs it. -/
structure Search (α : Type) where
  query : String
  prefilterSize : Except Fault Int
  kind : Option ChunkKind
  /-- The structural scores of a batch of candidates. -/
  structural : CodeGraph α → List String → Except Fault (List (String × α))
  /-- How many of a number of candidates the graph keeps. -/
  retained : Int → Except Fault Int
  recallText : String
  recallSize : Except Fault Int
  threshold : Except Fault α
  request : Rerank.Request

/-- What came of a search. -/
structure Outcome (α : Type) where
  results : Except Fault (List (RankedCandidate α))
  /-- What the oracle was shown, if it was asked. -/
  shown : Option (List (Rerank.Summary α)) := none
  /-- The vector index as the search leaves it. -/
  vectors : Option (VectorIndex α)

/-! ## Stages -/

/-- The candidate of a hit, where `best` is the greatest score. -/
def Candidate.ofHit (best : α) (hit : Lexical.Hit α) (chunk : Chunk) : Candidate α :=
  let normalized := if Scalar.less Scalar.zero best then hit.score / best else Scalar.zero
  ⟨chunk, hit.score, normalized, Scalar.zero, normalized, Scalar.zero⟩

/-- The candidates that the lexical index gives. Hits whose chunk is not to be found are passed over. -/
def prefilter (r : Retriever α) (s : Search α) : Except Fault (List (Candidate α)) := do
  let q ← (Query.parse s.query).mapError .badQuery
  let hits ← r.lexical.ranked q .content (← s.prefilterSize) s.kind
  match Scalar.greatest? (hits.map Lexical.Hit.score) with
  | none => return []
  | some best =>
    let found ← hits.mapM fun hit => do
      return (← r.chunk? hit.chunk.id).map (Candidate.ofHit best hit)
    return found.filterMap fun c => c

/-- A candidate with its structural score, and the blend of this and the lexical one. -/
def blend (t : Tunables α) (structural : α) (c : Candidate α) : Candidate α :=
  { c with
    structuralScore := structural
    stageScore := t.lexicalBlend * c.normalized + t.structuralBlend * structural }

/-- The names of the weights by which scores are blended. -/
def blendNames : List String := ["lexical_blend", "structural_blend"]

/-- The candidates that the graph keeps. -/
def graphFilter (r : Retriever α) (s : Search α) (candidates : List (Candidate α)) :
    Except Fault (List (Candidate α)) :=
  match r.graph with
  | none => .ok candidates
  | some g => do
    let scores ← s.structural g (candidates.map fun c => c.chunk.id)
    let keep ← s.retained candidates.length
    r.tunables.unfit.check blendNames
    let blended := candidates.map fun c =>
      blend r.tunables ((scores.lookup c.chunk.id).getD Scalar.zero) c
    return upTo keep (Scalar.sortDescending Candidate.stageScore blended)

/-- The candidates that are among the chunks recalled, by descending similarity. -/
def confirm (recalled : List (Vector.Similar α)) (candidates : List (Candidate α)) :
    List (Candidate α) :=
  Scalar.sortDescending Candidate.similarity (candidates.filterMap fun c =>
    (recalled.find? fun s => s.chunkId = c.chunk.id).map fun s => { c with similarity := s.similarity })

/-- The candidates that the vector index confirms. -/
def vectorFilter (r : Retriever α) (s : Search α) (candidates : List (Candidate α)) :
    Except Fault (List (Candidate α)) :=
  match r.vectors with
  | none => .ok (candidates.map fun c => { c with similarity := c.stageScore })
  | some v => do
    let size ← s.recallSize
    let found ← v.findText s.recallText size (s.threshold.toOption.getD Scalar.zero)
    let _ ← s.threshold
    return confirm found candidates

/-- A candidate as it goes to the reranker. -/
def Candidate.ranked (c : Candidate α) : RankedCandidate α where
  chunk := c.chunk
  lexicalScore := c.lexicalScore
  vectorSimilarity := c.similarity
  structuralScore := c.structuralScore
  externalScore := none
  combinedScore := c.similarity
  method := .similarityOnly
  reasoning := ""

/-- The candidates as the reranker puts them, and what the oracle was shown. -/
def rerank (r : Retriever α) (s : Search α) (ranked : List (RankedCandidate α)) :
    Except Fault (List (RankedCandidate α)) × Option (List (Rerank.Summary α)) :=
  match r.reranker with
  | some reranker => reranker.reranked s.request ranked
  | none => (.ok ranked, none)

/-- The best of the candidates. -/
def finish (maxResults : Number) (ranked : List (RankedCandidate α)) :
    Except Fault (List (RankedCandidate α)) := do
  return upTo (← maxResults.toSize) (RankedCandidate.sort ranked)

/-! ## Searches -/

/-- Faults of queries and of widths are the caller's; all others mean that there are no results. -/
def guarded (results : Except Fault (List (RankedCandidate α))) :
    Except Fault (List (RankedCandidate α)) :=
  match results with
  | .error (.badQuery e) => .error (.badQuery e)
  | .error (.danglingItem operator query place) => .error (.danglingItem operator query place)
  | .error (.dimensionMismatch expected actual) => .error (.dimensionMismatch expected actual)
  | .error _ => .ok []
  | .ok results => .ok results

/-- The outcome of a search that ends before it comes to the vector index. -/
def Outcome.early (r : Retriever α) (results : Except Fault (List (RankedCandidate α))) : Outcome α where
  results := guarded results
  vectors := r.vectors

/-- The vector index after a search has recalled from it. -/
def recalledFrom (r : Retriever α) (s : Search α) : Option (VectorIndex α) :=
  r.vectors.map fun v =>
    match s.recallSize with
    | .ok size => if v.readsFor s.recallText size then v.refreshed else v
    | .error _ => v

/-- The outcome of a search whose candidates the vector index has been asked about. -/
def Outcome.late (r : Retriever α) (s : Search α) (maxResults : Number)
    (confirmed : Except Fault (List (Candidate α))) : Outcome α :=
  match confirmed with
  | .error fault => { results := guarded (.error fault), vectors := recalledFrom r s }
  | .ok candidates =>
    let (ranked, shown) := rerank r s (candidates.map Candidate.ranked)
    { results := guarded (ranked >>= finish maxResults)
      shown := shown
      vectors := recalledFrom r s }

/-- Run a search through the stages. Without candidates it ends at once; but the vector index is asked
even if the graph keeps none. -/
def run (r : Retriever α) (s : Search α) (maxResults : Number) : Outcome α :=
  match prefilter r s with
  | .error fault => .early r (.error fault)
  | .ok [] => .early r (.ok [])
  | .ok found =>
    match graphFilter r s found with
    | .error fault => .early r (.error fault)
    | .ok kept => .late r s maxResults (vectorFilter r s kept)

/-- The search for a query. -/
def querySearch (t : Tunables α) (query : String) : Search α :=
  let hints := QueryHints.ofQuery query
  { query := query
    prefilterSize := do (← t.unfit.use ["prefilter_size"] t.prefilterSize).toSize
    kind := none
    structural := fun g batch => g.queryScores batch hints
    retained := fun count => do retained (← t.unfit.use ["retention_ratio"] t.retentionRatio) count
    recallText := query
    recallSize := (t.unfit.use ["vector_recall_size"] t.recallSize).map Number.bound
    threshold := t.unfit.use [Tunables.thresholdName] t.similarityThreshold
    request := .query query }

/-- The size of a stage for a fragment of code: the size for a query, multiplied. -/
def patternSize (t : Tunables α) (name : String) (size : Number) : Except Fault Number := do
  t.unfit.check [name, "pattern_size_multiplier"]
  size.times t.patternSizeMultiplier

/-- The search for the equivalent of a fragment of code. -/
def patternSearch (t : Tunables α) (source : String) (hint : Option String) (kind : Option ChunkKind) :
    Search α :=
  let hints := PatternHints.ofSource source kind
  { query := patternQuery source hint t.patternMaxIdentifiers
    prefilterSize := do (← patternSize t "prefilter_size" t.prefilterSize).toSize
    kind := kind
    structural := fun g batch => g.patternScores batch hints
    retained := fun count => do
      t.unfit.check ["pattern_retention_ratio", "pattern_min_retained"]
      patternRetained t.patternRetentionRatio t.patternMinRetained count
    recallText := source
    recallSize := (patternSize t "vector_recall_size" t.recallSize).map Number.bound
    threshold := do
      t.unfit.check [Tunables.thresholdName, Tunables.factorName]
      return t.similarityThreshold * t.patternThresholdFactor
    request := .pattern source hint kind }

end CodeSearch.Retrieval

namespace CodeSearch.Retriever

open Retrieval

variable {α : Type} [Scalar α]

/-- The number of results that are wanted. -/
def limit (r : Retriever α) (maxResults : Option Number) : Except Fault Number :=
  match maxResults with
  | some limit => .ok limit
  | none => r.tunables.unfit.use ["final_result_size"] r.tunables.resultSize

/-- The outcome of a search for some number of results. Where none are wanted, it is not begun. -/
def searching (r : Retriever α) (s : Search α) (maxResults : Option Number) : Outcome α :=
  match r.limit maxResults with
  | .error fault => .early r (.error fault)
  | .ok limit => if limit.atMost (.whole 0) then .early r (.ok []) else run r s limit

/-- Find the chunks that are most relevant to a query. -/
def find (r : Retriever α) (query : String) (maxResults : Option Number) : Outcome α :=
  r.searching (querySearch r.tunables query) maxResults

/-- Find the chunks that do what a fragment of code from elsewhere does. A fragment without identifiers
finds nothing. -/
def findPattern (r : Retriever α) (source : String) (hint : Option String) (kind : Option ChunkKind)
    (maxResults : Option Number) : Outcome α :=
  let search := patternSearch r.tunables source hint kind
  if search.query = "" then .early r (.ok []) else r.searching search maxResults

end CodeSearch.Retriever
