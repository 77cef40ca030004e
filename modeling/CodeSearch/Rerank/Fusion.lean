import CodeSearch.Json.Number
import CodeSearch.Record.Unfit
import CodeSearch.Rerank.Opinion
import CodeSearch.Rerank.Summary
/-!
# Reranking

An oracle is asked for opinions on the first candidates, and the combined score of a candidate becomes a
weighted sum of its similarity and of the points it gets. A candidate without an opinion counts as if its
similarity were the opinion too, and whatever goes wrong with the oracle means that it has no opinions.
-/

namespace CodeSearch.Rerank

/-- What candidates are wanted for. -/
inductive Request where
  | query (text : String)
  /-- The equivalent of a fragment of code from elsewhere. -/
  | pattern (source : String) (hint : Option String) (kind : Option ChunkKind)
deriving DecidableEq, Repr

namespace Request

/-- A request as one text: for a fragment its source, and the hint below it. -/
def text : Request → String
  | .query text => text
  | .pattern source hint _ =>
    match Chunk.nonEmpty? hint with
    | some hint => s!"{source}\n{hint}"
    | none => source

/-- The method of a candidate with an opinion. -/
def method : Request → RankingMethod
  | .query _ => .reranked
  | .pattern _ _ _ => .patternReranked

/-- The method of a candidate without an opinion. -/
def fallback : Request → RankingMethod
  | .query _ => .fallback
  | .pattern _ _ _ => .patternFallback

end Request

/-- A source of opinions, given from outside. -/
abbrev Oracle (α : Type) := Request → List (Summary α) → Except Fault Reply

structure Reranker (α : Type) where
  oracle : Oracle α
  /-- The oracle is asked about no more candidates than this. -/
  maxCandidates : Int
  /-- Contents beyond this size are cut, to which the size has to be an integer. -/
  maxContentChars : Number
  vectorWeight : α
  llmWeight : α
  /-- Limits and weights that cannot be used. -/
  unfit : Unfit := []

namespace Reranker

variable {α : Type} [Scalar α]

/-- A reranker with the limits and weights that hold unless others are asked for. -/
def standard (oracle : Oracle α) : Reranker α where
  oracle := oracle
  maxCandidates := 20
  maxContentChars := .whole 500
  vectorWeight := Scalar.ratio 4 10
  llmWeight := Scalar.ratio 6 10

open Lenient in
/-- A reranker with the limits and weights that a record gives, and the usual ones for those it leaves
out. -/
def ofRecord (oracle : Oracle Float) (record : Json.Fields) : Reranker Float :=
  let usual := standard oracle
  run (do
    return {
      oracle
      maxCandidates := ← setting record "max_candidates" usual.maxCandidates Json.sliceEnd
      maxContentChars := ← setting record "max_content_chars" usual.maxContentChars Number.ofJson
      vectorWeight := ← setting record "vector_weight" usual.vectorWeight Json.toWeight
      llmWeight := ← setting record "llm_weight" usual.llmWeight Json.toWeight })
    fun (reranker : Reranker Float) unfit => { reranker with unfit }

/-- The size beyond which contents are cut. -/
def contentLimit (r : Reranker α) : Int :=
  match r.maxContentChars with
  | .whole n => n
  | .real x => ((Decimal.floor x).toOption).getD Number.beyondLists

/-- A candidate can be summed up: what is longer than allowed can be cut to the size. -/
def checkSummary (r : Reranker α) (c : RankedCandidate α) : Except Fault Unit := do
  r.unfit.check ["max_content_chars"]
  if r.maxContentChars.less (.whole (Text.size c.chunk.content)) then
    let _ ← r.maxContentChars.toSize
  c.chunk.checkSummary r.contentLimit

/-- The candidates that the oracle is asked about. -/
def batch (r : Reranker α) (candidates : List (RankedCandidate α)) : List (RankedCandidate α) :=
  upTo r.maxCandidates candidates

/-- The oracle can be asked about some candidates. -/
def checkAsked (r : Reranker α) (candidates : List (RankedCandidate α)) : Except Fault Unit := do
  r.unfit.check ["max_candidates"]
  (r.batch candidates).forM r.checkSummary

/-- Combined scores can be computed. -/
def checkWeights (r : Reranker α) : Except Fault Unit := r.unfit.check ["vector_weight", "llm_weight"]

/-- The summaries that the oracle is shown. -/
def summaries (r : Reranker α) (candidates : List (RankedCandidate α)) : List (Summary α) :=
  (r.batch candidates).map (Summary.ofCandidate r.contentLimit)

/-- The oracle's reply, empty if it fails. -/
def replyTo (r : Reranker α) (request : Request) (shown : List (Summary α)) : Reply :=
  match r.oracle request shown with
  | .ok reply => reply
  | .error _ => {}

/-- The opinion that counts for a chunk: the first, and only if the chunk was shown. -/
def opinionOn (shown : List (Summary α)) (reply : Reply) (id : String) : Option Opinion :=
  if shown.any fun s => s.chunkId = id then reply.opinion? id else none

/-- A candidate with its combined score. -/
def merge (r : Reranker α) (request : Request) (opinion : Option Opinion) (c : RankedCandidate α) :
    RankedCandidate α :=
  let similarity := c.vectorSimilarity
  match opinion with
  | none =>
    { c with
      externalScore := none
      combinedScore := r.vectorWeight * similarity + r.llmWeight * similarity
      method := request.fallback }
  | some opinion =>
    { c with
      externalScore := some (.points opinion.points)
      combinedScore := r.vectorWeight * similarity + r.llmWeight * Scalar.ratio opinion.points 10
      method := request.method
      reasoning := opinion.reasoning }

/-- Candidates by their combined scores, once the oracle has been asked about the first of them. -/
def rerank (r : Reranker α) (request : Request) (candidates : List (RankedCandidate α)) :
    List (RankedCandidate α) :=
  if candidates.isEmpty then []
  else
    let shown := r.summaries candidates
    let reply := r.replyTo request shown
    RankedCandidate.sort (candidates.map fun c => r.merge request (opinionOn shown reply c.chunk.id) c)

/-- As `rerank`, unless the candidates cannot be summed up or weighed; and what the oracle was shown, if it
was asked. -/
def reranked (r : Reranker α) (request : Request) (candidates : List (RankedCandidate α)) :
    Except Fault (List (RankedCandidate α)) × Option (List (Summary α)) :=
  if candidates.isEmpty then (.ok [], none)
  else
    match r.checkAsked candidates with
    | .error fault => (.error fault, none)
    | .ok _ => (r.checkWeights.map fun _ => r.rerank request candidates, some (r.summaries candidates))

end Reranker

end CodeSearch.Rerank
