import CodeSearch.Chunk.Unchecked
import CodeSearch.Scalar
/-!
# Ranked candidates

A chunk that may answer a query, with the scores of all stages. `combinedScore` is the one that results
are ordered by.
-/

namespace CodeSearch

/-- How the combined score of a candidate came about. -/
inductive RankingMethod where
  | reranked
  | fallback
  | similarityOnly
  | patternReranked
  | patternFallback
deriving DecidableEq, Repr

namespace RankingMethod

def all : List RankingMethod :=
  [.reranked, .fallback, .similarityOnly, .patternReranked, .patternFallback]

def name : RankingMethod → String
  | .reranked => "llm_rerank"
  | .fallback => "vector_fallback"
  | .similarityOnly => "vector_only"
  | .patternReranked => "pattern_rerank"
  | .patternFallback => "pattern_fallback"

end RankingMethod

/-- An outside opinion on a candidate: whole points as a reranker gives them, or a number from a
record. -/
inductive ExternalScore (α : Type) where
  | points (n : Int)
  | number (x : α)
deriving DecidableEq, Repr

structure RankedCandidate (α : Type) where
  chunk : Chunk
  lexicalScore : α
  vectorSimilarity : α
  structuralScore : α
  externalScore : Option (ExternalScore α)
  combinedScore : α
  method : RankingMethod
  reasoning : String

namespace RankedCandidate

variable {α : Type}

/-- Candidates by descending combined score; those of equal scores keep their order. -/
def sort [Scalar α] (candidates : List (RankedCandidate α)) : List (RankedCandidate α) :=
  Scalar.sortDescending combinedScore candidates

/-- The first 200 characters of the content, with three dots if there are more. -/
def preview (c : RankedCandidate α) : String :=
  let content := c.chunk.content
  if Text.size content ≤ 200 then content else textUpTo 200 content ++ "..."

/-! ## Records -/

open Record

/-- What is wrong with a value that names no ranking method. -/
def noMethod : Problem := .notLiteral (RankingMethod.all.map RankingMethod.name)

/-- A ranking method by its name. -/
def readMethod : Json → Checked RankingMethod
  | .str s => fromText (fun s => (RankingMethod.all.find? fun m => m.name = s).elim (.error noMethod) .ok) s
  | _ => .fail noMethod

/-- Read the candidate of a chunk from the fields beside it. -/
def read (chunk : Chunk) (record : Json.Fields) : Checked (RankedCandidate Float) :=
  RankedCandidate.mk chunk
    <$> optional "lexical_score" 0 double record
    <*> optional "vector_similarity" 0 double record
    <*> optional "structural_score" 0 double record
    <*> optional "external_score" none (fun v => (doubleOrNull v).map (·.map .number)) record
    <*> optional "combined_score" 0 double record
    <*> optional "ranking_method" .similarityOnly readMethod record
    <*> optional "reasoning" "" text record

def externalJson : Option (ExternalScore Float) → Json
  | none => .null
  | some (.points n) => .int n
  | some (.number x) => .float x

/-- A candidate as a flat record for display. -/
def metadata (c : RankedCandidate Float) : Json.Fields :=
  [("chunk_id", c.chunk.idValue),
    ("kind", .str c.chunk.kind.name),
    ("file_path", c.chunk.valueOf "file_path" (.str c.chunk.filePath)),
    ("qualified_name", c.chunk.valueOf "qualified_name" (Chunk.textOrNullJson c.chunk.qualifiedName)),
    ("start_line", c.chunk.valueOf "start_line" (.int c.chunk.startLine)),
    ("end_line", c.chunk.valueOf "end_line" (.int c.chunk.endLine)),
    ("lexical_score", .float c.lexicalScore),
    ("vector_similarity", .float c.vectorSimilarity),
    ("structural_score", .float c.structuralScore),
    ("external_score", externalJson c.externalScore),
    ("combined_score", .float c.combinedScore),
    ("ranking_method", .str c.method.name),
    ("reasoning", .str c.reasoning)]

/-- The preview of a content that may be of any kind: one that has a size is shown whole. -/
def previewOf (c : RankedCandidate Float) : Except Fault Json := do
  c.chunk.checkContentSize 200
  return c.chunk.valueOf "content" (.str c.preview)

/-- A candidate as results show it: its metadata, place and preview. A kind that was set to a value has no
name. -/
def shown (c : RankedCandidate Float) : Except Fault Json := do
  c.chunk.checkBeside "kind" fun _ => .error .missingMember
  let citation := Json.str c.chunk.citation
  return .obj (c.metadata ++ [("citation", citation), ("preview", ← c.previewOf)])

end RankedCandidate

end CodeSearch
