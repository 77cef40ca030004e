import CodeSearch.Chat.Client
import CodeSearch.Chat.Judge
import CodeSearch.Indexing.Directory
import CodeSearch.Retrieval.Pipeline
/-!
# The engine

All indexes as the settings place them on the disk, the graph of the stored chunks, and the judge that
reranks, if there is one. The indexer and the retriever work on these.
-/

namespace CodeSearch

/-- The weights of the graph. -/
def Settings.graphWeights (s : Settings) : GraphWeights Float where
  package := s.graphPackageWeight
  call := s.graphCallWeight
  imports := s.graphImportWeight
  mapping := s.graphMappingWeight
  cooccurrence := s.graphCooccurrenceWeight

/-- The sizes and weights of the pipeline. -/
def Settings.tunables (s : Settings) : Tunables Float where
  prefilterSize := .whole s.prefilterSize
  recallSize := .whole s.recallSize
  similarityThreshold := s.similarityThreshold
  resultSize := .whole s.resultSize
  lexicalBlend := s.lexicalBlend
  structuralBlend := s.structuralBlend
  retentionRatio := s.retentionRatio
  patternRetentionRatio := s.patternRetentionRatio
  patternMinRetained := .whole s.patternMinRetained
  patternThresholdFactor := s.patternThresholdFactor
  patternSizeMultiplier := .whole s.patternSizeMultiplier
  patternMaxIdentifiers := s.patternMaxIdentifiers

/-- The reranker of a judge that asks a model. -/
def Chat.JudgeSettings.reranker (j : Chat.JudgeSettings) (model : Except Fault Chat.Model) :
    Rerank.Reranker Float where
  oracle := Chat.Judge.oracle ⟨model, some (.float j.temperature), j.wantsObject⟩
  maxCandidates := j.maxCandidates
  maxContentChars := .whole j.maxContentChars
  vectorWeight := j.vectorWeight
  llmWeight := j.llmWeight

structure Engine where
  settings : Settings
  lexical : LexicalIndex Float
  vectors : VectorIndex Float
  graph : CodeGraph Float
  store : ChunkStore
  reranker : Option (Rerank.Reranker Float)

namespace Engine

/-- Make the directories that the indexes are kept in. -/
def makeDirectories (s : Settings) (d : Disk) : Except Fault Disk := do
  Disk.makeDirectory s.snapshotFile.parent (← Disk.makeDirectory s.lexicalDir d)

/-- Open all indexes. -/
def openAt (s : Settings) (embedder : Embedder Float) (model : Except Fault Chat.Model) (d : Disk) :
    Except Fault Engine := do
  let store ← ChunkStore.openAt (some s.storeFile) d
  let lexical ← LexicalIndex.openAt (some s.lexicalDir) (.real s.bm25K1) (.real s.bm25B)
    (.ok s.maxSegments) [] d
  let vectors ← VectorIndex.openAt embedder (some s.snapshotFile) .null (.ok s.embeddingWorkers)
    (.ok (.whole s.annThreshold)) d
  return {
    settings := s
    lexical, vectors, store
    graph := ({ weights := s.graphWeights } : CodeGraph Float).build store.toList
    reranker := (Chat.JudgeSettings.standard? s).map fun j => j.reranker model }

/-- The indexer that writes to all indexes. -/
def indexer (e : Engine) : Indexer where
  lexical := e.lexical
  vectors := some e.vectors
  graph := some e.graph
  store := e.store
  storeFile := some e.settings.storeFile

/-- The engine as its indexer leaves it. -/
def withIndexer (e : Engine) (ix : Indexer) : Engine :=
  { e with
    lexical := ix.lexical
    vectors := ix.vectors.getD e.vectors
    graph := ix.graph.getD e.graph
    store := ix.store }

/-- The retriever that looks chunks up in the store first. -/
def retriever (e : Engine) : Retriever Float where
  lexical := e.lexical
  vectors := some e.vectors
  graph := some e.graph
  reranker := e.reranker
  lookup := some fun id => .ok (e.store.get? id)
  tunables := e.settings.tunables

open CodeSearch.Action

/-- Store what is not on the disk yet. -/
def close : Action Engine Unit := do
  onPart Engine.lexical (fun e lexical => { e with lexical }) LexicalIndex.close
  onPart Engine.vectors (fun e vectors => { e with vectors }) VectorIndex.close

end Engine

end CodeSearch
