import CodeSearch.Graph.Request
import CodeSearch.Indexing.Directory
import CodeSearch.Lexical.Request
import CodeSearch.Retrieval.Request
import CodeSearch.Vector.EmbedderChoice
/-!
# The workbench

All components side by side, each set up by a record of its own, with an indexer that writes to some of them
and a retriever that searches some of them. The components can be worked on one by one, or through the indexer
and the retriever.
-/

namespace CodeSearch

/-- Where a retriever looks chunks up before its indexes. -/
inductive Lookup where
  | nowhere
  | store
  /-- Looking up always fails. -/
  | failing (fault : Fault)
  /-- Among some chunks, of which a later one hides an earlier one of its id. -/
  | among (chunks : List Chunk)

structure Workbench where
  lexical : LexicalIndex Float
  vectors : VectorIndex Float
  /-- The width that the vector index was given. -/
  width : Json
  graph : CodeGraph Float
  /-- The graph that the indexer keeps, once the retriever has made another one for itself. -/
  indexedGraph : Option (CodeGraph Float) := none
  store : ChunkStore
  /-- Where the indexer keeps the store, if it does. -/
  storeFile : Option Path
  excludePatterns : Json
  producers : List Indexing.Producer := [.chunkFiles]
  /-- The indexer writes to the vector index. -/
  indexesVectors : Bool
  /-- The indexer keeps the graph. -/
  indexesGraph : Bool
  /-- The retriever searches the vector index. -/
  searchesVectors : Bool
  /-- The retriever uses the graph. -/
  searchesGraph : Bool
  lookup : Lookup
  reranker : Option (Rerank.Reranker Float)
  tunables : Tunables Float
  /-- The embedder pauses before it embeds many texts at once, and leaves room for other work. -/
  pauses : Bool
  /-- Chunks that are to be indexed in the next pause. -/
  waiting : Option (List Chunk) := none
  /-- What the oracle of the reranker was asked last. -/
  consulted : Option (Rerank.Request × List (Rerank.Summary Float)) := none

namespace Workbench

/-! ## Setting up -/

/-- The record of a component. Without one it gets what is usual. -/
def part (record : Json.Fields) (name : String) : Json.Fields :=
  match record.get? name with
  | some (.obj fields) => fields
  | _ => []

/-- A place below a directory that a record gives; null gives none. -/
def placeIn (directory : Path) (record : Json.Fields) (name : String) : Except Fault (Option Path) :=
  match record.get? name with
  | none | some .null => .ok none
  | some value => do return some (directory.child (← value.toText))

/-- What a record answers to a question, which is yes if it answers nothing. -/
def asks (record : Json.Fields) (name : String) : Bool :=
  ((record.get? name).map Json.isTruthy).getD true

/-- The patterns of excluded files that a value sets; null leaves the usual ones. -/
def patternsOf : Option Json → Json
  | none | some .null => Chunk.textsJson Indexing.standardPatterns
  | some value => value

/-- A number of workers can be compared with. -/
def checkWorkers (value : Json) : Except Fault Unit := do let _ ← Number.ofJson value

/-- Set all components up, one after the other, with places below a directory. -/
def openAt (directory : Path) (record : Json.Fields) (lookup : Except Fault Lookup)
    (reranker : Option (Rerank.Reranker Float)) (d : Disk) : Except Fault Workbench := do
  let lex := part record "lexical"
  let vec := part record "vector"
  let indexing := part record "indexer"
  let searching := part record "retriever"
  let lexical ← LexicalIndex.openWith (← placeIn directory lex "dir") lex d
  let vectors ← VectorIndex.openWith (.ofRecord (part record "embedder"))
    (← placeIn directory vec "snapshot") vec d
  let weights ← GraphWeights.ofRecord (part record "graph")
  let store ← ChunkStore.openAt (← placeIn directory (part record "store") "file") d
  let storeFile ← placeIn directory indexing "store_file"
  indexing.given "workers" () checkWorkers
  let lookup ← lookup
  let tunables ← Tunables.ofRecord (part searching "tunables")
  return {
    lexical, vectors, store, storeFile, lookup, reranker, tunables
    pauses := Embedder.pauses (part record "embedder")
    width := (vec.get? "dimension").getD .null
    graph := { weights }
    excludePatterns := patternsOf (indexing.get? "exclude_patterns")
    indexesVectors := asks indexing "vector"
    indexesGraph := asks indexing "graph"
    searchesVectors := asks searching "vector"
    searchesGraph := asks searching "graph" }

/-! ## The indexer and the retriever -/

/-- The graph that the indexer keeps. -/
def graphOfIndexer (w : Workbench) : CodeGraph Float := w.indexedGraph.getD w.graph

/-- The indexer that writes to the components. -/
def indexer (w : Workbench) : Indexer where
  lexical := w.lexical
  vectors := if w.indexesVectors then some w.vectors else none
  graph := if w.indexesGraph then some w.graphOfIndexer else none
  store := w.store
  storeFile := w.storeFile
  excludePatterns := w.excludePatterns
  producers := w.producers

/-- The workbench as its indexer leaves it. -/
def withIndexer (w : Workbench) (ix : Indexer) : Workbench :=
  let graph := ix.graph.getD w.graphOfIndexer
  { w with
    lexical := ix.lexical
    vectors := ix.vectors.getD w.vectors
    store := ix.store
    graph := if w.indexedGraph.isSome then w.graph else graph
    indexedGraph := w.indexedGraph.map fun _ => graph }

/-- How the retriever looks chunks up. -/
def lookupOf (w : Workbench) : Option (String → Except Fault (Option Chunk)) :=
  match w.lookup with
  | .nowhere => none
  | .store => some fun id => .ok (w.store.get? id)
  | .failing fault => some fun _ => .error fault
  | .among chunks => some fun id => .ok (chunks.reverse.find? fun c => c.id = id)

/-- The retriever that searches the components. -/
def retriever (w : Workbench) : Retriever Float where
  lexical := w.lexical
  vectors := if w.searchesVectors then some w.vectors else none
  graph := if w.searchesGraph || w.indexedGraph.isSome then some w.graph else none
  reranker := w.reranker
  lookup := w.lookupOf
  tunables := w.tunables

/-- The workbench with an indexer and a retriever that begin anew. -/
def rewired (w : Workbench) : Workbench :=
  { w with indexedGraph := none, producers := [.chunkFiles], consulted := none }

/-! ## Work on the components -/

open CodeSearch.Action

def onLexical {α : Type} (work : Action (LexicalIndex Float) α) : Action Workbench α :=
  onPart lexical (fun w lexical => { w with lexical }) work

def onVectors {α : Type} (work : Action (VectorIndex Float) α) : Action Workbench α :=
  onPart vectors (fun w vectors => { w with vectors }) work

def onStore {α : Type} (work : Action ChunkStore α) : Action Workbench α :=
  onPart store (fun w store => { w with store }) work

def onIndexer {α : Type} (work : Action Indexer α) : Action Workbench α :=
  onPart indexer withIndexer work

/-- Work on the vector index that has nothing to do with the disk. -/
def onVectorIndex {α : Type} (change : VectorIndex Float → Except Fault α × VectorIndex Float) :
    Action Workbench α :=
  onVectors do
    let (answer, v) := change (← memory)
    setMemory v
    ofExcept answer

/-- Change the store, unless that is a fault. -/
def changeStore {α : Type} (change : ChunkStore → Except Fault (α × ChunkStore)) : Action Workbench α :=
  onStore do
    let (answer, s) ← ofExcept (change (← memory))
    setMemory s
    return answer

/-- Open the lexical index again from the disk. -/
def reopenLexical : Action Workbench Unit := do
  let w ← memory
  let lexical ← ofExcept (w.lexical.reopened (← disk))
  setMemory { w with lexical }.rewired

/-- Open the vector index again from the disk. -/
def reopenVectors : Action Workbench Unit := do
  let w ← memory
  let vectors ← ofExcept (w.vectors.reopened w.width (← disk))
  setMemory { w with vectors }.rewired

/-- Make the graph anew from some chunks. -/
def buildGraph (chunks : List Chunk) : Action Workbench Unit := do
  let w ← memory
  let (answer, graph) := w.graph.rebuild chunks
  setMemory { w with graph }
  ofExcept answer

/-- Have the retriever make a graph of its own from some chunks, with the usual weights. -/
def rebuildGraph (chunks : List Chunk) : Action Workbench Unit := do
  let w ← memory
  let (answer, graph) := ({ weights := .standard } : CodeGraph Float).rebuild chunks
  ofExcept answer
  setMemory { w with graph, indexedGraph := some w.graphOfIndexer }

/-! ## Indexing

Between the preparation of a batch and its commit other chunks can be indexed, namely in the pause before
the texts of the batch are embedded. -/

/-- A report, and how much the store and the graph of the indexer then hold. -/
structure Indexed where
  report : Indexing.Report
  stored : Nat
  related : Nat

def indexed (report : Indexing.Report) : Action Workbench Indexed := do
  let w ← memory
  return ⟨report, w.store.size, w.graphOfIndexer.relations.size⟩

/-- Use a pause, if there is one, to index the chunks that wait for it. -/
def indexWaiting (now : Float) (pause : Workbench → Bool) : Action Workbench (Option Indexed) := do
  let w ← memory
  match w.waiting with
  | none => return none
  | some chunks =>
    if !(w.pauses && pause w) then return none
    setMemory { w with waiting := none }
    return some (← indexed (← onIndexer (Indexer.indexChunks now chunks)))

/-- Index a batch of chunks. The answers are what came of it, and of the chunks that were indexed in its
pause. -/
def indexChunks (now : Float) (chunks : List Chunk) : Action Workbench (Indexed × Option Indexed) := do
  let prepared := (← memory).indexer.prepare chunks
  let other ← indexWaiting now fun w => w.indexer.embedsAtOnce chunks
  let batch ← ofExcept prepared
  return (← indexed (← onIndexer (Indexer.commit now batch)), other)

/-- Index the files of a directory. -/
def indexDirectory (now : Float) (root : Path) : Action Workbench Indexed := do
  let harvest ← ofExcept ((← memory).indexer.readDirectory root (← disk))
  let (first, _) ← indexChunks now harvest.chunks
  return { first with report := harvest.extend first.report }

/-- Have some chunks wait for a pause, and index a batch of others. -/
def indexAround (now : Float) (batch waiting : List Chunk) :
    Action Workbench (Indexed × Option Indexed) := do
  modifyMemory fun w => { w with waiting }
  indexChunks now batch

/-- Embed chunks and put them into the vector index alone. -/
def insertVectors (now : Float) (chunks : List Chunk) : Action Workbench Nat := do
  let _ ← indexWaiting now fun w => w.vectors.embedsAtOnce chunks
  onVectors (VectorIndex.insertBatch now chunks)

/-- Take a search for a request into account: what it leaves of the vector index, and what the oracle was
asked. The answers are the results. -/
def conclude (request : Rerank.Request) (outcome : Retrieval.Outcome Float) :
    Action Workbench (List (RankedCandidate Float)) := do
  modifyMemory fun w => { w with
    vectors := outcome.vectors.getD w.vectors
    consulted := (outcome.shown.map fun shown => (request, shown)).or w.consulted }
  ofExcept outcome.results

end Workbench

end CodeSearch
