import CodeSearch.Chunk.Record
import CodeSearch.Indexing.Exclusion
import CodeSearch.Token.Tokenizer
import CodeSearch.Vocabulary
/-!
# Settings

What can be set from outside, with the places on the disk that follow from it, and the listing of all
settings by name.
-/

namespace CodeSearch

structure Settings where
  /-- The directory of the program. -/
  root : Path
  dataDir : Path
  /-- The key for the chat model, null if there is none. -/
  apiKey : Json
  fastModel : String
  embeddingModel : String
  embeddingBatchSize : Int
  embeddingWorkers : Int
  /-- Where embedding models are kept. -/
  modelCache : String
  llmTemperature : Float
  /-- The greatest length of an answer, if it is bounded. -/
  llmMaxTokens : Option Int
  llmTimeout : Int
  llmMaxRetries : Int
  llmTopP : Float
  llmTopK : Int
  bm25K1 : Float
  bm25B : Float
  minTokenLength : Int
  splitCamelCase : Bool
  splitSnakeCase : Bool
  keepHexCodes : Bool
  removeStopwords : Bool
  maxSegments : Int
  /-- From this number of vectors on, candidates may be chosen approximately. -/
  annThreshold : Int
  hnswLinks : Int
  hnswSearchWidth : Int
  annOverfetch : Int
  graphPackageWeight : Float
  graphCallWeight : Float
  graphImportWeight : Float
  graphMappingWeight : Float
  graphCooccurrenceWeight : Float
  patternKindWeight : Float
  patternApiWeight : Float
  patternSignatureWeight : Float
  patternFrameworkWeight : Float
  prefilterSize : Int
  recallSize : Int
  similarityThreshold : Float
  resultSize : Int
  lexicalBlend : Float
  structuralBlend : Float
  retentionRatio : Float
  patternRetentionRatio : Float
  patternMinRetained : Int
  patternThresholdFactor : Float
  patternSizeMultiplier : Int
  patternMaxIdentifiers : Int
  rerankEnabled : Bool
  /-- The model that reranks: the fast one unless another is named. -/
  rerankModel : String
  rerankTemperature : Float
  rerankMaxCandidates : Int
  rerankMaxContentChars : Int
  rerankVectorWeight : Float
  rerankLlmWeight : Float
  rerankTimeout : Float
  indexingWorkers : Int
  showProgress : Bool
  logLevel : String

namespace Settings

/-- Where all indexes are kept. -/
def indexDir (s : Settings) : Path := s.dataDir.child "index"

def lexicalDir (s : Settings) : Path := s.indexDir.child "lexical"

def snapshotFile (s : Settings) : Path := s.indexDir.child "vectors.pkl"

def storeFile (s : Settings) : Path := s.indexDir.child "chunks.json"

/-- A key for the chat model is there. -/
def hasKey (s : Settings) : Bool := s.apiKey.isTruthy

/-- The shape of a line of the log. -/
def logFormat : String := "%(asctime)s - %(name)s - %(levelname)s - %(message)s"

/-- The settings by name, fixed ones included. -/
def listing (s : Settings) : Json.Fields := [
  ("PROJECT_ROOT", .str s.root.text),
  ("DATA_DIR", .str s.dataDir.text),
  ("INDEX_DIR", .str s.indexDir.text),
  ("LEXICAL_INDEX_DIR", .str s.lexicalDir.text),
  ("VECTOR_SNAPSHOT_FILE", .str s.snapshotFile.text),
  ("CHUNK_STORE_FILE", .str s.storeFile.text),
  ("BM25_STOPWORDS", Chunk.textsJson (Token.stopwords.mergeSort fun a b => a ≤ b)),
  ("JAVA_KEYWORDS", Chunk.textsJson Vocabulary.reservedWords),
  ("ROUTING_KEY_MARKERS", Chunk.textsJson Vocabulary.routingMarkers),
  ("FRAMEWORK_HINTS", Chunk.textsJson Vocabulary.frameworks),
  ("REPO_EXCLUDE_PATTERNS", Chunk.textsJson Indexing.standardPatterns),
  ("GOOGLE_API_KEY", s.apiKey),
  ("MODEL_FAST", .str s.fastModel),
  ("EMBEDDING_MODEL", .str s.embeddingModel),
  ("EMBEDDING_BATCH_SIZE", .int s.embeddingBatchSize),
  ("EMBEDDING_WORKERS", .int s.embeddingWorkers),
  ("SENTENCE_TRANSFORMERS_HOME", .str s.modelCache),
  ("LLM_TEMPERATURE", .float s.llmTemperature),
  ("LLM_MAX_TOKENS", (s.llmMaxTokens.map Json.int).getD .null),
  ("LLM_TIMEOUT", .int s.llmTimeout),
  ("LLM_MAX_RETRIES", .int s.llmMaxRetries),
  ("LLM_TOP_P", .float s.llmTopP),
  ("LLM_TOP_K", .int s.llmTopK),
  ("BM25_K1", .float s.bm25K1),
  ("BM25_B", .float s.bm25B),
  ("BM25_MIN_TOKEN_LENGTH", .int s.minTokenLength),
  ("BM25_SPLIT_CAMELCASE", .bool s.splitCamelCase),
  ("BM25_SPLIT_SNAKE_CASE", .bool s.splitSnakeCase),
  ("BM25_KEEP_HEX_CODES", .bool s.keepHexCodes),
  ("BM25_REMOVE_STOPWORDS", .bool s.removeStopwords),
  ("LEXICAL_MAX_SEGMENTS", .int s.maxSegments),
  ("VECTOR_ANN_THRESHOLD", .int s.annThreshold),
  ("FAISS_HNSW_M", .int s.hnswLinks),
  ("FAISS_HNSW_EF_SEARCH", .int s.hnswSearchWidth),
  ("VECTOR_ANN_OVERFETCH", .int s.annOverfetch),
  ("GRAPH_PACKAGE_WEIGHT", .float s.graphPackageWeight),
  ("GRAPH_CALL_WEIGHT", .float s.graphCallWeight),
  ("GRAPH_IMPORT_WEIGHT", .float s.graphImportWeight),
  ("GRAPH_MAPPING_WEIGHT", .float s.graphMappingWeight),
  ("GRAPH_COOCCURRENCE_WEIGHT", .float s.graphCooccurrenceWeight),
  ("PATTERN_KIND_WEIGHT", .float s.patternKindWeight),
  ("PATTERN_API_WEIGHT", .float s.patternApiWeight),
  ("PATTERN_SIGNATURE_WEIGHT", .float s.patternSignatureWeight),
  ("PATTERN_FRAMEWORK_WEIGHT", .float s.patternFrameworkWeight),
  ("PREFILTER_SIZE", .int s.prefilterSize),
  ("VECTOR_RECALL_SIZE", .int s.recallSize),
  ("VECTOR_SIMILARITY_THRESHOLD", .float s.similarityThreshold),
  ("FINAL_RESULT_SIZE", .int s.resultSize),
  ("GRAPH_LEXICAL_BLEND", .float s.lexicalBlend),
  ("GRAPH_STRUCTURAL_BLEND", .float s.structuralBlend),
  ("GRAPH_RETENTION_RATIO", .float s.retentionRatio),
  ("PATTERN_RETENTION_RATIO", .float s.patternRetentionRatio),
  ("PATTERN_MIN_RETAINED", .int s.patternMinRetained),
  ("PATTERN_THRESHOLD_FACTOR", .float s.patternThresholdFactor),
  ("PATTERN_SIZE_MULTIPLIER", .int s.patternSizeMultiplier),
  ("PATTERN_MAX_IDENTIFIERS", .int s.patternMaxIdentifiers),
  ("RERANK_ENABLED", .bool s.rerankEnabled),
  ("RERANK_MODEL", .str s.rerankModel),
  ("RERANK_TEMPERATURE", .float s.rerankTemperature),
  ("RERANK_MAX_CANDIDATES", .int s.rerankMaxCandidates),
  ("RERANK_MAX_CONTENT_CHARS", .int s.rerankMaxContentChars),
  ("RERANK_VECTOR_WEIGHT", .float s.rerankVectorWeight),
  ("RERANK_LLM_WEIGHT", .float s.rerankLlmWeight),
  ("RERANK_TIMEOUT", .float s.rerankTimeout),
  ("INDEXING_WORKERS", .int s.indexingWorkers),
  ("SHOW_PROGRESS", .bool s.showProgress),
  ("LOG_LEVEL", .str s.logLevel),
  ("LOG_FORMAT", .str logFormat)]

end Settings

end CodeSearch
