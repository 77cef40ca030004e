import CodeSearch.Settings.Basic
/-!
# Settings from the environment

Each setting is read from the variable of its name, or from a text to go by when there is none. Settings
are read in order, and the first that does not read is the fault.
-/

namespace CodeSearch

/-- The variables of an environment. -/
abbrev Environment := List (String × String)

namespace Environment

/-- Check that the system can keep a text as bytes. -/
def checkBytes (text : String) : Except Fault Unit :=
  if Text.hasBytes text then .ok () else .error (.badValue (.noBytes text))

def holdsNul (text : String) : Bool := text.toList.contains '\x00'

/-- A variable that a record sets. Its name is not empty and holds no equals sign, and no NUL is in its name
or in its text. The system keeps the text as bytes. -/
def variableOf (name : String) (value : Json) : Except Fault (String × String) := do
  checkBytes name
  let text ← value.toText
  checkBytes text
  if holdsNul name || holdsNul text then throw (.badValue .other)
  if name.toList.contains '=' then throw (.badValue .other)
  if name = "" then throw (.disk .refused name)
  return (name, Text.throughBytes text)

/-- The environment in which the fields of a record have been set one after the other. -/
def ofRecord (record : Json.Fields) : Except Fault Environment :=
  record.mapM fun (name, value) => variableOf name value

/-- The text of a variable. -/
def text (env : Environment) (name default : String) : String := (env.lookup name).getD default

def whole (env : Environment) (name default : String) : Except Fault Int :=
  (Json.str (env.text name default)).toInteger

def number (env : Environment) (name default : String) : Except Fault Float :=
  (Json.str (env.text name default)).toDouble

/-- A flag is set by the word "true" in any case. -/
def flag (env : Environment) (name default : String) : Bool :=
  Text.lower (env.text name default) = "true"

/-- An integer that may be left open, also by an empty text. -/
def wholeIfAny (env : Environment) (name : String) : Except Fault (Option Int) :=
  match Chunk.nonEmpty? (env.lookup name) with
  | some text => (Json.str text).toInteger.map some
  | none => .ok none

end Environment

namespace Settings

/-- The settings of an environment, before they are checked. -/
def read (root : Path) (env : Environment) : Except Fault Settings := do
  let dataDir := Path.parse (env.text "DATA_DIR" (root.child "data").text)
  let fastModel := env.text "MODEL_FAST" "gemini-2.0-flash-lite"
  let embeddingBatchSize ← env.whole "EMBEDDING_BATCH_SIZE" "32"
  let embeddingWorkers ← env.whole "EMBEDDING_WORKERS" "4"
  let llmTemperature ← env.number "LLM_TEMPERATURE" "0.1"
  let llmMaxTokens ← env.wholeIfAny "LLM_MAX_TOKENS"
  let llmTimeout ← env.whole "LLM_TIMEOUT" "60"
  let llmMaxRetries ← env.whole "LLM_MAX_RETRIES" "1"
  let llmTopP ← env.number "LLM_TOP_P" "0.95"
  let llmTopK ← env.whole "LLM_TOP_K" "40"
  let bm25K1 ← env.number "BM25_K1" "1.2"
  let bm25B ← env.number "BM25_B" "0.75"
  let minTokenLength ← env.whole "BM25_MIN_TOKEN_LENGTH" "2"
  let maxSegments ← env.whole "LEXICAL_MAX_SEGMENTS" "10"
  let annThreshold ← env.whole "VECTOR_ANN_THRESHOLD" "50000"
  let hnswLinks ← env.whole "FAISS_HNSW_M" "32"
  let hnswSearchWidth ← env.whole "FAISS_HNSW_EF_SEARCH" "128"
  let annOverfetch ← env.whole "VECTOR_ANN_OVERFETCH" "4"
  let graphPackageWeight ← env.number "GRAPH_PACKAGE_WEIGHT" "0.3"
  let graphCallWeight ← env.number "GRAPH_CALL_WEIGHT" "0.4"
  let graphImportWeight ← env.number "GRAPH_IMPORT_WEIGHT" "0.2"
  let graphMappingWeight ← env.number "GRAPH_MAPPING_WEIGHT" "0.3"
  let graphCooccurrenceWeight ← env.number "GRAPH_COOCCURRENCE_WEIGHT" "0.1"
  let patternKindWeight ← env.number "PATTERN_KIND_WEIGHT" "0.4"
  let patternApiWeight ← env.number "PATTERN_API_WEIGHT" "0.3"
  let patternSignatureWeight ← env.number "PATTERN_SIGNATURE_WEIGHT" "0.2"
  let patternFrameworkWeight ← env.number "PATTERN_FRAMEWORK_WEIGHT" "0.1"
  let prefilterSize ← env.whole "PREFILTER_SIZE" "100"
  let recallSize ← env.whole "VECTOR_RECALL_SIZE" "50"
  let similarityThreshold ← env.number "VECTOR_SIMILARITY_THRESHOLD" "0.3"
  let resultSize ← env.whole "FINAL_RESULT_SIZE" "10"
  let lexicalBlend ← env.number "GRAPH_LEXICAL_BLEND" "0.7"
  let structuralBlend ← env.number "GRAPH_STRUCTURAL_BLEND" "0.3"
  let retentionRatio ← env.number "GRAPH_RETENTION_RATIO" "0.8"
  let patternRetentionRatio ← env.number "PATTERN_RETENTION_RATIO" "0.5"
  let patternMinRetained ← env.whole "PATTERN_MIN_RETAINED" "5"
  let patternThresholdFactor ← env.number "PATTERN_THRESHOLD_FACTOR" "0.8"
  let patternSizeMultiplier ← env.whole "PATTERN_SIZE_MULTIPLIER" "2"
  let patternMaxIdentifiers ← env.whole "PATTERN_MAX_IDENTIFIERS" "20"
  let rerankTemperature ← env.number "RERANK_TEMPERATURE" "0.0"
  let rerankMaxCandidates ← env.whole "RERANK_MAX_CANDIDATES" "20"
  let rerankMaxContentChars ← env.whole "RERANK_MAX_CONTENT_CHARS" "500"
  let rerankVectorWeight ← env.number "RERANK_VECTOR_WEIGHT" "0.4"
  let rerankLlmWeight ← env.number "RERANK_LLM_WEIGHT" "0.6"
  let rerankTimeout ← env.number "RERANK_TIMEOUT" "30"
  let indexingWorkers ← env.whole "INDEXING_WORKERS" "4"
  return {
    root, dataDir, fastModel
    apiKey := Chunk.textOrNullJson (env.lookup "GOOGLE_API_KEY")
    embeddingModel := env.text "EMBEDDING_MODEL" "sentence-transformers/all-MiniLM-L6-v2"
    modelCache := env.text "SENTENCE_TRANSFORMERS_HOME" (dataDir.child "sentence_transformers_cache").text
    splitCamelCase := env.flag "BM25_SPLIT_CAMELCASE" "true"
    splitSnakeCase := env.flag "BM25_SPLIT_SNAKE_CASE" "true"
    keepHexCodes := env.flag "BM25_KEEP_HEX_CODES" "true"
    removeStopwords := env.flag "BM25_REMOVE_STOPWORDS" "false"
    rerankEnabled := env.flag "RERANK_ENABLED" "true"
    rerankModel := env.text "RERANK_MODEL" fastModel
    showProgress := env.flag "SHOW_PROGRESS" "false"
    logLevel := env.text "LOG_LEVEL" "INFO"
    embeddingBatchSize, embeddingWorkers, llmTemperature, llmMaxTokens, llmTimeout, llmMaxRetries,
    llmTopP, llmTopK, bm25K1, bm25B, minTokenLength, maxSegments, annThreshold, hnswLinks,
    hnswSearchWidth, annOverfetch, graphPackageWeight, graphCallWeight, graphImportWeight,
    graphMappingWeight, graphCooccurrenceWeight, patternKindWeight, patternApiWeight,
    patternSignatureWeight, patternFrameworkWeight, prefilterSize, recallSize,
    similarityThreshold, resultSize, lexicalBlend, structuralBlend, retentionRatio,
    patternRetentionRatio, patternMinRetained, patternThresholdFactor, patternSizeMultiplier,
    patternMaxIdentifiers, rerankTemperature, rerankMaxCandidates, rerankMaxContentChars,
    rerankVectorWeight, rerankLlmWeight, rerankTimeout, indexingWorkers }

/-- Settings that make sense: the share of candidates that the graph keeps is a share, and there is
something to rerank. -/
def check (s : Settings) : Except Fault Settings :=
  if !(0 ≤ s.retentionRatio && s.retentionRatio ≤ 1) then
    .error (.badValue (.settingOutOfRange "GRAPH_RETENTION_RATIO"
      (Decimal.text Decimal.plainFormat s.retentionRatio) "Must be within [0, 1]"))
  else if s.rerankMaxCandidates < 1 then
    .error (.badValue (.settingOutOfRange "RERANK_MAX_CANDIDATES"
      (toString s.rerankMaxCandidates) "Must be >= 1"))
  else .ok s

/-- The settings of an environment. -/
def load (root : Path) (env : Environment) : Except Fault Settings := do
  check (← read root env)

end Settings

end CodeSearch
