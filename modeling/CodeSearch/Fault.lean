import CodeSearch.Json.Printer
import CodeSearch.Json.Parser
import CodeSearch.Query.Parser
import CodeSearch.Record.Issue
import CodeSearch.Text.Bytes
/-!
# Faults

Everything that can go wrong, by cause, with the wording of each cause in `Fault.message`. A fault of
one layer that has its cause in another carries that cause.
-/

namespace CodeSearch

/-- Why a chunk is not taken. -/
inductive ChunkReason where
  /-- The record it comes from has an issue, the first of which is given. -/
  | record (problem : Record.Problem)
  | blankIdOrContent
  | blankId
  | blankContent
  /-- Another chunk, cited here, has the id. -/
  | taken (id citation : String)
deriving DecidableEq, Repr

def ChunkReason.message : ChunkReason → String
  | .record problem => s!"Invalid chunk record: {problem.message}"
  | .blankIdOrContent => "Chunk id and content must be non-empty"
  | .blankId => "Chunk id cannot be empty"
  | .blankContent => "Chunk content cannot be empty"
  | .taken id citation =>
    s!"Chunk id collision: {id} already maps to different content ({citation})"

/-- Why the disk refuses. -/
inductive DiskReason where
  | noSuchFile
  | fileExists
  | notADirectory
  | isADirectory
  | nameTooLong
  | refused
deriving DecidableEq, Repr

def DiskReason.message : DiskReason → String
  | .noSuchFile => "[Errno 2] No such file or directory"
  | .fileExists => "[Errno 17] File exists"
  | .notADirectory => "[Errno 20] Not a directory"
  | .isADirectory => "[Errno 21] Is a directory"
  | .nameTooLong => "[Errno 36] File name too long"
  | .refused => "[Errno 5] Input/output error"

/-- What was to be done with a stored file. -/
inductive StorageTask where
  | writeLexical
  | readLexical
  | saveVectors
  | loadVectors
  | loadVectorChunks
  | saveChunks
  | loadChunks
  | readChunkFile
deriving DecidableEq, Repr

def StorageTask.message : StorageTask → String
  | .writeLexical => "Failed to write lexical index file"
  | .readLexical => "Failed to read lexical index file"
  | .saveVectors => "Failed to save vector snapshot"
  | .loadVectors => "Failed to load vector snapshot"
  | .loadVectorChunks => "Vector snapshot contains an invalid chunk"
  | .saveChunks => "Failed to save chunks"
  | .loadChunks => "Failed to load chunks"
  | .readChunkFile => "Failed to read chunk file"

/-- Why a value is not one that is asked for, though of the right kind. -/
inductive ValueReason where
  | unknownKind (text : String)
  | countMismatch (chunks vectors : Nat)
  | unreadableDouble (text : String)
  | unreadableInteger (text : String)
  | noObjectInReply
  | badJsonInReply (error : Json.SyntaxError)
  | noObjectButOther (typeName : String)
  | unexpectedReply (schema typeName : String)
  | settingOutOfRange (setting value condition : String)
  /-- A file that holds no text. -/
  | undecodable
  /-- A text that holds halves of pairs, and so has no form in bytes. -/
  | unencodable (text : String)
  /-- A name that the system cannot keep as bytes. -/
  | noBytes (name : String)
  | nanToInteger
  | longInteger (digits : Nat)
  /-- A path that holds a NUL. -/
  | nulInPath
  | other
deriving DecidableEq, Repr

/-- Of a text that is no integer, so much is quoted. -/
def quotedLimit : Nat := 200

/-- What is said of a text that holds halves of pairs that do harm: the place of the first of them, or of the
run of halves that it begins. -/
def unencodableMessage (doesHarm : Nat → Bool) (text : String) : String :=
  let codes := Text.codes text.toList
  let start := (codes.takeWhile fun code => !doesHarm code).length
  let shown :=
    match (codes.drop start).takeWhile Text.isHalf with
    | [code] => "character " ++ Json.quoted (Text.ofCodes [code]) ++ s!" in position {start}"
    | run => s!"characters in position {start}-{start + run.length - 1}"
  s!"'utf-8' codec can't encode {shown}: surrogates not allowed"

def ValueReason.message : ValueReason → String
  | .unknownKind text => s!"Unknown chunk kind: {text}"
  | .countMismatch chunks vectors => s!"Got {chunks} chunks but {vectors} vectors"
  | .unreadableDouble text => s!"could not convert string to float: {Json.quoted text}"
  | .unreadableInteger text =>
    "invalid literal for int() with base 10: " ++ String.ofList ((Json.showText text).take quotedLimit)
  | .noObjectInReply => "No JSON object found in response"
  | .badJsonInReply e => s!"Invalid JSON in response: {e.message}"
  | .noObjectButOther typeName => s!"Expected a JSON object, got {typeName}"
  | .unexpectedReply schema typeName => s!"Expected {schema}, got {typeName}"
  | .settingOutOfRange setting value condition => s!"Invalid {setting}: {value}. {condition}"
  | .undecodable => "'utf-8' codec can't decode byte 0x80 in position 0: invalid start byte"
  | .unencodable text => unencodableMessage Text.isHalf text
  | .noBytes name => unencodableMessage (fun code => !Text.hasForm code) name
  | .nanToInteger => "cannot convert float NaN to integer"
  | .longInteger digits => Decimal.tooManyDigits digits
  | .nulInPath => "embedded null byte"
  | .other => "value out of range"

/-- At which step of a conversation with a chat model something went wrong. -/
inductive ChatStep where
  | noApiKey
  | build (model : String)
  | call
  | structuredCall (schema : String)
  | readReply (schema : String)
deriving DecidableEq, Repr

def ChatStep.message : ChatStep → String
  | .noApiKey => "GOOGLE_API_KEY is not set; add it to .env to enable LLM reranking"
  | .build model => s!"Could not build chat model {model}"
  | .call => "Chat call failed"
  | .structuredCall schema => s!"Structured call for {schema} failed"
  | .readReply schema => s!"Reply did not parse into {schema}"

/-- What a fault of a given part counts as. -/
inductive RaisedKind where
  | badValue
  /-- A fault of the system around the program. -/
  | system
  | other
deriving DecidableEq, Repr

inductive Fault where
  /-- A chunk is not taken; the id is the one that its record gives, null if none. -/
  | invalidChunk (reason : ChunkReason) (id : Json)
  | badQuery (error : Query.SyntaxError)
  /-- An operator with nothing to apply to, as an item of a list in the place of a query. -/
  | danglingItem (operator : String) (query : Json) (place : Nat)
  /-- A vector of another width than is expected, or a stored index of another one. -/
  | dimensionMismatch (expected actual : Json)
  | storage (task : StorageTask) (path : String) (cause : Fault)
  | noSnapshotPath
  | invalidRecord (issues : List Record.Issue)
  | badJson (error : Json.SyntaxError)
  | disk (reason : DiskReason) (path : String)
  | noDirectory (path : String)
  | badValue (reason : ValueReason)
  /-- A value of a kind that the operation does not take. -/
  | wrongType
  /-- A field that an object does not have. -/
  | missingKey
  /-- A value that is no object is asked for a field. -/
  | missingMember
  /-- A place beyond the end of a list. -/
  | missingItem
  /-- A number beyond all bounds. -/
  | overflow
  /-- An array that there is no memory for. -/
  | outOfMemory
  | chat (step : ChatStep) (cause : Option Fault)
  | oracleUnavailable (text : String) (cause : Option Fault)
  | oracleMalformed (text : String) (cause : Option Fault)
  /-- A remainder by zero is asked for. -/
  | divisionByZero
  /-- A record is asked for of what makes none. -/
  | noRecord
  /-- Raised, under a name of its own, by a part that the library is given, such as a chat model. -/
  | raised (kind : RaisedKind) (name text : String)
  /-- The power went off before an effect on the disk. -/
  | powerLoss

namespace Fault

/-- A place of an issue as text. -/
def placeText (place : List Record.Step) : String :=
  ".".intercalate (place.map fun
    | .field name => name
    | .index n => toString n)

def message : Fault → String
  | .invalidChunk reason _ => reason.message
  | .badQuery e => e.message
  | .danglingItem operator _ place => s!"Dangling '{operator}' operator at position {place}"
  | .dimensionMismatch expected actual =>
    s!"Embedding dimension mismatch: expected {expected.display}, got {actual.display}"
  | .storage task _ cause => s!"{task.message}: {cause.message}"
  | .noSnapshotPath => "No snapshot path configured for vector index"
  | .invalidRecord issues =>
    "\n".intercalate (issues.map fun issue => s!"{placeText issue.place}: {issue.problem.message}")
  | .badJson e => e.message
  | .disk reason path => s!"{reason.message}: {Json.quoted path}"
  | .noDirectory path => s!"Not a directory: {path}"
  | .badValue reason => reason.message
  | .wrongType => "a value of the wrong kind"
  | .missingKey => "a missing field"
  | .missingMember => "a field of a value that is no object"
  | .missingItem => "list index out of range"
  | .overflow => "cannot convert float infinity to integer"
  | .outOfMemory => "no memory for an array"
  | .chat step none => step.message
  | .chat step (some cause) => s!"{step.message}: {cause.message}"
  | .oracleUnavailable text _ => text
  | .oracleMalformed text _ => text
  | .divisionByZero => "division by zero"
  | .noRecord => "a mapping that makes no record"
  | .raised _ _ text => text
  | .powerLoss => "power loss"

/-- A value of the right kind that does not do, a text that does not read, a record with issues. -/
def isBadValue : Fault → Bool
  | .invalidChunk _ _ | .invalidRecord _ | .badValue _ | .noRecord => true
  | .badJson e => !e.issue.isDepth
  | .raised kind _ _ => kind = .badValue
  | _ => false

/-- A fault of the disk or of the system around the program. -/
def isSystem : Fault → Bool
  | .disk _ _ | .noDirectory _ => true
  | .raised kind _ _ => kind = .system
  | _ => false

/-- A text that is not in the data format. -/
def isJsonSyntax : Fault → Bool
  | .badJson e => e.issue.isSyntax
  | _ => false

/-- A text whose values are nested too deeply. -/
def isDepth : Fault → Bool
  | .badJson e => e.issue.isDepth
  | _ => false

/-- A vector has another width than is expected. -/
def widths (expected actual : Nat) : Fault := .dimensionMismatch (.int expected) (.int actual)

/-- A stored file that cannot be written or read. -/
def isStorage : Fault → Bool
  | .storage _ _ _ | .noSnapshotPath => true
  | _ => false

/-- A fault of this library's own making, which names what it concerns. -/
def isRetrieval : Fault → Bool
  | .invalidChunk _ _ | .badQuery _ | .danglingItem _ _ _ | .dimensionMismatch _ _ | .storage _ _ _
  | .noSnapshotPath
  | .oracleUnavailable _ _ | .oracleMalformed _ _ => true
  | _ => false

end Fault

/-- An integer near a double, or why there is none. -/
def Fault.ofNotFinite : Decimal.NotFinite → Fault
  | .nan => .badValue .nanToInteger
  | .infinite => .overflow

end CodeSearch
