import CodeSearch.Chunk.Basic
import CodeSearch.Query.Basic
import CodeSearch.Record.Checked
/-!
# Chunk records

A chunk is stored as an object. `Chunk.read` checks such an object field by field, and `Chunk.record`
writes one. `Chunk.ofRecord` is the way in for data from outside, where the kind may be spelled freely.
-/

namespace CodeSearch.Chunk

open Record

/-- A text that is not blank. -/
def notBlank (reason : String) (value : Json) : Checked String :=
  (text value).andThen fun s => if Text.allBlank s then .fail (.refused reason) else .good s

/-- What is wrong with a value that names no kind. -/
def noKind : Problem := .notAmong (ChunkKind.all.map ChunkKind.name)

/-- A kind by its exact name. -/
def readKind : Json → Checked ChunkKind
  | .str s => fromText (fun s => (ChunkKind.ofName? s).elim (.error noKind) .ok) s
  | _ => .fail noKind

/-- The last line, not before the first. -/
def readEndLine (startLine : Nat) (value : Json) : Checked Nat :=
  (natural value).andThen fun n =>
    if n < startLine then
      .fail (.refused s!"end_line ({n}) must be >= start_line ({startLine})")
    else .good n

/-- Read a chunk from its record. A first line that does not read counts as zero for the last one,
and a last line that is not given is not compared. -/
def read (record : Json.Fields) : Checked Chunk :=
  let startLine := optional "start_line" 0 natural record
  Chunk.mk
    <$> required "id" (notBlank "Chunk id cannot be empty") record
    <*> required "content" (notBlank "Chunk content cannot be empty") record
    <*> required "kind" readKind record
    <*> optional "file_path" "" text record
    <*> optional "qualified_name" none textOrNull record
    <*> startLine
    <*> optional "end_line" 0 (readEndLine (startLine.value?.getD 0)) record
    <*> optional "imports" [] (fun value => (texts value).map firsts) record
    <*> optional "annotations" [] texts record
    <*> optional "enclosing_class_summary" none textOrNull record
    <*> optional "package_or_namespace" none textOrNull record
    <*> optional "api_call_sequence" [] texts record
    <*> optional "structural_mapping" [] textMapping record
    <*> optional "extra_metadata" [] mapping record
    <*> .good []

/-- The names of the fields of a chunk record, in order. -/
def fieldNames : List String :=
  ["id", "content", "kind", "file_path", "qualified_name", "start_line", "end_line", "imports",
    "annotations", "enclosing_class_summary", "package_or_namespace", "api_call_sequence",
    "structural_mapping", "extra_metadata"]

def textOrNullJson : Option String → Json
  | none => .null
  | some s => .str s

def textsJson (texts : List String) : Json := .arr (texts.map .str)

/-- The fields of a chunk as a record, those that were set without a check left out of account. -/
def typedRecord (c : Chunk) : Json.Fields :=
  [("id", .str c.id),
    ("content", .str c.content),
    ("kind", .str c.kind.name),
    ("file_path", .str c.filePath),
    ("qualified_name", textOrNullJson c.qualifiedName),
    ("start_line", .int c.startLine),
    ("end_line", .int c.endLine),
    ("imports", textsJson c.imports),
    ("annotations", textsJson c.annotations),
    ("enclosing_class_summary", textOrNullJson c.enclosingClass),
    ("package_or_namespace", textOrNullJson c.package),
    ("api_call_sequence", textsJson c.apiCalls),
    ("structural_mapping", .obj (c.structuralMapping.map fun (name, value) => (name, .str value))),
    ("extra_metadata", .obj (Json.finiteFields c.extraMetadata))]

/-- The names of the fields that hold mappings. -/
def mappingNames : List String := ["structural_mapping", "extra_metadata"]

/-- The names of the fields that hold lines. -/
def lineNames : List String := ["start_line", "end_line"]

/-- A value that was set without a check, as a record holds it: a truth value in the place of a line as a
number, and pairs in the place of a mapping as that mapping. -/
def uncheckedJson (name : String) (value : Json) : Json :=
  match value with
  | .bool b => if lineNames.contains name then .int (if b then 1 else 0) else .bool b
  | value =>
    if mappingNames.contains name then
      (value.toRecord.toOption.map fun fields => .obj (Json.finiteFields fields)).getD .null
    else value.finite

/-- The record of a chunk, with all fields. Numbers that are not finite have no place in a record, and null
stands for them. -/
def record (c : Chunk) : Json.Fields :=
  c.unchecked.foldl (fun fields (name, value) => fields.set name (uncheckedJson name value)) c.typedRecord

def json (c : Chunk) : Json := .obj c.record

/-- Data is written to this depth. -/
def metadataDepth : Nat := 255

/-- The value that was set for a mapping makes none. -/
def breaksRecord (field : String × Json) : Bool :=
  mappingNames.contains field.1 && field.2.toRecord.toOption.isNone

/-- The record of a chunk as it is written, unless its data is nested too deeply for that, or it has to have
a mapping from something else. -/
def stored (c : Chunk) : Except Fault Json :=
  if c.unchecked.any breaksRecord then .error .noRecord
  else if Json.fieldsDepth c.extraMetadata ≤ metadataDepth && Json.fieldsDepth c.unchecked ≤ metadataDepth
  then .ok c.json
  else .error (.badValue .other)

/-- The kind that a value spells. -/
def kindOf (value : Json) : Except Fault ChunkKind :=
  match ChunkKind.parse? value.display with
  | some kind => .ok kind
  | none => .error (.badValue (.unknownKind value.display))

/-- A record whose kind, if it is a spelling of one, is given by its exact name. -/
def nameKind (fields : Json.Fields) : Json.Fields :=
  match fields.get? "kind" with
  | some (.str spelling) =>
    match ChunkKind.parse? spelling with
    | some kind => fields.set "kind" (.str kind.name)
    | none => fields
  | _ => fields

/-- The id that a record gives, if it gives one. -/
def idOf (fields : Json.Fields) : Json :=
  match fields.get? "id" with
  | some id => if id.isTruthy then id else .null
  | none => .null

/-- The id for a place and a content that are given as values of any kind. A name that is null, or empty in
any way, counts as none. The key of the id must have a form in bytes. -/
def idFor (filePath content name line : Json) : Except Fault String :=
  match filePath, content, if name.isTruthy then name else .str "" with
  | .str filePath, .str content, .str name =>
    let key := idKey filePath name line.display content
    if Text.isWhole key then .ok (makeId filePath content (some name) line.display)
    else .error (.badValue (.unencodable key))
  | _, _, _ => .error .wrongType

/-- The chunk of a record from outside; the first issue, if there is one, is the fault. -/
def ofRecord (fields : Json.Fields) : Except Fault Chunk :=
  match read (nameKind fields) with
  | .good chunk => .ok chunk
  | .bad issues =>
    .error (.invalidChunk (.record ((issues.head?.map Issue.problem).getD .missing)) (idOf fields))

/-- The chunk of a value from outside. -/
def ofJson (value : Json) : Except Fault Chunk := do
  ofRecord (← value.toRecord)

/-- The chunk of a record that spells its kind exactly; all issues are the fault. -/
def ofExactRecord (fields : Json.Fields) : Except Fault Chunk :=
  match read fields with
  | .good chunk => .ok chunk
  | .bad issues => .error (.invalidRecord issues)

/-- Setting a field of a chunk is refused, as is setting an item of one of its lists or mappings. -/
def assign (field : String) : Fault := .invalidRecord [⟨[.field field], .frozen⟩]

/-- The names of what follows from the fields. -/
def derivedNames : List String := ["simple_name", "searchable_text", "citation"]

/-- Setting an item within a field, or within what follows from the fields, is refused. -/
def assignItem (field : String) : Fault :=
  if fieldNames.contains field || derivedNames.contains field then .wrongType else .missingMember

end CodeSearch.Chunk
