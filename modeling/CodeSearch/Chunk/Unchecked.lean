import CodeSearch.Chunk.Record
/-!
# Fields set without a check

`Chunk.changed` sets fields to values of any kind. A value that is not of the kind of its field is kept
beside the fields, and the field gets what comes nearest to it, which is what the value is shown as. What
cannot be done with such a chunk is a fault, and there is one check for each use of a chunk: for making its
text, for indexing it, for showing it, for entering it into relations. A chunk all of whose fields are of
their kinds passes every check.
-/

namespace CodeSearch.Chunk

open Record

/-! ## Setting fields -/

/-- The texts of a list that holds nothing else. -/
def allTexts? : Json → Option (List String)
  | .arr items => items.mapM fun
    | .str s => some s
    | _ => none
  | _ => none

/-- The texts that elements are shown as, none if a value counts as nothing or has no elements. -/
def shownElements (value : Json) : List String :=
  if value.isTruthy then ((value.elements.toOption).getD []).map Json.display else []

/-- The text that a value is shown as, none if it counts as nothing. -/
def shownText? (value : Json) : Option String := if value.isTruthy then some value.display else none

/-- The texts that the values of a mapping are shown as. -/
def shownMapping (value : Json) : List (String × String) :=
  ((value.toRecord.toOption).getD []).map fun (name, value) => (name, (shownText? value).getD "")

/-- A text that stands for a value which is no text, and differs from all texts that are meant as such. -/
def standIn (value : Json) : String :=
  if value.isNoNumber then value.markedName
  else (value.entryName.toOption).getD (String.ofList (Text.mark :: value.display.toList))

/-- Keep a value beside the fields. -/
def keepBeside (c : Chunk) (name : String) (value : Json) : Chunk :=
  { c with unchecked := c.unchecked.set name value }

/-- Forget the value beside a field. -/
def settle (c : Chunk) (name : String) : Chunk :=
  { c with unchecked := c.unchecked.filter fun field => field.1 ≠ name }

/-- The chunk with a field set to a value, if it is of the kind of the field. Kinds are no values. -/
def setChecked? (c : Chunk) : String → Json → Option Chunk
  | "id", .str s => some { c with id := s }
  | "content", .str s => some { c with content := s }
  | "file_path", .str s => some { c with filePath := s }
  | "qualified_name", .str s => some { c with qualifiedName := some s }
  | "qualified_name", .null => some { c with qualifiedName := none }
  | "start_line", .int n => if 0 ≤ n then some { c with startLine := n.toNat } else none
  | "end_line", .int n => if 0 ≤ n then some { c with endLine := n.toNat } else none
  | "imports", value => (allTexts? value).map fun texts => { c with imports := texts }
  | "annotations", value => (allTexts? value).map fun texts => { c with annotations := texts }
  | "enclosing_class_summary", .str s => some { c with enclosingClass := some s }
  | "enclosing_class_summary", .null => some { c with enclosingClass := none }
  | "package_or_namespace", .str s => some { c with package := some s }
  | "package_or_namespace", .null => some { c with package := none }
  | "api_call_sequence", value => (allTexts? value).map fun texts => { c with apiCalls := texts }
  | "structural_mapping", value =>
    ((textMapping value).value?).map fun mapping => { c with structuralMapping := mapping }
  | "extra_metadata", .obj fields => some { c with extraMetadata := fields }
  | _, _ => none

/-- The chunk with a field set to what comes nearest to a value. -/
def setNearest (c : Chunk) (name : String) (value : Json) : Chunk :=
  match name with
  | "id" => { c with id := standIn value }
  | "content" => { c with content := standIn value }
  | "file_path" => { c with filePath := value.display }
  | "qualified_name" => { c with qualifiedName := shownText? value }
  | "imports" => { c with imports := shownElements value }
  | "annotations" => { c with annotations := shownElements value }
  | "enclosing_class_summary" => { c with enclosingClass := shownText? value }
  | "package_or_namespace" => { c with package := shownText? value }
  | "api_call_sequence" => { c with apiCalls := shownElements value }
  | "structural_mapping" => { c with structuralMapping := shownMapping value }
  | "extra_metadata" => { c with extraMetadata := [] }
  | _ => c

/-- The chunk with a field of a record set to a value of any kind. -/
def setField (c : Chunk) (name : String) (value : Json) : Chunk :=
  if fieldNames.contains name then
    match c.setChecked? name value with
    | some c => c.settle name
    | none => (c.setNearest name value).keepBeside name value
  else c

/-- A chunk with the fields of a record in place of its own. -/
def changed (c : Chunk) (record : Json.Fields) : Chunk :=
  record.foldl (fun c (name, value) => c.setField name value) c

/-! ## Checks -/

/-- The value that is kept beside a field passes a check, if there is one. -/
def checkBeside (c : Chunk) (name : String) (check : Json → Except Fault Unit) : Except Fault Unit :=
  (c.unchecked.get? name).elim (.ok ()) check

/-- A value that does not count as nothing is a fault. -/
def refuseTruthy (fault : Fault) (value : Json) : Except Fault Unit :=
  if value.isTruthy then .error fault else .ok ()

/-- A value that does not count as nothing has elements, and these can name entries. -/
def checkSet (value : Json) : Except Fault Unit :=
  if value.isTruthy then do
    (← value.elements).forM fun element => (element.entryName).map fun _ => ()
  else .ok ()

/-- A value has elements, or does not need them because it counts as nothing. -/
def checkElements (value : Json) : Except Fault Unit :=
  if value.isTruthy then (value.elements).map fun _ => () else .ok ()

/-- The text that the indexes read can be made. -/
def checkText (c : Chunk) : Except Fault Unit := do
  c.checkBeside "imports" checkElements
  c.checkBeside "annotations" fun value => (value.elements).map fun _ => ()
  c.checkBeside "content" fun _ => .error .wrongType

/-- The id can name an entry. -/
def checkId (c : Chunk) : Except Fault Unit :=
  c.checkBeside "id" fun value => (value.entryName).map fun _ => ()

/-- Two chunks are the same chunk, if their ids can name entries. -/
def isSame (a b : Chunk) : Except Fault Bool := do
  a.checkId
  b.checkId
  return a == b && !a.idValue.isNoNumber

/-- The id and the content are not empty, and the content is not blank. -/
def checkFilled (c : Chunk) : Except Fault Unit := do
  let idValue := c.idValue
  if !idValue.isTruthy then throw (.invalidChunk .blankIdOrContent idValue)
  c.checkBeside "content" fun _ => .error .missingMember
  if Text.allBlank c.content then throw (.invalidChunk .blankIdOrContent idValue)

/-- The id and the content are texts that are not blank. -/
def checkStorable (c : Chunk) : Except Fault Unit := do
  c.checkBeside "id" fun value =>
    .error (if value.isTruthy then .missingMember else .invalidChunk .blankId .null)
  if Text.allBlank c.id then throw (.invalidChunk .blankId .null)
  c.checkBeside "content" fun value =>
    .error (if value.isTruthy then .missingMember else .invalidChunk .blankContent (.str c.id))
  if Text.allBlank c.content then throw (.invalidChunk .blankContent (.str c.id))

/-- The texts of the fields that have tokens of their own can be cut into tokens. -/
def checkTokens (c : Chunk) : Except Fault Unit := do
  c.checkText
  c.checkBeside "qualified_name" (refuseTruthy .wrongType)
  c.checkBeside "file_path" fun _ => .error .wrongType

/-- What stands against a value beside a field that a reader is to read at a place. -/
def issuesAt {β : Type} (c : Chunk) (name place : String) (read : Json → Checked β) : List Issue :=
  match c.unchecked.get? name with
  | none => []
  | some value => ((read value).under (.field place)).issues

/-- No issues. -/
def noIssues (issues : List Issue) : Except Fault Unit :=
  if issues.isEmpty then .ok () else .error (.invalidRecord issues)

/-- What stands against the id. -/
def idIssues (c : Chunk) : List Issue := c.issuesAt "id" "chunk_id" text

/-- What stands against the chunk as one that a search has found. -/
def hitIssues (c : Chunk) : List Issue :=
  c.idIssues ++ c.issuesAt "content" "content" text ++ c.issuesAt "file_path" "file_path" text
    ++ c.issuesAt "qualified_name" "qualified_name" textOrNull ++ c.issuesAt "kind" "kind" readKind

/-- What stands against the chunk as one that is summed up. -/
def summaryIssues (c : Chunk) : List Issue :=
  let textList (value : Json) : Checked (List String) :=
    items .notList text (.arr ((value.elements.toOption).getD []))
  let pairs (value : Json) : Checked (List (String × String)) :=
    textMapping (.obj ((value.toRecord.toOption).getD []))
  c.idIssues ++ c.issuesAt "kind" "kind" readKind
    ++ c.issuesAt "qualified_name" "qualified_name" textOrNull
    ++ c.issuesAt "file_path" "file_path" text ++ c.issuesAt "content" "content" text
    ++ c.issuesAt "structural_mapping" "structural_mapping" pairs
    ++ c.issuesAt "imports" "imports" textList ++ c.issuesAt "api_call_sequence" "api_calls" textList

/-- The size of a value that has one. -/
def sizeOf? : Json → Option Nat
  | .str s => some (Text.size s)
  | .arr items => some items.length
  | .obj fields => some fields.length
  | _ => none

/-- A value beside the content has a size, which is no larger than allowed. -/
def checkContentSize (largest : Int) (c : Chunk) : Except Fault Unit :=
  c.checkBeside "content" fun value =>
    match sizeOf? value with
    | some size => if size ≤ largest then .ok () else .error .wrongType
    | none => .error .wrongType

/-- The chunk can be summed up. -/
def checkSummary (largest : Int) (c : Chunk) : Except Fault Unit := do
  c.checkContentSize largest
  c.checkBeside "structural_mapping" fun value => (value.toRecord).map fun _ => ()
  c.checkBeside "imports" fun value => (value.elements).map fun _ => ()
  c.checkBeside "api_call_sequence" fun value => (value.elements).map fun _ => ()
  noIssues c.summaryIssues

/-- The value of a route, unless it counts as nothing. -/
def checkRoute (isRoute : String → Bool) (field : String × Json) : Except Fault Unit :=
  if field.2.isTruthy && isRoute field.1 then (field.2.entryName).map fun _ => () else .ok ()

/-- The relations of the chunk can be entered, where some names of facts are those of routes. -/
def checkRelations (isRoute : String → Bool) (c : Chunk) : Except Fault Unit := do
  c.checkId
  c.checkBeside "qualified_name" (refuseTruthy .missingMember)
  c.checkBeside "api_call_sequence" checkSet
  c.checkBeside "enclosing_class_summary" (refuseTruthy .wrongType)
  c.checkBeside "imports" checkSet
  c.checkBeside "structural_mapping" fun value => do (← value.fields).forM (checkRoute isRoute)
  c.checkBeside "package_or_namespace" fun value =>
    if value.isTruthy then (value.entryName).map fun _ => () else .ok ()

/-! ## What relations hold -/

/-- The names of the elements of a field, of which the texts are those that the field holds. -/
def elementNames (c : Chunk) (name : String) (texts : List String) : List String :=
  match c.unchecked.get? name with
  | none => texts
  | some value =>
    if value.isTruthy then
      ((value.elements.toOption).getD []).filterMap fun element => element.entryName.toOption
    else []

/-- The facts of the structural mapping with the names of their values. -/
def facts (c : Chunk) : List (String × String) :=
  match c.unchecked.get? "structural_mapping" with
  | none => c.structuralMapping
  | some value =>
    ((value.toRecord.toOption).getD []).filterMap fun (key, value) =>
      if value.isTruthy then value.entryName.toOption.map fun name => (key, name) else none

/-- The name of the package, if there is one. -/
def packageName? (c : Chunk) : Option String :=
  match c.unchecked.get? "package_or_namespace" with
  | none => c.package
  | some value => if value.isTruthy then value.entryName.toOption else none

end CodeSearch.Chunk
