import CodeSearch.Chunk.Record
import CodeSearch.Proofs.Firsts
import CodeSearch.Proofs.Json.Depth
import CodeSearch.Proofs.Json.RoundTrip
import CodeSearch.Proofs.Record.Checked
/-!
# Chunks come back from their records

`WellRead` says what is known of a chunk that was read from data, and `FromData.wellRead` that it holds of every such
chunk. `Made` says what of it is known whatever data a chunk was made of. A chunk of which it holds, and whose lines are
in order, comes back from its record (`ofJson_json`), and the record is a value that texts can hold (`isData_json`),
nested hardly deeper than the data in it (`depth_json`).
-/

namespace CodeSearch.Chunk

open Record

/-- What is known of the fields of a chunk that was read from data. -/
structure WellRead (c : Chunk) : Prop where
  checked : c.unchecked = []
  id : Text.IsKept c.id.toList
  id_filled : Text.allBlank c.id = false
  content : Text.IsKept c.content.toList
  content_filled : Text.allBlank c.content = false
  filePath : Text.IsKept c.filePath.toList
  qualifiedName : ∀ s ∈ c.qualifiedName, Text.IsKept s.toList
  startLine : HasDigits c.startLine
  endLine : HasDigits c.endLine
  imports : ∀ s ∈ c.imports, Text.IsKept s.toList
  imports_once : firsts c.imports = c.imports
  annotations : ∀ s ∈ c.annotations, Text.IsKept s.toList
  enclosingClass : ∀ s ∈ c.enclosingClass, Text.IsKept s.toList
  package : ∀ s ∈ c.package, Text.IsKept s.toList
  apiCalls : ∀ s ∈ c.apiCalls, Text.IsKept s.toList
  structuralMapping : (mappingJson c.structuralMapping).IsData
  extraMetadata : (Json.obj c.extraMetadata).IsData

/-- What is known of a chunk that was made of a record of any data, numbers that no text can hold among them. -/
structure Made (c : Chunk) : Prop where
  checked : c.unchecked = []
  id_filled : Text.allBlank c.id = false
  content_filled : Text.allBlank c.content = false
  qualifiedName : ∀ s ∈ c.qualifiedName, Text.IsKept s.toList
  imports : ∀ s ∈ c.imports, Text.IsKept s.toList
  package : ∀ s ∈ c.package, Text.IsKept s.toList
  apiCalls : ∀ s ∈ c.apiCalls, Text.IsKept s.toList
  structuralMapping : (mappingJson c.structuralMapping).TextsKept

theorem WellRead.made {c : Chunk} (h : c.WellRead) : c.Made :=
  { h with structuralMapping := h.structuralMapping.textsKept }

/-- The lines of a chunk are in order. -/
def InOrder (c : Chunk) : Prop := c.startLine ≤ c.endLine

/-! ## Reading a chunk -/

/-- What each field was read from, if a chunk was read. -/
theorem read_good {record : Json.Fields} {c : Chunk} (h : read record = .good c) :
    required "id" (notBlank "Chunk id cannot be empty") record = .good c.id ∧
    required "content" (notBlank "Chunk content cannot be empty") record = .good c.content ∧
    required "kind" readKind record = .good c.kind ∧
    optional "file_path" "" text record = .good c.filePath ∧
    optional "qualified_name" none textOrNull record = .good c.qualifiedName ∧
    optional "start_line" 0 natural record = .good c.startLine ∧
    optional "end_line" 0 (readEndLine c.startLine) record = .good c.endLine ∧
    optional "imports" [] (fun value => (texts value).map firsts) record = .good c.imports ∧
    optional "annotations" [] texts record = .good c.annotations ∧
    optional "enclosing_class_summary" none textOrNull record = .good c.enclosingClass ∧
    optional "package_or_namespace" none textOrNull record = .good c.package ∧
    optional "api_call_sequence" [] texts record = .good c.apiCalls ∧
    optional "structural_mapping" [] textMapping record = .good c.structuralMapping ∧
    optional "extra_metadata" [] mapping record = .good c.extraMetadata ∧
    c.unchecked = [] := by
  obtain ⟨_, _, h14, unchecked, rfl⟩ := Checked.seq_good h
  obtain ⟨_, _, h13, extra, rfl⟩ := Checked.seq_good h14
  obtain ⟨_, _, h12, mapping, rfl⟩ := Checked.seq_good h13
  obtain ⟨_, _, h11, calls, rfl⟩ := Checked.seq_good h12
  obtain ⟨_, _, h10, package, rfl⟩ := Checked.seq_good h11
  obtain ⟨_, _, h9, enclosing, rfl⟩ := Checked.seq_good h10
  obtain ⟨_, _, h8, annotations, rfl⟩ := Checked.seq_good h9
  obtain ⟨_, _, h7, imports, rfl⟩ := Checked.seq_good h8
  obtain ⟨_, _, h6, last, rfl⟩ := Checked.seq_good h7
  obtain ⟨_, _, h5, first, rfl⟩ := Checked.seq_good h6
  obtain ⟨_, _, h4, name, rfl⟩ := Checked.seq_good h5
  obtain ⟨_, _, h3, path, rfl⟩ := Checked.seq_good h4
  obtain ⟨_, _, h2, kind, rfl⟩ := Checked.seq_good h3
  obtain ⟨_, _, h1, content, rfl⟩ := Checked.seq_good h2
  obtain ⟨_, id, rfl⟩ := Checked.map_good h1
  rw [first] at last
  injection unchecked with unchecked
  exact ⟨id, content, kind, path, name, first, last, imports, annotations, enclosing, package, calls, mapping, extra,
    unchecked.symm⟩

/-- A chunk is read if each of its fields is. -/
theorem read_of_fields {record : Json.Fields} {c : Chunk}
    (id : required "id" (notBlank "Chunk id cannot be empty") record = .good c.id)
    (content : required "content" (notBlank "Chunk content cannot be empty") record = .good c.content)
    (kind : required "kind" readKind record = .good c.kind)
    (filePath : optional "file_path" "" text record = .good c.filePath)
    (qualifiedName : optional "qualified_name" none textOrNull record = .good c.qualifiedName)
    (startLine : optional "start_line" 0 natural record = .good c.startLine)
    (endLine : optional "end_line" 0 (readEndLine c.startLine) record = .good c.endLine)
    (imports : optional "imports" [] (fun value => (texts value).map firsts) record = .good c.imports)
    (annotations : optional "annotations" [] texts record = .good c.annotations)
    (enclosingClass : optional "enclosing_class_summary" none textOrNull record = .good c.enclosingClass)
    (package : optional "package_or_namespace" none textOrNull record = .good c.package)
    (apiCalls : optional "api_call_sequence" [] texts record = .good c.apiCalls)
    (structuralMapping : optional "structural_mapping" [] textMapping record = .good c.structuralMapping)
    (extraMetadata : optional "extra_metadata" [] mapping record = .good c.extraMetadata)
    (unchecked : c.unchecked = []) : read record = .good c := by
  have line : ((Checked.good c.startLine : Checked Nat).value?.getD 0) = c.startLine := rfl
  unfold read
  simp only [id, content, kind, filePath, qualifiedName, startLine, line, endLine, imports, annotations,
    enclosingClass, package, apiCalls, structuralMapping, extraMetadata]
  cases c
  subst unchecked
  rfl

/-! ## Records of chunks -/

theorem ofJson_obj (fields : Json.Fields) : ofJson (.obj fields) = ofRecord fields := by
  simp only [ofJson, Json.toRecord, bind, Except.bind]

theorem ofRecord_of_good {fields named : Json.Fields} {c : Chunk} (name : nameKind fields = named)
    (good : read named = .good c) : ofRecord fields = .ok c := by
  subst name
  unfold ofRecord
  split
  next chunk read =>
    rw [good] at read
    injection read with read
    rw [read]
  next issues read =>
    rw [good] at read
    cases read

theorem parse?_name (kind : ChunkKind) : ChunkKind.parse? kind.name = some kind := by cases kind <;> rfl

theorem readKind_name (kind : ChunkKind) : readKind (.str kind.name) = .good kind := by cases kind <;> rfl

theorem record_of_checked {c : Chunk} (h : c.unchecked = []) : c.record = c.typedRecord := by
  rw [record, h]
  rfl

theorem nameKind_typedRecord (c : Chunk) : nameKind c.typedRecord = c.typedRecord := by
  have kind : c.typedRecord.get? "kind" = some (.str c.kind.name) := rfl
  rw [nameKind, kind]
  simp only [parse?_name]
  rfl

theorem notBlank_str {reason s : String} (h : Text.allBlank s = false) : notBlank reason (.str s) = .good s := by
  simp [notBlank, Checked.andThen, text, h]

theorem textOrNull_textOrNullJson (s : Option String) : textOrNull (textOrNullJson s) = .good s := by
  cases s <;> rfl

theorem readEndLine_int {first last : Nat} (h : first ≤ last) : readEndLine first (.int last) = .good last := by
  simp only [readEndLine, natural_int, Checked.andThen]
  rw [if_neg (by omega)]

/-- A chunk of which is known what data tells, and whose lines are in order, comes back from its record. -/
theorem ofJson_json {c : Chunk} (h : c.WellRead) (order : c.InOrder) : ofJson c.json = .ok c := by
  have extra : Json.finiteFields c.extraMetadata = c.extraMetadata :=
    Json.finiteFields_of_isData (by have := h.extraMetadata; rw [Json.IsData] at this; exact this.2)
  have read : read c.typedRecord = .good c := by
    have id : c.typedRecord.get? "id" = some (.str c.id) := rfl
    have content : c.typedRecord.get? "content" = some (.str c.content) := rfl
    have kind : c.typedRecord.get? "kind" = some (.str c.kind.name) := rfl
    have filePath : c.typedRecord.get? "file_path" = some (.str c.filePath) := rfl
    have name : c.typedRecord.get? "qualified_name" = some (textOrNullJson c.qualifiedName) := rfl
    have startLine : c.typedRecord.get? "start_line" = some (.int c.startLine) := rfl
    have endLine : c.typedRecord.get? "end_line" = some (.int c.endLine) := rfl
    have imports : c.typedRecord.get? "imports" = some (textsJson c.imports) := rfl
    have annotations : c.typedRecord.get? "annotations" = some (textsJson c.annotations) := rfl
    have enclosing : c.typedRecord.get? "enclosing_class_summary" = some (textOrNullJson c.enclosingClass) := rfl
    have package : c.typedRecord.get? "package_or_namespace" = some (textOrNullJson c.package) := rfl
    have calls : c.typedRecord.get? "api_call_sequence" = some (textsJson c.apiCalls) := rfl
    have facts : c.typedRecord.get? "structural_mapping" = some (mappingJson c.structuralMapping) := rfl
    have metadata : c.typedRecord.get? "extra_metadata" = some (.obj (Json.finiteFields c.extraMetadata)) := rfl
    have importsOnce : (texts (textsJson c.imports)).map firsts = .good c.imports := by
      rw [textsJson, texts_arr, Checked.map, h.imports_once]
    rw [extra] at metadata
    exact read_of_fields (required_eq id (notBlank_str h.id_filled))
      (required_eq content (notBlank_str h.content_filled)) (required_eq kind (readKind_name _))
      (optional_eq filePath rfl) (optional_eq name (textOrNull_textOrNullJson _)) (optional_eq startLine natural_int)
      (optional_eq endLine (readEndLine_int order)) (optional_eq imports importsOnce)
      (optional_eq annotations (texts_arr _)) (optional_eq enclosing (textOrNull_textOrNullJson _))
      (optional_eq package (textOrNull_textOrNullJson _)) (optional_eq calls (texts_arr _))
      (optional_eq facts (textMapping_obj _)) (optional_eq metadata rfl) h.checked
  rw [json, record_of_checked h.checked, ofJson_obj]
  exact ofRecord_of_good (nameKind_typedRecord c) read

/-- A record from outside makes a chunk, or is no valid one. -/
theorem ofRecord_cases (fields : Json.Fields) :
    (∃ c, ofRecord fields = .ok c) ∨ ∃ reason id, ofRecord fields = .error (.invalidChunk reason id) := by
  unfold ofRecord
  split
  next c _ => exact .inl ⟨c, rfl⟩
  next => exact .inr ⟨_, _, rfl⟩

theorem read_of_ofRecord {fields : Json.Fields} {c : Chunk} (h : ofRecord fields = .ok c) :
    read (nameKind fields) = .good c := by
  unfold ofRecord at h
  split at h
  next good =>
    injection h with h
    rw [← h, good]
  next => cases h

/-- A stored record of a chunk never is a fault of another kind than that the chunk is not taken. -/
theorem ofJson_json_cases (c : Chunk) :
    (∃ c', ofJson c.json = .ok c') ∨ ∃ reason id, ofJson c.json = .error (.invalidChunk reason id) := by
  rw [json, ofJson_obj]
  exact ofRecord_cases c.record

/-- A stored chunk whose lines are not in order is not taken. -/
theorem ofJson_json_of_disorder {c : Chunk} (h : c.WellRead) (order : ¬ c.InOrder) :
    ∃ reason id, ofJson c.json = .error (.invalidChunk reason id) := by
  rcases ofJson_json_cases c with ⟨c', made⟩ | refused
  · exfalso
    rw [json, record_of_checked h.checked, ofJson_obj] at made
    have good := read_of_ofRecord made
    rw [nameKind_typedRecord] at good
    obtain ⟨_, _, _, _, _, first, last, _⟩ := read_good good
    have startLine : c.typedRecord.get? "start_line" = some (.int c.startLine) := rfl
    have endLine : c.typedRecord.get? "end_line" = some (.int c.endLine) := rfl
    rw [optional_eq startLine natural_int] at first
    injection first with first
    rw [← first] at last
    rw [Record.optional, endLine] at last
    have end' := Checked.under_good last
    simp only [readEndLine, natural_int, Checked.andThen] at end'
    rw [if_pos (by unfold InOrder at order; omega)] at end'
    cases end'
  · exact refused

theorem isData_texts {texts : List String} (h : ∀ s ∈ texts, Text.IsKept s.toList) : (textsJson texts).IsData := by
  rw [textsJson, Json.isData_arr]
  intro item hi
  obtain ⟨s, hs, rfl⟩ := List.mem_map.1 hi
  exact Json.isData_str.2 (h s hs)

theorem isData_textOrNull {s : Option String} (h : ∀ t ∈ s, Text.IsKept t.toList) : (textOrNullJson s).IsData := by
  cases s with
  | none => exact Json.isData_null
  | some t => exact Json.isData_str.2 (h t rfl)

theorem isData_nat {n : Nat} (h : HasDigits n) : (Json.int n).IsData := by
  rw [Json.IsData]
  exact h

theorem isKept_ascii {s : String} (h : s.toList.all (fun c => c.toNat < 128) = true) : Text.IsKept s.toList :=
  .of_ascii fun c hc => by simpa using List.all_eq_true.1 h c hc

/-- The record of a chunk that was read from data can be written and read. -/
theorem isData_json {c : Chunk} (h : c.WellRead) : c.json.IsData := by
  have extra : Json.finiteFields c.extraMetadata = c.extraMetadata :=
    Json.finiteFields_of_isData (by have := h.extraMetadata; rw [Json.IsData] at this; exact this.2)
  rw [json, record_of_checked h.checked, Json.isData_obj]
  constructor
  · have names : c.typedRecord.map Prod.fst = fieldNames := rfl
    rw [names]
    decide
  · simp only [typedRecord, List.forall_mem_cons, extra]
    refine ⟨⟨isKept_ascii (by decide), Json.isData_str.2 h.id⟩, ⟨isKept_ascii (by decide), Json.isData_str.2 h.content⟩,
      ⟨isKept_ascii (by decide), Json.isData_str.2 (isKept_ascii (by cases c.kind <;> decide))⟩,
      ⟨isKept_ascii (by decide), Json.isData_str.2 h.filePath⟩,
      ⟨isKept_ascii (by decide), isData_textOrNull h.qualifiedName⟩, ⟨isKept_ascii (by decide), isData_nat h.startLine⟩,
      ⟨isKept_ascii (by decide), isData_nat h.endLine⟩, ⟨isKept_ascii (by decide), isData_texts h.imports⟩,
      ⟨isKept_ascii (by decide), isData_texts h.annotations⟩,
      ⟨isKept_ascii (by decide), isData_textOrNull h.enclosingClass⟩,
      ⟨isKept_ascii (by decide), isData_textOrNull h.package⟩, ⟨isKept_ascii (by decide), isData_texts h.apiCalls⟩,
      ⟨isKept_ascii (by decide), h.structuralMapping⟩, ⟨isKept_ascii (by decide), h.extraMetadata⟩, by simp⟩

/-! ## Chunks from data -/

/-- A chunk that was made of a value that texts can hold. -/
def FromData (c : Chunk) : Prop := ∃ value : Json, value.IsData ∧ ofJson value = .ok c

theorem notBlank_good {reason s : String} {value : Json} (h : notBlank reason value = .good s) :
    value = .str s ∧ Text.allBlank s = false := by
  obtain ⟨t, read, check⟩ := Checked.andThen_good h
  split at check
  next => cases check
  next filled =>
    injection check with check
    subst check
    exact ⟨text_good read, by simpa using filled⟩

section Fields
variable {record : Json.Fields} (kept : (Json.obj record).TextsKept) {name : String}
include kept

theorem isKept_required {reason s : String} (h : required name (notBlank reason) record = .good s) :
    Text.IsKept s.toList ∧ Text.allBlank s = false := by
  obtain ⟨value, found, read⟩ := required_good h
  obtain ⟨rfl, filled⟩ := notBlank_good read
  exact ⟨Json.textsKept_str.1 (kept.get? found), filled⟩

theorem isKept_text {s : String} (h : optional name "" text record = .good s) : Text.IsKept s.toList := by
  rcases optional_good h with rfl | ⟨value, found, read⟩
  · exact .nil
  · rw [text_good read] at found
    exact Json.textsKept_str.1 (kept.get? found)

theorem isKept_textOrNull {s : Option String} (h : optional name none textOrNull record = .good s) :
    ∀ t ∈ s, Text.IsKept t.toList := by
  rcases optional_good h with rfl | ⟨value, found, read⟩
  · simp
  · rcases textOrNull_good read with ⟨_, rfl⟩ | ⟨t, rfl, rfl⟩
    · simp
    · rintro t' ⟨⟩
      exact Json.textsKept_str.1 (kept.get? found)

theorem isKept_texts {texts' : List String} (h : optional name [] texts record = .good texts') :
    ∀ s ∈ texts', Text.IsKept s.toList := by
  rcases optional_good h with rfl | ⟨value, found, read⟩
  · simp
  · rw [texts_good read] at found
    intro s hs
    exact Json.textsKept_str.1 (Json.textsKept_arr.1 (kept.get? found) _ (List.mem_map_of_mem hs))

theorem isKept_imports {names : List String}
    (h : optional name [] (fun value => (texts value).map firsts) record = .good names) :
    ∀ s ∈ names, Text.IsKept s.toList := by
  rcases optional_good h with rfl | ⟨value, found, read⟩
  · simp
  · obtain ⟨all, texts, rfl⟩ := Checked.map_good read
    rw [texts_good texts] at found
    intro s hs
    exact Json.textsKept_str.1 (Json.textsKept_arr.1 (kept.get? found) _ (List.mem_map_of_mem (mem_firsts.1 hs)))

theorem isKept_facts {pairs : List (String × String)} (h : optional name [] textMapping record = .good pairs) :
    (mappingJson pairs).TextsKept := by
  rcases optional_good h with rfl | ⟨value, found, read⟩
  · exact Json.textsKept_obj.2 (by simp)
  · rw [textMapping_good read] at found
    exact kept.get? found

end Fields

theorem hasDigits_natural {record : Json.Fields} (data : (Json.obj record).IsData) {name : String} {n : Nat}
    (h : optional name 0 natural record = .good n) : HasDigits n := by
  rcases optional_good h with rfl | ⟨value, found, read⟩
  · exact hasDigits_of_lt (k := 1) (by decide) (by decide) (by decide)
  · exact natural_digits (data.get? found) read

theorem isData_nameKind {fields : Json.Fields} (h : (Json.obj fields).IsData) :
    (Json.obj (nameKind fields)).IsData := by
  unfold nameKind
  split
  next =>
    split
    next kind _ =>
      exact h.set (isKept_ascii (by decide)) (Json.isData_str.2 (isKept_ascii (by cases kind <;> decide)))
    next => exact h
  next => exact h

theorem wellRead_of_read {record : Json.Fields} (data : (Json.obj record).IsData) {c : Chunk}
    (h : read record = .good c) : c.WellRead := by
  obtain ⟨id, content, _, path, name, first, last, imports, annotations, enclosing, package, calls, facts, extra,
    unchecked⟩ := read_good h
  have kept := data.textsKept
  have once : firsts c.imports = c.imports := by
    rcases optional_good imports with none | ⟨value, found, read⟩
    · rw [none]
      rfl
    · obtain ⟨all, _, once⟩ := Checked.map_good read
      rw [← once]
      exact firsts_firsts all
  refine ⟨unchecked, (isKept_required kept id).1, (isKept_required kept id).2, (isKept_required kept content).1,
    (isKept_required kept content).2, isKept_text kept path, isKept_textOrNull kept name,
    hasDigits_natural data first, ?_, isKept_imports kept imports, once, isKept_texts kept annotations,
    isKept_textOrNull kept enclosing, isKept_textOrNull kept package, isKept_texts kept calls, ?_, ?_⟩
  · rcases optional_good last with none | ⟨value, found, read⟩
    · rw [none]
      exact hasDigits_of_lt (k := 1) (by decide) (by decide) (by decide)
    · obtain ⟨n, number, check⟩ := Checked.andThen_good read
      split at check
      next => cases check
      next =>
        injection check with check
        rw [← check]
        exact natural_digits (data.get? found) number
  · rcases optional_good facts with none | ⟨value, found, read⟩
    · rw [none]
      exact Json.isData_obj.2 (by simp)
    · rw [textMapping_good read] at found
      exact data.get? found
  · rcases optional_good extra with none | ⟨value, found, read⟩
    · rw [none]
      exact Json.isData_obj.2 (by simp)
    · rw [mapping_good read] at found
      exact data.get? found

theorem made_of_read {record : Json.Fields} (kept : (Json.obj record).TextsKept) {c : Chunk} (h : read record = .good c) :
    c.Made := by
  obtain ⟨id, content, _, _, name, _, _, imports, _, _, package, calls, facts, _, unchecked⟩ := read_good h
  exact ⟨unchecked, (isKept_required kept id).2, (isKept_required kept content).2, isKept_textOrNull kept name,
    isKept_imports kept imports, isKept_textOrNull kept package, isKept_texts kept calls, isKept_facts kept facts⟩

theorem textsKept_nameKind {fields : Json.Fields} (h : (Json.obj fields).TextsKept) :
    (Json.obj (nameKind fields)).TextsKept := by
  unfold nameKind
  split
  next =>
    split
    next kind _ =>
      exact h.set (isKept_ascii (by decide)) (Json.textsKept_str.2 (isKept_ascii (by cases kind <;> decide)))
    next => exact h
  next => exact h

/-- What is made of a record from outside is a chunk that nothing is wrong with. -/
theorem made_of_ofRecord {record : Json.Fields} (kept : (Json.obj record).TextsKept) {c : Chunk}
    (h : ofRecord record = .ok c) : c.Made :=
  made_of_read (textsKept_nameKind kept) (read_of_ofRecord h)

/-- Of a chunk that was made of data all is known that data tells. -/
theorem FromData.wellRead {c : Chunk} (h : c.FromData) : c.WellRead := by
  obtain ⟨value, data, made⟩ := h
  cases record : value.toRecord with
  | error fault =>
    rw [ofJson, record] at made
    cases made
  | ok fields =>
    rw [ofJson, record] at made
    change ofRecord fields = .ok c at made
    unfold ofRecord at made
    split at made
    next chunk good =>
      injection made with made
      rw [← made]
      exact wellRead_of_read (isData_nameKind (Json.isData_toRecord data record)) good
    next => cases made

/-! ## Stored records -/

/-- The data of a chunk is nested no deeper than it is written. -/
def IsShallow (c : Chunk) : Prop := Json.fieldsDepth c.extraMetadata ≤ metadataDepth

instance (c : Chunk) : Decidable c.IsShallow := inferInstanceAs (Decidable (_ ≤ _))

/-- A chunk whose fields are of their kinds is stored, unless its data is nested too deeply. -/
theorem stored_of_checked {c : Chunk} (h : c.unchecked = []) :
    c.stored = if c.IsShallow then .ok c.json else .error (.badValue .other) := by
  have flat : Json.fieldsDepth ([] : Json.Fields) ≤ metadataDepth := Nat.zero_le _
  by_cases shallow : c.IsShallow
  · rw [if_pos shallow, stored, h, if_neg (by simp)]
    rw [IsShallow] at shallow
    rw [if_pos (by simp [shallow, flat])]
  · rw [if_neg shallow, stored, h, if_neg (by simp)]
    rw [IsShallow] at shallow
    rw [if_neg (by simp [shallow])]

theorem stored_of_shallow {c : Chunk} (h : c.unchecked = []) (shallow : c.IsShallow) : c.stored = .ok c.json := by
  rw [stored_of_checked h, if_pos shallow]

theorem shallow_of_stored {c : Chunk} (h : c.unchecked = []) {record : Json} (stored : c.stored = .ok record) :
    c.IsShallow := by
  rw [stored_of_checked h] at stored
  by_contra deep
  rw [if_neg deep] at stored
  cases stored

theorem itemsDepth_strs (texts : List String) : Json.itemsDepth (texts.map .str) ≤ 1 := by
  induction texts with
  | nil => exact Nat.zero_le _
  | cons s texts ih =>
    rw [List.map_cons, Json.itemsDepth]
    exact Nat.max_le.2 ⟨Nat.le_refl _, ih⟩

theorem fieldsDepth_strs (pairs : List (String × String)) :
    Json.fieldsDepth (pairs.map fun pair => (pair.1, .str pair.2)) ≤ 1 := by
  induction pairs with
  | nil => exact Nat.zero_le _
  | cons pair pairs ih =>
    rw [List.map_cons, Json.fieldsDepth]
    exact Nat.max_le.2 ⟨Nat.le_refl _, ih⟩

theorem depth_textOrNull (s : Option String) : (textOrNullJson s).depth = 1 := by
  cases s <;> simp [textOrNullJson, Json.depth]

theorem fieldsDepth_typedRecord {c : Chunk} (h : c.IsShallow) :
    Json.fieldsDepth c.typedRecord ≤ metadataDepth + 1 := by
  have imports := itemsDepth_strs c.imports
  have annotations := itemsDepth_strs c.annotations
  have calls := itemsDepth_strs c.apiCalls
  have facts := fieldsDepth_strs c.structuralMapping
  simp only [typedRecord, Json.fieldsDepth, Json.depth, textsJson, depth_textOrNull, Json.fieldsDepth_finite]
  unfold IsShallow metadataDepth at h
  unfold metadataDepth
  omega

/-- The record of a chunk is two levels deeper than its data at most. -/
theorem depth_json {c : Chunk} (h : c.WellRead) (shallow : c.IsShallow) :
    c.json.depth ≤ metadataDepth + 2 := by
  rw [json, record_of_checked h.checked, Json.depth]
  exact Nat.succ_le_succ (fieldsDepth_typedRecord shallow)

/-! ## Chunks of which only id and content are given -/

/-- A chunk of an id and a content. -/
def plain (id content : String) : Chunk := { id, content, kind := .method }

theorem wellRead_plain {id content : String} (idKept : Text.IsKept id.toList) (idFilled : Text.allBlank id = false)
    (contentKept : Text.IsKept content.toList) (contentFilled : Text.allBlank content = false) :
    (plain id content).WellRead := by
  have zero : HasDigits 0 := hasDigits_of_lt (k := 1) (by decide) (by decide) (by decide)
  exact ⟨rfl, idKept, idFilled, contentKept, contentFilled, .nil, by simp [plain], zero, zero, by simp [plain], rfl,
    by simp [plain], by simp [plain], by simp [plain], by simp [plain], Json.isData_obj.2 (by simp [plain]),
    Json.isData_obj.2 (by simp [plain])⟩

theorem fromData_plain {id content : String} (h : (plain id content).WellRead) : (plain id content).FromData :=
  ⟨(plain id content).json, isData_json h, ofJson_json h (Nat.le_refl 0)⟩

end CodeSearch.Chunk
