import CodeSearch.Indexing.Directory
import CodeSearch.Proofs.Indexing.Memory
import CodeSearch.Proofs.Json.Kept
/-!
# Indexing a directory

What one file of a directory holds is nothing to the others. `InMemory.indexDirectory_isolated`: where every file that
can be read holds records, and every record that needs an id has what it is made of, each file that cannot be read is
reported, and the valid records of all others are indexed in the order of the files. It does not matter in which order
these were read (`gather_of_perm`).
-/

namespace CodeSearch.Disk

/-- A path that leads nowhere is a fault of the disk, if it is one that the disk takes at all. -/
theorem locate_error {d : Disk} {path : Path} {fault : Fault} (h : d.locate path = .error fault) :
    (∃ reason, fault = .badValue reason) ∨ ∃ reason text, fault = .disk reason text := by
  rw [locate, checkPath] at h
  split at h
  next =>
    injection h with h
    exact .inl ⟨_, h.symm⟩
  next =>
    split at h
    next =>
      injection h with h
      exact .inl ⟨_, h.symm⟩
    next =>
      split at h
      next =>
        injection h with h
        exact .inr ⟨_, _, h.symm⟩
      next =>
        simp only [bind, Except.bind] at h
        cases found : path.parts.foldlM d.stepFrom ⟨path.anchor, []⟩ with
        | ok place =>
          rw [found] at h
          cases h
        | error reason =>
          rw [found] at h
          injection h with h
          exact .inr ⟨_, _, h.symm⟩

theorem readText_error {d : Disk} {path : Path} {fault : Fault} (h : d.readText path = .error fault) :
    (∃ reason, fault = .badValue reason) ∨ ∃ reason text, fault = .disk reason text := by
  simp only [readText, read, bind, Except.bind] at h
  split at h
  next other found =>
    injection h with h
    subst h
    split at found
    next missing =>
      injection found with found
      subst found
      exact locate_error missing
    next =>
      split at found
      next => cases found
      next =>
        injection found with found
        exact .inr ⟨_, _, found.symm⟩
      next =>
        injection found with found
        exact .inr ⟨_, _, found.symm⟩
  next =>
    split at h
    next => cases h
    next =>
      injection h with h
      exact .inl ⟨_, h.symm⟩

/-- A stored file that cannot be read is a fault of the storage or of its value, unless values are nested too deeply. -/
theorem readStored_error {d : Disk} {task : StorageTask} {path : Path} {fault : Fault}
    (h : d.readStored task path = .error fault) (flat : fault.isDepth = false) :
    fault.isStorage = true ∨ fault.isBadValue = true := by
  rw [readStored, readJson] at h
  cases read : d.readText path with
  | error other =>
    rw [read] at h
    injection h with h
    rcases readText_error read with ⟨reason, rfl⟩ | ⟨reason, text, rfl⟩
    · exact .inr (h ▸ rfl)
    · exact .inl (h ▸ rfl)
  | ok text =>
    rw [read] at h
    simp only [bind, Except.bind] at h
    cases parsed : Json.parse text with
    | ok value =>
      rw [parsed] at h
      cases h
    | error issue =>
      rw [parsed] at h
      simp only [Except.mapError] at h
      injection h with h
      split at h
      next => exact .inl (h ▸ rfl)
      next =>
        subst h
        rw [Fault.isDepth] at flat
        exact .inr (by rw [Fault.isBadValue, flat]; rfl)

end CodeSearch.Disk

namespace CodeSearch.Indexing

/-! ## Which files are read -/

/-- The files below a directory that no pattern excludes, in order. -/
def scanned (d : Disk) (root : Path) (patterns : List String) : List Path :=
  ((d.below root).filterMap fun (path, node) =>
    match node with
    | .file _ => some path
    | .directory => none).filter fun path => !isExcluded root patterns path

def isChunkFile (path : Path) : Bool := Text.endsWith path.name chunkFileSuffix

theorem anyExcludes_texts (relative : Path) (patterns : List String) :
    anyExcludes relative (patterns.map .str) = .ok (patterns.any fun pattern => excludes pattern relative) := by
  induction patterns with
  | nil => rfl
  | cons pattern patterns ih =>
    rw [List.map_cons, anyExcludes, ih, List.any_cons]
    cases excludes pattern relative <;> rfl

theorem isExcludedBy_texts (root : Path) (patterns : List String) (path : Path) :
    isExcludedBy root (Chunk.textsJson patterns) path = .ok (isExcluded root patterns path) := by
  rw [isExcludedBy, isExcluded]
  cases root.relativeTo? path with
  | none => rfl
  | some parts => exact anyExcludes_texts ⟨"", parts⟩ patterns

theorem filesBelow_texts (d : Disk) (root : Path) (patterns : List String) :
    filesBelow d root (Chunk.textsJson patterns) = .ok (scanned d root patterns) := by
  refine filterM_ok fun path _ => ?_
  rw [isExcludedBy_texts]
  rfl

theorem select_chunkFiles (path : Path) :
    Producer.select [.chunkFiles] path = .ok (if isChunkFile path then some .chunkFiles else none) := by
  have takes : ∀ p ∈ [Producer.chunkFiles], p.takes path = .ok (isChunkFile path) := by
    simp only [List.mem_singleton, forall_eq]
    rfl
  rw [Producer.select, filterM_ok takes]
  cases isChunkFile path <;> rfl

/-- Outcomes in any order are put into the order of their places. -/
theorem sort_of_perm {outcomes ordered : List Outcome} (apart : ordered.Pairwise fun a b => a.position < b.position)
    (perm : outcomes.Perm ordered) : (outcomes.mergeSort fun a b => a.position ≤ b.position) = ordered := by
  have once : (ordered.map Outcome.position).Nodup := (List.pairwise_map.2 apart).imp Nat.ne_of_lt
  have sorted := @List.pairwise_mergeSort Outcome (fun a b => a.position ≤ b.position)
    (by simpa using fun a b c => Nat.le_trans) (by simpa using fun a b => Nat.le_total _ _) outcomes
  have same := (List.mergeSort_perm outcomes fun a b => a.position ≤ b.position).trans perm
  refine same.eq_of_pairwise (fun a b ha hb below above => ?_) (by simpa using sorted) (apart.imp Nat.le_of_lt)
  exact List.inj_on_of_nodup_map once (same.subset ha) hb (Nat.le_antisymm below above)

/-- Outcomes in any order are gathered in the order of their places, with what there is to complain about each. -/
theorem gather_of_complaints {arrived outcomes : List Outcome} {complaint? : Outcome → Option Complaint}
    (each : ∀ o ∈ outcomes, o.complaints = .ok (complaint? o).toList)
    (places : outcomes.Pairwise fun a b => a.position < b.position) (perm : arrived.Perm outcomes) :
    gather arrived = .ok (outcomes.flatMap Outcome.chunks, arrived.filterMap complaint?) := by
  rw [gather, mapM_ok fun o ho => each o (perm.subset ho), List.filterMap_eq_flatMap_toList]
  simp only [bind, Except.bind, sort_of_perm places perm]
  rfl

/-- What comes of reading chunk files, in the order of their places. -/
def inOrder (d : Disk) (files : List Path) : List Outcome :=
  files.zipIdx.map fun (path, n) => ⟨n, path, readChunkFile d path⟩

theorem map_path_inOrder (d : Disk) (files : List Path) : (inOrder d files).map Outcome.path = files := by
  rw [inOrder, List.map_map]
  exact List.zipIdx_map_fst 0 files

theorem map_position_inOrder (d : Disk) (files : List Path) :
    (inOrder d files).map Outcome.position = List.range' 0 files.length := by
  rw [inOrder, List.map_map]
  exact List.zipIdx_map_snd 0 files

theorem readFiles_chunkFiles (d : Disk) (files : List Path) :
    readFiles d [.chunkFiles] files = .ok (inOrder d (files.filter isChunkFile)) := by
  have jobs : ((files.zip (files.map fun path => if isChunkFile path then some Producer.chunkFiles else none)).filterMap
      fun job => job.2.map fun p => (job.1, p)) = (files.filter isChunkFile).map fun path => (path, .chunkFiles) := by
    induction files with
    | nil => rfl
    | cons path files ih =>
      rw [List.map_cons, List.zip_cons_cons, List.filterMap_cons, ih, List.filter_cons]
      cases isChunkFile path <;> rfl
  rw [readFiles, mapM_ok fun path _ => select_chunkFiles path]
  simp only [bind, Except.bind, jobs, List.zipIdx_map, List.map_map]
  rfl

/-! ## What a file gives -/

/-- A value can be gone through element by element. -/
def IsCollection : Json → Prop
  | .arr _ | .str _ | .obj _ => True
  | _ => False

/-- What stands in the place of records: a value, or what an object has under a name. -/
def recordPlace : Json → Json
  | .obj fields => (Json.Fields.get? fields "chunks").getD (.arr [])
  | value => value

/-- What stands in the places of single records. -/
def records (value : Json) : List Json := (recordsOf value).toOption.getD []

theorem recordsOf_eq (value : Json) : recordsOf value = (recordPlace value).elements := by cases value <;> rfl

theorem recordsOf_ok {value : Json} (h : IsCollection (recordPlace value)) : recordsOf value = .ok (records value) := by
  rw [records, recordsOf_eq]
  cases there : recordPlace value with
  | arr items => rfl
  | str s => rfl
  | obj fields => rfl
  | null | bool _ | int _ | float _ =>
    rw [there] at h
    exact h.elim

/-- A record has content and no id. -/
def NeedsId (record : Json.Fields) : Prop :=
  ((record.get? "id").getD .null).isTruthy = false ∧ ((record.get? "content").getD .null).isTruthy = true

/-- The name that a value gives: null, and what is empty in any way, gives the empty one. -/
def GivesName (value : Json) (name : String) : Prop := value = .str name ∨ value.isTruthy = false ∧ name = ""

/-- What an id is made of stands in a record, and has a form in bytes: the content and, if they are given, the file and
the name are texts. -/
def IsNameable (record : Json.Fields) : Prop :=
  ∃ filePath content name, (record.get? "file_path").getD (.str "") = .str filePath ∧
    record.get? "content" = some (.str content) ∧ GivesName ((record.get? "qualified_name").getD .null) name ∧
    Text.isWhole (Chunk.idKey filePath name ((record.get? "start_line").getD (.int 0)).display content) = true

/-- The chunk that a value in the place of a record makes, if it is a valid one. -/
def validChunk? : Json → Option Chunk
  | .obj record => (withId record >>= Chunk.ofRecord).toOption
  | _ => none

section Record
variable {record : Json.Fields}

theorem small_of_hexDigit (n : Nat) : (Json.hexDigit (n % 16)).toNat < 128 := by
  have all : ∀ k < 16, (Json.hexDigit k).toNat < 128 := by decide
  exact all _ (Nat.mod_lt _ (by decide))

theorem isKept_hex (digest : List UInt8) : Text.IsKept (Digest.hex digest).toList := by
  have small (width n : Nat) : ∀ c ∈ Json.hexText width n, c.toNat < 128 := by
    induction width generalizing n with
    | zero => exact List.forall_mem_nil _
    | succ width ih =>
      intro c hc
      rcases List.mem_append.1 hc with before | last
      · exact ih _ c before
      · rw [List.mem_singleton.1 last]
        exact small_of_hexDigit n
  rw [Digest.hex, String.toList_ofList]
  refine .of_ascii fun c hc => ?_
  obtain ⟨byte, _, hc⟩ := List.mem_flatMap.1 hc
  exact small _ _ c hc

theorem isKept_makeId (filePath content : String) (name : Option String) (line : String) :
    Text.IsKept (Chunk.makeId filePath content name line).toList := by
  rw [Chunk.makeId]
  exact isKept_hex _

theorem recordId_of_nameable (h : IsNameable record) : ∃ id, recordId record = .ok id ∧ Text.IsKept id.toList := by
  obtain ⟨filePath, content, name, place, text, named, whole⟩ := h
  have given : (if ((record.get? "qualified_name").getD .null).isTruthy then (record.get? "qualified_name").getD .null
      else .str "") = .str name := by
    rcases named with same | ⟨empty, rfl⟩
    · rw [same]
      by_cases empty : name = ""
      · rw [empty]
        rfl
      · rw [if_pos (by simpa [Json.isTruthy] using empty)]
    · rw [empty]
      rfl
  have made : recordId record
      = .ok (Chunk.makeId filePath content (some name) ((record.get? "start_line").getD (.int 0)).display) := by
    rw [recordId]
    simp only [place, text, Option.getD_some, Chunk.idFor, given, whole, if_true]
  exact ⟨_, made, isKept_makeId _ _ _ _⟩

theorem withId_ok (kept : (Json.obj record).TextsKept) (h : NeedsId record → IsNameable record) :
    ∃ named, withId record = .ok named ∧ (Json.obj named).TextsKept := by
  rw [withId]
  simp only []
  split
  next needs =>
    rw [Bool.and_eq_true, Bool.not_eq_true'] at needs
    obtain ⟨id, made, idKept⟩ := recordId_of_nameable (h needs)
    refine ⟨record.set "id" (.str id), ?_, kept.set (Chunk.isKept_ascii (by decide)) (Json.textsKept_str.2 idKept)⟩
    rw [made]
    rfl
  next => exact ⟨record, rfl, kept⟩

theorem chunkOf?_ok {value : Json} (h : ∀ record, value = .obj record → ∃ named, withId record = .ok named) :
    chunkOf? value = .ok (validChunk? value) := by
  cases value with
  | obj record =>
    obtain ⟨named, taken⟩ := h record rfl
    rw [chunkOf?, validChunk?, taken]
    simp only [bind, Except.bind]
    rcases Chunk.ofRecord_cases named with ⟨c, valid⟩ | ⟨reason, id, invalid⟩
    · rw [valid]
      rfl
    · rw [invalid]
      rfl
  | null | bool _ | int _ | float _ | str _ | arr _ => rfl

end Record

/-- A record in a value whose texts are kept. -/
theorem textsKept_record {value : Json} (kept : value.TextsKept) (there : .obj record ∈ records value) :
    (Json.obj record).TextsKept := by
  have place : (recordPlace value).TextsKept := by
    cases value with
    | obj fields =>
      rw [recordPlace]
      cases found : Json.Fields.get? fields "chunks" with
      | none => exact Json.textsKept_arr.2 (List.forall_mem_nil _)
      | some value => exact kept.get? found
    | null | bool _ | int _ | float _ | str _ | arr _ => exact kept
  have elements : recordsOf value = (recordPlace value).elements := recordsOf_eq value
  rw [records, elements] at there
  -- the elements of a text and of an object are texts
  cases same : recordPlace value with
  | arr items =>
    rw [same] at place there
    exact Json.textsKept_arr.1 place _ there
  | str s =>
    rw [same] at there
    obtain ⟨_, _, other⟩ := List.mem_map.1 there
    cases other
  | obj fields =>
    rw [same] at there
    obtain ⟨_, _, other⟩ := List.mem_map.1 there
    cases other
  | null | bool _ | int _ | float _ =>
    rw [same] at there
    cases there

/-! ## What a file gives -/

/-- The chunks that the valid records of a file make. -/
def validChunks (d : Disk) (path : Path) : List Chunk :=
  match d.readStored .readChunkFile path with
  | .ok value => (records value).filterMap validChunk?
  | .error _ => []

/-- What there is to say of a file that cannot be read. -/
def unread? (d : Disk) (path : Path) : Option Complaint :=
  match d.readStored .readChunkFile path with
  | .ok _ => none
  | .error fault => some (.unread path fault)

/-- A file that keeps nothing else from being indexed. -/
structure IsHarmless (d : Disk) (path : Path) : Prop where
  flat : ∀ fault, d.readStored .readChunkFile path = .error fault → fault.isDepth = false
  holds : ∀ value, d.readStored .readChunkFile path = .ok value → IsCollection (recordPlace value)
  nameable : ∀ value, d.readStored .readChunkFile path = .ok value →
    ∀ record, .obj record ∈ records value → NeedsId record → IsNameable record
  shallow : ∀ c ∈ validChunks d path, c.IsShallow

section File
variable {d : Disk} {path : Path} {files : List Path}

/-- A file that can be read gives the chunks of its valid records. -/
theorem readChunkFile_ok (kept : d.KeepsTexts) (h : IsHarmless d path) {value : Json}
    (read : d.readStored .readChunkFile path = .ok value) : readChunkFile d path = .ok (validChunks d path) := by
  have chunks : (records value).mapM chunkOf? = .ok ((records value).map validChunk?) := by
    refine mapM_ok fun item hi => chunkOf?_ok ?_
    rintro record rfl
    have itemKept := textsKept_record (Disk.textsKept_readStored kept read) hi
    obtain ⟨named, taken, _⟩ := withId_ok itemKept (h.nameable value read record hi)
    exact ⟨named, taken⟩
  rw [readChunkFile, validChunks, read]
  simp only [bind, Except.bind, recordsOf_ok (h.holds value read), chunks, pure, Except.pure]
  rw [List.filterMap_map]
  rfl

theorem made_of_valid (kept : d.KeepsTexts) (h : IsHarmless d path) : ∀ c ∈ validChunks d path, c.Made := by
  intro c hc
  rw [validChunks] at hc
  split at hc
  next value read =>
    obtain ⟨item, hi, valid⟩ := List.mem_filterMap.1 hc
    cases item with
    | obj record =>
      have itemKept := textsKept_record (Disk.textsKept_readStored kept read) hi
      obtain ⟨named, taken, namedKept⟩ := withId_ok itemKept (h.nameable value read record hi)
      rw [validChunk?, taken] at valid
      simp only [bind, Except.bind] at valid
      rcases Chunk.ofRecord_cases named with ⟨other, made⟩ | ⟨reason, id, invalid⟩
      · rw [made] at valid
        obtain ⟨rfl⟩ := valid
        exact Chunk.made_of_ofRecord namedKept made
      · rw [invalid] at valid
        cases valid
    | null | bool _ | int _ | float _ | str _ | arr _ => cases valid
  next => cases hc

/-- What comes of a file are the chunks of its valid records, or that it cannot be read. -/
theorem outcome_of_harmless (kept : d.KeepsTexts) (h : IsHarmless d path) (n : Nat) :
    (⟨n, path, readChunkFile d path⟩ : Outcome).chunks = validChunks d path ∧
      (⟨n, path, readChunkFile d path⟩ : Outcome).complaints = .ok (unread? d path).toList := by
  cases read : d.readStored .readChunkFile path with
  | ok value =>
    rw [readChunkFile_ok kept h read, unread?, read]
    exact ⟨rfl, rfl⟩
  | error fault =>
    have passed : isPassedOver fault = true := by
      rw [isPassedOver]
      rcases Disk.readStored_error read (h.flat fault read) with storage | value
      · rw [storage]
        rfl
      · rw [value, Bool.or_true]
    have failed : readChunkFile d path = .error fault := by
      rw [readChunkFile, read]
      rfl
    rw [failed, validChunks, unread?, read]
    refine ⟨rfl, ?_⟩
    simp only [Outcome.complaints, passed, if_true]
    rfl

theorem positions_inOrder (d : Disk) (files : List Path) :
    (inOrder d files).Pairwise fun a b => a.position < b.position := by
  rw [← List.pairwise_map, map_position_inOrder]
  exact List.pairwise_lt_range'

/-- Outcomes in any order come to the chunks of the files in their order, and to what there is to say of the files that
cannot be read. -/
theorem gather_of_perm (kept : d.KeepsTexts) (harmless : ∀ path ∈ files, IsHarmless d path) {outcomes : List Outcome}
    (perm : outcomes.Perm (inOrder d files)) :
    gather outcomes = .ok (files.flatMap (validChunks d), outcomes.filterMap fun o => unread? d o.path) := by
  have each : ∀ o ∈ inOrder d files,
      o.chunks = validChunks d o.path ∧ o.complaints = .ok (unread? d o.path).toList := by
    intro o ho
    obtain ⟨⟨path, n⟩, hp, rfl⟩ := List.mem_map.1 ho
    exact outcome_of_harmless kept (harmless path (List.fst_mem_of_mem_zipIdx hp)) n
  have chunks : (inOrder d files).flatMap Outcome.chunks = files.flatMap (validChunks d) := by
    rw [← map_path_inOrder d files, List.flatMap_map, map_path_inOrder]
    exact List.flatMap_congr fun o ho => (each o ho).1
  rw [gather_of_complaints (fun o ho => (each o ho).2) (positions_inOrder d files) perm, chunks]

end File

end CodeSearch.Indexing

namespace CodeSearch.Indexer

open Indexing CodeSearch.Action

/-- A directory all of whose chunk files are harmless is indexed in memory: its files are counted, those that cannot be
read are reported, and the chunks of all valid records of the others are indexed, in the order of the files and of the
records, whatever order the files were read in. -/
theorem InMemory.indexDirectory_isolated {ix : Indexer} {width : Nat} (h : ix.InMemory width)
    (producers : ix.producers = [.chunkFiles]) {patterns : List String}
    (excluded : ix.excludePatterns = Chunk.textsJson patterns) {d : Disk} {root : Path}
    (directory : d.isDirectory root = .ok true) (kept : d.KeepsTexts)
    (harmless : ∀ path ∈ (scanned d root patterns).filter isChunkFile, IsHarmless d path) (now : Float) :
    let files := (scanned d root patterns).filter isChunkFile
    let chunks := files.flatMap (validChunks d)
    ∃ report ix', (Indexer.indexChunks now chunks).runOn ix d = (.ok report, ix', d) ∧
      (indexDirectory now root).runOn ix d = (.ok { report with
        filesScanned := (scanned d root patterns).length
        complaints := files.filterMap (unread? d) ++ report.complaints }, ix', d) ∧
      report.received = chunks.length ∧ report.indexed = (distinct ix.store chunks).1.values.length ∧
      report.complaints = (distinct ix.store chunks).2 ∧ ix'.InMemory width ∧
      ix'.store.chunks = ix.store.chunks.putAll ((distinct ix.store chunks).1.values.map fun c => (c.id, c)) ∧
      ∀ outcomes : List Outcome, outcomes.Perm (inOrder d files) →
        gather outcomes = .ok (chunks, outcomes.filterMap fun o => unread? d o.path) := by
  intro files chunks
  have made : ∀ c ∈ chunks, c.Made ∧ c.IsShallow := by
    intro c hc
    obtain ⟨path, hp, hc⟩ := List.mem_flatMap.1 hc
    exact ⟨made_of_valid kept (harmless path hp) c hc, (harmless path hp).shallow c hc⟩
  obtain ⟨report, ix', run, inMemory, received, indexed, complaints, persisted, store⟩ :=
    h.indexChunks (fun c hc => (made c hc).1) (fun c hc => (made c hc).2) now d
  have read : ix.readDirectory root d
      = .ok ⟨(scanned d root patterns).length, chunks, files.filterMap (unread? d)⟩ := by
    have unread : (inOrder d files).filterMap (fun o => unread? d o.path) = files.filterMap (unread? d) := by
      conv_rhs => rw [← map_path_inOrder d files, List.filterMap_map]
      rfl
    have gathered : gather (inOrder d files) = .ok (chunks, files.filterMap (unread? d)) := by
      rw [gather_of_perm kept harmless (.refl _), unread]
    rw [readDirectory, directory, excluded, producers, filesBelow_texts]
    simp only [bind, Except.bind, readFiles_chunkFiles]
    rw [gathered]
    rfl
  refine ⟨report, ix', run, ?_, received, indexed, complaints, inMemory, store,
    fun _ => gather_of_perm kept harmless⟩
  rw [indexDirectory, runOn_bind_ok (runOn_memory _ _), runOn_bind_ok (runOn_disk _ _), read,
    runOn_bind_ok (runOn_ofExcept _ _ _), runOn_bind_ok run]
  rfl

/-- A file of records, one of them without an id and one that is no object. -/
def sampleRecords : Json :=
  .arr [.int 7, .obj [("content", .str "beta"), ("kind", .str "METHOD")],
    .obj [("id", .str "x"), ("content", .str "alpha"), ("kind", .str "class")]]

/-- A directory of that file and of one that holds no text. -/
def sampleDisk : Disk where
  nodes := .ofList [(⟨"", ["d"]⟩, .directory),
    (⟨"", ["d", "a.chunks.json"]⟩, .file (.text (Json.render {} sampleRecords))),
    (⟨"", ["d", "b.chunks.json"]⟩, .file (.binary .null))]

section Sample

theorem isData_sampleRecords : sampleRecords.IsData := by
  have str {s : String} (ascii : s.toList.all (fun c => c.toNat < 128) = true) : (Json.str s).IsData :=
    Json.isData_str.2 (Chunk.isKept_ascii ascii)
  refine Json.isData_arr.2 ?_
  simp only [List.forall_mem_cons, Json.isData_obj]
  refine ⟨Chunk.isData_nat (Record.hasDigits_of_lt (k := 1) (by decide) (by decide) (by decide)),
    ⟨by decide, ⟨Chunk.isKept_ascii (by decide), str (by decide)⟩, ⟨Chunk.isKept_ascii (by decide), str (by decide)⟩, by simp⟩,
    ⟨by decide, ⟨Chunk.isKept_ascii (by decide), str (by decide)⟩, ⟨Chunk.isKept_ascii (by decide), str (by decide)⟩,
      ⟨Chunk.isKept_ascii (by decide), str (by decide)⟩, by simp⟩, by simp⟩

theorem readStored_sampleDisk :
    sampleDisk.readStored .readChunkFile ⟨"", ["d", "a.chunks.json"]⟩ = .ok sampleRecords ∧
      sampleDisk.readStored .readChunkFile ⟨"", ["d", "b.chunks.json"]⟩ = .error (.badValue .undecodable) := by
  have at_a : Path.place ⟨"", ["d", "a.chunks.json"]⟩ = ⟨"", ["d", "a.chunks.json"]⟩ := by decide +kernel
  have at_b : Path.place ⟨"", ["d", "b.chunks.json"]⟩ = ⟨"", ["d", "b.chunks.json"]⟩ := by decide +kernel
  have first : sampleDisk.FileAt ⟨"", ["d", "a.chunks.json"]⟩ (.text (Json.render {} sampleRecords)) :=
    ⟨eq_ok_of_toOption (by decide +kernel), by rw [at_a]; rfl⟩
  have second : sampleDisk.FileAt ⟨"", ["d", "b.chunks.json"]⟩ (.binary .null) :=
    ⟨eq_ok_of_toOption (by decide +kernel), by rw [at_b]; rfl⟩
  refine ⟨Disk.readStored_render .readChunkFile isData_sampleRecords (by decide +kernel) first, ?_⟩
  rw [Disk.readStored, Disk.readJson, Disk.readText, second.read]
  rfl

theorem chunkFiles_sampleDisk : (scanned sampleDisk ⟨"", ["d"]⟩ ["build/*", "*.jar"]).length = 2 ∧
    (scanned sampleDisk ⟨"", ["d"]⟩ ["build/*", "*.jar"]).filter isChunkFile
      = [⟨"", ["d", "a.chunks.json"]⟩, ⟨"", ["d", "b.chunks.json"]⟩] := by
  have sorted : sampleDisk.under ⟨"", ["d"]⟩
      = [(⟨"", ["d", "a.chunks.json"]⟩, .file (.text (Json.render {} sampleRecords))),
        (⟨"", ["d", "b.chunks.json"]⟩, .file (.binary .null))] :=
    List.mergeSort_of_pairwise (List.pairwise_pair.2 (by decide +kernel))
  have place : sampleDisk.locate ⟨"", ["d"]⟩ = .ok ⟨"", ["d"]⟩ := eq_ok_of_toOption (by decide +kernel)
  rw [scanned, Disk.below, place]
  simp only [sorted]
  exact ⟨by decide +kernel, by decide +kernel⟩

theorem indexDirectory_isolated_sample :
    let ix : Indexer := {
      lexical := .blank none (.whole 1) (.whole 1) (.ok 1)
      vectors := some (.blank (.hashed 2) none .null (.ok 1) (.ok (.whole 50000)))
      excludePatterns := Chunk.textsJson ["build/*", "*.jar"] }
    ∃ report ix', (indexDirectory 0 ⟨"", ["d"]⟩).runOn ix sampleDisk = (.ok report, ix', sampleDisk) ∧
      report.filesScanned = 2 ∧ report.received = 2 ∧
      report.complaints = [.unread ⟨"", ["d", "b.chunks.json"]⟩ (.badValue .undecodable)] := by
  intro ix
  have inMemory : ix.InMemory 2 := by
    refine ⟨rfl, ?_, rfl, .empty⟩
    rintro v ⟨⟩
    exact ⟨rfl, Embedder.works_hashed (by decide) (by decide), .inl rfl⟩
  obtain ⟨read_a, read_b⟩ := readStored_sampleDisk
  obtain ⟨count, files⟩ := chunkFiles_sampleDisk
  have chunks_a : validChunks sampleDisk ⟨"", ["d", "a.chunks.json"]⟩ = (records sampleRecords).filterMap validChunk? := by
    rw [validChunks, read_a]
  have harmless : ∀ path ∈ (scanned sampleDisk ⟨"", ["d"]⟩ ["build/*", "*.jar"]).filter isChunkFile,
      IsHarmless sampleDisk path := by
    rw [files]
    refine List.forall_mem_cons.2 ⟨?_, List.forall_mem_singleton.2 ?_⟩
    · refine ⟨by rw [read_a]; nofun, ?_, ?_, ?_⟩
      · rw [read_a]
        rintro _ ⟨⟩
        trivial
      · rw [read_a]
        rintro _ ⟨⟩ record there needs
        rcases List.mem_cons.1 there with other | there
        · cases other
        rcases List.mem_cons.1 there with same | there
        · injection same with same
          exact ⟨"", "beta", "", by rw [same]; rfl, by rw [same]; rfl, .inr (by rw [same]; exact ⟨rfl, rfl⟩),
            by rw [same]; decide +kernel⟩
        · obtain ⟨same⟩ := List.mem_singleton.1 there
          exact absurd needs.1 (by decide +kernel)
      · rw [chunks_a]
        decide +kernel
    · refine ⟨?_, by rw [read_b]; nofun, by rw [read_b]; nofun, ?_⟩
      · rw [read_b]
        rintro _ ⟨⟩
        rfl
      · rw [validChunks, read_b]
        exact List.forall_mem_nil _
  have kept : sampleDisk.KeepsTexts := by
    intro place content there
    rw [Disk.nodeAt?] at there
    split at there
    next => cases there
    next =>
      have items : sampleDisk.nodes.items = [(⟨"", ["d"]⟩, .directory),
          (⟨"", ["d", "a.chunks.json"]⟩, .file (.text (Json.render {} sampleRecords))),
          (⟨"", ["d", "b.chunks.json"]⟩, .file (.binary .null))] := rfl
      have among := Keyed.get?_eq_some.1 there
      rw [items] at among
      simp only [List.mem_cons, Prod.mk.injEq, reduceCtorEq, and_false, false_or, Node.file.injEq, List.not_mem_nil,
        or_false] at among
      rcases among with ⟨_, rfl⟩ | ⟨_, rfl⟩
      · exact isKept_render isData_sampleRecords
      · trivial
  obtain ⟨report, ix', _, run, received, _, collisions, _⟩ := inMemory.indexDirectory_isolated rfl rfl
    (eq_ok_of_toOption (by decide +kernel)) kept harmless 0
  rw [files] at run received collisions
  have chunks : [⟨"", ["d", "a.chunks.json"]⟩, ⟨"", ["d", "b.chunks.json"]⟩].flatMap (validChunks sampleDisk)
      = (records sampleRecords).filterMap validChunk? := by
    rw [List.flatMap_cons, List.flatMap_singleton, chunks_a, validChunks, read_b]
    exact List.append_nil _
  have unread : [⟨"", ["d", "a.chunks.json"]⟩, ⟨"", ["d", "b.chunks.json"]⟩].filterMap (unread? sampleDisk)
      = [.unread ⟨"", ["d", "b.chunks.json"]⟩ (.badValue .undecodable)] := by
    rw [List.filterMap_cons, unread?, read_a, List.filterMap_cons, unread?, read_b]
    rfl
  refine ⟨_, ix', run, count, ?_, ?_⟩
  · rw [chunks] at received
    exact received.trans (by decide +kernel)
  · rw [unread, collisions, chunks, List.length_eq_zero_iff.1 (show (distinct ix.store _).2.length = 0 by decide +kernel)]
    rfl

end Sample

end CodeSearch.Indexer
