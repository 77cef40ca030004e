import CodeSearch.Proofs.Chunk.RoundTrip
import CodeSearch.Proofs.Disk.Effects
import CodeSearch.Proofs.Lexical.Names
/-!
# What a stored index is read as

The segments of an index are a log of changes. A segment that stands on the disk is read as its changes
(`applySegment_json`), and an index whose manifest names the segments of a log is opened with the entries that the
log makes (`openAt_of_listed`).
-/

namespace CodeSearch.Lexical

/-! ## Changes -/

/-- What a change makes of the entries when it is read from the disk: a chunk whose lines are not in order is no
chunk there. -/
def Change.apply (entries : Keyed String Entry) : Change → Keyed String Entry
  | .add c => if c.startLine ≤ c.endLine then entries.put c.id (.ofChunk c) else entries
  | .delete (.str id) => entries.erase id
  | .delete _ => entries

/-- What changes make of the entries, one after the other. -/
def replay (changes : List Change) (entries : Keyed String Entry) : Keyed String Entry :=
  changes.foldl Change.apply entries

/-- A change that can be written and read. -/
def Change.IsStorable : Change → Prop
  | .add c => c.WellRead ∧ c.IsShallow
  | .delete id => ∃ s : String, id = .str s ∧ Text.IsKept s.toList

/-- A change is read from its record as what it makes of the entries. -/
theorem applyStored_json {change : Change} (h : change.IsStorable) (entries : Keyed String Entry) :
    applyStored entries change.json = .ok (change.apply entries) := by
  cases change with
  | add c =>
    have written : (Change.add c).json.item "chunk" = .ok c.json := rfl
    have named : (Change.add c).json.field? "op" = .ok (some (.str "add")) := rfl
    have adds : isText "add" ((some (Json.str "add")).getD .null) = true := rfl
    simp only [applyStored, named, written, bind, Except.bind, adds, if_true, Change.apply]
    by_cases order : c.startLine ≤ c.endLine
    · rw [Chunk.ofJson_json h.1 order, if_pos order]
      rfl
    · obtain ⟨reason, id, refused⟩ := Chunk.ofJson_json_of_disorder h.1 order
      rw [refused, if_neg order]
      rfl
  | delete id =>
    obtain ⟨s, rfl, _⟩ := h
    rfl

theorem isData_pair {first second : String} {a b : Json} (differ : first ≠ second)
    (kept : Text.IsKept first.toList) (kept' : Text.IsKept second.toList) (ha : a.IsData) (hb : b.IsData) :
    (Json.obj [(first, a), (second, b)]).IsData := by
  rw [Json.isData_obj]
  exact ⟨by simpa using differ, by simpa using ⟨⟨kept, ha⟩, kept', hb⟩⟩

theorem isData_change {change : Change} (h : change.IsStorable) : change.json.IsData := by
  cases change with
  | add c =>
    exact isData_pair (by decide) (Chunk.isKept_ascii (by decide)) (Chunk.isKept_ascii (by decide))
      (Json.isData_str.2 (Chunk.isKept_ascii (by decide))) (Chunk.isData_json h.1)
  | delete id =>
    obtain ⟨s, rfl, kept⟩ := h
    exact isData_pair (by decide) (Chunk.isKept_ascii (by decide)) (Chunk.isKept_ascii (by decide))
      (Json.isData_str.2 (Chunk.isKept_ascii (by decide))) (Json.isData_str.2 kept)

theorem depth_change {change : Change} (h : change.IsStorable) : change.json.depth ≤ Chunk.metadataDepth + 3 := by
  cases change with
  | add c =>
    have := Chunk.depth_json h.1 h.2
    simp only [Change.json, Json.depth, Json.fieldsDepth]
    omega
  | delete id =>
    obtain ⟨s, rfl, _⟩ := h
    simp only [Change.json, Json.depth, Json.fieldsDepth]
    omega

/-! ## Segments -/

/-- A segment as a value. -/
def segmentJson (changes : List Change) : Json := .obj [("ops", .arr (changes.map Change.json))]

theorem isData_segment {changes : List Change} (h : ∀ change ∈ changes, change.IsStorable) :
    (segmentJson changes).IsData := by
  rw [segmentJson, Json.isData_obj]
  have name : Text.IsKept "ops".toList := Chunk.isKept_ascii (by decide)
  refine ⟨by simp, List.forall_mem_singleton.2 ⟨name, Json.isData_arr.2 ?_⟩⟩
  intro item hi
  obtain ⟨change, mem, rfl⟩ := List.mem_map.1 hi
  exact isData_change (h change mem)

theorem isKept_segment {changes : List Change} (h : ∀ change ∈ changes, change.IsStorable) :
    (segmentContent changes).IsKept := isKept_render (isData_segment h)

theorem depth_segment {changes : List Change} (h : ∀ change ∈ changes, change.IsStorable) :
    (segmentJson changes).depth ≤ Json.nestingLimit := by
  have items : Json.itemsDepth (changes.map Change.json) ≤ Chunk.metadataDepth + 3 := by
    apply Json.itemsDepth_le
    intro item hi
    obtain ⟨change, mem, rfl⟩ := List.mem_map.1 hi
    exact depth_change (h change mem)
  rw [Chunk.metadataDepth] at items
  simp only [segmentJson, Json.depth, Json.fieldsDepth, Json.nestingLimit]
  omega

theorem foldlM_applyStored {changes : List Change} (h : ∀ change ∈ changes, change.IsStorable)
    (entries : Keyed String Entry) :
    (changes.map Change.json).foldlM applyStored entries = .ok (replay changes entries) := by
  induction changes generalizing entries with
  | nil => rfl
  | cons change changes ih =>
    rw [List.map_cons, List.foldlM_cons, applyStored_json (h change List.mem_cons_self)]
    exact ih (fun other ho => h other (List.mem_cons_of_mem _ ho)) _

/-- A segment is read as its changes. -/
theorem applySegment_json {changes : List Change} (h : ∀ change ∈ changes, change.IsStorable)
    (entries : Keyed String Entry) : applySegment entries (segmentJson changes) = .ok (replay changes entries) :=
  foldlM_applyStored h entries

/-! ## Logs -/

/-- Segments in order: their numbers and their changes. -/
abbrev Log := List (Nat × List Change)

namespace Log

def numbers (log : Log) : List Nat := log.map Prod.fst

def names (log : Log) : List String := log.map fun segment => segmentName segment.1

/-- What the segments make of some entries. -/
def replayed (log : Log) (entries : Keyed String Entry) : Keyed String Entry :=
  log.foldl (fun entries segment => replay segment.2 entries) entries

/-- The entries that a log makes of none. -/
def entries (log : Log) : Keyed String Entry := log.replayed .empty

/-- Every segment stands in the directory as a whole. -/
def StandsIn (dir : Path) (d : Disk) (log : Log) : Prop :=
  ∀ segment ∈ log, d.FileAt (dir.child (segmentName segment.1)) (segmentContent segment.2)

/-- Every change can be written and read. -/
def IsStorable (log : Log) : Prop := ∀ segment ∈ log, ∀ change ∈ segment.2, change.IsStorable

theorem names_eq (log : Log) : log.names = log.numbers.map fun (n : Nat) => segmentName n := by
  rw [names, numbers, List.map_map]
  rfl

theorem nodup_names {log : Log} (h : log.numbers.Nodup) : log.names.Nodup := by
  rw [names_eq]
  refine List.Pairwise.map _ (fun m n differ => ?_) h
  exact fun same => differ (segmentName_inj.1 same)

theorem length_names (log : Log) : log.names.length = log.length := List.length_map _

@[simp] theorem names_append (log more : Log) : names (log ++ more) = log.names ++ more.names := List.map_append

@[simp] theorem numbers_append (log more : Log) : numbers (log ++ more) = log.numbers ++ more.numbers := List.map_append

theorem replayed_append (log more : Log) (entries : Keyed String Entry) :
    replayed (log ++ more) entries = more.replayed (log.replayed entries) := List.foldl_append

/-- The segments of a log are read in order. -/
theorem applySegments_eq {dir : Path} {d : Disk} {log : Log} (stands : log.StandsIn dir d) (storable : log.IsStorable)
    (entries : Keyed String Entry) :
    applySegments d dir entries (log.names.map .str) = .ok (log.replayed entries, log.names) := by
  induction log generalizing entries with
  | nil => rfl
  | cons segment log ih =>
    have changes := storable segment List.mem_cons_self
    have read : d.readStored .readLexical (dir.child (segmentName segment.1)) = .ok (segmentJson segment.2) :=
      Disk.readStored_render _ (isData_segment changes) (depth_segment changes) (stands segment List.mem_cons_self)
    have rest := ih (fun other ho => stands other (List.mem_cons_of_mem _ ho))
      (fun other ho => storable other (List.mem_cons_of_mem _ ho)) (replay segment.2 entries)
    rw [names, List.map_cons, List.map_cons, applySegments, read]
    simp only [bind, Except.bind]
    rw [applySegment_json changes]
    simp only []
    rw [← names, rest]
    rfl

end Log

/-! ## Manifests -/

/-- A manifest as a value. -/
def manifestJson (segments : List String) (next : Int) : Json :=
  .obj [("version", .int 1), ("segments", .arr (segments.map .str)), ("next_segment", .int next)]

theorem isData_manifest (log : Log) {next : Nat} (digits : Record.HasDigits next) :
    (manifestJson log.names next).IsData := by
  have one : Record.HasDigits 1 := Record.hasDigits_of_lt (k := 1) (by decide) (by decide) (by decide)
  rw [manifestJson, Json.isData_obj]
  have once : ["version", "segments", "next_segment"].Nodup := by decide
  refine ⟨once, ?_⟩
  simp only [List.forall_mem_cons]
  have names : ∀ name ∈ ["version", "segments", "next_segment"], Text.IsKept name.toList := by
    intro name hn
    exact Chunk.isKept_ascii (by revert name; decide)
  refine ⟨⟨names _ (by simp), Chunk.isData_nat one⟩, ⟨names _ (by simp), Json.isData_arr.2 ?_⟩,
    ⟨names _ (by simp), Chunk.isData_nat digits⟩, by simp⟩
  intro item hi
  obtain ⟨name, mem, rfl⟩ := List.mem_map.1 hi
  obtain ⟨segment, _, rfl⟩ := List.mem_map.1 mem
  exact Json.isData_str.2 (.of_ascii (isPlainName_segmentName segment.1).ascii)

theorem isKept_manifest (log : Log) {next : Nat} (digits : Record.HasDigits next) :
    (manifestContent log.names next).IsKept := isKept_render (isData_manifest log digits)

theorem depth_manifest (segments : List String) (next : Int) :
    (manifestJson segments next).depth ≤ Json.nestingLimit := by
  have items := Chunk.itemsDepth_strs segments
  simp only [manifestJson, Json.depth, Json.fieldsDepth, Json.nestingLimit]
  omega

/-- The manifest of a directory names the segments of a log and the next number. A directory without a manifest
has no segments. -/
def Listed (dir : Path) (d : Disk) (log : Log) (next : Nat) : Prop :=
  (d.nodeAt? (dir.child manifestName).place = none ∧ log = [] ∧ next = 1) ∨
    d.FileAt (dir.child manifestName) (manifestContent log.names next)

end CodeSearch.Lexical

namespace CodeSearch.LexicalIndex

open Lexical

variable {α : Type}

/-- The snapshot of an index holds the entries, if it is of the generation of the index. -/
def IsCurrent (ix : LexicalIndex α) : Prop :=
  ix.snapshot.generation ≤ ix.generation ∧
    (ix.snapshot.generation = ix.generation → ix.snapshot.entries = ix.entries.values)

/-- An index that has been opened in a directory with the segments of a log. -/
structure IsOpened (dir : Path) (log : Log) (next : Nat) (ix : LexicalIndex α) : Prop where
  directory : ix.directory = some dir
  entries : ix.entries = log.entries
  pending : ix.pending = []
  segments : ix.segments = log.names
  nextSegment : ix.nextSegment = next
  current : ix.IsCurrent

theorem load_of_listed {dir : Path} {d : Disk} {log : Log} {next : Nat}
    (listed : d.FileAt (dir.child manifestName) (manifestContent log.names next)) (digits : Record.HasDigits next)
    (stands : log.StandsIn dir d) (storable : log.IsStorable) (ix : LexicalIndex α) :
    ix.load d dir = .ok { ix with
      entries := log.entries, segments := log.names, nextSegment := next, generation := ix.generation + 1 } := by
  have read : d.readStored .readLexical (dir.child manifestName) = .ok (manifestJson log.names next) :=
    Disk.readStored_render _ (isData_manifest log digits) (depth_manifest _ _) listed
  have segments := log.applySegments_eq stands storable .empty
  have field : (manifestJson log.names next).field? "segments" = .ok (some (.arr (log.names.map .str))) := rfl
  have number : (manifestJson log.names next).field? "next_segment" = .ok (some (.int next)) := rfl
  rw [load, read]
  simp only [bind, Except.bind]
  rw [field]
  simp only [Option.getD_some, Json.elements]
  rw [number]
  simp only [Option.getD_some, Json.toInteger]
  rw [segments]
  rfl

/-- Where there is no manifest an empty index is opened. -/
theorem openAt_of_nothing {dir : Path} {d : Disk} (fits : (dir.child manifestName).Fits)
    (nothing : d.nodeAt? (dir.child manifestName).place = none) (k1 b : Parameter α)
    (maxSegments : Except Fault Int) (unfit : Unfit) :
    openAt (some dir) k1 b maxSegments unfit d = .ok { blank (some dir) k1 b maxSegments with unfit } := by
  have absent : d.holds (dir.child manifestName) = .ok false := Disk.holds_of_nothing fits nothing
  simp only [openAt, absent, bind, Except.bind]
  rfl

/-- An index is opened with what the segments of its directory make. -/
theorem openAt_of_listed {dir : Path} {d : Disk} {log : Log} {next : Nat} (fits : (dir.child manifestName).Fits)
    (listed : Listed dir d log next) (digits : Record.HasDigits next) (stands : log.StandsIn dir d)
    (storable : log.IsStorable) (k1 b : Parameter α) (maxSegments : Except Fault Int) (unfit : Unfit) :
    ∃ ix, openAt (some dir) k1 b maxSegments unfit d = .ok ix ∧ ix.IsOpened dir log next ∧
      ix.maxSegments = maxSegments := by
  rcases listed with ⟨nothing, rfl, rfl⟩ | listed
  · refine ⟨_, openAt_of_nothing fits nothing k1 b maxSegments unfit, ⟨rfl, rfl, rfl, rfl, rfl, ?_⟩, rfl⟩
    exact ⟨Nat.le_refl _, fun _ => rfl⟩
  · have present := listed.holds
    have loaded := load_of_listed listed digits stands storable
      ({ blank (some dir) k1 b maxSegments with unfit } : LexicalIndex α)
    have opened : openAt (some dir) k1 b maxSegments unfit d =
        ({ blank (some dir) k1 b maxSegments with unfit } : LexicalIndex α).load d dir := by
      simp only [openAt, present, bind, Except.bind]
      rfl
    exact ⟨_, opened.trans loaded, ⟨rfl, rfl, rfl, rfl, rfl, Nat.zero_le _, fun same => absurd same (by simp [blank])⟩,
      rfl⟩

end CodeSearch.LexicalIndex
