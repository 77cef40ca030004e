import CodeSearch.Proofs.Action
import CodeSearch.Proofs.Keyed
/-!
# The places of paths

Where a path leads depends on the disk only in so far as it leads anywhere: it leads to `Path.place` or nowhere
(`locate_eq`). Effects make directories and take none away, so what has a place keeps it (`locate_of_directories`).

`Changed` is what work at some places leaves of a disk: files stand as they did but at these places, and new
directories come only on some ways. A file that stands at a path (`FileAt`) is found there again after any work
elsewhere (`FileAt.changed`).
-/

namespace CodeSearch

namespace Path

/-- The place one step further on. -/
def step (place : Path) (part : String) : Path :=
  if part = ".." then place.parent else ⟨place.anchor, place.parts ++ [Text.throughBytes part]⟩

/-- The place that a path leads to, if it leads anywhere. -/
def place (path : Path) : Path := path.parts.foldl step ⟨path.anchor, []⟩

/-- The disk takes a path, and all names in it. -/
def Fits (path : Path) : Prop :=
  Disk.checkPath path = .ok () ∧ ∀ part ∈ path.parts, part = ".." ∨ Text.byteCount part ≤ Disk.nameLimit

/-- A path that the system can keep. It may be too long all the same. -/
def Sound (path : Path) : Prop := path.hasBytes = true ∧ path.hasNul = false

/-- The places of the directories that are made on the way to a directory. -/
def Way (path place : Path) : Prop := ∃ step ∈ Disk.ancestry path, step.place = place

/-- The places of a file and of what is written beside it. -/
def Written (path place : Path) : Prop := place = path.temporary.place ∨ place = path.place

end Path

namespace Disk

variable {d d' d'' : Disk} {path place : Path} {content : Content}

/-! ## Finding places -/

theorem stepFrom_ok {part : String} {next : Path} (h : d.stepFrom place part = .ok next) :
    next = place.step part ∧ d.nodeAt? place = some .directory := by
  unfold stepFrom at h
  split at h
  next => cases h
  next => cases h
  next directory =>
    refine ⟨?_, directory⟩
    unfold Path.step
    split at h
    next up =>
      rw [if_pos up]
      injection h with h
      exact h.symm
    next down =>
      rw [if_neg down]
      split at h
      · cases h
      · injection h with h
        exact h.symm

theorem foldlM_stepFrom_ok {parts : List String} {start : Path} (h : parts.foldlM d.stepFrom start = .ok place) :
    place = parts.foldl Path.step start := by
  induction parts generalizing start with
  | nil =>
    injection h with h
    exact h.symm
  | cons part parts ih =>
    rw [List.foldlM_cons] at h
    obtain ⟨next, first, h⟩ := exists_of_bind_ok h
    rw [List.foldl_cons, ← (stepFrom_ok first).1]
    exact ih h

/-- Directories of one disk are directories of another. -/
def DirectoriesStay (d d' : Disk) : Prop := ∀ q, d.nodeAt? q = some .directory → d'.nodeAt? q = some .directory

theorem stepFrom_of_directories (stay : DirectoriesStay d d') {part : String} {next : Path}
    (h : d.stepFrom place part = .ok next) : d'.stepFrom place part = .ok next := by
  have directory := (stepFrom_ok h).2
  unfold stepFrom at h ⊢
  rw [directory] at h
  rw [stay _ directory]
  exact h

theorem foldlM_stepFrom_of_directories (stay : DirectoriesStay d d') {parts : List String} {start : Path}
    (h : parts.foldlM d.stepFrom start = .ok place) : parts.foldlM d'.stepFrom start = .ok place := by
  induction parts generalizing start with
  | nil => exact h
  | cons part parts ih =>
    rw [List.foldlM_cons] at h ⊢
    obtain ⟨next, first, h⟩ := exists_of_bind_ok h
    rw [stepFrom_of_directories stay first]
    exact ih h

theorem locate_cases (d : Disk) (path : Path) :
    (∃ fault, checkPath path = .error fault ∧ d.locate path = .error fault) ∨
    checkPath path = .ok () ∧
      ((∃ place, path.parts.foldlM d.stepFrom ⟨path.anchor, []⟩ = .ok place ∧ d.locate path = .ok place) ∨
      ∃ reason, path.parts.foldlM d.stepFrom ⟨path.anchor, []⟩ = .error reason ∧
        d.locate path = .error (.disk reason path.text)) := by
  unfold locate
  cases check : checkPath path with
  | error fault => exact .inl ⟨fault, rfl, rfl⟩
  | ok _ =>
    cases walk : path.parts.foldlM d.stepFrom ⟨path.anchor, []⟩ with
    | ok place => exact .inr ⟨rfl, .inl ⟨place, rfl, rfl⟩⟩
    | error reason => exact .inr ⟨rfl, .inr ⟨reason, rfl, rfl⟩⟩

theorem walk_of_locate (h : d.locate path = .ok place) :
    path.parts.foldlM d.stepFrom ⟨path.anchor, []⟩ = .ok place := by
  rcases d.locate_cases path with ⟨fault, _, eq⟩ | ⟨_, ⟨other, walk, eq⟩ | ⟨reason, _, eq⟩⟩
  · rw [eq] at h
    cases h
  · rw [eq] at h
    injection h with h
    exact h ▸ walk
  · rw [eq] at h
    cases h

/-- A path leads to its place or nowhere. -/
theorem locate_eq (h : d.locate path = .ok place) : place = path.place := foldlM_stepFrom_ok (walk_of_locate h)

theorem locate_of_directories (stay : DirectoriesStay d d') (h : d.locate path = .ok place) :
    d'.locate path = .ok place := by
  rcases d.locate_cases path with ⟨fault, _, eq⟩ | ⟨check, ⟨other, walk, eq⟩ | ⟨reason, _, eq⟩⟩
  · rw [eq] at h
    cases h
  · rw [eq] at h
    injection h with h
    rw [locate, check]
    simp only [bind, Except.bind]
    rw [foldlM_stepFrom_of_directories stay walk, h]
    rfl
  · rw [eq] at h
    cases h

/-! ## What stands there -/

theorem stepFrom_of_short {part : String} {reason : DiskReason}
    (short : part = ".." ∨ Text.byteCount part ≤ nameLimit) (h : d.stepFrom place part = .error reason) :
    reason ≠ .nameTooLong := by
  unfold stepFrom at h
  split at h
  · injection h with h
    simp [← h]
  · injection h with h
    simp [← h]
  · split at h
    next => cases h
    next down =>
      rw [if_neg (by simpa [down] using short)] at h
      cases h

theorem foldlM_stepFrom_of_short {parts : List String} {start : Path} {reason : DiskReason}
    (short : ∀ part ∈ parts, part = ".." ∨ Text.byteCount part ≤ nameLimit)
    (h : parts.foldlM d.stepFrom start = .error reason) : reason ≠ .nameTooLong := by
  induction parts generalizing start with
  | nil => cases h
  | cons part parts ih =>
    rw [List.foldlM_cons] at h
    cases first : d.stepFrom start part with
    | error other =>
      rw [first] at h
      injection h with h
      exact h ▸ stepFrom_of_short (short part List.mem_cons_self) first
    | ok next =>
      rw [first] at h
      exact ih (fun other ho => short other (List.mem_cons_of_mem _ ho)) h

/-- What is found at a path that the disk takes: what stands at its place, or nothing. -/
theorem findNode_of_fits (fits : path.Fits) (d : Disk) :
    (d.locate path = .ok path.place ∧ d.findNode path = .ok (d.nodeAt? path.place)) ∨ d.findNode path = .ok none := by
  unfold findNode
  rcases d.locate_cases path with ⟨fault, bad, _⟩ | ⟨_, ⟨place, _, eq⟩ | ⟨reason, walk, eq⟩⟩
  · rw [fits.1] at bad
    cases bad
  · have same := locate_eq eq
    subst same
    exact .inl ⟨eq, by rw [eq]⟩
  · rw [eq]
    have short := foldlM_stepFrom_of_short fits.2 walk
    cases reason <;> first | exact absurd rfl short | exact .inr rfl

theorem holds_of_nothing (fits : path.Fits) (nothing : d.nodeAt? path.place = none) : d.holds path = .ok false := by
  rw [holds]
  rcases findNode_of_fits fits d with ⟨_, found⟩ | found
  · rw [found, nothing]
    rfl
  · rw [found]
    rfl

@[simp] theorem nodeAt?_fates (d : Disk) (fates : List Fate) (q : Path) :
    nodeAt? { d with fates } q = d.nodeAt? q := rfl

@[simp] theorem nodeAt?_fated (d : Disk) (q : Path) : d.fated.nodeAt? q = d.nodeAt? q := rfl

theorem nodeAt?_putAt_self (h : place.parts.isEmpty = false) (node : Node) :
    (d.putAt place node).nodeAt? place = some node := by
  rw [nodeAt?, h, putAt, if_neg (by simp), Keyed.get?_put_self]

theorem nodeAt?_putAt_of_ne {q : Path} (h : q ≠ place) (node : Node) :
    (d.putAt place node).nodeAt? q = d.nodeAt? q := by
  rw [nodeAt?, nodeAt?, putAt, Keyed.get?_put, if_neg h]

theorem nodeAt?_eraseAt_of_ne {q : Path} (h : q ≠ place) : (d.eraseAt place).nodeAt? q = d.nodeAt? q := by
  rw [nodeAt?, nodeAt?, eraseAt, Keyed.get?_erase, if_neg h]

theorem nodeAt?_eraseAt_self (h : place.parts.isEmpty = false) : (d.eraseAt place).nodeAt? place = none := by
  rw [nodeAt?, h, eraseAt, if_neg (by simp), Keyed.get?_erase, if_pos rfl]

/-- Only a directory stands where paths begin. -/
theorem parts_of_nodeAt? (h : d.nodeAt? place ≠ some .directory) : place.parts.isEmpty = false := by
  rw [nodeAt?] at h
  split at h
  next => exact absurd rfl h
  next root => simpa using root

/-! ## Changes -/

/-- What is left of a disk by work on files at some places, with new directories on some ways. Some of the fates to
come have come. -/
structure Changed (files ways : Path → Prop) (d d' : Disk) : Prop where
  fates : d'.fates <:+ d.fates
  directories : DirectoriesStay d d'
  made : ∀ q, d'.nodeAt? q = some .directory → d.nodeAt? q = some .directory ∨ ways q
  elsewhere : ∀ q, ¬ files q → d'.nodeAt? q = d.nodeAt? q ∨
    ways q ∧ d.nodeAt? q = none ∧ d'.nodeAt? q = some .directory

namespace Changed

variable {files ways files' ways' : Path → Prop}

theorem of_nodes (fates : d'.fates <:+ d.fates) (h : ∀ q, d'.nodeAt? q = d.nodeAt? q) : Changed files ways d d' :=
  ⟨fates, fun q hq => (h q).trans hq, fun q hq => .inl ((h q).symm.trans hq), fun q _ => .inl (h q)⟩

theorem refl : Changed files ways d d := of_nodes (List.suffix_refl _) fun _ => rfl

theorem fated : Changed files ways d d.fated := of_nodes (List.tail_suffix _) fun _ => rfl

theorem trans (h : Changed files ways d d') (h' : Changed files ways d' d'') : Changed files ways d d'' := by
  refine ⟨h'.fates.trans h.fates, fun q hq => h'.directories q (h.directories q hq),
    fun q hq => (h'.made q hq).elim (h.made q) .inr, fun q hq => ?_⟩
  rcases h'.elsewhere q hq with same' | ⟨way', none', directory'⟩
  · rcases h.elsewhere q hq with same | ⟨way, none, directory⟩
    · exact .inl (same'.trans same)
    · exact .inr ⟨way, none, same'.trans directory⟩
  · rcases h.elsewhere q hq with same | ⟨way, none, directory⟩
    · exact .inr ⟨way', same ▸ none', directory'⟩
    · rw [directory] at none'
      cases none'

theorem mono (h : Changed files ways d d') (hf : ∀ q, files q → files' q) (hw : ∀ q, ways q → ways' q) :
    Changed files' ways' d d' :=
  ⟨h.fates, h.directories, fun q hq => (h.made q hq).imp_right (hw q),
    fun q hq => (h.elsewhere q fun there => hq (hf q there)).imp_right fun ⟨way, rest⟩ => ⟨hw q way, rest⟩⟩

/-- A file elsewhere stands as it did. -/
theorem file (h : Changed files ways d d') {q : Path} (hq : ¬ files q) :
    d'.nodeAt? q = some (.file content) ↔ d.nodeAt? q = some (.file content) := by
  rcases h.elsewhere q hq with same | ⟨_, none, directory⟩
  · rw [same]
  · rw [none, directory]
    simp

theorem no_cut (h : Changed files ways d d') (uncut : .cut ∉ d.fates) : .cut ∉ d'.fates :=
  fun there => uncut (h.fates.subset there)

theorem no_fates (h : Changed files ways d d') (used : d.fates = []) : d'.fates = [] :=
  List.suffix_nil.1 (used ▸ h.fates)

/-- Nothing comes to where no file is put and no way leads. -/
theorem none (h : Changed files ways d d') {q : Path} (hq : ¬ files q) (hw : ¬ ways q)
    (before : d.nodeAt? q = Option.none) : d'.nodeAt? q = Option.none := by
  rcases h.elsewhere q hq with same | ⟨way, _⟩
  · exact same.trans before
  · exact absurd way hw

end Changed

/-- A file stands at the place of a path, and the path leads there. -/
def FileAt (d : Disk) (path : Path) (content : Content) : Prop :=
  d.locate path = .ok path.place ∧ d.nodeAt? path.place = some (.file content)

namespace FileAt

theorem changed {files ways : Path → Prop} (h : d.FileAt path content) (change : Changed files ways d d')
    (apart : ¬ files path.place) : d'.FileAt path content :=
  ⟨locate_of_directories change.directories h.1, (change.file apart).2 h.2⟩

theorem fated (h : d.FileAt path content) : d.fated.FileAt path content :=
  h.changed (show Changed (fun _ => False) (fun _ => False) d d.fated from .fated) id

theorem read (h : d.FileAt path content) : d.read path = .ok content := by
  rw [Disk.read, h.1]
  simp only [bind, Except.bind, h.2]
  rfl

theorem findNode (h : d.FileAt path content) : d.findNode path = .ok (some (.file content)) := by
  rw [Disk.findNode, h.1, ← h.2]

theorem holds (h : d.FileAt path content) : d.holds path = .ok true := by
  rw [Disk.holds, h.findNode]
  rfl

theorem eq {other : Content} (h : d.FileAt path content) (h' : d.FileAt path other) : content = other := by
  have same := h.2.symm.trans h'.2
  injection same with same
  injection same

end FileAt

end Disk

end CodeSearch
