import CodeSearch.Proofs.Disk.Child
import CodeSearch.Proofs.Disk.Effects
/-!
# Room for files

A disk has room for files where nothing is in the way of them (`Disk.Room`): no file stands where one of the directories
around them should, and no directory where one of them should. A file for which there is room, and whose effects are
granted, is stored (`runOn_store_room`), and there stays room for all (`Disk.Room.changed`).
-/

namespace CodeSearch

namespace Path

instance (path : Path) : Decidable path.Fits :=
  decidable_of_iff ((Disk.checkPath path).toBool = true ∧
    ∀ part ∈ path.parts, part = ".." ∨ Text.byteCount part ≤ Disk.nameLimit)
    (and_congr_left' ⟨eq_ok_of_toBool, fun taken => by rw [taken]; rfl⟩)

/-- A path at which a file can be stored, as far as the names are concerned. -/
structure Storable (path : Path) : Prop where
  name : path.name ≠ ""
  own : path.Fits
  beside : path.temporary.Fits
  parent : path.parent.Fits
  steps : ∀ step ∈ Disk.ancestry path.parent, step.Fits
  /-- The way to the file does not lead through it. -/
  apart : ∀ place, path.Written place → ¬ path.parent.Way place

theorem parts_of_name {path : Path} (name : path.name ≠ "") : path.parts = path.parent.parts ++ [path.name] := by
  rcases List.eq_nil_or_concat path.parts with none | ⟨parents, last, parts⟩
  · exact absurd (by rw [Path.name, none]; rfl) name
  · simp [Path.name, parent, parts]

/-- A file with a plain name can be stored in a directory to which a path leads down. -/
theorem storable_child {dir : Path} {name : String} (plain : IsPlainName name) (down : ".." ∉ dir.parts)
    (own : (dir.child name).Fits) (beside : (dir.child (name ++ ".tmp")).Fits) (parent : dir.Fits)
    (steps : ∀ step ∈ Disk.ancestry dir, step.Fits) : (dir.child name).Storable where
  name := by
    rw [name_child plain]
    exact plain.ne_empty
  own := own
  beside := by rwa [temporary_child plain]
  parent := by rwa [parent_child plain]
  steps := by rwa [parent_child plain]
  apart := by
    rw [parent_child plain]
    rintro place (rfl | rfl)
    · rw [temporary_child plain]
      exact not_way_child down plain.temporary
    · exact not_way_child down plain

end Path

namespace Disk

variable {d d' : Disk} {path place : Path} {files ways : Path → Prop}

/-! ## Ways that lead somewhere -/

theorem stepFrom_of_directory {part : String} (stands : d.nodeAt? place = some .directory)
    (short : part = ".." ∨ Text.byteCount part ≤ nameLimit) : d.stepFrom place part = .ok (place.step part) := by
  rw [stepFrom, stands, Path.step]
  by_cases up : part = ".."
  · rw [if_pos up, if_pos up]
  · rw [if_neg up, if_neg up, if_neg (Nat.not_lt.2 (short.resolve_left up))]

theorem foldlM_stepFrom_of_directories_stand {parts : List String} {start : Path}
    (short : ∀ part ∈ parts, part = ".." ∨ Text.byteCount part ≤ nameLimit)
    (stand : ∀ n < parts.length, d.nodeAt? ((parts.take n).foldl Path.step start) = some .directory) :
    parts.foldlM d.stepFrom start = .ok (parts.foldl Path.step start) := by
  induction parts generalizing start with
  | nil => rfl
  | cons part parts ih =>
    have first : d.nodeAt? start = some .directory := stand 0 (Nat.succ_pos _)
    rw [List.foldlM_cons, stepFrom_of_directory first (short part List.mem_cons_self)]
    exact ih (fun other ho => short other (List.mem_cons_of_mem _ ho)) fun n hn => stand (n + 1) (Nat.succ_lt_succ hn)

/-- The first places on the way to the end of a path are directories. -/
def LeadsTo (d : Disk) (path : Path) (n : ℕ) : Prop :=
  ∀ m ≤ n, d.nodeAt? (Path.place ⟨path.anchor, path.parts.take m⟩) = some .directory

theorem leadsTo_zero (d : Disk) (path : Path) : d.LeadsTo path 0 := by
  intro m hm
  obtain rfl := Nat.le_zero.1 hm
  rfl

/-- A path can be followed if all places on its way are directories. -/
theorem locate_of_leadsTo {n : ℕ} (fits : path.Fits) (leads : d.LeadsTo path n) (whole : path.parts.length ≤ n + 1) :
    d.locate path = .ok path.place := by
  have walk : path.parts.foldlM d.stepFrom ⟨path.anchor, []⟩ = .ok path.place :=
    foldlM_stepFrom_of_directories_stand fits.2 fun m hm => leads m (by omega)
  rw [locate, fits.1, ok_bind, walk]
  rfl

theorem LeadsTo.stays {n : ℕ} (h : d.LeadsTo path n) (stay : DirectoriesStay d d') : d'.LeadsTo path n :=
  fun m hm => stay _ (h m hm)

/-! ## Effects that are granted -/

/-- The next effects are done, as far as the files allow. -/
def Grants (d : Disk) (n : ℕ) : Prop := ∀ fate ∈ d.fates.take n, fate = .done

theorem grants_of_used (used : d.fates = []) (n : ℕ) : d.Grants n := by
  rw [Grants, used, List.take_nil]
  exact List.forall_mem_nil _

theorem Grants.mono {m n : ℕ} (h : d.Grants n) (le : m ≤ n) : d.Grants m :=
  fun fate hf => h fate ((List.take_sublist_take_left le).subset hf)

/-- What is granted after some effects have been done. -/
theorem Grants.after {m n : ℕ} (h : d.Grants (m + n)) (fates : d'.fates = d.fates.drop m) : d'.Grants n := by
  intro fate hf
  rw [fates, List.take_drop] at hf
  exact h fate (List.mem_of_mem_drop hf)

theorem fates_makeStep {step : Path} (h : makeStep path step d = .ok d') : d'.fates = d.fates := by
  unfold makeStep at h
  obtain ⟨_, _, h⟩ := exists_of_bind_ok h
  obtain ⟨place, _, h⟩ := exists_of_bind_ok h
  split at h
  · injection h with h
    rw [← h]
  · cases h
  · injection h with h
    rw [← h]
    rfl

theorem fates_writeFile {content : Content} (h : writeFile path content d = .ok d') : d'.fates = d.fates := by
  unfold writeFile at h
  obtain ⟨place, _, h⟩ := exists_of_bind_ok h
  split at h
  · cases h
  · injection h with h
    rw [← h]
    rfl

/-! ## Room -/

/-- Nothing is in the way of files at some places, in directories on some ways. -/
structure Room (files ways : Path → Prop) (d : Disk) : Prop where
  way : ∀ place, ways place → ∀ content, d.nodeAt? place ≠ some (.file content)
  free : ∀ place, files place → d.nodeAt? place ≠ some .directory

theorem Room.mono (h : d.Room files ways) {files' ways' : Path → Prop} (hf : ∀ place, files' place → files place)
    (hw : ∀ place, ways' place → ways place) : d.Room files' ways' :=
  ⟨fun place hp => h.way place (hw place hp), fun place hp => h.free place (hf place hp)⟩

/-- Files that are on the way to none of them leave room for one another. -/
theorem Room.changed (h : d.Room files ways) (apart : ∀ place, files place → ¬ ways place)
    (change : Changed files ways d d') : d'.Room files ways where
  way place hp content there := h.way place hp content ((change.file fun hf => apart place hf hp).1 there)
  free place hp there := (change.made place there).elim (h.free place hp) (apart place hp)

/-- Where nothing stands there is room for files anywhere but at the beginning of paths. -/
theorem room_of_empty (inside : ∀ place, files place ∨ ways place → place.parts ≠ []) (fates : List Fate) :
    Room files ways ⟨.empty, fates⟩ := by
  have nothing : ∀ place, files place ∨ ways place → nodeAt? ⟨.empty, fates⟩ place = none := by
    intro place there
    rw [nodeAt?, if_neg (by simpa using inside place there)]
    rfl
  refine ⟨fun place hp content there => ?_, fun place hp there => ?_⟩
  · rw [nothing place (.inr hp)] at there
    cases there
  · rw [nothing place (.inl hp)] at there
    cases there

theorem makeStep_room {step : Path} (fits : checkPath path = .ok ()) (walk : d.locate step = .ok step.place)
    (clear : ∀ content, d.nodeAt? step.place ≠ some (.file content)) :
    ∃ d', makeStep path step d = .ok d' ∧ d'.nodeAt? step.place = some .directory := by
  unfold makeStep
  rw [fits, walk]
  simp only [bind, Except.bind]
  split
  next stands => exact ⟨d, rfl, stands⟩
  next content stands => exact absurd stands (clear content)
  next nothing =>
    exact ⟨_, rfl, nodeAt?_putAt_self (parts_of_nodeAt? (d := d) (by rw [nothing]; exact nofun)) _⟩

theorem writeFile_room {content : Content} (walk : d.locate path = .ok path.place)
    (free : d.nodeAt? path.place ≠ some .directory) : ∃ d', writeFile path content d = .ok d' := by
  unfold writeFile
  rw [walk, ok_bind]
  split
  next stands => exact absurd stands free
  next => exact ⟨_, rfl⟩

theorem moveFile_room {source : Path} {content : Content} (there : d.FileAt source content)
    (walk : d.locate path = .ok path.place) (free : d.nodeAt? path.place ≠ some .directory) :
    ∃ d', moveFile source path d = .ok d' := by
  unfold moveFile
  rw [there.1, ok_bind, walk, ok_bind, there.2]
  split
  next stands => exact absurd stands free
  next => exact ⟨_, rfl⟩
  next other _ => exact (other content rfl).elim

/-- A file in the directory at the end of a way is found. -/
theorem LeadsTo.locate {file : Path} {last : String} (leads : d.LeadsTo path path.parts.length) (fits : file.Fits)
    (anchor : file.anchor = path.anchor) (parts : file.parts = path.parts ++ [last]) :
    d.locate file = .ok file.place := by
  refine locate_of_leadsTo (n := path.parts.length) fits (fun m hm => ?_) (by rw [parts]; simp)
  rw [anchor, parts, List.take_append_of_le_length hm]
  exact leads m hm

/-- Once its directory stands, a file is written beside its place and moved there. -/
theorem replace_room {content : Content} (storable : path.Storable)
    (leads : d.LeadsTo path.parent path.parent.parts.length)
    (free : ∀ place, path.Written place → d.nodeAt? place ≠ some .directory) :
    ∃ d₁ d₂, writeFile path.temporary (writable content) d.fated = .ok d₁ ∧ d₁.fates = d.fates.drop 1 ∧
      moveFile path.temporary path d₁.fated = .ok d₂ ∧ Changed path.Written (fun _ => False) d d₂ ∧
      d₂.FileAt path (writable content) ∧ d₂.fates = d.fates.drop 2 := by
  have besideParts : path.temporary.parts = path.parent.parts ++ [path.name ++ ".tmp"] := rfl
  have walk : d.fated.locate path.temporary = .ok path.temporary.place :=
    (leads.stays fun _ => id).locate storable.beside rfl besideParts
  obtain ⟨d₁, written⟩ : ∃ d₁, writeFile path.temporary (writable content) d.fated = .ok d₁ :=
    writeFile_room walk (free _ (.inl rfl))
  obtain ⟨change₁, there⟩ := writeFile_ok written
  have fates₁ : d₁.fates = d.fates.drop 1 := by rw [fates_writeFile written, fated, List.drop_one]
  -- the file that stands beside has made no directory in the place of the other
  have free₁ : d₁.fated.nodeAt? path.place ≠ some .directory :=
    fun stands => (change₁.made _ stands).elim (free _ (.inr rfl)) id
  have walk₁ : d₁.fated.locate path = .ok path.place :=
    (leads.stays fun _ hq => change₁.directories _ hq).locate storable.own rfl (Path.parts_of_name storable.name)
  obtain ⟨d₂, moved⟩ := moveFile_room there.fated walk₁ free₁
  obtain ⟨change₂, stands⟩ := moveFile_ok moved there.fated
  refine ⟨d₁, d₂, written, fates₁, moved, ?_, stands, ?_⟩
  · have beside : Changed path.Written (fun _ => False) d d₁ := .trans .fated (change₁.mono (fun _ => .inl) fun _ => id)
    exact beside.trans (.trans .fated (change₂.mono (fun _ => id) fun _ => id))
  · rw [fates_moveFile moved, fated, fates₁, List.tail_drop]

end Disk

namespace Action

variable {σ : Type} {path : Path} {content : Content} {s : σ} {d d' : Disk}

theorem runOn_effect_granted {apply : Disk → Except Fault Disk} {n : ℕ} (granted : d.Grants (n + 1))
    (applied : apply d.fated = .ok d') (path : Path) (s : σ) :
    (effect path apply : Action σ Unit).runOn s d = (.ok (), s, d') := by
  rw [runOn_effect]
  cases fates : d.fates with
  | nil => simp only [List.head?_nil, applied]
  | cons fate rest =>
    have first : fate = .done := granted fate (by rw [fates]; exact List.mem_cons_self)
    simp only [List.head?_cons, first, applied]

/-- The directories on the way to a place are made one after the other, each in the one before. -/
theorem runOn_makeSteps_room (path : Path) (fits : Disk.checkPath path = .ok ())
    (steps : ∀ step ∈ Disk.ancestry path, step.Fits)
    (clear : ∀ place, path.Way place → ∀ content, d.nodeAt? place ≠ some (.file content)) (s : σ) :
    ∀ n ≤ path.parts.length, d.Grants n → ∃ d',
      (((List.range n).map fun m => (⟨path.anchor, path.parts.take (m + 1)⟩ : Path)).forM fun step =>
        effect step (Disk.makeStep path step) : Action σ Unit).runOn s d = (.ok (), s, d') ∧
      Disk.Changed (fun _ => False) path.Way d d' ∧ d'.LeadsTo path n ∧ d'.fates = d.fates.drop n := by
  intro n
  induction n with
  | zero => exact fun _ _ => ⟨d, rfl, .refl, d.leadsTo_zero path, rfl⟩
  | succ n ih =>
    intro le granted
    obtain ⟨d₁, run, change, leads, fates⟩ := ih (Nat.le_of_succ_le le) (granted.mono (Nat.le_succ n))
    have there : (⟨path.anchor, path.parts.take (n + 1)⟩ : Path) ∈ Disk.ancestry path :=
      List.mem_map.2 ⟨n, List.mem_range.2 le, rfl⟩
    have walk : d₁.fated.locate ⟨path.anchor, path.parts.take (n + 1)⟩
        = .ok (Path.place ⟨path.anchor, path.parts.take (n + 1)⟩) := by
      refine Disk.locate_of_leadsTo (n := n) (steps _ there) (fun m hm => ?_) (List.length_take_le _ _)
      have shorter : (path.parts.take (n + 1)).take m = path.parts.take m := by
        rw [List.take_take, Nat.min_eq_left (Nat.le_succ_of_le hm)]
      rw [Disk.nodeAt?_fated, shorter]
      exact leads m hm
    have noFile : ∀ content, d₁.fated.nodeAt? (Path.place ⟨path.anchor, path.parts.take (n + 1)⟩)
        ≠ some (.file content) :=
      fun content stands => clear _ ⟨_, there, rfl⟩ content ((change.file id).1 stands)
    obtain ⟨d₂, made, stands⟩ := Disk.makeStep_room fits walk noFile
    have change₂ : Disk.Changed (fun _ => False) path.Way d₁ d₂ :=
      .trans .fated ((Disk.makeStep_changed made).mono (fun _ => id) fun q hq => ⟨_, there, hq⟩)
    refine ⟨d₂, ?_, change.trans change₂, fun m hm => ?_, ?_⟩
    · rw [List.range_succ, List.map_append, List.forM_eq_forM, List.forM_append, ← List.forM_eq_forM,
        runOn_bind_ok run, List.map_singleton, List.forM_eq_forM, List.forM_cons,
        runOn_bind_ok (runOn_effect_granted (n := 0) (granted.after fates) made _ s)]
      rfl
    · rcases Nat.le_succ_iff.1 hm with earlier | rfl
      · exact leads.stays change₂.directories m earlier
      · exact stands
    · rw [Disk.fates_makeStep made, Disk.fated, fates, List.tail_drop]

/-- Where there is room for a file and the effects that it takes are granted, it is stored. -/
theorem runOn_store_room (storable : path.Storable) (room : d.Room path.Written path.parent.Way)
    (granted : d.Grants (path.parent.parts.length + 2)) (whole : Disk.checkContent content = .ok ())
    (task : StorageTask) (s : σ) :
    ∃ d', (store task path content : Action σ Unit).runOn s d = (.ok (), s, d') ∧
      Disk.Changed path.Written path.parent.Way d d' ∧ d'.FileAt path (Disk.writable content) ∧
      d'.fates = d.fates.drop (path.parent.parts.length + 2) := by
  obtain ⟨d₁, made, change₁, leads, fates₁⟩ := runOn_makeSteps_room path.parent storable.parent.1 storable.steps
    room.way s _ le_rfl (granted.mono (Nat.le_add_right _ 2))
  have free (place : Path) (hp : path.Written place) : d₁.nodeAt? place ≠ some .directory :=
    fun stands => (change₁.made place stands).elim (room.free place hp) (storable.apart place hp)
  have granted₁ : d₁.Grants 2 := granted.after fates₁
  obtain ⟨d₂, d₃, written, fates₂, moved, change₂, stands, fates₃⟩ := Disk.replace_room storable leads free
  have run : (replaceFile path content : Action σ Unit).runOn s d = (.ok (), s, d₃) := by
    rw [replaceFile, if_neg storable.name]
    beta_reduce
    rw [runOn_bind_ok (show (makeDirectory path.parent : Action σ Unit).runOn s d = _ from made),
      runOn_bind_ok (runOn_effect_granted granted₁ written _ s), whole, runOn_bind_ok (runOn_ofExcept _ _ _),
      runOn_effect_granted (n := 0) (granted₁.after fates₂) moved]
  refine ⟨d₃, ?_, ?_, stands, ?_⟩
  · rw [store, forTask, runOn_tryCatch, run]
  · exact (change₁.mono (fun _ => False.elim) fun _ => id).trans (change₂.mono (fun _ => id) fun _ => False.elim)
  · rw [fates₃, fates₁, List.drop_drop]

/-- If the power goes off before a file is stored, nothing is changed. -/
theorem runOn_store_cut (name : path.name ≠ "") (inside : path.parent.parts ≠ []) (cut : d.fates.head? = some .cut)
    (task : StorageTask) (content : Content) (s : σ) :
    (store task path content : Action σ Unit).runOn s d = (.error .powerLoss, s, d.fated) := by
  obtain ⟨part, parts, there⟩ := List.exists_cons_of_ne_nil inside
  have first (path step : Path) : (effect step (Disk.makeStep path step) : Action σ Unit).runOn s d
      = (.error .powerLoss, s, d.fated) := by
    rw [runOn_effect, cut]
  have made : (makeDirectory path.parent : Action σ Unit).runOn s d = (.error .powerLoss, s, d.fated) := by
    rw [makeDirectory, Disk.ancestry, there, List.length_cons, List.range_succ_eq_map, List.map_cons, List.forM_eq_forM,
      List.forM_cons, runOn_bind_error (first _ _)]
  rw [store, forTask, runOn_tryCatch, replaceFile, if_neg name]
  beta_reduce
  rw [runOn_bind_error made]
  rfl

end Action

end CodeSearch
