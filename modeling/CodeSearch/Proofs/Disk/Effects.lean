import CodeSearch.Proofs.Disk.Place
import CodeSearch.Proofs.Json.RoundTrip
/-!
# What effects leave of a disk

A file that is stored is there as a whole or not at all: if the work is done, the content stands at the path
(`runOn_store`), and if not, whatever stood there still does. A file that is discarded is gone at most. A stored
value is read again (`readStored_render`).
-/

namespace CodeSearch

/-- A content that is kept as texts are. -/
def Content.IsKept : Content → Prop
  | .text s => Text.IsKept s.toList
  | .binary _ => True

/-! ## Faults of the disk -/

/-- A fault of the disk itself. -/
def Fault.IsDisk (fault : Fault) : Prop := ∃ reason path, fault = .disk reason path

/-- If there is a fault it is one of the storage. -/
def OnlyStorage {β : Type} (answer : Except Fault β) : Prop := ∀ fault, answer = .error fault → fault.isStorage = true

theorem OnlyStorage.ok {β : Type} (b : β) : OnlyStorage (.ok b) := fun _ failed => by cases failed

/-- A path under which the system can keep a file, and what is written beside it. -/
def Path.IsFile (path : Path) : Prop := path.name ≠ "" ∧ path.Sound ∧ path.temporary.Sound

namespace Disk

variable {d d' : Disk} {path source target : Path} {content : Content} {fault : Fault}

theorem checkPath_fault (sound : path.Sound) (h : checkPath path = .error fault) : fault.IsDisk := by
  rw [checkPath, if_neg (by simp [sound.1]), if_neg (by simp [sound.2])] at h
  split at h
  · injection h with h
    exact ⟨_, _, h.symm⟩
  · cases h

theorem locate_fault (h : d.locate path = .error fault) : fault.IsDisk ∨ checkPath path = .error fault := by
  rcases d.locate_cases path with ⟨other, bad, eq⟩ | ⟨_, ⟨place, _, eq⟩ | ⟨reason, _, eq⟩⟩
  · rw [eq] at h
    injection h with h
    exact .inr (h ▸ bad)
  · rw [eq] at h
    cases h
  · rw [eq] at h
    injection h with h
    exact .inl ⟨_, _, h.symm⟩

/-- The first parts of a path that the system can keep make such a path. -/
theorem sound_of_sublist {parts : List String} (h : parts.Sublist path.parts) (sound : path.Sound) :
    Path.Sound ⟨path.anchor, parts⟩ := by
  obtain ⟨bytes, nul⟩ := sound
  refine ⟨List.all_eq_true.2 fun part hp => ?_, List.any_eq_false.2 fun part hp => ?_⟩
  · exact List.all_eq_true.1 bytes part (h.subset hp)
  · exact List.any_eq_false.1 nul part (h.subset hp)

theorem sound_parent (sound : path.Sound) : path.parent.Sound := sound_of_sublist (List.dropLast_sublist _) sound

theorem sound_step {step : Path} (h : step ∈ ancestry path) (sound : path.Sound) : step.Sound := by
  obtain ⟨n, _, rfl⟩ := List.mem_map.1 h
  exact sound_of_sublist (List.take_sublist _ _) sound

theorem makeStep_fault {step : Path} (h : makeStep path step d = .error fault) :
    fault.IsDisk ∨ checkPath path = .error fault ∨ checkPath step = .error fault := by
  unfold makeStep at h
  cases check : checkPath path with
  | error other =>
    rw [check] at h
    injection h with h
    exact .inr (.inl (congrArg Except.error h))
  | ok _ =>
    rw [check] at h
    cases walk : d.locate step with
    | error other =>
      rw [walk] at h
      injection h with h
      exact (locate_fault (h ▸ walk)).imp_right .inr
    | ok place =>
      rw [walk] at h
      simp only [bind, Except.bind] at h
      split at h
      · cases h
      · injection h with h
        exact .inl ⟨_, _, h.symm⟩
      · cases h

theorem writeFile_fault (h : writeFile path content d = .error fault) : fault.IsDisk ∨ checkPath path = .error fault := by
  unfold writeFile at h
  cases walk : d.locate path with
  | error other =>
    rw [walk] at h
    injection h with h
    exact locate_fault (h ▸ walk)
  | ok place =>
    rw [walk] at h
    simp only [bind, Except.bind] at h
    split at h
    · injection h with h
      exact .inl ⟨_, _, h.symm⟩
    · cases h

theorem moveFile_fault (h : moveFile source target d = .error fault) :
    fault.IsDisk ∨ checkPath source = .error fault ∨ checkPath target = .error fault := by
  unfold moveFile at h
  cases walk : d.locate source with
  | error other =>
    rw [walk] at h
    injection h with h
    exact (locate_fault (h ▸ walk)).imp_right .inl
  | ok old =>
    rw [walk] at h
    simp only [bind, Except.bind] at h
    cases walk' : d.locate target with
    | error other =>
      rw [walk'] at h
      injection h with h
      exact (locate_fault (h ▸ walk')).imp_right .inr
    | ok new =>
      rw [walk'] at h
      simp only [] at h
      split at h
      · injection h with h
        exact .inl ⟨_, _, h.symm⟩
      · cases h
      · injection h with h
        exact .inl ⟨_, _, h.symm⟩

theorem removeFile_fault (h : removeFile path d = .error fault) : fault.IsDisk ∨ checkPath path = .error fault := by
  unfold removeFile at h
  split at h
  next => cases h
  next walk =>
    injection h with h
    exact locate_fault (h ▸ walk)
  next =>
    split at h
    · injection h with h
      exact .inl ⟨_, _, h.symm⟩
    · cases h
    · cases h

/-! ## One effect -/

/-- Where a path is followed first, it has led to its place. -/
theorem locate_bind_ok {β : Type} {next : Path → Except Fault β} {b : β} (h : d.locate path >>= next = .ok b) :
    d.locate path = .ok path.place ∧ next path.place = .ok b := by
  obtain ⟨place, walk, rest⟩ := exists_of_bind_ok h
  obtain rfl := locate_eq walk
  exact ⟨walk, rest⟩

theorem makeStep_changed {step : Path} (h : makeStep path step d = .ok d') :
    Changed (fun _ => False) (fun q => step.place = q) d d' := by
  unfold makeStep at h
  obtain ⟨_, _, h⟩ := exists_of_bind_ok h
  obtain ⟨_, h⟩ := locate_bind_ok h
  split at h
  next =>
    injection h with h
    exact h ▸ .refl
  next => cases h
  next nothing =>
    injection h with h
    subst h
    have root : step.place.parts.isEmpty = false := parts_of_nodeAt? (d := d) (by simp [nothing])
    refine ⟨List.suffix_refl _, fun q hq => ?_, fun q hq => ?_, fun q _ => ?_⟩
    · rw [nodeAt?_putAt_of_ne]
      · exact hq
      · rintro rfl
        rw [nothing] at hq
        cases hq
    · by_cases same : q = step.place
      · exact .inr same.symm
      · rw [nodeAt?_putAt_of_ne same] at hq
        exact .inl hq
    · by_cases same : q = step.place
      · subst same
        exact .inr ⟨rfl, nothing, nodeAt?_putAt_self root _⟩
      · exact .inl (nodeAt?_putAt_of_ne same _)

theorem putAt_changed {q : Path} (content : Content) (h : d.nodeAt? q ≠ some .directory) :
    Changed (fun p => p = q) (fun _ => False) d (d.putAt q (.file content)) := by
  refine ⟨List.suffix_refl _, fun p hp => ?_, fun p hp => ?_, fun p hp => .inl (nodeAt?_putAt_of_ne hp _)⟩
  · rw [nodeAt?_putAt_of_ne]
    · exact hp
    · rintro rfl
      exact h hp
  · by_cases same : p = q
    · rw [same, nodeAt?_putAt_self (parts_of_nodeAt? h)] at hp
      cases hp
    · rw [nodeAt?_putAt_of_ne same] at hp
      exact .inl hp

theorem eraseAt_changed {q : Path} (h : d.nodeAt? q ≠ some .directory) :
    Changed (fun p => p = q) (fun _ => False) d (d.eraseAt q) := by
  refine ⟨List.suffix_refl _, fun p hp => ?_, fun p hp => ?_, fun p hp => .inl (nodeAt?_eraseAt_of_ne hp)⟩
  · rw [nodeAt?_eraseAt_of_ne]
    · exact hp
    · rintro rfl
      exact h hp
  · by_cases same : p = q
    · rw [same, nodeAt?_eraseAt_self (parts_of_nodeAt? h)] at hp
      cases hp
    · rw [nodeAt?_eraseAt_of_ne same] at hp
      exact .inl hp

/-- What is written to a file is there. -/
theorem writeFile_ok (h : writeFile path content d = .ok d') :
    Changed (fun q => q = path.place) (fun _ => False) d d' ∧ d'.FileAt path content := by
  unfold writeFile at h
  obtain ⟨walk, h⟩ := locate_bind_ok h
  split at h
  next => cases h
  next noDirectory =>
    injection h with h
    subst h
    have free : d.nodeAt? path.place ≠ some .directory := fun e => noDirectory e
    have change := putAt_changed content free
    exact ⟨change, locate_of_directories change.directories walk,
      nodeAt?_putAt_self (parts_of_nodeAt? free) _⟩

/-- A file that is moved stands at its new path. -/
theorem moveFile_ok (h : moveFile source target d = .ok d') (there : d.FileAt source content) :
    Changed (fun q => q = source.place ∨ q = target.place) (fun _ => False) d d' ∧ d'.FileAt target content := by
  unfold moveFile at h
  rw [there.1, ok_bind] at h
  obtain ⟨walk, h⟩ := locate_bind_ok h
  rw [there.2] at h
  split at h
  next => cases h
  next moved file noDirectory =>
    injection file with file
    injection file with file
    injection h with h
    subst h file
    have free : d.nodeAt? target.place ≠ some .directory := fun e => noDirectory e
    have gone := eraseAt_changed (d := d) (q := source.place) (by simp [there.2])
    have free' : (d.eraseAt source.place).nodeAt? target.place ≠ some .directory := by
      by_cases same : target.place = source.place
      · rw [same, nodeAt?_eraseAt_self (parts_of_nodeAt? (d := d) (by simp [there.2]))]
        simp
      · rw [nodeAt?_eraseAt_of_ne same]
        exact free
    have put := putAt_changed content free'
    have change : Changed (fun q => q = source.place ∨ q = target.place) (fun _ => False) d _ :=
      (gone.mono (fun _ => Or.inl) fun _ => id).trans (put.mono (fun _ => Or.inr) fun _ => id)
    exact ⟨change, locate_of_directories change.directories walk,
      nodeAt?_putAt_self (parts_of_nodeAt? free') _⟩
  next => cases h

theorem fates_moveFile (h : moveFile source target d = .ok d') : d'.fates = d.fates := by
  unfold moveFile at h
  obtain ⟨old, _, h⟩ := exists_of_bind_ok h
  obtain ⟨new, _, h⟩ := exists_of_bind_ok h
  split at h
  · cases h
  · injection h with h
    rw [← h]
    rfl
  · cases h

theorem removeFile_ok (h : removeFile path d = .ok d') :
    Changed (fun q => q = path.place) (fun _ => False) d d' := by
  unfold removeFile at h
  split at h
  next =>
    injection h with h
    exact h ▸ .refl
  next => cases h
  next place walk =>
    have same := locate_eq walk
    subst same
    split at h
    next => cases h
    next file =>
      injection h with h
      exact h ▸ eraseAt_changed (by simp [file])
    next =>
      injection h with h
      exact h ▸ .refl

end Disk

namespace Action

variable {σ : Type} {path : Path} {content : Content}

/-! ## Effects with their fates -/

/-- An effect is done, or nothing is changed. -/
theorem runOn_effect_cases (path : Path) (apply : Disk → Except Fault Disk) (s : σ) (d : Disk) :
    (∃ d', (effect path apply : Action σ Unit).runOn s d = (.ok (), s, d') ∧ apply d.fated = .ok d') ∨
    ∃ fault, (effect path apply : Action σ Unit).runOn s d = (.error fault, s, d.fated) ∧
      (apply d.fated = .error fault ∨ fault.IsDisk ∨ fault = .powerLoss ∧ .cut ∈ d.fates) := by
  rw [runOn_effect]
  cases first : d.fates.head? with
  | none =>
    cases outcome : apply d.fated with
    | ok d' => exact .inl ⟨d', rfl, rfl⟩
    | error fault => exact .inr ⟨fault, rfl, .inl rfl⟩
  | some fate =>
    cases fate with
    | done =>
      cases outcome : apply d.fated with
      | ok d' => exact .inl ⟨d', rfl, rfl⟩
      | error fault => exact .inr ⟨fault, rfl, .inl rfl⟩
    | refused => exact .inr ⟨_, rfl, .inr (.inl ⟨_, _, rfl⟩)⟩
    | cut => exact .inr ⟨_, rfl, .inr (.inr ⟨rfl, List.mem_of_mem_head? first⟩)⟩

theorem runOn_makeSteps (path : Path) (steps : List Path) (s : σ) (d : Disk) :
    ∃ answer d', ((steps.forM fun step => effect step (Disk.makeStep path step)) : Action σ Unit).runOn s d
        = (answer, s, d') ∧
      Disk.Changed (fun _ => False) (fun q => ∃ step ∈ steps, step.place = q) d d' ∧
      ∀ fault, answer = .error fault → path.Sound → (∀ step ∈ steps, step.Sound) → .cut ∉ d.fates → fault.IsDisk := by
  induction steps generalizing d with
  | nil => exact ⟨.ok (), d, rfl, .refl, by simp⟩
  | cons step steps ih =>
    rw [List.forM_eq_forM, List.forM_cons]
    rcases runOn_effect_cases step (Disk.makeStep path step) s d with ⟨d', done, made⟩ | ⟨fault, failed, why⟩
    · obtain ⟨answer, d'', rest, change, faults⟩ := ih d'
      have first : Disk.Changed (fun _ => False) (fun q => ∃ other ∈ step :: steps, other.place = q) d d' :=
        .trans .fated ((Disk.makeStep_changed made).mono (fun _ => id) fun q hq => ⟨step, List.mem_cons_self, hq⟩)
      refine ⟨answer, d'', ?_, first.trans (change.mono (fun _ => id) ?_), ?_⟩
      · rw [runOn_bind_ok done]
        exact rest
      · rintro q ⟨other, mem, eq⟩
        exact ⟨other, List.mem_cons_of_mem _ mem, eq⟩
      · intro fault failed sound sounds uncut
        exact faults fault failed sound (fun other ho => sounds other (List.mem_cons_of_mem _ ho))
          (first.no_cut uncut)
    · refine ⟨.error fault, d.fated, runOn_bind_error failed _, .fated, ?_⟩
      rintro other ⟨⟩ sound sounds uncut
      rcases why with refused | disk | ⟨_, cut⟩
      · rcases Disk.makeStep_fault refused with disk | bad | bad
        · exact disk
        · exact Disk.checkPath_fault sound bad
        · exact Disk.checkPath_fault (sounds step List.mem_cons_self) bad
      · exact disk
      · exact absurd cut uncut

theorem runOn_makeDirectory (path : Path) (s : σ) (d : Disk) :
    ∃ answer d', (makeDirectory path : Action σ Unit).runOn s d = (answer, s, d') ∧
      Disk.Changed (fun _ => False) path.Way d d' ∧
      ∀ fault, answer = .error fault → path.Sound → .cut ∉ d.fates → fault.IsDisk := by
  obtain ⟨answer, d', run, change, faults⟩ := runOn_makeSteps path (Disk.ancestry path) s d
  exact ⟨answer, d', run, change, fun fault failed sound uncut =>
    faults fault failed sound (fun step hs => Disk.sound_step hs sound) uncut⟩

/-! ## Storing a file -/

theorem writable_of_checked (kept : content.IsKept) (h : Disk.checkContent content = .ok ()) :
    Disk.writable content = content := by
  cases content with
  | binary value => rfl
  | text text =>
    rw [Disk.checkContent] at h
    split at h
    next whole => rw [Disk.writable, Json.writtenPart_of_whole kept whole]
    next => cases h

/-- New content is at its path as a whole, or the file that stood there still does. -/
theorem runOn_replaceFile (path : Path) (kept : content.IsKept) (s : σ) (d : Disk) :
    (∃ d', (replaceFile path content : Action σ Unit).runOn s d = (.ok (), s, d') ∧
      Disk.Changed path.Written path.parent.Way d d' ∧ d'.FileAt path content) ∨
    ∃ fault d', (replaceFile path content : Action σ Unit).runOn s d = (.error fault, s, d') ∧
      Disk.Changed (fun q => q = path.temporary.place) path.parent.Way d d' ∧
      (path.name ≠ "" → path.Sound → path.temporary.Sound → .cut ∉ d.fates →
        Disk.checkContent content = .ok () → fault.IsDisk) := by
  unfold replaceFile
  by_cases noName : path.name = ""
  · rw [if_pos noName]
    exact .inr ⟨_, d, rfl, .refl, fun name => absurd noName name⟩
  rw [if_neg noName]
  beta_reduce
  -- up to the move only directories and the file beside the path have changed
  obtain ⟨answer, d₁, made, change₁, faults₁⟩ := runOn_makeDirectory path.parent s d
  have change₁ : Disk.Changed (fun q => q = path.temporary.place) path.parent.Way d d₁ :=
    change₁.mono (fun _ => False.elim) fun _ => id
  cases answer with
  | error fault =>
    exact .inr ⟨fault, d₁, runOn_bind_error made _, change₁, fun _ sound _ uncut _ =>
      faults₁ fault rfl (Disk.sound_parent sound) uncut⟩
  | ok _ =>
    rw [runOn_bind_ok made]
    rcases runOn_effect_cases path.temporary (Disk.writeFile path.temporary (Disk.writable content)) s d₁ with
      ⟨d₂, written, wrote⟩ | ⟨fault, failed, why⟩
    · obtain ⟨change, there⟩ := Disk.writeFile_ok wrote
      have change₂ : Disk.Changed (fun q => q = path.temporary.place) path.parent.Way d d₂ :=
        change₁.trans (.trans .fated (change.mono (fun _ => id) fun _ => False.elim))
      rw [runOn_bind_ok written]
      cases check : Disk.checkContent content with
      | error fault =>
        refine .inr ⟨fault, d₂, runOn_bind_error (runOn_ofExcept _ _ _) _, change₂, ?_⟩
        rintro _ _ _ _ ⟨⟩
      | ok _ =>
        rw [runOn_bind_ok (runOn_ofExcept _ _ _)]
        rw [writable_of_checked kept check] at there
        rcases runOn_effect_cases path (Disk.moveFile path.temporary path) s d₂ with
          ⟨d₃, done, moved⟩ | ⟨fault, failed, why⟩
        · obtain ⟨move, stands⟩ := Disk.moveFile_ok moved there.fated
          refine .inl ⟨d₃, done, ?_, stands⟩
          exact (change₂.mono (fun _ => Or.inl) fun _ => id).trans
            (.trans .fated (move.mono (fun _ => id) fun _ => False.elim))
        · refine .inr ⟨fault, d₂.fated, failed, change₂.trans .fated, fun _ sound sound' uncut _ => ?_⟩
          rcases why with refused | disk | ⟨_, cut⟩
          · rcases Disk.moveFile_fault refused with disk | bad | bad
            · exact disk
            · exact Disk.checkPath_fault sound' bad
            · exact Disk.checkPath_fault sound bad
          · exact disk
          · exact absurd cut (change₂.no_cut uncut)
    · refine .inr ⟨fault, d₁.fated, runOn_bind_error failed _, change₁.trans .fated, fun _ _ sound' uncut _ => ?_⟩
      rcases why with refused | disk | ⟨_, cut⟩
      · exact (Disk.writeFile_fault refused).elim id (Disk.checkPath_fault sound')
      · exact disk
      · exact absurd cut (change₁.no_cut uncut)

/-- As `runOn_replaceFile`, where faults of the disk are those of a task. -/
theorem runOn_store (task : StorageTask) (path : Path) (kept : content.IsKept) (s : σ) (d : Disk) :
    (∃ d', (store task path content : Action σ Unit).runOn s d = (.ok (), s, d') ∧
      Disk.Changed path.Written path.parent.Way d d' ∧ d'.FileAt path content) ∨
    ∃ fault d', (store task path content : Action σ Unit).runOn s d = (.error fault, s, d') ∧
      Disk.Changed (fun q => q = path.temporary.place) path.parent.Way d d' ∧
      (path.name ≠ "" → path.Sound → path.temporary.Sound → .cut ∉ d.fates →
        Disk.checkContent content = .ok () → fault.isStorage = true) := by
  rw [store, forTask, runOn_tryCatch]
  rcases runOn_replaceFile path kept s d with ⟨d', done, rest⟩ | ⟨fault, d', failed, change, faults⟩
  · rw [done]
    exact .inl ⟨d', rfl, rest⟩
  · rw [failed]
    cases fault
    case disk reason other => exact .inr ⟨_, d', rfl, change, fun _ _ _ _ _ => rfl⟩
    all_goals
      refine .inr ⟨_, d', rfl, change, fun name sound sound' uncut whole => ?_⟩
      obtain ⟨_, _, disk⟩ := faults name sound sound' uncut whole
      cases disk

/-! ## Discarding a file -/

theorem runOn_passOver (fault : Fault) (s : σ) (d : Disk) :
    fault.IsDisk ∨ (match fault with | .disk _ _ => pure () | other => throw other : Action σ Unit).runOn s d
      = (.error fault, s, d) := by
  cases fault
  case disk reason other => exact .inl ⟨_, _, rfl⟩
  all_goals exact .inr rfl

/-- A file that is discarded is gone at most, and if all effects are done it is gone. -/
theorem runOn_discard (path : Path) (content : Content) (s : σ) (d : Disk) :
    ∃ answer d', (discard path : Action σ Unit).runOn s d = (answer, s, d') ∧
      Disk.Changed (fun q => q = path.place) (fun _ => False) d d' ∧
      (path.Sound → .cut ∉ d.fates → answer = .ok ()) ∧
      (d.fates = [] → d.FileAt path content → answer = .ok () ∧ d'.nodeAt? path.place = none) := by
  rw [discard, runOn_tryCatch]
  rcases runOn_effect_cases path (Disk.removeFile path) s d with ⟨d', done, removed⟩ | ⟨fault, failed, why⟩
  · rw [done]
    refine ⟨.ok (), d', rfl, .trans .fated (Disk.removeFile_ok removed), fun _ _ => rfl, fun _ there => ?_⟩
    rw [Disk.removeFile, there.fated.1] at removed
    simp only [there.fated.2] at removed
    injection removed with removed
    rw [← removed]
    exact ⟨rfl, Disk.nodeAt?_eraseAt_self (Disk.parts_of_nodeAt? (d := d) (by simp [there.2]))⟩
  · rw [failed]
    rcases runOn_passOver fault s d.fated with ⟨reason, other, rfl⟩ | thrown
    · refine ⟨.ok (), d.fated, rfl, .fated, fun _ _ => rfl, fun used there => ?_⟩
      rw [runOn_effect, used, List.head?_nil] at failed
      simp only [Disk.removeFile, there.fated.1, there.fated.2] at failed
      cases failed
    · refine ⟨.error fault, d.fated, thrown, .fated, fun sound uncut => ?_, fun used there => ?_⟩
      · exfalso
        have disk : fault.IsDisk := by
          rcases why with refused | disk | ⟨_, cut⟩
          · exact (Disk.removeFile_fault refused).elim id (Disk.checkPath_fault sound)
          · exact disk
          · exact absurd cut uncut
        obtain ⟨reason, other, rfl⟩ := disk
        cases thrown
      · rw [runOn_effect, used, List.head?_nil] at failed
        simp only [Disk.removeFile, there.fated.1, there.fated.2] at failed
        cases failed

end Action

/-! ## Stored values -/

theorem isKept_render {value : Json} (h : value.IsData) : (Content.text (Json.render {} value)).IsKept :=
  (Json.isPlain_render h).1

namespace Disk

theorem lineFeeds_of_plain {text : List Char} (h : '\r' ∉ text) : lineFeeds text = text := by
  induction text with
  | nil => rfl
  | cons c text ih =>
    rw [List.mem_cons, not_or] at h
    rw [lineFeeds.eq_def]
    split
    next eq => cases eq
    next eq =>
      injection eq with eq
      exact absurd eq.symm h.1
    next eq =>
      injection eq with eq
      exact absurd eq.symm h.1
    next eq =>
      injection eq with first rest
      rw [← first, ← rest, ih h.2]

/-- A value that a file holds as it is written is read again. -/
theorem readStored_render {d : Disk} {path : Path} {value : Json} (task : StorageTask) (data : value.IsData)
    (deep : value.depth ≤ Json.nestingLimit) (h : d.FileAt path (.text (Json.render {} value))) :
    d.readStored task path = .ok value := by
  have text : d.readText path = .ok (Json.render {} value) := by
    rw [readText, h.read]
    simp only [bind, Except.bind]
    rw [lineFeeds_of_plain (Json.isPlain_render data).2, String.ofList_toList]
  rw [readStored, readJson, text]
  simp only [bind, Except.bind]
  rw [Json.parse_render data deep]
  rfl

end Disk

end CodeSearch
