import CodeSearch.Chunk.Unchecked
import CodeSearch.Proofs.Disk.Effects
import CodeSearch.Proofs.Json.Whole
/-!
# By what faults work ends

Work that is put together from parts ends by the faults of its parts. `FailsBy` says so of answers. `Ends` says it of
work on the memory and the disk, together with what the work keeps of the memory, and has a lemma for each way to build
work. To store or discard a file is the work in which faults change: those of the disk become those of a task, or are
passed over.
-/

namespace CodeSearch

/-- If there is a fault in the place of the answer, it is of a kind. -/
def FailsBy {α : Type} (bad : Fault → Prop) (answer : Except Fault α) : Prop :=
  ∀ fault, answer = .error fault → bad fault

namespace FailsBy

variable {α β : Type} {bad : Fault → Prop}

theorem ok (a : α) : FailsBy bad (.ok a) := nofun

theorem error {fault : Fault} (h : bad fault) : FailsBy bad (.error fault : Except Fault α) := by
  rintro _ ⟨⟩
  exact h

theorem of_ok {answer : Except Fault α} (h : ∃ a, answer = .ok a) : FailsBy bad answer := by
  obtain ⟨a, rfl⟩ := h
  exact ok a

/-- What no fault ends has an answer. -/
theorem exists_ok {answer : Except Fault α} (h : FailsBy (fun _ => False) answer) : ∃ a, answer = .ok a := by
  cases answer with
  | error fault => exact (h fault rfl).elim
  | ok a => exact ⟨a, rfl⟩

theorem bind {answer : Except Fault α} {next : α → Except Fault β} (first : FailsBy bad answer)
    (rest : ∀ a, answer = .ok a → FailsBy bad (next a)) : FailsBy bad (answer >>= next) := by
  cases answer with
  | error fault => exact error (first fault rfl)
  | ok a => exact rest a rfl

theorem map {answer : Except Fault α} (h : FailsBy bad answer) (f : α → β) : FailsBy bad (answer.map f) := by
  cases answer with
  | error fault => exact error (h fault rfl)
  | ok a => exact ok _

theorem ite {condition : Prop} [Decidable condition] {answer other : Except Fault α} (then' : FailsBy bad answer)
    (else' : FailsBy bad other) : FailsBy bad (if condition then answer else other) := by
  split
  · exact then'
  · exact else'

theorem forM {items : List α} {check : α → Except Fault PUnit} (each : ∀ a ∈ items, FailsBy bad (check a)) :
    FailsBy bad (items.forM check) := by
  induction items with
  | nil => exact ok _
  | cons a items ih =>
    rw [List.forM_eq_forM, List.forM_cons, ← List.forM_eq_forM]
    exact (each a List.mem_cons_self).bind fun _ _ => ih fun other ho => each other (List.mem_cons_of_mem _ ho)

theorem mapM {items : List α} {make : α → Except Fault β} (each : ∀ a ∈ items, FailsBy bad (make a)) :
    FailsBy bad (items.mapM make) := by
  induction items with
  | nil => exact ok _
  | cons a items ih =>
    rw [List.mapM_cons]
    refine (each a List.mem_cons_self).bind fun _ _ => ?_
    exact (ih fun other ho => each other (List.mem_cons_of_mem _ ho)).bind fun _ _ => ok _

end FailsBy

theorem Json.failsBy_elements {bad : Fault → Prop} (wrong : bad .wrongType) (value : Json) :
    FailsBy bad value.elements := by
  cases value <;> first | exact .ok _ | exact .error wrong

theorem Chunk.failsBy_checkBeside {bad : Fault → Prop} {check : Json → Except Fault Unit}
    (h : ∀ value, FailsBy bad (check value)) (c : Chunk) (name : String) : FailsBy bad (c.checkBeside name check) := by
  rw [checkBeside]
  cases c.unchecked.get? name with
  | none => exact .ok _
  | some value => exact h value

/-- The power stays on, unless its loss is a fault to be reckoned with. -/
def Disk.Spared (bad : Fault → Prop) (d : Disk) : Prop := .cut ∈ d.fates → bad .powerLoss

theorem Disk.Spared.mono {bad : Fault → Prop} {d d' : Disk} (h : d.Spared bad) (fates : d'.fates <:+ d.fates) :
    d'.Spared bad := fun cut => h (fates.subset cut)

theorem Disk.spared_of_uncut {bad : Fault → Prop} {d : Disk} (uncut : .cut ∉ d.fates) : d.Spared bad :=
  fun cut => absurd cut uncut

namespace Action

variable {σ τ α β : Type}

/-- A condition on the memory holds after the work, to its end or not, if it held before, and a fault that ends the work
is of a kind. -/
def Ends (p : σ → Prop) (bad : Fault → Prop) (work : Action σ α) : Prop :=
  ∀ s d, p s → d.Spared bad →
    p (work.runOn s d).2.1 ∧ (work.runOn s d).2.2.Spared bad ∧ FailsBy bad (work.runOn s d).1

section Ends
variable {p : σ → Prop} {bad : Fault → Prop}

theorem Ends.mono {bad' : Fault → Prop} {work : Action σ α} (ends : Ends p bad work)
    (imp : ∀ fault, bad fault → bad' fault) (power : bad' .powerLoss → bad .powerLoss) : Ends p bad' work := by
  intro s d h spared
  obtain ⟨kept, spared', fails⟩ := ends s d h fun cut => power (spared cut)
  exact ⟨kept, fun cut => imp _ (spared' cut), fun fault failed => imp fault (fails fault failed)⟩

theorem ends_pure (a : α) : Ends p bad (pure a : Action σ α) := fun _ _ h spared => ⟨h, spared, .ok a⟩

theorem ends_throw {fault : Fault} (h : bad fault) : Ends p bad (throw fault : Action σ α) :=
  fun _ _ hs spared => ⟨hs, spared, .error h⟩

theorem ends_ofExcept {answer : Except Fault α} (h : FailsBy bad answer) : Ends p bad (ofExcept answer) := by
  intro s d hs spared
  rw [runOn_ofExcept]
  exact ⟨hs, spared, h⟩

theorem ends_setMemory {t : σ} (h : p t) : Ends p bad (setMemory t) := fun _ _ _ spared => ⟨h, spared, .ok _⟩

theorem ends_modifyMemory {f : σ → σ} (h : ∀ s, p s → p (f s)) : Ends p bad (modifyMemory f) :=
  fun s _ hs spared => ⟨h s hs, spared, .ok _⟩

theorem Ends.bind {work : Action σ α} {next : α → Action σ β} (first : Ends p bad work)
    (rest : ∀ a, Ends p bad (next a)) : Ends p bad (work >>= next) := by
  intro s d h spared
  have after := first s d h spared
  rw [runOn_bind]
  generalize work.runOn s d = left at after
  obtain ⟨fault | a, s', d'⟩ := left
  · exact ⟨after.1, after.2.1, .error (after.2.2 fault rfl)⟩
  · exact rest a s' d' after.1 after.2.1

/-- What is done with the memory may use what is known of it. -/
theorem ends_memory {next : σ → Action σ β} (rest : ∀ s, p s → Ends p bad (next s)) :
    Ends p bad (memory >>= next) := by
  intro s d h spared
  rw [runOn_bind_ok (runOn_memory s d)]
  exact rest s h s d h spared

/-- What is done with an answer may use that it was one. -/
theorem ends_answer {answer : Except Fault α} {next : α → Action σ β} (fails : FailsBy bad answer)
    (rest : ∀ a, answer = .ok a → Ends p bad (next a)) : Ends p bad (ofExcept answer >>= next) := by
  cases answer with
  | error fault =>
    intro s d h spared
    rw [runOn_bind_error (runOn_ofExcept _ s d)]
    exact ⟨h, spared, .error (fails fault rfl)⟩
  | ok a =>
    intro s d h spared
    rw [runOn_bind_ok (runOn_ofExcept _ s d)]
    exact rest a rfl s d h spared

/-- Faults that are caught may be of another kind, as long as the loss of power is in both or in none. -/
theorem Ends.tryCatch {caught : Fault → Prop} (power : caught .powerLoss ↔ bad .powerLoss) {work : Action σ α}
    {next : Fault → Action σ α} (first : Ends p caught work) (rest : ∀ fault, caught fault → Ends p bad (next fault)) :
    Ends p bad (tryCatch work next) := by
  intro s d h spared
  have after := first s d h fun cut => power.2 (spared cut)
  rw [runOn_tryCatch]
  generalize work.runOn s d = left at after
  obtain ⟨fault | a, s', d'⟩ := left
  · exact rest fault (after.2.2 fault rfl) s' d' after.1 fun cut => power.1 (after.2.1 cut)
  · exact ⟨after.1, fun cut => power.1 (after.2.1 cut), .ok a⟩

theorem Ends.forM {items : List β} {work : β → Action σ PUnit} (each : ∀ b ∈ items, Ends p bad (work b)) :
    Ends p bad (items.forM work) := by
  induction items with
  | nil => exact ends_pure _
  | cons b items ih =>
    exact (each b List.mem_cons_self).bind fun _ => ih fun other ho => each other (List.mem_cons_of_mem _ ho)

/-- Work on a part of the memory. -/
theorem Ends.onPart {q : τ → Prop} {part : σ → τ} {replace : σ → τ → σ} {work : Action τ α}
    (ends : Ends q bad work) (before : ∀ s, p s → q (part s)) (after : ∀ s t, p s → q t → p (replace s t)) :
    Ends p bad (onPart part replace work) := by
  intro s d h spared
  rw [runOn_onPart]
  obtain ⟨kept, spared', fails⟩ := ends (part s) d (before s h) spared
  exact ⟨after s _ h kept, spared', fails⟩

/-! ## Files -/

/-- An effect changes the disk, or fails by a fault of its own or of the disk. -/
theorem ends_effect {path : Path} {apply : Disk → Except Fault Disk} (disk : ∀ fault : Fault, fault.IsDisk → bad fault)
    (own : ∀ d, FailsBy bad (apply d)) (fates : ∀ d d', apply d = .ok d' → d'.fates <:+ d.fates) :
    Ends p bad (effect path apply : Action σ Unit) := by
  intro s d h spared
  have fated : d.fated.Spared bad := spared.mono (List.tail_suffix _)
  rcases runOn_effect_cases path apply s d with ⟨d', done, applied⟩ | ⟨fault, failed, why⟩
  · rw [done]
    exact ⟨h, fated.mono (fates _ _ applied), .ok _⟩
  · rw [failed]
    refine ⟨h, fated, .error ?_⟩
    rcases why with refused | system | ⟨rfl, cut⟩
    · exact own _ fault refused
    · exact disk fault system
    · exact spared cut

end Ends

end Action

/-- What keeps the disk from taking a path is a fault of the disk or of a kind. -/
def Path.Passes (bad : Fault → Prop) (path : Path) : Prop :=
  FailsBy (fun fault => fault.IsDisk ∨ bad fault) (Disk.checkPath path)

theorem Path.passes_of_sound {bad : Fault → Prop} {path : Path} (sound : path.Sound) : path.Passes bad :=
  fun _ refused => .inl (Disk.checkPath_fault sound refused)

/-- What keeps a file from standing at a path is a fault of the disk or of a kind. -/
structure Path.Takes (bad : Fault → Prop) (path : Path) : Prop where
  name : path.name = "" → bad (.badValue .other)
  way : ∀ step ∈ Disk.ancestry path.parent, step.Passes bad
  parent : path.parent.Passes bad
  own : path.Passes bad
  beside : path.temporary.Passes bad

theorem Path.IsFile.takes {bad : Fault → Prop} {path : Path} (file : path.IsFile) : path.Takes bad where
  name none := absurd none file.1
  way _ hs := passes_of_sound (Disk.sound_step hs (Disk.sound_parent file.2.1))
  parent := passes_of_sound (Disk.sound_parent file.2.1)
  own := passes_of_sound file.2.1
  beside := passes_of_sound file.2.2

/-- A value with a form can be the content of a file. -/
theorem Disk.checkContent_render {value : Json} (form : value.HasForm) :
    checkContent (.text (Json.render {} value)) = .ok () := if_pos (Json.isWhole_render form.kept form.whole)

namespace Action

section Files
variable {σ : Type} {p : σ → Prop} {bad : Fault → Prop} {path : Path} {content : Content}

theorem ends_replaceFile (takes : path.Takes bad) (fits : FailsBy bad (Disk.checkContent content)) :
    Ends p (fun fault => fault.IsDisk ∨ bad fault) (replaceFile path content : Action σ Unit) := by
  have disk : ∀ fault : Fault, fault.IsDisk → fault.IsDisk ∨ bad fault := fun _ => .inl
  have steps : Ends p (fun fault => fault.IsDisk ∨ bad fault) (makeDirectory path.parent : Action σ Unit) := by
    refine Ends.forM fun step hs => ends_effect disk (fun d fault failed => ?_) fun d d' made => ?_
    · rcases Disk.makeStep_fault failed with system | refused | refused
      · exact .inl system
      · exact takes.parent fault refused
      · exact takes.way step hs fault refused
    · exact (Disk.makeStep_changed made).1
  have write : Ends p (fun fault => fault.IsDisk ∨ bad fault)
      (effect path.temporary (Disk.writeFile path.temporary (Disk.writable content)) : Action σ Unit) := by
    refine ends_effect disk (fun d fault failed => ?_) fun d d' written => (Disk.writeFile_ok written).1.1
    exact (Disk.writeFile_fault failed).elim .inl (takes.beside fault)
  have move : Ends p (fun fault => fault.IsDisk ∨ bad fault)
      (effect path (Disk.moveFile path.temporary path) : Action σ Unit) := by
    refine ends_effect disk (fun d fault failed => ?_) fun d d' moved => Disk.fates_moveFile moved ▸ List.suffix_refl _
    rcases Disk.moveFile_fault failed with system | refused | refused
    · exact .inl system
    · exact takes.beside fault refused
    · exact takes.own fault refused
  have written : Ends p (fun fault => fault.IsDisk ∨ bad fault) (do
      makeDirectory path.parent
      effect path.temporary (Disk.writeFile path.temporary (Disk.writable content))
      ofExcept (Disk.checkContent content)
      effect path (Disk.moveFile path.temporary path) : Action σ Unit) :=
    steps.bind fun _ => write.bind fun _ =>
      (ends_ofExcept fun fault failed => .inr (fits fault failed)).bind fun _ => move
  unfold replaceFile
  -- a path without a name is refused before anything is written
  split
  next none => exact (ends_throw (.inr (takes.name none))).bind fun _ => written
  next => exact written

theorem powerLoss_iff : (Fault.powerLoss.IsDisk ∨ bad .powerLoss) ↔ bad .powerLoss :=
  or_iff_right fun ⟨_, _, same⟩ => by cases same

/-- A file is stored, or a fault of the task keeps it from being so, or one of a kind. -/
theorem ends_store {task : StorageTask} (storage : ∀ text cause, bad (.storage task text cause))
    (takes : path.Takes bad) (fits : FailsBy bad (Disk.checkContent content)) :
    Ends p bad (store task path content : Action σ Unit) := by
  refine Ends.tryCatch powerLoss_iff (ends_replaceFile takes fits) fun fault why => ?_
  split
  next => exact ends_throw (storage _ _)
  -- what is not told as a fault of the task is no fault of the disk, so it is of the kind
  next other => exact ends_throw (why.resolve_left fun ⟨_, _, same⟩ => other _ _ same)

/-- A file is discarded, or a fault of a kind keeps it from being looked at. -/
theorem ends_discard (passes : path.Passes bad) : Ends p bad (discard path : Action σ Unit) := by
  have removal : Ends p (fun fault => fault.IsDisk ∨ bad fault)
      (effect path (Disk.removeFile path) : Action σ Unit) :=
    ends_effect (fun _ => .inl) (fun _ fault failed => (Disk.removeFile_fault failed).elim .inl (passes fault))
      fun _ _ removed => (Disk.removeFile_ok removed).1
  refine Ends.tryCatch powerLoss_iff removal fun fault why => ?_
  split
  next => exact ends_pure _
  next other => exact ends_throw (why.resolve_left fun ⟨_, _, same⟩ => other _ _ same)

end Files

end Action

end CodeSearch
