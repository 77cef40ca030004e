import CodeSearch.Disk.Basic
/-!
# What work on memory and disk does

`runOn` of each way to build work, as an equation: of a sequence (`runOn_bind`), of a fault that is caught
(`runOn_tryCatch`), of work on a part of the memory (`runOn_onPart`). An effect on the disk is done as the disk
allows, or not at all (`runOn_effect`).
-/

namespace CodeSearch

/-- The disk without the first of the fates to come. -/
def Disk.fated (d : Disk) : Disk := { d with fates := d.fates.tail }

/-! ## Answers in sequence -/

theorem ok_bind {α β : Type} (a : α) (next : α → Except Fault β) : (.ok a >>= next) = next a := rfl

/-- An answer that comes of another one has that one before it. -/
theorem exists_of_bind_ok {ε α β : Type} {answer : Except ε α} {next : α → Except ε β} {b : β}
    (h : answer >>= next = .ok b) : ∃ a, answer = .ok a ∧ next a = .ok b := by
  cases answer with
  | error fault => cases h
  | ok a => exact ⟨a, rfl, h⟩

theorem eq_ok_of_toBool {answer : Except Fault Unit} (h : answer.toBool = true) : answer = .ok () := by
  cases answer with
  | error fault => cases h
  | ok _ => rfl

theorem eq_ok_of_toOption {α : Type} {answer : Except Fault α} {a : α} (h : answer.toOption = some a) :
    answer = .ok a := by
  cases answer with
  | error fault => cases h
  | ok b => exact congrArg Except.ok (Option.some.inj h)

/-! ## Each of a list -/

theorem mapM_ok {α β : Type} {f : α → Except Fault β} {g : α → β} {items : List α} (h : ∀ a ∈ items, f a = .ok (g a)) :
    items.mapM f = .ok (items.map g) := by
  induction items with
  | nil => rfl
  | cons a items ih =>
    rw [List.mapM_cons, h a List.mem_cons_self, ih fun other ho => h other (List.mem_cons_of_mem _ ho)]
    rfl

/-- What was made of each item reads as the items. -/
theorem mapM_map_ok {α β : Type} {f : β → Except Fault α} {g : α → β} {items : List α}
    (h : ∀ a ∈ items, f (g a) = .ok a) : (items.map g).mapM f = .ok items := by
  have same := @mapM_ok α α (f ∘ g) id items h
  rw [List.mapM_map]
  rwa [List.map_id] at same

theorem forM_ok {α : Type} {f : α → Except Fault PUnit} {items : List α} (h : ∀ a ∈ items, f a = .ok ⟨⟩) :
    items.forM f = .ok ⟨⟩ := by
  induction items with
  | nil => rfl
  | cons a items ih =>
    rw [List.forM_eq_forM, List.forM_cons, h a List.mem_cons_self, ← List.forM_eq_forM]
    exact ih fun other ho => h other (List.mem_cons_of_mem _ ho)

theorem ok_of_mapM_ok {α β : Type} {f : α → Except Fault β} {items : List α} {out : List β}
    (done : items.mapM f = .ok out) : ∀ a ∈ items, ∃ b, f a = .ok b := by
  induction items generalizing out with
  | nil => exact List.forall_mem_nil _
  | cons a items ih =>
    rw [List.mapM_cons] at done
    obtain ⟨b, first, done⟩ := exists_of_bind_ok done
    obtain ⟨rest, others, _⟩ := exists_of_bind_ok done
    exact List.forall_mem_cons.2 ⟨⟨b, first⟩, ih others⟩

/-- What was made was made of an item. -/
theorem mem_of_mapM_ok {α β : Type} {f : α → Except Fault β} {items : List α} {out : List β}
    (done : items.mapM f = .ok out) : ∀ b ∈ out, ∃ a ∈ items, f a = .ok b := by
  induction items generalizing out with
  | nil =>
    injection done with done
    exact done ▸ List.forall_mem_nil _
  | cons a items ih =>
    rw [List.mapM_cons] at done
    obtain ⟨b, first, done⟩ := exists_of_bind_ok done
    obtain ⟨rest, others, done⟩ := exists_of_bind_ok done
    injection done with done
    subst done
    refine List.forall_mem_cons.2 ⟨⟨a, List.mem_cons_self, first⟩, fun b hb => ?_⟩
    obtain ⟨a, ha, made⟩ := ih others b hb
    exact ⟨a, List.mem_cons_of_mem _ ha, made⟩

theorem eq_map_of_mapM_ok {α β : Type} {f : α → Except Fault β} {g : α → β} {items : List α} {out : List β}
    (h : ∀ a ∈ items, ∀ b, f a = .ok b → b = g a) (done : items.mapM f = .ok out) : out = items.map g := by
  induction items generalizing out with
  | nil =>
    injection done with done
    exact done.symm
  | cons a items ih =>
    rw [List.mapM_cons] at done
    obtain ⟨b, first, done⟩ := exists_of_bind_ok done
    obtain ⟨rest, others, done⟩ := exists_of_bind_ok done
    injection done with done
    rw [← done, h a List.mem_cons_self b first, ih (fun other ho => h other (List.mem_cons_of_mem _ ho)) others,
      List.map_cons]

theorem filterM_ok {α : Type} {f : α → Except Fault Bool} {g : α → Bool} {items : List α}
    (h : ∀ a ∈ items, f a = .ok (g a)) : items.filterM f = .ok (items.filter g) := by
  have after : ∀ kept, items.filterAuxM f kept = .ok ((items.filter g).reverse ++ kept) := by
    induction items with
    | nil => exact fun kept => rfl
    | cons a items ih =>
      intro kept
      have rest := ih fun other ho => h other (List.mem_cons_of_mem _ ho)
      rw [List.filterAuxM, h a List.mem_cons_self, List.filter_cons]
      cases g a with
      | true => simpa [bind, Except.bind] using rest (a :: kept)
      | false => simpa [bind, Except.bind] using rest kept
  rw [List.filterM, after, List.append_nil]
  exact congrArg Except.ok (List.reverse_reverse _)

namespace Action

variable {σ τ α β : Type}

@[simp] theorem runOn_pure (a : α) (s : σ) (d : Disk) : (pure a : Action σ α).runOn s d = (.ok a, s, d) := rfl

@[simp] theorem runOn_throw (fault : Fault) (s : σ) (d : Disk) :
    (throw fault : Action σ α).runOn s d = (.error fault, s, d) := rfl

@[simp] theorem runOn_memory (s : σ) (d : Disk) : (memory : Action σ σ).runOn s d = (.ok s, s, d) := rfl

@[simp] theorem runOn_setMemory (t s : σ) (d : Disk) : (setMemory t : Action σ Unit).runOn s d = (.ok (), t, d) := rfl

@[simp] theorem runOn_modifyMemory (f : σ → σ) (s : σ) (d : Disk) :
    (modifyMemory f : Action σ Unit).runOn s d = (.ok (), f s, d) := rfl

@[simp] theorem runOn_disk (s : σ) (d : Disk) : (disk : Action σ Disk).runOn s d = (.ok d, s, d) := rfl

@[simp] theorem runOn_setDisk (d' : Disk) (s : σ) (d : Disk) :
    (setDisk d' : Action σ Unit).runOn s d = (.ok (), s, d') := rfl

@[simp] theorem runOn_ofExcept (answer : Except Fault α) (s : σ) (d : Disk) :
    (ofExcept answer : Action σ α).runOn s d = (answer, s, d) := by
  cases answer <;> rfl

/-- Work in sequence: the second part is done where the first has left off, unless that has failed. -/
theorem runOn_bind (work : Action σ α) (next : α → Action σ β) (s : σ) (d : Disk) :
    (work >>= next).runOn s d =
      match work.runOn s d with
      | (.ok a, s, d) => (next a).runOn s d
      | (.error fault, s, d) => (.error fault, s, d) := by
  simp only [runOn, ExceptT.run_bind, StateT.run_bind]
  generalize StateT.run (ExceptT.run work) (s, d) = left
  obtain ⟨fault | a, s, d⟩ := left <;> rfl

theorem runOn_bind_ok {work : Action σ α} {s s' : σ} {d d' : Disk} {a : α} (h : work.runOn s d = (.ok a, s', d'))
    (next : α → Action σ β) : (work >>= next).runOn s d = (next a).runOn s' d' := by
  rw [runOn_bind, h]

theorem runOn_bind_error {work : Action σ α} {s s' : σ} {d d' : Disk} {fault : Fault}
    (h : work.runOn s d = (.error fault, s', d')) (next : α → Action σ β) :
    (work >>= next).runOn s d = (.error fault, s', d') := by
  rw [runOn_bind, h]

/-- What is told after some work does not depend on its answer, as long as there is one. -/
theorem runOn_bind_pure (work : Action σ α) (b : β) (s : σ) (d : Disk) :
    (work >>= fun _ => pure b).runOn s d = ((work.runOn s d).1.map fun _ => b, (work.runOn s d).2) := by
  rw [runOn_bind]
  generalize work.runOn s d = left
  obtain ⟨fault | a, s, d⟩ := left <;> rfl

theorem runOn_tryCatch (work : Action σ α) (next : Fault → Action σ α) (s : σ) (d : Disk) :
    (tryCatch work next).runOn s d =
      match work.runOn s d with
      | (.ok a, s, d) => (.ok a, s, d)
      | (.error fault, s, d) => (next fault).runOn s d := by
  simp only [runOn, tryCatch, tryCatchThe, MonadExceptOf.tryCatch, ExceptT.tryCatch, ExceptT.run, ExceptT.mk]
  simp only [StateT.run_bind]
  change _ = match StateT.run work (s, d) with | (.ok a, s, d) => _ | (.error fault, s, d) => _
  generalize StateT.run work (s, d) = left
  obtain ⟨fault | a, s, d⟩ := left <;> rfl

theorem runOn_onPart (part : σ → τ) (replace : σ → τ → σ) (work : Action τ α) (s : σ) (d : Disk) :
    (onPart part replace work).runOn s d =
      ((work.runOn (part s) d).1, replace s (work.runOn (part s) d).2.1, (work.runOn (part s) d).2.2) := by
  change (ofExcept _ : Action σ α).runOn _ _ = _
  rw [runOn_ofExcept]
  rfl

/-- An effect is done, as far as the files allow, unless its fate is another one; then nothing is changed. -/
theorem runOn_effect (path : Path) (apply : Disk → Except Fault Disk) (s : σ) (d : Disk) :
    (effect path apply : Action σ Unit).runOn s d =
      match d.fates.head? with
      | none | some .done =>
        match apply d.fated with
        | .ok d => (.ok (), s, d)
        | .error fault => (.error fault, s, d.fated)
      | some .refused => (.error (.disk .refused path.text), s, d.fated)
      | some .cut => (.error .powerLoss, s, d.fated) := by
  obtain ⟨nodes, fates⟩ := d
  rw [effect, runOn_bind, runOn_disk]
  cases fates with
  | nil =>
    simp only [Disk.fated, List.head?_nil, List.tail_nil]
    rw [runOn_bind, runOn_ofExcept]
    cases apply ⟨nodes, []⟩ <;> rfl
  | cons fate fates =>
    simp only [Disk.fated, List.head?_cons, List.tail_cons]
    rw [runOn_bind, runOn_setDisk]
    cases fate with
    | done =>
      simp only []
      rw [runOn_bind, runOn_ofExcept]
      cases apply ⟨nodes, fates⟩ <;> rfl
    | refused => rfl
    | cut => rfl

end Action

end CodeSearch
