import CodeSearch.Proofs.Lexical.Operations
/-!
# What becomes of an index and its directory

`Operation.outcome`: whatever becomes of an operation, the index and its directory are kept. If the two were in step,
the directory has the entries from before or those from after the operation, and if the operation is done the two are
in step again.
-/

namespace CodeSearch.Lexical

/-- The operation is a deletion by a query that does not parse. -/
def Operation.isRefused : Operation → Bool
  | .deleteByQuery text =>
    match Query.parse text with
    | .ok _ => false
    | .error _ => true
  | _ => false

end CodeSearch.Lexical

namespace CodeSearch.LexicalIndex

open Lexical CodeSearch.Action

variable {α : Type}

/-- The directory has the entries of the index. -/
structure InStep (ix : LexicalIndex α) (disk own : Log) : Prop where
  logs : own = disk
  pending : ix.pending = []
  entries : ix.entries = disk.entries
  current : ix.IsCurrent

/-- An index that is kept, of chunks that were read from data. -/
structure IsSound (dir : Path) (most : Int) (ix : LexicalIndex α) (d : Disk) (disk own : Log) (next count : Nat) :
    Prop where
  kept : ix.IsKept dir d disk own next count
  read : AllRead ix.entries
  limit : ix.maxSegments = .ok most

/-- What an operation on an index leaves, with the answer that it gives. -/
structure Outcome (dir : Path) (most : Int) (op : Operation) (ix : LexicalIndex α) (d : Disk) (disk own : Log)
    (count : Nat) (answer : Except Fault Unit) (ix' : LexicalIndex α) (d' : Disk) (disk' own' : Log)
    (next' count' : Nat) : Prop where
  sound : ix'.IsSound dir most d' disk' own' next' count'
  changed : Disk.Changed (IndexPlace dir) dir.Way d d'
  atomic : ix.InStep disk own → (∀ c ∈ op.chunks, c.InOrder) →
    disk'.entries = ix.entries ∨ disk'.entries = op.result ix.entries
  done : ix.InStep disk own → (∀ c ∈ op.chunks, c.InOrder) → answer = .ok () ∨ op.isRefused = true →
    ix'.InStep disk' own' ∧ ix'.entries = op.result ix.entries
  few : answer = .ok () → count' ≠ count → (own'.length : Int) ≤ max 1 most
  exactly : answer = .ok () ∨ op.isRefused = true → d.fates = [] → Exactly dir d own → Exactly dir d' own'

section Outcome
variable {dir : Path} {most : Int} {op : Operation} {ix ix₁ : LexicalIndex α} {d : Disk} {disk own : Log}
variable {next count : Nat}

theorem IsCurrent.refreshed (h : ix.IsCurrent) : ix.refreshed.IsCurrent := by
  obtain ⟨le, same⟩ := h
  by_cases e : ix.snapshot.generation = ix.generation
  · have view : ix.view = ix.snapshot := if_pos e
    exact ⟨by rw [LexicalIndex.refreshed, view]; exact le, fun _ => by rw [LexicalIndex.refreshed, view]; exact same e⟩
  · have view : ix.view = ⟨ix.generation, ix.entries.values⟩ := if_neg e
    exact ⟨by rw [LexicalIndex.refreshed, view], fun _ => by rw [LexicalIndex.refreshed, view]⟩

theorem IsCurrent.view (h : ix.IsCurrent) : ix.view.entries = ix.entries.values := by
  rw [LexicalIndex.view]
  split
  next e => exact h.2 e
  next => rfl

/-- Counting the generation on makes an index current, whatever its entries are. -/
theorem IsCurrent.moved (h : ix.IsCurrent) {ix' : LexicalIndex α} (snapshot : ix'.snapshot = ix.snapshot)
    (generation : ix'.generation = ix.generation + 1) : ix'.IsCurrent := by
  have older : ix'.snapshot.generation < ix'.generation := by
    rw [snapshot, generation]
    exact Nat.lt_succ_of_le h.1
  exact ⟨Nat.le_of_lt older, fun same => absurd same (Nat.ne_of_lt older)⟩

theorem IsCurrent.advanced (h : ix.IsCurrent) (entries : Keyed String Entry) (changes : List Change) :
    (ix.changed entries changes).advanced.IsCurrent := h.moved rfl rfl

/-- The index with other entries and more changes pending is kept as it was. -/
theorem IsSound.changed (h : ix.IsSound dir most d disk own next count) {entries : Keyed String Entry}
    {changes : List Change} (read : AllRead entries) (storable : ∀ change ∈ changes, change.IsStorable) :
    (ix.changed entries changes).IsSound dir most d disk own next count :=
  ⟨{ h.kept with pending := List.forall_mem_append.2 ⟨h.kept.pending, storable⟩ }, read, h.limit⟩

theorem IsSound.advanced (h : ix.IsSound dir most d disk own next count) :
    ix.advanced.IsSound dir most d disk own next count := ⟨{ h.kept with }, h.read, h.limit⟩

/-- An index that has been opened is in step with its directory. -/
theorem IsOpened.inStep {log : Log} (h : ix.IsOpened dir log next) : ix.InStep log log :=
  ⟨rfl, h.pending, h.entries, h.current⟩

theorem IsOpened.sound {log : Log} (h : ix.IsOpened dir log next) (kept : ix.IsKept dir d log log next next)
    (limit : ix.maxSegments = .ok most) : ix.IsSound dir most d log log next next :=
  ⟨kept, h.entries ▸ Log.allRead kept.diskKept.storable, limit⟩

/-- A directory without a manifest. -/
theorem opened_fresh (fits : DirectoryFits dir) (nothing : d.nodeAt? (dir.child manifestName).place = none)
    {k1 b : Parameter α} {unfit : Unfit} (opened : openAt (some dir) k1 b (.ok most) unfit d = .ok ix) :
    ix.IsSound dir most d [] [] 1 1 ∧ ix.InStep [] [] := by
  have one : Record.HasDigits 1 := Record.hasDigits_of_lt (k := 1) (by decide) (by decide) (by decide)
  have listed : Listed dir d [] 1 := .inl ⟨nothing, rfl, rfl⟩
  obtain ⟨other, same, isOpened, limit⟩ := openAt_of_listed fits.manifest listed one (List.forall_mem_nil _)
    (List.forall_mem_nil _) k1 b (.ok most) unfit
  rw [opened] at same
  injection same with same
  subst same
  exact ⟨isOpened.sound (isOpened.isKept listed Log.IsKept.nil one) limit, isOpened.inStep⟩

/-- A directory that is kept is opened again, in step with what it holds. -/
theorem IsSound.reopened (h : ix.IsSound dir most d disk own next count) (fits : DirectoryFits dir)
    (k1 b : Parameter α) (most' : Int) (unfit : Unfit) :
    ∃ ix', openAt (some dir) k1 b (.ok most') unfit d = .ok ix' ∧ ix'.IsSound dir most' d disk disk next next ∧
      ix'.InStep disk disk := by
  obtain ⟨ix', opened, isOpened, limit, kept⟩ := h.kept.openAt fits k1 b (.ok most') unfit
  exact ⟨ix', opened, isOpened.sound kept limit, isOpened.inStep⟩

/-- So is every index that it is opened as. -/
theorem IsSound.of_opened (h : ix.IsSound dir most d disk own next count) (fits : DirectoryFits dir)
    {k1 b : Parameter α} {most' : Int} {unfit : Unfit} {ix' : LexicalIndex α}
    (opened : openAt (some dir) k1 b (.ok most') unfit d = .ok ix') :
    ix'.IsSound dir most' d disk disk next next ∧ ix'.InStep disk disk := by
  obtain ⟨ix₁, opened₁, sound, inStep⟩ := h.reopened fits k1 b most' unfit
  rw [opened] at opened₁
  obtain rfl := Except.ok.inj opened₁
  exact ⟨sound, inStep⟩

theorem IsSound.refreshed (h : ix.IsSound dir most d disk own next count) :
    ix.refreshed.IsSound dir most d disk own next count := ⟨{ h.kept with }, h.read, h.limit⟩

/-- An operation that has failed before it came to the disk. -/
theorem outcome_failed {fault : Fault} (h : ix₁.IsSound dir most d disk own next count)
    (unrefused : op.isRefused = false) :
    Outcome dir most op ix d disk own count (.error fault) ix₁ d disk own next count where
  sound := h
  changed := .refl
  atomic inStep _ := .inl inStep.entries.symm
  done _ _ := by simp [unrefused]
  few := nofun
  exactly := by simp [unrefused]

/-- An operation that has nothing to do. -/
theorem outcome_idle {answer : Except Fault Unit} (h : ix₁.IsSound dir most d disk own next count)
    (current : ix.IsCurrent → ix₁.IsCurrent) (pending : ix₁.pending = ix.pending) (entries : ix₁.entries = ix.entries)
    (same : ix.InStep disk own → op.result ix.entries = ix.entries) :
    Outcome dir most op ix d disk own count answer ix₁ d disk own next count where
  sound := h
  changed := .refl
  atomic inStep _ := .inl inStep.entries.symm
  done inStep _ _ := by
    refine ⟨⟨inStep.logs, pending.trans inStep.pending, entries.trans inStep.entries, current inStep.current⟩, ?_⟩
    rw [entries, same inStep]
  few _ differ := absurd rfl differ
  exactly _ _ := id

theorem Stage.disk_eq {pending all pending' : List Change} {disk' own' : Log}
    (stage : Stage disk own count pending all pending' disk' own')
    (anew : replay all .empty = replay pending own.entries) :
    disk' = disk ∨ disk'.entries = replay pending own.entries := by
  cases stage with
  | idle => exact .inl rfl
  | written => exact .inl rfl
  | listed => exact .inr (Log.entries_append _ _ _)
  | compacted => exact .inr (Log.entries_append _ _ _)
  | replaced => exact .inr anew

theorem Stage.entries_of_done {pending all : List Change} {disk' own' : Log}
    (stage : Stage disk own count pending all [] disk' own') (some : pending ≠ [])
    (anew : replay all .empty = replay pending own.entries) : disk'.entries = replay pending own.entries := by
  cases stage with
  | idle => exact absurd rfl some
  | written => exact absurd rfl some
  | listed => exact Log.entries_append _ _ _
  | compacted => exact Log.entries_append _ _ _
  | replaced => exact anew

/-- A commit of changes that make of the entries on the disk those of the operation. -/
theorem outcome_commit (fits : DirectoryFits dir) (h : ix₁.IsSound dir most d disk own next count)
    (unrefused : op.isRefused = false)
    (agree : ix.InStep disk own → (∀ c ∈ op.chunks, c.InOrder) →
      ix₁.IsCurrent ∧ ix₁.entries = replay ix₁.pending own.entries ∧ ix₁.entries = op.result ix.entries) :
    ∃ answer ix' d' disk' own' next' count', commit.runOn ix₁ d = (answer, ix', d') ∧
      Outcome dir most op ix d disk own count answer ix' d' disk' own' next' count' := by
  obtain ⟨answer, d', disk', own', next', count', pending', run, change, kept, stage, done⟩ :=
    runOn_commit fits h.kept h.limit h.read.wellRead
  -- a compaction writes the entries that the segments and the pending changes make
  have anew : ix.InStep disk own → (∀ c ∈ op.chunks, c.InOrder) →
      replay ix₁.asChanges .empty = replay ix₁.pending own.entries := by
    intro inStep order
    obtain ⟨_, entries, _⟩ := agree inStep order
    rw [← entries]
    exact replay_asChanges h.read (entries ▸ own.allInOrder.replay _)
  refine ⟨answer, _, d', disk', own', next', count', run, ⟨kept, h.read, h.limit⟩, change, ?_, ?_, ?_, ?_⟩
  · intro inStep order
    obtain ⟨_, entries, result⟩ := agree inStep order
    rcases Stage.disk_eq stage (anew inStep order) with rfl | after
    · exact .inl inStep.entries.symm
    · exact .inr (after.trans (entries.symm.trans result))
  · intro inStep order answered
    rw [unrefused] at answered
    obtain ⟨current, entries, result⟩ := agree inStep order
    obtain ⟨none, ends⟩ := done (answered.resolve_right (by simp))
    subst none
    have after : own' = disk' ∧ ix₁.entries = disk'.entries := by
      rcases ends with ⟨nothing, _, rfl, rfl, _⟩ | ⟨some, rfl, _⟩
      · refine ⟨inStep.logs, ?_⟩
        rw [entries, nothing, ← inStep.logs]
        rfl
      · exact ⟨rfl, entries.trans (Stage.entries_of_done stage some (anew inStep order)).symm⟩
    exact ⟨⟨after.1, rfl, after.2, IsCurrent.refreshed current⟩, result⟩
  · intro answered differ
    rcases (done answered).2 with ⟨_, _, _, _, same⟩ | ⟨_, _, few, _⟩
    · exact absurd same differ
    · exact few
  · intro answered used exact
    rw [unrefused] at answered
    rcases (done (answered.resolve_right (by simp))).2 with ⟨_, rfl, _, rfl, _⟩ | ⟨_, _, _, exactly⟩
    · exact exact
    · exact exactly used exact

/-! ## The operations one by one -/

/-- Entries are added, and a commit follows if all are. -/
theorem runOn_insertPrepared (entries : List Entry) (ix : LexicalIndex α) (d : Disk) :
    (do let _ ← insertPrepared entries : Action (LexicalIndex α) Unit).runOn ix d
      = match addAll entries ix with
        | (.ok _, ix) => commit.runOn ix.advanced d
        | (.error fault, ix) => (.error fault, ix, d) := by
  rw [insertPrepared, runOn_bind, runOn_bind_ok (runOn_memory _ _)]
  cases addAll entries ix with
  | mk answer ix₁ =>
    simp only []
    rw [runOn_bind_ok (runOn_setMemory _ _ _)]
    cases answer with
    | error fault => rw [runOn_bind_error (runOn_ofExcept _ _ _)]
    | ok _ =>
      rw [runOn_bind_ok (runOn_ofExcept _ _ _), runOn_bind_ok (runOn_modifyMemory _ _ _), runOn_bind]
      change _ = commit.runOn ix₁.advanced d
      generalize commit.runOn ix₁.advanced d = left
      obtain ⟨fault | _, _, _⟩ := left <;> rfl

theorem runOn_insertBatch {chunks : List Chunk} (read : ∀ c ∈ chunks, c.WellRead) (ix : LexicalIndex α) (d : Disk) :
    (Operation.insertBatch chunks).run.runOn ix d
      = match addAll (chunks.map Entry.ofChunk) ix with
        | (.ok _, ix) => commit.runOn ix.advanced d
        | (.error fault, ix) => (.error fault, ix, d) := by
  rw [← runOn_insertPrepared, Operation.run, insertBatch, prepareAll_of_wellRead read]
  rfl

theorem outcome_insertBatch (fits : DirectoryFits dir) (h : ix.IsSound dir most d disk own next count)
    {chunks : List Chunk} (read : ∀ c ∈ chunks, c.WellRead) :
    ∃ answer ix' d' disk' own' next' count', (Operation.insertBatch chunks).run.runOn ix d = (answer, ix', d') ∧
      Outcome dir most (.insertBatch chunks) ix d disk own count answer ix' d' disk' own' next' count' := by
  obtain ⟨answer, added, written, eq, mem, mem', _, all⟩ := addAll_eq (fun c hc => (read c hc).checked) ix
  have storable : ∀ change ∈ written.map Change.add, change.IsStorable := by
    intro change hc
    obtain ⟨c, hw, rfl⟩ := List.mem_map.1 hc
    exact ⟨read c (mem' c hw).1, (mem' c hw).2⟩
  have sound := h.changed (h.read.putAll fun c hc => read c (mem c hc)) storable
  rw [runOn_insertBatch read, eq]
  cases answer with
  | error fault => exact ⟨.error fault, _, d, disk, own, next, count, rfl, outcome_failed sound rfl⟩
  | ok _ =>
    obtain ⟨rfl, rfl⟩ := all rfl
    refine outcome_commit fits sound.advanced rfl fun inStep order => ⟨inStep.current.advanced _ _, ?_, rfl⟩
    have pending : (ix.changed (ix.entries.putAll (written.map fun c => (c.id, Entry.ofChunk c)))
        (written.map Change.add)).advanced.pending = written.map Change.add := by
      change ix.pending ++ _ = _
      rw [inStep.pending, List.nil_append]
    rw [pending, replay_adds (show ∀ c ∈ written, c.InOrder from order), inStep.logs, ← inStep.entries]
    rfl

theorem runOn_deleteSelected (q : Query) (ix : LexicalIndex α) (d : Disk) :
    (deleteSelected q : Action (LexicalIndex α) Nat).runOn ix d
      = let doomed := (ix.refreshed.view.entries.filter fun e => q.selects e.tokens).map fun e => e.chunk.id
        if q.isEmpty then (.ok 0, ix, d)
        else if doomed.isEmpty then (.ok 0, ix.refreshed, d)
        else (do commit; return doomed.length : Action (LexicalIndex α) Nat).runOn
          (doomed.foldl deleted ix.refreshed).advanced d := by
  rw [deleteSelected]
  cases empty : q.isEmpty with
  | true => rfl
  | false =>
    simp only [Bool.false_eq_true, if_false]
    rw [runOn_bind_ok (runOn_modifyMemory _ _ _), runOn_bind_ok (runOn_memory _ _)]
    generalize (ix.refreshed.view.entries.filter fun e => q.selects e.tokens).map (fun e => e.chunk.id) = doomed
    cases doomed <;> rfl

/-- A deletion, without the number that it tells. -/
theorem runOn_delete (q : Query) (ix : LexicalIndex α) (d : Disk) :
    (do let _ ← deleteSelected q : Action (LexicalIndex α) Unit).runOn ix d
      = let doomed := (ix.refreshed.view.entries.filter fun e => q.selects e.tokens).map fun e => e.chunk.id
        if q.isEmpty then (.ok (), ix, d)
        else if doomed.isEmpty then (.ok (), ix.refreshed, d)
        else commit.runOn (doomed.foldl deleted ix.refreshed).advanced d := by
  rw [runOn_bind_pure, runOn_deleteSelected]
  simp only []
  split
  · rfl
  · split
    · rfl
    · rw [runOn_bind_pure]
      generalize commit.runOn _ d = left
      obtain ⟨fault | _, _, _⟩ := left <;> rfl

theorem filter_none {entries : Keyed String Entry} {p : Entry → Bool}
    (none : ((entries.values.filter p).map fun e => e.chunk.id).isEmpty = true) :
    entries.filter (fun item => !p item.2) = entries := by
  apply Keyed.ext_items
  refine List.filter_eq_self.2 fun item hi => ?_
  rw [List.isEmpty_iff, List.map_eq_nil_iff, List.filter_eq_nil_iff] at none
  have := none item.2 (List.mem_map_of_mem hi)
  simpa using this

theorem runOn_deletion_refused {text : String} {e : Query.SyntaxError} (parsed : Query.parse text = .error e)
    (ix : LexicalIndex α) (d : Disk) :
    (Operation.deleteByQuery text).run.runOn ix d = (.error (.badQuery e), ix, d) := by
  rw [Operation.run, deleteByQuery, parsed]
  rfl

theorem runOn_deletion {text : String} {q : Query} (parsed : Query.parse text = .ok q) (ix : LexicalIndex α)
    (d : Disk) :
    (Operation.deleteByQuery text).run.runOn ix d
      = (do let _ ← deleteSelected q : Action (LexicalIndex α) Unit).runOn ix d := by
  rw [Operation.run, deleteByQuery, parsed]
  rfl

theorem runOn_closing (ix : LexicalIndex α) (d : Disk) :
    (Operation.close).run.runOn ix d = if ix.pending.isEmpty then (.ok (), ix, d) else commit.runOn ix d := by
  rw [Operation.run, close, runOn_bind_ok (runOn_memory _ _)]
  cases ix.pending.isEmpty <;> rfl

theorem outcome_deleteByQuery (fits : DirectoryFits dir) (h : ix.IsSound dir most d disk own next count)
    (text : String) :
    ∃ answer ix' d' disk' own' next' count', (Operation.deleteByQuery text).run.runOn ix d = (answer, ix', d') ∧
      Outcome dir most (.deleteByQuery text) ix d disk own count answer ix' d' disk' own' next' count' := by
  cases parsed : Query.parse text with
  | error e =>
    have result : (Operation.deleteByQuery text).result ix.entries = ix.entries := by simp [Operation.result, parsed]
    exact ⟨.error (.badQuery e), ix, d, disk, own, next, count, runOn_deletion_refused parsed ix d,
      outcome_idle h id rfl rfl fun _ => result⟩
  | ok q =>
    have unrefused : (Operation.deleteByQuery text).isRefused = false := by simp [Operation.isRefused, parsed]
    rw [runOn_deletion parsed, runOn_delete]
    simp only []
    have view : ix.IsCurrent → ix.refreshed.view.entries = ix.entries.values := fun current =>
      current.refreshed.view
    cases empty : q.isEmpty with
    | true =>
      have result : (Operation.deleteByQuery text).result ix.entries = ix.entries := by
        simp [Operation.result, parsed, empty]
      exact ⟨.ok (), ix, d, disk, own, next, count, rfl, outcome_idle h id rfl rfl fun _ => result⟩
    | false =>
      have result : (Operation.deleteByQuery text).result ix.entries
          = ix.entries.filter fun item => !q.selects item.2.tokens := by
        simp [Operation.result, parsed, empty]
      simp only [Bool.false_eq_true, if_false]
      -- where no entry is selected nothing is written
      cases none : ((ix.refreshed.view.entries.filter fun e => q.selects e.tokens).map fun e => e.chunk.id).isEmpty with
      | true =>
        refine ⟨.ok (), ix.refreshed, d, disk, own, next, count, rfl,
          outcome_idle h.refreshed IsCurrent.refreshed rfl rfl fun inStep => ?_⟩
        rw [view inStep.current] at none
        rw [result, filter_none (p := fun e => q.selects e.tokens) none]
      | false =>
        obtain ⟨changes, eq, storable, erased⟩ := foldl_deleted_of_allRead
          ((ix.refreshed.view.entries.filter fun e => q.selects e.tokens).map fun e => e.chunk.id) ix.refreshed h.read
        simp only [Bool.false_eq_true, if_false]
        rw [eq]
        refine outcome_commit fits (h.refreshed.changed (h.read.replay storable) storable).advanced unrefused
          fun inStep _ => ⟨inStep.current.refreshed.advanced _ _, ?_, ?_⟩
        · have pending : (ix.refreshed.changed (replay changes ix.refreshed.entries) changes).advanced.pending
              = changes := by
            change ix.pending ++ _ = _
            rw [inStep.pending, List.nil_append]
          rw [pending, inStep.logs, ← inStep.entries]
          rfl
        · rw [result, ← foldl_erase h.read.filed fun e => q.selects e.tokens, ← view inStep.current]
          exact erased

/-- The index that `clear` works on. -/
def cleared (ix : LexicalIndex α) : LexicalIndex α :=
  { ix with entries := .empty, pending := [], segments := [], generation := ix.generation + 1 }

theorem runOn_clear (directory : ix.directory = some dir) (d : Disk) :
    (clear : Action (LexicalIndex α) Unit).runOn ix d
      = (do writeManifest dir; discardSegments dir ix.segments : Action (LexicalIndex α) Unit).runOn ix.cleared d := by
  rw [clear, runOn_bind_ok (runOn_memory _ _), runOn_bind_ok (runOn_setMemory _ _ _)]
  simp only [directory]
  rw [runOn_bind_ok (runOn_modifyMemory _ _ _)]
  simp only [cleared, directory]

theorem outcome_clear (fits : DirectoryFits dir) (h : ix.IsSound dir most d disk own next count) :
    ∃ answer ix' d' disk' own' next' count', (Operation.clear).run.runOn ix d = (answer, ix', d') ∧
      Outcome dir most .clear ix d disk own count answer ix' d' disk' own' next' count' := by
  have kept : ix.cleared.IsKept dir d disk [] next count :=
    { h.kept with segments := rfl, pending := List.forall_mem_nil _, ownKept := Log.IsKept.nil }
  have current : ix.InStep disk own → ix.cleared.IsCurrent := fun inStep =>
    inStep.current.advanced .empty []
  rw [Operation.run, runOn_clear h.kept.directory, h.kept.segments]
  rcases runOn_writeManifest fits kept with ⟨d₁, written, change₁, kept₁⟩ | ⟨fault, d₁, failed, change₁, kept₁⟩
  · have change₁' : Disk.Changed (IndexPlace dir) dir.Way d d₁ :=
      change₁.mono (fun _ => indexPlace_manifest) fun _ => id
    obtain ⟨answer, d₂, discarded, change₂, gone⟩ := runOn_discardSegments dir own ix.cleared d₁
    have kept₂ : ix.cleared.IsKept dir d₂ [] [] count count :=
      kept₁.discarded (List.forall_mem_nil _) change₂
    refine ⟨answer, ix.cleared, d₂, [], [], count, count, by rw [runOn_bind_ok written, discarded],
      ⟨kept₂, AllRead.empty, h.limit⟩, change₁'.trans (change₂.mono (fun q ⟨m, _, same⟩ => ⟨_, .segment m, same⟩)
        fun _ => False.elim), fun _ _ => .inr rfl, ?_, fun _ differ => absurd rfl differ, ?_⟩
    · exact fun inStep _ _ => ⟨⟨rfl, rfl, rfl, current inStep⟩, rfl⟩
    · intro _ used exact
      have old : own.IsKept dir d₁ count := h.kept.ownKept.changed change₁ fun n _ => segment_not_written_manifest n
      refine exactly_discarded ?_ change₂ (gone (change₁'.no_fates used) old.stands old.once).2
        (List.forall_mem_nil _)
      rw [List.append_nil]
      exact exactly_manifest exact change₁
  · refine ⟨.error fault, ix.cleared, d₁, disk, [], next, count, runOn_bind_error failed _,
      ⟨kept₁, AllRead.empty, h.limit⟩, change₁.mono (fun _ => indexPlace_manifest) fun _ => id,
      fun inStep _ => .inl inStep.entries.symm, ?_, nofun, ?_⟩
    · rintro _ _ (answered | answered) <;> cases answered
    · rintro (answered | answered) <;> cases answered

theorem outcome_commitAlone (fits : DirectoryFits dir) (h : ix.IsSound dir most d disk own next count) :
    ∃ answer ix' d' disk' own' next' count', (Operation.commit).run.runOn ix d = (answer, ix', d') ∧
      Outcome dir most .commit ix d disk own count answer ix' d' disk' own' next' count' := by
  refine outcome_commit fits h rfl fun inStep _ => ⟨inStep.current, ?_, rfl⟩
  rw [inStep.pending, inStep.logs, ← inStep.entries]
  rfl

theorem outcome_close (fits : DirectoryFits dir) (h : ix.IsSound dir most d disk own next count) :
    ∃ answer ix' d' disk' own' next' count', (Operation.close).run.runOn ix d = (answer, ix', d') ∧
      Outcome dir most .close ix d disk own count answer ix' d' disk' own' next' count' := by
  rw [runOn_closing]
  split
  · exact ⟨.ok (), ix, d, disk, own, next, count, rfl, outcome_idle h id rfl rfl fun _ => rfl⟩
  · refine outcome_commit fits h rfl fun inStep _ => ⟨inStep.current, ?_, rfl⟩
    rw [inStep.pending, inStep.logs, ← inStep.entries]
    rfl

end Outcome

end CodeSearch.LexicalIndex

namespace CodeSearch.Lexical

open LexicalIndex

/-- Whatever becomes of an operation, the index and its directory are kept. -/
theorem Operation.outcome {α : Type} {dir : Path} {most : Int} {ix : LexicalIndex α} {d : Disk} {disk own : Log}
    {next count : Nat} (fits : DirectoryFits dir) (h : ix.IsSound dir most d disk own next count) (op : Operation)
    (read : ∀ c ∈ op.chunks, c.WellRead) :
    ∃ answer ix' d' disk' own' next' count', op.run.runOn ix d = (answer, ix', d') ∧
      Outcome dir most op ix d disk own count answer ix' d' disk' own' next' count' := by
  cases op with
  | insert chunk =>
    obtain ⟨answer, ix', d', disk', own', next', count', run, outcome⟩ := outcome_insertBatch fits h read
    exact ⟨answer, ix', d', disk', own', next', count', run, { outcome with }⟩
  | insertBatch chunks => exact outcome_insertBatch fits h read
  | deleteByQuery text => exact outcome_deleteByQuery fits h text
  | clear => exact outcome_clear fits h
  | commit => exact outcome_commitAlone fits h
  | close => exact outcome_close fits h

/-- The outcome of an operation that has been run. -/
theorem Operation.outcome_of_run {α : Type} {dir : Path} {most : Int} {ix ix' : LexicalIndex α} {d d' : Disk}
    {disk own : Log} {next count : Nat} (fits : DirectoryFits dir) (h : ix.IsSound dir most d disk own next count)
    {op : Operation} (read : ∀ c ∈ op.chunks, c.WellRead) {answer : Except Fault Unit}
    (run : op.run.runOn ix d = (answer, ix', d')) :
    ∃ disk' own' next' count', Outcome dir most op ix d disk own count answer ix' d' disk' own' next' count' := by
  obtain ⟨answer₁, ix₁, d₁, disk', own', next', count', run₁, outcome⟩ := op.outcome fits h read
  rw [run] at run₁
  obtain ⟨rfl, rfl, rfl⟩ : answer = answer₁ ∧ ix' = ix₁ ∧ d' = d₁ := by simpa using run₁
  exact ⟨disk', own', next', count', outcome⟩

end CodeSearch.Lexical
