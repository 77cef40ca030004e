import CodeSearch.Proofs.Lexical.Faults
import CodeSearch.Proofs.Lexical.Growth
import CodeSearch.Proofs.Lexical.Recovery
/-!
# Clears that fail

A clear empties the index, forgets what is pending and which segments there are, and then writes the manifest. If that
fails there is nothing pending, so that no commit and no closing writes anything before a chunk is inserted (`Wiped`).
The directory has the entries from before the clear all the while, and opening it brings them back. Once a chunk has been
inserted, the next manifest that is written names only what has been written since, and the old entries are gone.

`Tried` are the indexes and disks that a run reaches in which every write may fail, that of a clear as well, with the
entries that the directory has still from before a clear, if any. `Tried.committed_reopens` says what a directory gives
after a commit or a closing that is done.
-/

namespace CodeSearch.Lexical

/-- The entries that a directory has still from before a clear, after an operation that is no clear or one that is
done. -/
def Operation.leaves (lost : Option (Keyed String Entry)) : Operation → Option (Keyed String Entry)
  | .clear => none
  | op => if op.chunks.isEmpty then lost else none

end CodeSearch.Lexical

namespace CodeSearch.LexicalIndex

open Lexical CodeSearch.Action

variable {α : Type}

section
variable {dir : Path} {most : Int} {op : Operation} {ix ix' : LexicalIndex α} {d d' : Disk} {disk own : Log}
variable {next count : Nat} {answer : Except Fault Unit}

/-! ## One clear -/

theorem checkPath_not_storage (path : Path) : FailsBy (fun fault => fault.isStorage = false) (Disk.checkPath path) := by
  unfold Disk.checkPath
  split_ifs
  · exact .error rfl
  · exact .error rfl
  · exact .error rfl
  · exact .ok ()

/-- Discarding files is no work of the storage: that a file cannot be removed is passed over. -/
theorem discardSegments_not_storage (dir : Path) (names : List String) (ix : LexicalIndex α) (d : Disk) :
    FailsBy (fun fault => fault.isStorage = false) ((discardSegments dir names).runOn ix d).1 := by
  have passes (path : Path) : path.Passes fun fault => fault.isStorage = false :=
    fun fault refused => .inr (checkPath_not_storage path fault refused)
  have ends : Ends (fun _ => True) (fun fault => fault.isStorage = false)
      (discardSegments dir names : Action (LexicalIndex α) Unit) := Ends.forM fun _ _ => ends_discard (passes _)
  exact (ends ix d trivial fun _ => rfl).2.2

/-- A clear empties the index at once. It empties the directory as well, unless the manifest cannot be written, and then
the directory keeps what it has. -/
theorem runOn_clear_cases (fits : DirectoryFits dir) (sound : ix.IsSound dir most d disk own next count) :
    (∃ answer d', Operation.clear.run.runOn ix d = (answer, ix.cleared, d') ∧
      FailsBy (fun fault => fault.isStorage = false) answer ∧ ix.cleared.IsSound dir most d' [] [] count count) ∨
    ∃ fault d', Operation.clear.run.runOn ix d = (.error fault, ix.cleared, d') ∧
      ix.cleared.IsSound dir most d' disk [] next count := by
  have kept : ix.cleared.IsKept dir d disk [] next count :=
    { sound.kept with segments := rfl, pending := List.forall_mem_nil _, ownKept := Log.IsKept.nil }
  rw [Operation.run, runOn_clear sound.kept.directory, sound.kept.segments]
  rcases runOn_writeManifest fits kept with ⟨d₁, written, _, kept₁⟩ | ⟨fault, d₁, failed, _, kept₁⟩
  · obtain ⟨answer, d₂, discarded, change, _⟩ := runOn_discardSegments dir own ix.cleared d₁
    have kept₂ : ix.cleared.IsKept dir d₂ [] [] count count := by
      refine kept₁.changed change ?_ id (List.forall_mem_nil _)
      rintro ⟨m, _, same⟩
      exact segment_place_ne_manifest m same
    have faults := discardSegments_not_storage dir own.names ix.cleared d₁
    rw [discarded] at faults
    exact .inl ⟨answer, d₂, by rw [runOn_bind_ok written, discarded], faults, kept₂, AllRead.empty, sound.limit⟩
  · exact .inr ⟨fault, d₁, runOn_bind_error failed _, kept₁, AllRead.empty, sound.limit⟩

/-! ## What a failed clear leaves -/

/-- The index has neither entries nor segments any more, and nothing to write. -/
structure Wiped (ix : LexicalIndex α) (own : Log) : Prop where
  entries : ix.entries = .empty
  pending : ix.pending = []
  segments : own = []
  current : ix.IsCurrent

theorem IsCurrent.wiped (h : ix.IsCurrent) : ix.cleared.Wiped [] := ⟨rfl, rfl, rfl, h.moved rfl rfl⟩

theorem Wiped.refreshed (h : ix.Wiped own) : ix.refreshed.Wiped own :=
  ⟨h.entries, h.pending, h.segments, h.current.refreshed⟩

theorem Wiped.chunks (h : ix.Wiped own) : ix.chunks = [] := by
  rw [LexicalIndex.chunks, h.current.view, h.entries]
  rfl

/-- Changes make the index recoverable again, as they are to be written. -/
theorem Wiped.changed (h : ix.Wiped own) (disk : Log) {entries : Keyed String Entry} {changes : List Change}
    (order : AllInOrder entries) (replayed : entries = replay changes ix.entries) (some : changes ≠ []) :
    (ix.changed entries changes).advanced.Recoverable disk own where
  current := h.current.advanced entries changes
  order := order
  entries id := by
    change entries.get? id = (replay (ix.pending ++ changes) own.entries).get? id
    rw [replayed, h.pending, h.entries, h.segments]
    rfl
  written none := absurd (List.append_eq_nil_iff.1 none).2 some

theorem runOn_insertBatch_good {chunks : List Chunk} (good : ∀ c ∈ chunks, c.FromData ∧ c.InOrder ∧ c.IsShallow)
    (ix : LexicalIndex α) (d : Disk) : (Operation.insertBatch chunks).run.runOn ix d =
      commit.runOn (ix.changed (ix.entries.putAll (chunks.map fun c => (c.id, .ofChunk c))) (chunks.map .add)).advanced
        d := by
  rw [runOn_insertBatch fun c hc => (good c hc).1.wellRead,
    addAll_of_shallow fun c hc => ⟨(good c hc).1.wellRead.checked, (good c hc).2.2⟩]

theorem Wiped.advanced (h : ix.Wiped own) : (ix.changed ix.entries []).advanced.Wiped own :=
  ⟨h.entries, (List.append_nil _).trans h.pending, h.segments, h.current.advanced ix.entries []⟩

theorem Wiped.runOn_commit (h : ix.Wiped own) (directory : ix.directory = some dir) (d : Disk) :
    commit.runOn ix d = (.ok (), ix.refreshed, d) := by
  rw [runOn_commit_eq directory, if_pos (by simp [h.pending])]

/-- Without chunks to insert an operation leaves the index wiped and the disk as it is. -/
theorem Wiped.idles (sound : ix.IsSound dir most d disk own next count) (h : ix.Wiped own) (lasting : op ≠ .clear)
    (nothing : op.chunks = []) :
    ∃ answer ix', op.run.runOn ix d = (answer, ix', d) ∧ ix'.IsSound dir most d disk own next count ∧
      ix'.Wiped own := by
  have directory := sound.kept.directory
  cases op with
  | insert chunk => cases nothing
  | insertBatch chunks =>
    obtain rfl : chunks = [] := nothing
    have run := runOn_insertBatch_good (List.forall_mem_nil _) ix d
    have wiped : (ix.changed ix.entries []).advanced.Wiped own := h.advanced
    have sound₁ : (ix.changed ix.entries []).advanced.IsSound dir most d disk own next count :=
      (sound.changed sound.read (List.forall_mem_nil _)).advanced
    exact ⟨.ok (), _, run.trans (wiped.runOn_commit sound₁.kept.directory d), sound₁.refreshed, wiped.refreshed⟩
  | deleteByQuery text =>
    cases parsed : Query.parse text with
    | error e =>
      exact ⟨.error (.badQuery e), ix, runOn_deletion_refused parsed ix d, sound, h⟩
    | ok q =>
      have none : ix.refreshed.view.entries = [] := by
        rw [h.current.refreshed.view]
        exact congrArg Keyed.values h.entries
      rw [runOn_deletion parsed, runOn_delete, none]
      cases q.isEmpty with
      | true => exact ⟨.ok (), ix, rfl, sound, h⟩
      | false => exact ⟨.ok (), ix.refreshed, rfl, sound.refreshed, h.refreshed⟩
  | clear => exact absurd rfl lasting
  | commit => exact ⟨.ok (), ix.refreshed, h.runOn_commit directory d, sound.refreshed, h.refreshed⟩
  | close =>
    refine ⟨.ok (), ix, ?_, sound, h⟩
    rw [runOn_closing, h.pending]
    rfl

/-- An insertion makes the index recoverable again, whatever becomes of its writes. -/
theorem Wiped.inserts (fits : DirectoryFits dir) (sound : ix.IsSound dir most d disk own next count) (h : ix.Wiped own)
    (some : op.chunks ≠ []) (good : ∀ c ∈ op.chunks, c.FromData ∧ c.InOrder ∧ c.IsShallow) :
    ∃ answer ix' d' disk' own' next' count', op.run.runOn ix d = (answer, ix', d') ∧
      ix'.IsSound dir most d' disk' own' next' count' ∧ ix'.Recoverable disk' own' ∧
      (answer = .ok () → ix'.pending = []) := by
  have batch {chunks : List Chunk} (some : chunks ≠ []) (good : ∀ c ∈ chunks, c.FromData ∧ c.InOrder ∧ c.IsShallow) :
      ∃ answer ix' d' disk' own' next' count', (Operation.insertBatch chunks).run.runOn ix d = (answer, ix', d') ∧
        ix'.IsSound dir most d' disk' own' next' count' ∧ ix'.Recoverable disk' own' ∧
        (answer = .ok () → ix'.pending = []) := by
    have read : ∀ c ∈ chunks, c.WellRead := fun c hc => (good c hc).1.wellRead
    have storable : ∀ change ∈ chunks.map Change.add, change.IsStorable :=
      List.forall_mem_map.2 fun c hc => ⟨read c hc, (good c hc).2.2⟩
    have replayed := replay_adds (fun c hc => (good c hc).2.1) ix.entries
    have order : AllInOrder (ix.entries.putAll (chunks.map fun c => (c.id, .ofChunk c))) := by
      rw [← replayed, h.entries]
      exact AllInOrder.replay (show AllInOrder .empty from List.forall_mem_nil _) _
    rw [runOn_insertBatch_good good]
    obtain ⟨answer, ix', d', disk', own', next', count', run, retry⟩ := retry_commit fits
      (sound.changed (sound.read.putAll read) storable).advanced
      (h.changed disk order replayed.symm fun none => some (List.map_eq_nil_iff.1 none))
      (show _ = Operation.commit.result _ from rfl)
    exact ⟨answer, ix', d', disk', own', next', count', run, retry.sound, retry.recoverable, retry.written rfl⟩
  cases op with
  | insert chunk => exact batch some good
  | insertBatch chunks => exact batch some good
  | _ => exact absurd rfl some

end

/-! ## Runs in which clears fail -/

/-- What is reached from an index in step with its directory by operations on chunks that make records, each effect of
which has any fate, with the entries that the directory has still from before a clear that failed. -/
inductive Tried (dir : Path) : LexicalIndex α → Disk → Option (Keyed String Entry) → Prop where
  | start {d : Disk} {ix : LexicalIndex α} (h : Reached dir ix d true) : Tried dir ix d none
  | operation {d d' : Disk} {ix ix' : LexicalIndex α} {lost : Option (Keyed String Entry)} {answer : Except Fault Unit}
      (h : Tried dir ix d lost) (op : Operation) (good : ∀ c ∈ op.chunks, c.FromData ∧ c.InOrder ∧ c.IsShallow)
      (run : op.run.runOn ix d = (answer, ix', d')) (done : op = .clear → answer = .ok ()) :
      Tried dir ix' d' (op.leaves lost)
  | failed {d d' : Disk} {ix ix' before : LexicalIndex α} {lost : Option (Keyed String Entry)} {fault : Fault}
      {k1 b : Parameter α} {most : Int} {unfit : Unfit} (h : Tried dir ix d lost)
      (opened : openAt (some dir) k1 b (.ok most) unfit d = .ok before)
      (run : Operation.clear.run.runOn ix d = (.error fault, ix', d')) (storage : fault.isStorage = true) :
      Tried dir ix' d' (some before.entries)
  | reopened {d : Disk} {ix ix' : LexicalIndex α} {lost : Option (Keyed String Entry)} {k1 b : Parameter α} {most : Int}
      {unfit : Unfit} (h : Tried dir ix d lost) (opened : openAt (some dir) k1 b (.ok most) unfit d = .ok ix') :
      Tried dir ix' d none

/-- What an index and its directory are to each other, by what the directory has still from before a clear. -/
def Stands (ix : LexicalIndex α) (disk own : Log) : Option (Keyed String Entry) → Prop
  | none => ix.Recoverable disk own
  | some entries => ix.Wiped own ∧ disk.entries = entries

section
variable {dir : Path} {most : Int} {op : Operation} {ix ix' : LexicalIndex α} {d d' : Disk} {disk own : Log}
variable {next count : Nat} {answer : Except Fault Unit} {lost : Option (Keyed String Entry)}

theorem Stands.isCurrent (h : ix.Stands disk own lost) : ix.IsCurrent := by
  cases lost with
  | none => exact Recoverable.current h
  | some _ => exact h.1.current

/-- One operation, but for a clear that fails. If it writes what is pending and is done, nothing is pending any more. -/
theorem Stands.operation (fits : DirectoryFits dir) (sound : ix.IsSound dir most d disk own next count)
    (h : ix.Stands disk own lost) (good : ∀ c ∈ op.chunks, c.FromData ∧ c.InOrder ∧ c.IsShallow)
    (run : op.run.runOn ix d = (answer, ix', d')) (done : op = .clear → answer = .ok ()) :
    ∃ disk' own' next' count', ix'.IsSound dir most d' disk' own' next' count' ∧ ix'.Stands disk' own' (op.leaves lost) ∧
      (op.commits = true → answer = .ok () → ix'.pending = []) := by
  by_cases clears : op = .clear
  · subst clears
    obtain rfl := done rfl
    rcases runOn_clear_cases fits sound with ⟨_, _, run', _, sound'⟩ | ⟨_, _, run', _⟩
    · rw [run] at run'
      obtain ⟨-, rfl, rfl⟩ := by simpa using run'
      have inStep : InStep ix.cleared [] [] := ⟨rfl, rfl, rfl, h.isCurrent.wiped.current⟩
      exact ⟨[], [], count, count, sound', inStep.recoverable, nofun⟩
    · rw [run] at run'
      cases (Prod.mk.inj run').1
  have leaves : op.leaves lost = if op.chunks.isEmpty then lost else none := by
    cases op with
    | clear => exact absurd rfl clears
    | _ => rfl
  cases lost with
  | none =>
    obtain ⟨disk', own', next', count', retry⟩ := Recoverable.retry_of_run h fits sound clears good run
    rw [leaves, ite_self]
    exact ⟨disk', own', next', count', retry.sound, retry.recoverable, retry.written⟩
  | some entries =>
    obtain ⟨wiped, left⟩ := h
    by_cases nothing : op.chunks = []
    · obtain ⟨_, _, run', sound', wiped'⟩ := wiped.idles sound clears nothing
      rw [run] at run'
      obtain ⟨rfl, rfl, rfl⟩ := by simpa using run'
      rw [leaves, nothing]
      exact ⟨disk, own, next, count, sound', ⟨wiped', left⟩, fun _ _ => wiped'.pending⟩
    · obtain ⟨_, _, _, disk', own', next', count', run', sound', recoverable, written⟩ :=
        wiped.inserts fits sound nothing good
      rw [run] at run'
      obtain ⟨rfl, rfl, rfl⟩ := by simpa using run'
      rw [leaves, if_neg (by simpa using nothing)]
      exact ⟨disk', own', next', count', sound', recoverable, fun _ => written⟩

/-- It stands so all along a run. -/
theorem Tried.stands (fits : DirectoryFits dir) (h : Tried dir ix d lost) :
    ∃ most disk own next count, ix.IsSound dir most d disk own next count ∧ ix.Stands disk own lost := by
  induction h with
  | start h =>
    obtain ⟨most, disk, own, next, count, sound, inStep⟩ := h.isSafe fits
    exact ⟨most, disk, own, next, count, sound, (inStep rfl).recoverable⟩
  | operation _ op good run done ih =>
    obtain ⟨most, disk, own, next, count, sound, stands⟩ := ih
    obtain ⟨disk', own', next', count', sound', stands', _⟩ := stands.operation fits sound good run done
    exact ⟨most, disk', own', next', count', sound', stands'⟩
  | failed _ opened run storage ih =>
    obtain ⟨most, disk, own, next, count, sound, stands⟩ := ih
    obtain ⟨_, inStep⟩ := sound.of_opened fits opened
    rcases runOn_clear_cases fits sound with ⟨_, _, run', faults, _⟩ | ⟨_, _, run', sound'⟩
    · -- when the manifest has been written, what is left to do cannot end by such a fault
      rw [run] at run'
      obtain ⟨rfl, -, -⟩ := by simpa using run'
      rw [faults _ rfl] at storage
      cases storage
    · rw [run] at run'
      obtain ⟨rfl, rfl, rfl⟩ := by simpa using run'
      exact ⟨most, disk, [], next, count, sound', stands.isCurrent.wiped, inStep.entries.symm⟩
  | reopened _ opened ih =>
    obtain ⟨_, disk, _, next, _, sound, _⟩ := ih
    obtain ⟨sound', inStep⟩ := sound.of_opened fits opened
    exact ⟨_, disk, disk, next, next, sound', inStep.recoverable⟩

/-- As long as a directory has entries from before a clear, a commit has nothing to do, and is done. -/
theorem Tried.commit_idle (fits : DirectoryFits dir) {entries : Keyed String Entry}
    (h : Tried dir ix d (some entries)) : Operation.commit.run.runOn ix d = (.ok (), ix.refreshed, d) := by
  obtain ⟨_, _, _, _, _, sound, wiped, _⟩ := h.stands fits
  exact wiped.runOn_commit sound.kept.directory d

/-- When a commit, a closing or an insertion is done, the directory can be opened. It gives the chunks of the index,
unless a clear has failed and nothing has been inserted since: then it gives the entries from before the clear, while
the index has none. -/
theorem Tried.committed_reopens (fits : DirectoryFits dir) (h : Tried dir ix d lost) (op : Operation)
    (commits : op.commits = true) (good : ∀ c ∈ op.chunks, c.FromData ∧ c.InOrder ∧ c.IsShallow)
    (run : op.run.runOn ix d = (.ok (), ix', d')) (k1 b : Parameter α) (most : Int) (unfit : Unfit) :
    ∃ reopened, openAt (some dir) k1 b (.ok most) unfit d' = .ok reopened ∧
      (op.leaves lost = none → ∀ id, reopened.chunk? id = ix'.chunk? id) ∧
      ∀ entries, op.leaves lost = some entries → ix'.chunks = [] ∧ reopened.entries = entries := by
  obtain ⟨_, disk, own, next, count, sound, stands⟩ := h.stands fits
  obtain ⟨disk', own', next', count', sound', stands', written⟩ := stands.operation fits sound good run fun _ => rfl
  obtain ⟨reopened, opened, soundAgain, inStep⟩ := sound'.reopened fits k1 b most unfit
  refine ⟨reopened, opened, fun none id => ?_, fun entries left => ?_⟩
  · rw [none] at stands'
    have recoverable : ix'.Recoverable disk' own' := stands'
    rw [chunk?_eq inStep.current soundAgain.read, chunk?_eq recoverable.current sound'.read, inStep.entries,
      recoverable.written (written commits rfl) id]
  · rw [left] at stands'
    obtain ⟨wiped, same⟩ := stands'
    exact ⟨wiped.chunks, inStep.entries.trans same⟩

end

/-- The answer is a fault of the storage. -/
def isUnwritten (answer : Except Fault Unit) : Bool :=
  match answer with
  | .ok _ => false
  | .error fault => fault.isStorage

theorem exists_of_isUnwritten {answer : Except Fault Unit} (h : isUnwritten answer = true) :
    ∃ fault, answer = .error fault ∧ fault.isStorage = true := by
  cases answer with
  | ok _ => cases h
  | error fault => exact ⟨fault, rfl, h⟩

/-- After an insertion a clear is refused. The next commit has nothing to do, and the chunk comes back. -/
theorem comes_back_after_refused_clear :
    ∃ (ix : LexicalIndex Unit) (d : Disk), isUnwritten (Operation.clear.run.runOn ix d).1 = true ∧
      ∃ (ix' : LexicalIndex Unit) (d' : Disk) (reopened : LexicalIndex Unit), Operation.commit.run.runOn
        (Operation.clear.run.runOn ix d).2.1 (Operation.clear.run.runOn ix d).2.2 = (.ok (), ix', d') ∧ ix'.chunks = [] ∧
        openAt (some ⟨"", ["lex"]⟩) (.whole 1) (.whole 1) (.ok 2) [] d' = .ok reopened ∧
        (reopened.entries.get? "x").isSome = true := by
  have reached := reached_blank 2 [.done, .done, .done, .done, .done, .done, .refused]
  have good : ∀ c ∈ [Chunk.plain "x" "alpha"], c.FromData ∧ c.InOrder ∧ c.IsShallow :=
    List.forall_mem_singleton.2 ⟨fromData_alpha, Nat.le_refl 0, by decide +kernel⟩
  -- with the parts named, nothing has to be evaluated to see that they are the parts
  have parts {answer : Except Fault Unit} (left : Except Fault Unit × LexicalIndex Unit × Disk) (same : left.1 = answer) :
      left = (answer, left.2.1, left.2.2) := by
    rw [← same]
  obtain ⟨inserted, eq⟩ : ∃ left, left = (Operation.insertBatch [Chunk.plain "x" "alpha"]).run.runOn
      (blank (some ⟨"", ["lex"]⟩) (.whole 1) (.whole 1) (.ok 2) : LexicalIndex Unit)
      ⟨.empty, [.done, .done, .done, .done, .done, .done, .refused]⟩ := ⟨_, rfl⟩
  obtain ⟨answered, unwritten⟩ : inserted.1.toBool = true ∧
      isUnwritten (Operation.clear.run.runOn inserted.2.1 inserted.2.2).1 = true := by
    rw [eq]
    decide +kernel
  have run := eq.symm.trans (parts inserted (eq_ok_of_toBool answered))
  obtain ⟨entries, -, there⟩ := (Retried.start reached).recovers fits_lex (.insertBatch [Chunk.plain "x" "alpha"]) nofun
    good run
  obtain ⟨before, opened, same⟩ := there rfl rfl (.whole 1) (.whole 1) 2 []
  obtain ⟨fault, failed, storage⟩ := exists_of_isUnwritten unwritten
  have tried := ((Tried.start reached).operation (.insertBatch [Chunk.plain "x" "alpha"]) good run nofun).failed opened
    (parts _ failed) storage
  have idle := tried.commit_idle fits_lex
  obtain ⟨reopened, opened', -, back⟩ := tried.committed_reopens fits_lex .commit rfl (List.forall_mem_nil _) idle
    (.whole 1) (.whole 1) 2 []
  obtain ⟨gone, kept⟩ := back _ rfl
  refine ⟨inserted.2.1, inserted.2.2, unwritten, _, _, reopened, idle, gone, opened', ?_⟩
  rw [kept, (same "x").1, entries]
  exact congrArg Option.isSome
    (Keyed.get?_put_self (.empty : Keyed String Entry) "x" (Entry.ofChunk (Chunk.plain "x" "alpha")))

end CodeSearch.LexicalIndex
