import CodeSearch.Proofs.Lexical.Crash
/-!
# Writes that fail and are made good

A commit that fails leaves its changes pending. They may have come into a segment all the same, which the next
manifest names, and then they are written a second time with whatever has been added and deleted since. So the order of
the entries may be lost, but not what stands under an id: that is decided by the last change on it
(`get?_replay`), and replaying changes twice is replaying them once (`get?_replay_replay`).

`Retried` are the indexes and disks that a run reaches in which any write may fail. `Retried.recovers`: what an
operation does is seen at once, and as soon as an insertion, a commit or a closing is done, the directory has under
every id what the index has.
-/

namespace CodeSearch.Lexical

/-! ## Replaying, id by id -/

/-- What a change makes of an id, if it is about it: an entry, or none. -/
def Change.verdict (id : String) : Change → Option (Option Entry)
  | .add c => if c.startLine ≤ c.endLine ∧ id = c.id then some (some (.ofChunk c)) else none
  | .delete (.str gone) => if id = gone then some none else none
  | .delete _ => none

/-- What changes make of an id: what the last one on it does. -/
def verdict (id : String) (changes : List Change) : Option (Option Entry) :=
  changes.reverse.findSome? (Change.verdict id)

theorem get?_apply (change : Change) (entries : Keyed String Entry) (id : String) :
    (change.apply entries).get? id = (change.verdict id).getD (entries.get? id) := by
  cases change with
  | add c =>
    rw [Change.apply, Change.verdict]
    by_cases order : c.startLine ≤ c.endLine
    · rw [if_pos order, Keyed.get?_put]
      by_cases same : id = c.id
      · rw [if_pos same, if_pos ⟨order, same⟩, Option.getD_some]
      · rw [if_neg same, if_neg fun both => same both.2, Option.getD_none]
    · rw [if_neg order, if_neg fun both => order both.1, Option.getD_none]
  | delete gone =>
    cases gone with
    | str gone =>
      rw [Change.apply, Change.verdict, Keyed.get?_erase]
      by_cases same : id = gone
      · rw [if_pos same, if_pos same, Option.getD_some]
      · rw [if_neg same, if_neg same, Option.getD_none]
    | _ => rfl

/-- What stands under an id after changes was put there by the last change on it. -/
theorem get?_replay (changes : List Change) (entries : Keyed String Entry) (id : String) :
    (replay changes entries).get? id = (verdict id changes).getD (entries.get? id) := by
  induction changes generalizing entries with
  | nil => rfl
  | cons change changes ih =>
    have last : verdict id (change :: changes) = (verdict id changes).or (change.verdict id) := by
      have alone : [change].findSome? (Change.verdict id) = change.verdict id := by
        cases made : change.verdict id <;> simp [List.findSome?, made]
      rw [verdict, List.reverse_cons, List.findSome?_append, alone]
      rfl
    have unfolded : replay (change :: changes) entries = replay changes (change.apply entries) := rfl
    rw [unfolded, ih, get?_apply, last]
    cases verdict id changes <;> rfl

/-- Changes make the same of entries that are the same, in whatever order. -/
theorem get?_replay_congr {entries others : Keyed String Entry} (same : ∀ id, entries.get? id = others.get? id)
    (changes : List Change) (id : String) : (replay changes entries).get? id = (replay changes others).get? id := by
  rw [get?_replay, get?_replay, same]

/-- Replaying changes twice leaves under every id what replaying them once does. -/
theorem get?_replay_replay (changes : List Change) (entries : Keyed String Entry) (id : String) :
    (replay changes (replay changes entries)).get? id = (replay changes entries).get? id := by
  rw [get?_replay, get?_replay]
  cases verdict id changes <;> rfl

theorem replay_append (changes more : List Change) (entries : Keyed String Entry) :
    replay (changes ++ more) entries = replay more (replay changes entries) := List.foldl_append

/-! ## Operations that write -/

/-- The operation writes what is pending, or fails. -/
def Operation.commits : Operation → Bool
  | .insert _ | .insertBatch _ | .commit | .close => true
  | .deleteByQuery _ | .clear => false

end CodeSearch.Lexical

namespace CodeSearch.LexicalIndex

open Lexical CodeSearch.Action

variable {α : Type}

/-! ## The chunk of an id -/

theorem find?_values {items : List (String × Entry)} (names : ∀ item ∈ items, item.1 = item.2.chunk.id) (id : String) :
    (items.map Prod.snd).find? (fun e => e.chunk.id = id) = items.lookup id := by
  induction items with
  | nil => rfl
  | cons item items ih =>
    obtain ⟨key, e⟩ := item
    have name : key = e.chunk.id := names (key, e) List.mem_cons_self
    rw [List.map_cons, List.find?_cons, List.lookup_cons, ← ih fun other ho => names other (List.mem_cons_of_mem _ ho)]
    by_cases same : e.chunk.id = id
    · simp [name, same]
    · have differ : (id == key) = false := by simpa [name] using Ne.symm same
      simp [differ, same]

/-- An index that is current tells the chunk that stands under an id. -/
theorem chunk?_eq {ix : LexicalIndex α} (current : ix.IsCurrent) (read : AllRead ix.entries) (id : String) :
    ix.chunk? id = (ix.entries.get? id).map Entry.chunk := by
  rw [chunk?, current.view]
  exact congrArg _ (find?_values (fun item hi => congrArg Prod.fst (read item hi).1) id)

/-! ## What a failed write leaves -/

/-- The segments of the index, and after them what is pending, make what the index has under each id. If nothing is
pending, so do the segments of the directory. -/
structure Recoverable (ix : LexicalIndex α) (disk own : Log) : Prop where
  current : ix.IsCurrent
  order : AllInOrder ix.entries
  entries : ∀ id, ix.entries.get? id = (replay ix.pending own.entries).get? id
  written : ix.pending = [] → ∀ id, disk.entries.get? id = ix.entries.get? id

section Recoverable
variable {dir : Path} {most : Int} {op : Operation} {ix ix' : LexicalIndex α} {d d' : Disk} {disk own : Log}
variable {next count : Nat} {answer : Except Fault Unit}

theorem InStep.recoverable (h : ix.InStep disk own) : ix.Recoverable disk own where
  current := h.current
  order := h.entries ▸ disk.allInOrder
  entries id := by rw [h.pending, h.logs, h.entries]; rfl
  written _ id := by rw [h.entries]

theorem Recoverable.refreshed (h : ix.Recoverable disk own) : ix.refreshed.Recoverable disk own :=
  ⟨h.current.refreshed, h.order, h.entries, h.written⟩

/-- The index that changes have been made to, which are pending, as its own generation has it. -/
theorem Recoverable.changed (h : ix.Recoverable disk own) {entries : Keyed String Entry} {changes : List Change}
    (order : AllInOrder entries) (replayed : entries = replay changes ix.entries) :
    (ix.changed entries changes).advanced.Recoverable disk own := by
  refine ⟨h.current.advanced entries changes, order, fun id => ?_, fun none id => ?_⟩
  · change entries.get? id = (replay (ix.pending ++ changes) own.entries).get? id
    rw [replayed, replay_append]
    exact get?_replay_congr h.entries changes id
  · obtain ⟨none, nothing⟩ := List.append_eq_nil_iff.1 none
    change _ = entries.get? id
    rw [replayed, nothing]
    exact h.written none id

/-- Wherever a commit stops, segments and pending changes make what stands under each id. -/
theorem Recoverable.committed (h : ix.Recoverable disk own) (read : AllRead ix.entries) {pending' : List Change}
    {disk' own' : Log} (count' : Nat) (stage : Stage disk own count ix.pending ix.asChanges pending' disk' own') :
    (ix.committed own' count' pending').Recoverable disk' own' := by
  have all (id : String) : (Log.entries (own ++ [(count, ix.pending)])).get? id = ix.entries.get? id := by
    rw [Log.entries_append, h.entries]
  have anew : Log.entries [(count + 1, ix.asChanges)] = ix.entries := replay_asChanges read h.order
  cases stage with
  | idle => exact ⟨h.current.refreshed, h.order, h.entries, h.written⟩
  | written =>
    -- the segment counts as the index's own, and its changes are pending still
    refine ⟨h.current.refreshed, h.order, fun id => ?_, h.written⟩
    change ix.entries.get? id = (replay ix.pending (Log.entries (own ++ [(count, ix.pending)]))).get? id
    rw [Log.entries_append, get?_replay_replay, h.entries]
  | listed => exact ⟨h.current.refreshed, h.order, fun id => (all id).symm, fun _ => all⟩
  | compacted =>
    refine ⟨h.current.refreshed, h.order, fun id => ?_, fun _ => all⟩
    change ix.entries.get? id = (Log.entries [(count + 1, ix.asChanges)]).get? id
    rw [anew]
  | replaced =>
    refine ⟨h.current.refreshed, h.order, fun id => ?_, fun _ id => ?_⟩
    · change ix.entries.get? id = (Log.entries [(count + 1, ix.asChanges)]).get? id
      rw [anew]
    · rw [anew]
      rfl

/-! ## The operations -/

/-- What an operation leaves that has the result, whatever becomes of its writes. -/
structure Retry (dir : Path) (most : Int) (op : Operation) (ix : LexicalIndex α) (answer : Except Fault Unit)
    (ix' : LexicalIndex α) (d' : Disk) (disk' own' : Log) (next' count' : Nat) : Prop where
  sound : ix'.IsSound dir most d' disk' own' next' count'
  recoverable : ix'.Recoverable disk' own'
  result : ix'.entries = op.result ix.entries
  written : op.commits = true → answer = .ok () → ix'.pending = []

theorem retry_commit {ix₁ : LexicalIndex α} (fits : DirectoryFits dir)
    (sound : ix₁.IsSound dir most d disk own next count) (h : ix₁.Recoverable disk own)
    (result : ix₁.entries = op.result ix.entries) :
    ∃ answer ix' d' disk' own' next' count', commit.runOn ix₁ d = (answer, ix', d') ∧
      Retry dir most op ix answer ix' d' disk' own' next' count' := by
  obtain ⟨answer, d', disk', own', next', count', pending', run, _, kept, stage, done⟩ :=
    runOn_commit fits sound.kept sound.limit sound.read.wellRead
  exact ⟨answer, _, d', disk', own', next', count', run, ⟨kept, sound.read, sound.limit⟩,
    h.committed sound.read count' stage, result, fun _ answered => (done answered).1⟩

theorem retry_insertBatch (fits : DirectoryFits dir) (sound : ix.IsSound dir most d disk own next count)
    (h : ix.Recoverable disk own) {chunks : List Chunk}
    (good : ∀ c ∈ chunks, c.FromData ∧ c.InOrder ∧ c.IsShallow) :
    ∃ answer ix' d' disk' own' next' count', (Operation.insertBatch chunks).run.runOn ix d = (answer, ix', d') ∧
      Retry dir most (.insertBatch chunks) ix answer ix' d' disk' own' next' count' := by
  have read : ∀ c ∈ chunks, c.WellRead := fun c hc => (good c hc).1.wellRead
  have order : ∀ c ∈ chunks, c.InOrder := fun c hc => (good c hc).2.1
  have storable : ∀ change ∈ chunks.map Change.add, change.IsStorable := by
    intro change hc
    obtain ⟨c, hw, rfl⟩ := List.mem_map.1 hc
    exact ⟨read c hw, (good c hw).2.2⟩
  have replayed := (replay_adds order ix.entries).symm
  -- every chunk makes a record, so that all of them are added and pending
  rw [runOn_insertBatch read, addAll_of_shallow fun c hc => ⟨(read c hc).checked, (good c hc).2.2⟩]
  refine retry_commit fits (sound.changed (sound.read.putAll read) storable).advanced (h.changed ?_ replayed) rfl
  rw [replayed]
  exact h.order.replay _

theorem retry_deleteByQuery (fits : DirectoryFits dir) (sound : ix.IsSound dir most d disk own next count)
    (h : ix.Recoverable disk own) (text : String) :
    ∃ answer ix' d' disk' own' next' count', (Operation.deleteByQuery text).run.runOn ix d = (answer, ix', d') ∧
      Retry dir most (.deleteByQuery text) ix answer ix' d' disk' own' next' count' := by
  cases parsed : Query.parse text with
  | error e =>
    refine ⟨.error (.badQuery e), ix, d, disk, own, next, count, ?_, sound, h, ?_, fun commits => by cases commits⟩
    · exact runOn_deletion_refused parsed ix d
    · rw [Operation.result, parsed]
  | ok q =>
    have view : ix.refreshed.view.entries = ix.entries.values := h.current.refreshed.view
    rw [runOn_deletion parsed, runOn_delete]
    simp only []
    cases empty : q.isEmpty with
    | true =>
      refine ⟨.ok (), ix, d, disk, own, next, count, rfl, sound, h, ?_, fun commits => by cases commits⟩
      simp [Operation.result, parsed, empty]
    | false =>
      have result : (Operation.deleteByQuery text).result ix.entries
          = ix.entries.filter fun item => !q.selects item.2.tokens := by
        simp [Operation.result, parsed, empty]
      simp only [Bool.false_eq_true, if_false]
      cases none : ((ix.refreshed.view.entries.filter fun e => q.selects e.tokens).map fun e => e.chunk.id).isEmpty with
      | true =>
        refine ⟨.ok (), ix.refreshed, d, disk, own, next, count, rfl, sound.refreshed, h.refreshed, ?_,
          fun commits => by cases commits⟩
        rw [view] at none
        rw [result, filter_none (p := fun e => q.selects e.tokens) none]
        rfl
      | false =>
        obtain ⟨changes, eq, storable, erased⟩ := foldl_deleted_of_allRead
          ((ix.refreshed.view.entries.filter fun e => q.selects e.tokens).map fun e => e.chunk.id) ix.refreshed sound.read
        simp only [Bool.false_eq_true, if_false]
        rw [eq]
        refine retry_commit fits (sound.refreshed.changed (sound.read.replay storable) storable).advanced
          (h.refreshed.changed (h.order.replay changes) rfl) ?_
        rw [result, ← foldl_erase sound.read.filed fun e => q.selects e.tokens, ← view]
        exact erased

/-- An operation on a recoverable index, whatever becomes of its writes. -/
theorem Recoverable.operation (fits : DirectoryFits dir) (sound : ix.IsSound dir most d disk own next count)
    (h : ix.Recoverable disk own) (lasting : op ≠ .clear)
    (good : ∀ c ∈ op.chunks, c.FromData ∧ c.InOrder ∧ c.IsShallow) :
    ∃ answer ix' d' disk' own' next' count', op.run.runOn ix d = (answer, ix', d') ∧
      Retry dir most op ix answer ix' d' disk' own' next' count' := by
  cases op with
  | insert chunk =>
    obtain ⟨answer, ix', d', disk', own', next', count', run, retry⟩ := retry_insertBatch fits sound h good
    exact ⟨answer, ix', d', disk', own', next', count', run, { retry with }⟩
  | insertBatch chunks => exact retry_insertBatch fits sound h good
  | deleteByQuery text => exact retry_deleteByQuery fits sound h text
  | clear => exact absurd rfl lasting
  | commit => exact retry_commit fits sound h rfl
  | close =>
    rw [runOn_closing]
    split
    next nothing =>
      exact ⟨.ok (), ix, d, disk, own, next, count, rfl, sound, h, rfl, fun _ _ => List.isEmpty_iff.1 nothing⟩
    next => exact retry_commit fits sound h rfl

/-- So does one that has been run. -/
theorem Recoverable.retry_of_run (h : ix.Recoverable disk own) (fits : DirectoryFits dir)
    (sound : ix.IsSound dir most d disk own next count) (lasting : op ≠ .clear)
    (good : ∀ c ∈ op.chunks, c.FromData ∧ c.InOrder ∧ c.IsShallow) {answer : Except Fault Unit}
    (run : op.run.runOn ix d = (answer, ix', d')) :
    ∃ disk' own' next' count', Retry dir most op ix answer ix' d' disk' own' next' count' := by
  obtain ⟨answer₁, ix₁, d₁, disk', own', next', count', run₁, retry⟩ :=
    Recoverable.operation fits sound h lasting good
  rw [run] at run₁
  obtain ⟨rfl, rfl, rfl⟩ : answer = answer₁ ∧ ix' = ix₁ ∧ d' = d₁ := by simpa using run₁
  exact ⟨disk', own', next', count', retry⟩

/-! ## Runs in which writes fail -/

/-- What is reached from an index in step with its directory by operations on chunks that make records, each effect of
which has any fate. -/
inductive Retried (dir : Path) : LexicalIndex α → Disk → Prop where
  | start {d : Disk} {ix : LexicalIndex α} (h : Reached dir ix d true) : Retried dir ix d
  | operation {d d' : Disk} {ix ix' : LexicalIndex α} {answer : Except Fault Unit} (h : Retried dir ix d)
      (op : Operation) (lasting : op ≠ .clear) (good : ∀ c ∈ op.chunks, c.FromData ∧ c.InOrder ∧ c.IsShallow)
      (run : op.run.runOn ix d = (answer, ix', d')) : Retried dir ix' d'
  | reopened {d : Disk} {ix ix' : LexicalIndex α} {k1 b : Parameter α} {most : Int} {unfit : Unfit}
      (h : Retried dir ix d) (opened : openAt (some dir) k1 b (.ok most) unfit d = .ok ix') : Retried dir ix' d

theorem Retried.run (h : Retried dir ix d) (op : Operation) (lasting : op ≠ .clear)
    (good : ∀ c ∈ op.chunks, c.FromData ∧ c.InOrder ∧ c.IsShallow) :
    Retried dir (op.run.runOn ix d).2.1 (op.run.runOn ix d).2.2 := h.operation op lasting good rfl

/-- It is recoverable all along a run, whatever becomes of the writes. -/
theorem Retried.recoverable (fits : DirectoryFits dir) (h : Retried dir ix d) :
    ∃ most disk own next count, ix.IsSound dir most d disk own next count ∧ ix.Recoverable disk own := by
  induction h with
  | start h =>
    obtain ⟨most, disk, own, next, count, sound, inStep⟩ := h.isSafe fits
    exact ⟨most, disk, own, next, count, sound, (inStep rfl).recoverable⟩
  | operation _ op lasting good run ih =>
    obtain ⟨most, disk, own, next, count, sound, recoverable⟩ := ih
    obtain ⟨disk', own', next', count', retry⟩ := recoverable.retry_of_run fits sound lasting good run
    exact ⟨most, disk', own', next', count', retry.sound, retry.recoverable⟩
  | reopened _ opened ih =>
    obtain ⟨_, disk, _, next, _, sound, _⟩ := ih
    obtain ⟨sound', inStep⟩ := sound.of_opened fits opened
    exact ⟨_, disk, disk, next, next, sound', inStep.recoverable⟩

/-- No write that fails loses a change. What an operation does is seen at once, whether it fails or not. Where one that
writes what is pending is done, the directory can be opened, and has under every id what the index has. -/
theorem Retried.recovers (fits : DirectoryFits dir) (h : Retried dir ix d) (op : Operation) (lasting : op ≠ .clear)
    (good : ∀ c ∈ op.chunks, c.FromData ∧ c.InOrder ∧ c.IsShallow)
    (run : op.run.runOn ix d = (answer, ix', d')) :
    ix'.entries = op.result ix.entries ∧ ix'.view.entries = ix'.entries.values ∧
    (op.commits = true → answer = .ok () → ∀ (k1 b : Parameter α) (most : Int) (unfit : Unfit), ∃ reopened,
      openAt (some dir) k1 b (.ok most) unfit d' = .ok reopened ∧
      ∀ id, reopened.entries.get? id = ix'.entries.get? id ∧ reopened.chunk? id = ix'.chunk? id) := by
  obtain ⟨most, disk, own, next, count, sound, recoverable⟩ := h.recoverable fits
  obtain ⟨disk', own', next', count', retry⟩ := recoverable.retry_of_run fits sound lasting good run
  refine ⟨retry.result, retry.recoverable.current.view, fun commits answered k1 b most' unfit => ?_⟩
  obtain ⟨reopened, opened, sound', inStep⟩ := retry.sound.reopened fits k1 b most' unfit
  refine ⟨reopened, opened, fun id => ?_⟩
  have same : reopened.entries.get? id = ix'.entries.get? id := by
    rw [inStep.entries]
    exact retry.recoverable.written (retry.written commits answered) id
  refine ⟨same, ?_⟩
  rw [chunk?_eq inStep.current sound'.read, chunk?_eq retry.recoverable.current retry.sound.read, same]

end Recoverable

/-- A chunk cannot be written when it is inserted, and the next commit makes good for it. -/
theorem recovers_after_refusal :
    ∃ (ix : LexicalIndex Unit) (d : Disk), ix.pending.length = 1 ∧
      (Operation.commit.run.runOn ix d).1.toBool = true ∧
      ∃ reopened : LexicalIndex Unit, openAt (some ⟨"", ["lex"]⟩) (.whole 1) (.whole 1) (.ok 2) []
        (Operation.commit.run.runOn ix d).2.2 = .ok reopened ∧
        ∀ id, reopened.chunk? id = (Operation.commit.run.runOn ix d).2.1.chunk? id := by
  have reached := reached_blank 2 [.done, .refused]
  have good : ∀ c ∈ [Chunk.plain "x" "alpha"], c.FromData ∧ c.InOrder ∧ c.IsShallow :=
    List.forall_mem_singleton.2 ⟨fromData_alpha, Nat.le_refl 0, by decide +kernel⟩
  have retried := (Retried.start reached).run (.insertBatch [Chunk.plain "x" "alpha"]) nofun good
  have answered : (Operation.commit.run.runOn
      ((Operation.insertBatch [Chunk.plain "x" "alpha"]).run.runOn
        (blank (some ⟨"", ["lex"]⟩) (.whole 1) (.whole 1) (.ok 2) : LexicalIndex Unit) ⟨.empty, [.done, .refused]⟩).2.1
      ((Operation.insertBatch [Chunk.plain "x" "alpha"]).run.runOn
        (blank (some ⟨"", ["lex"]⟩) (.whole 1) (.whole 1) (.ok 2) : LexicalIndex Unit)
        ⟨.empty, [.done, .refused]⟩).2.2).1.toBool = true := by decide +kernel
  -- with the parts named, nothing has to be evaluated to see that they are the parts
  have parts (left : Except Fault Unit × LexicalIndex Unit × Disk) : left = (left.1, left.2.1, left.2.2) := rfl
  obtain ⟨_, _, recovered⟩ := retried.recovers fits_lex .commit nofun (List.forall_mem_nil _) (parts _)
  obtain ⟨reopened, opened, same⟩ := recovered rfl (eq_ok_of_toBool answered) (.whole 1) (.whole 1) 2 []
  refine ⟨_, _, ?_, answered, reopened, opened, fun id => (same id).2⟩
  decide +kernel

end CodeSearch.LexicalIndex
