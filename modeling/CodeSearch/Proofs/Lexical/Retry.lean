import CodeSearch.Proofs.Lexical.Outcome
/-!
# Changes that are written again

A commit that fails leaves its changes pending, and they may have come to the disk all the same. The next commit
writes them once more. As long as only chunks are added this does no harm, since adding them again changes nothing:
`Recorded` holds whatever becomes of the writes, and once an insertion is done nothing is pending and the directory has
the entries (`Recorded.insert`).
-/

namespace CodeSearch.LexicalIndex

open Lexical CodeSearch.Action

variable {α : Type}

/-- The segments of the index, and after them what is pending, make its entries. If nothing is pending, so do the
segments of the directory. Only chunks are added. -/
structure Recorded (ix : LexicalIndex α) (disk own : Log) : Prop where
  entries : ix.entries = replay ix.pending own.entries
  written : ix.pending = [] → disk.entries = ix.entries
  added : ∃ chunks : List Chunk, ix.pending = chunks.map .add ∧ ∀ c ∈ chunks, c.InOrder

section Recorded
variable {dir : Path} {most : Int} {ix : LexicalIndex α} {d : Disk} {disk own : Log} {next count : Nat}

theorem InStep.recorded (h : ix.InStep disk own) : ix.Recorded disk own where
  entries := by rw [h.pending, h.logs, h.entries]; rfl
  written _ := h.entries.symm
  added := ⟨[], h.pending, List.forall_mem_nil _⟩

theorem Recorded.order (h : ix.Recorded disk own) : AllInOrder ix.entries := by
  rw [h.entries]
  exact own.allInOrder.replay _

/-- Adding what is pending once more changes nothing. -/
theorem Recorded.replay_pending (h : ix.Recorded disk own) : replay ix.pending ix.entries = ix.entries := by
  obtain ⟨chunks, pending, order⟩ := h.added
  rw [h.entries, pending, replay_adds order, replay_adds order, Keyed.putAll_putAll]

/-- The index with more chunks, the changes pending. -/
theorem Recorded.changed (h : ix.Recorded disk own) {chunks : List Chunk} (order : ∀ c ∈ chunks, c.InOrder) :
    (ix.changed (ix.entries.putAll (chunks.map fun c => (c.id, .ofChunk c))) (chunks.map .add)).Recorded disk own := by
  refine ⟨?_, ?_, ?_⟩
  · have appended : replay (ix.pending ++ chunks.map .add) own.entries
        = replay (chunks.map .add) (replay ix.pending own.entries) := List.foldl_append
    change _ = replay (ix.pending ++ chunks.map .add) own.entries
    rw [appended, ← h.entries, replay_adds order]
    rfl
  · intro none
    obtain ⟨none, nothing⟩ := List.append_eq_nil_iff.1 none
    rw [h.written none, List.map_eq_nil_iff.1 nothing]
    rfl
  · obtain ⟨before, pending, order'⟩ := h.added
    refine ⟨before ++ chunks, ?_, List.forall_mem_append.2 ⟨order', order⟩⟩
    change ix.pending ++ chunks.map .add = _
    rw [pending, List.map_append]

/-- Wherever a commit stops, segments and pending changes make the entries. -/
theorem Recorded.committed (h : ix.Recorded disk own) (read : AllRead ix.entries) {pending' : List Change}
    {disk' own' : Log} (count' : Nat) (stage : Stage disk own count ix.pending ix.asChanges pending' disk' own') :
    (ix.committed own' count' pending').Recorded disk' own' := by
  have all : Log.entries (own ++ [(count, ix.pending)]) = ix.entries := by rw [Log.entries_append, h.entries]
  have anew : Log.entries [(count + 1, ix.asChanges)] = ix.entries := replay_asChanges read h.order
  have none : ∃ chunks : List Chunk, ([] : List Change) = chunks.map .add ∧ ∀ c ∈ chunks, c.InOrder :=
    ⟨[], rfl, List.forall_mem_nil _⟩
  cases stage with
  | idle => exact ⟨h.entries, h.written, h.added⟩
  | written =>
    refine ⟨?_, h.written, h.added⟩
    change ix.entries = replay ix.pending (Log.entries (own ++ [(count, ix.pending)]))
    rw [all, h.replay_pending]
  | listed => exact ⟨all.symm, fun _ => all, none⟩
  | compacted => exact ⟨anew.symm, fun _ => all, none⟩
  | replaced => exact ⟨anew.symm, fun _ => anew, none⟩

/-- Chunks are inserted, and what becomes of the writes does no harm. If the insertion is done nothing is pending. -/
theorem Recorded.insert (fits : DirectoryFits dir) (h : ix.Recorded disk own)
    (sound : ix.IsSound dir most d disk own next count) {chunks : List Chunk}
    (good : ∀ c ∈ chunks, c.WellRead ∧ c.InOrder ∧ c.IsShallow) :
    ∃ answer ix' d' disk' own' next' count',
      (do let _ ← insertPrepared (chunks.map Entry.ofChunk) : Action (LexicalIndex α) Unit).runOn ix d
        = (answer, ix', d') ∧
      Disk.Changed (IndexPlace dir) dir.Way d d' ∧ ix'.IsSound dir most d' disk' own' next' count' ∧
      ix'.Recorded disk' own' ∧ (answer = .ok () → ix'.pending = []) := by
  have read : ∀ c ∈ chunks, c.WellRead := fun c hc => (good c hc).1
  have storable : ∀ change ∈ chunks.map Change.add, change.IsStorable := by
    intro change hc
    obtain ⟨c, hw, rfl⟩ := List.mem_map.1 hc
    exact ⟨read c hw, (good c hw).2.2⟩
  have sound₁ := (sound.changed (sound.read.putAll read) storable).advanced
  have recorded₁ := h.changed (fun c hc => (good c hc).2.1)
  obtain ⟨answer, d', disk', own', next', count', pending', run, change, kept, stage, done⟩ :=
    runOn_commit fits sound₁.kept sound₁.limit sound₁.read.wellRead
  rw [runOn_insertPrepared, addAll_of_shallow fun c hc => ⟨(read c hc).checked, (good c hc).2.2⟩]
  refine ⟨answer, _, d', disk', own', next', count', run, change, ⟨kept, sound₁.read, sound₁.limit⟩, ?_,
    fun answered => (done answered).1⟩
  have recorded₂ : (ix.changed (ix.entries.putAll (chunks.map fun c => (c.id, .ofChunk c)))
      (chunks.map .add)).advanced.Recorded disk own := ⟨recorded₁.entries, recorded₁.written, recorded₁.added⟩
  exact recorded₂.committed sound₁.read count' stage

end Recorded

end CodeSearch.LexicalIndex
