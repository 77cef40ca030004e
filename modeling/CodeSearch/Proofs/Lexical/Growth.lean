import CodeSearch.Proofs.Lexical.Hits
import CodeSearch.Proofs.Lexical.Outcome
/-!
# How a lexical index comes about

An index is opened, chunks go in and out, and it is searched, all in any order and with any faults of the disk
(`Grown`). Its entries are then those of their chunks (`Grown.made`). If all chunks can be written as records, no
operation ends before it has counted the generation on, and so searches never read a snapshot that is out of date
(`Grown.isCurrent`).
-/

namespace CodeSearch.LexicalIndex

open Lexical CodeSearch.Action

variable {α : Type}

/-- An index that was opened with parameters that can be computed with, and what operations, prepared batches and
searches make of one. The chunks that go in satisfy a condition; the disks, and what becomes of the writes, may be
anything. -/
inductive Grown (p : Chunk → Prop) : LexicalIndex α → Prop where
  | opened {ix : LexicalIndex α} (directory : Option Path) (k1 b : Parameter α) (maxSegments : Except Fault Int) (d : Disk)
      (opened : openAt directory k1 b maxSegments [] d = .ok ix) : Grown p ix
  | operation {ix : LexicalIndex α} (h : Grown p ix) (op : Operation) (fits : ∀ c ∈ op.chunks, p c) (d : Disk) :
      Grown p (op.run.runOn ix d).2.1
  | inserted {ix : LexicalIndex α} (h : Grown p ix) {chunks : List Chunk} (fits : ∀ c ∈ chunks, p c) (d : Disk) :
      Grown p ((insertPrepared (chunks.map Entry.ofChunk)).runOn ix d).2.1
  | searched {ix : LexicalIndex α} (h : Grown p ix) : Grown p ix.refreshed

variable {p : Chunk → Prop} {ix : LexicalIndex α}

theorem Grown.mono {q : Chunk → Prop} (imp : ∀ c, p c → q c) (h : Grown p ix) : Grown q ix := by
  induction h with
  | opened directory k1 b maxSegments d opened => exact .opened directory k1 b maxSegments d opened
  | operation _ op fits d ih => exact ih.operation op (fun c hc => imp c (fits c hc)) d
  | inserted _ fits d ih => exact ih.inserted (fun c hc => imp c (fits c hc)) d
  | searched _ ih => exact ih.searched

theorem Grown.lived (checked : ∀ c, p c → c.unchecked = []) (h : Grown p ix) : Lived ix := by
  induction h with
  | opened directory k1 b maxSegments d opened => exact .opened directory k1 b maxSegments d opened
  | operation _ op fits d ih => exact ih.operation op (fun c hc => checked c (fits c hc)) d
  | inserted _ fits d ih => exact ih.inserted (List.forall_mem_map.2 fun c hc => checked c (fits c hc)) d
  | searched _ ih => exact ih.searched

/-- All entries hold the tokens of their chunks. -/
theorem Grown.made (h : Grown p ix) : ix.Stocked fun e => e = .ofChunk e.chunk := by
  induction h with
  | opened directory k1 b maxSegments d opened => exact .of_openAt (fun _ _ => rfl) opened
  | operation _ op _ d ih => exact Stocked.keeps_operation op (fun _ _ => rfl) _ d ih
  | inserted _ _ d ih =>
    refine Stocked.keeps_insertPrepared ?_ _ d ih
    exact List.forall_mem_map.2 fun _ _ => rfl
  | searched _ ih => exact ih.refreshed

/-! ## Snapshots that are not out of date -/

theorem IsCurrent.steady : Steady (IsCurrent (α := α)) := ⟨refreshed, fun _ _ _ h => h⟩

theorem IsCurrent.keeps_insertPrepared {entries : List Entry} (good : ∀ e ∈ entries, e.chunk.Enters) :
    Keeps IsCurrent (insertPrepared entries : Action (LexicalIndex α) Nat) := by
  intro ix d h
  -- every chunk makes a record, so that the generation is counted on before the commit
  rw [insertPrepared, runOn_bind_ok (runOn_memory _ _)]
  simp only [addAll_of_enters good]
  rw [runOn_bind_ok (runOn_setMemory _ _ _), runOn_bind_ok (runOn_ofExcept _ _ _),
    runOn_bind_ok (runOn_modifyMemory _ _ _)]
  exact (IsCurrent.steady.keeps_commit.bind fun _ => keeps_pure _) _ d (h.moved rfl rfl)

theorem IsCurrent.keeps_insertBatch {chunks : List Chunk} (good : ∀ c ∈ chunks, c.Enters) :
    Keeps IsCurrent (insertBatch chunks : Action (LexicalIndex α) Nat) := by
  refine keeps_answer fun entries prepared => ?_
  rw [eq_map_of_mapM_ok (fun c _ e => Chunk.eq_ofChunk_of_prepare) prepared]
  exact keeps_insertPrepared (List.forall_mem_map.2 good)

theorem IsCurrent.keeps_deleteSelected (q : Query) :
    Keeps IsCurrent (deleteSelected q : Action (LexicalIndex α) Nat) := by
  unfold deleteSelected
  split
  · exact keeps_pure _
  · refine (keeps_modifyMemory fun _ h => h.refreshed).bind fun _ => keeps_memory fun ix h => ?_
    simp only []
    split
    · refine (keeps_setMemory ?_).bind fun _ => steady.keeps_commit.bind fun _ => keeps_pure _
      obtain ⟨changes, eq, _⟩ := foldl_deleted ((ix.view.entries.filter fun e => q.selects e.tokens).map
        fun e => e.chunk.id) ix
      rw [eq]
      exact h.moved rfl rfl
    · exact keeps_pure _

theorem IsCurrent.keeps_clear : Keeps IsCurrent (clear : Action (LexicalIndex α) Unit) := by
  refine keeps_memory fun old h => (keeps_setMemory ?_).bind fun _ => ?_
  · exact h.moved rfl rfl
  split
  · exact keeps_pure _
  · refine (keeps_modifyMemory fun _ h => steady.stored _ _ _ h).bind fun _ => ?_
    exact (keeps_writeManifest _).bind fun _ => keeps_discardSegments _ _

/-- Operations keep an index current, whatever becomes of their writes, if the chunks can stand in it. -/
theorem IsCurrent.keeps_operation (op : Operation) (good : ∀ c ∈ op.chunks, c.Enters) :
    Keeps IsCurrent (op.run : Action (LexicalIndex α) Unit) := by
  cases op with
  | insert chunk => exact (keeps_insertBatch good).bind fun _ => keeps_pure _
  | insertBatch chunks => exact (keeps_insertBatch good).bind fun _ => keeps_pure _
  | deleteByQuery text =>
    exact (keeps_answer fun q _ => keeps_deleteSelected q).bind fun _ => keeps_pure _
  | clear => exact keeps_clear
  | commit => exact steady.keeps_commit
  | close => exact steady.keeps_close

theorem isCurrent_of_openAt {directory : Option Path} {k1 b : Parameter α} {maxSegments : Except Fault Int}
    {unfit : Unfit} {d : Disk} (opened : openAt directory k1 b maxSegments unfit d = .ok ix) : ix.IsCurrent := by
  have blank : ({ blank directory k1 b maxSegments with unfit }).IsCurrent := ⟨le_rfl, fun _ => rfl⟩
  rcases openAt_cases opened with rfl | ⟨_, _, _, _, _, _, rfl⟩
  · exact blank
  · exact blank.moved rfl rfl

/-- If all chunks can be written as records, the snapshot is never out of date. -/
theorem Grown.isCurrent (good : ∀ c, p c → c.unchecked = [] ∧ c.IsShallow) (h : Grown p ix) : ix.IsCurrent := by
  have enters : ∀ c, p c → c.Enters := fun c hc => Chunk.enters_of_shallow (good c hc).1 (good c hc).2
  induction h with
  | opened directory k1 b maxSegments d opened => exact isCurrent_of_openAt opened
  | operation _ op fits d ih => exact IsCurrent.keeps_operation op (fun c hc => enters c (fits c hc)) _ d ih
  | inserted _ fits d ih =>
    exact IsCurrent.keeps_insertPrepared (List.forall_mem_map.2 fun c hc => enters c (fits c hc)) _ d ih
  | searched _ ih => exact ih.refreshed

end CodeSearch.LexicalIndex
