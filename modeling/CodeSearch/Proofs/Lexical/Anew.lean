import CodeSearch.Proofs.Lexical.Faults
import CodeSearch.Proofs.Lexical.Growth
/-!
# The lexical index made anew

What an index has been through does not show in its answers: an index that operations, searches and openings have led to
(`Entered`) answers as a fresh one does into which its chunks are inserted at once (`Entered.anew`).
-/

namespace CodeSearch.LexicalIndex

open Lexical CodeSearch.Action

/-! ## What an index has been through -/

section
variable {α : Type} {ix : LexicalIndex α}

/-- An index that was opened, and what operations and searches make of one. All chunks can stand in it; its parameters,
the disks, and what becomes of the writes, may be anything. -/
inductive Entered : LexicalIndex α → Prop where
  | opened {ix : LexicalIndex α} (directory : Option Path) (k1 b : Parameter α) (maxSegments : Except Fault Int)
      (unfit : Unfit) (d : Disk) (opened : openAt directory k1 b maxSegments unfit d = .ok ix)
      (enter : ∀ e ∈ ix.entries.values, e.chunk.Enters) : Entered ix
  | operation {ix : LexicalIndex α} (h : Entered ix) (op : Operation) (enter : ∀ c ∈ op.chunks, c.Enters) (d : Disk) :
      Entered (op.run.runOn ix d).2.1
  | searched {ix : LexicalIndex α} (h : Entered ix) : Entered ix.refreshed

/-- An entry that is made of its chunk again. -/
def Remade (e : Entry) : Prop := Entry.prepare e.chunk = .ok e ∧ e.chunk.Enters

theorem remade_of_prepare {c : Chunk} {e : Entry} (enters : c.Enters) (prepared : Entry.prepare c = .ok e) :
    Remade e := by
  obtain rfl := Chunk.eq_ofChunk_of_prepare prepared
  exact ⟨prepared, enters⟩

/-- Searches never read what is out of date, and every entry can be made anew of its chunk. -/
theorem Entered.isCurrent (h : Entered ix) : ix.IsCurrent ∧ FiledBy Remade ix.entries := by
  induction h with
  | opened directory k1 b maxSegments unfit d opened enter =>
    -- what is read from files went through the same preparation
    have read := (filedBy_of_openAt (p := fun e => Entry.prepare e.chunk = .ok e)
      (fun _ _ made => Chunk.prepare_of_ofJson made) opened).1
    exact ⟨isCurrent_of_openAt opened, fun item hi =>
      ⟨(read item hi).1, (read item hi).2, enter _ (List.mem_map_of_mem hi)⟩⟩
  | operation _ op enter d ih =>
    exact ⟨IsCurrent.keeps_operation op enter _ d ih.1,
      Closed.filedBy.keeps_operation op (fun c hc _ => remade_of_prepare (enter c hc)) _ d ih.2⟩
  | searched _ ih => exact ⟨ih.1.refreshed, ih.2⟩

/-! ## Inserting into a fresh index -/

/-- An index in memory with the parameters of another one, and without its entries. -/
def fresh (ix : LexicalIndex α) (maxSegments : Except Fault Int) : LexicalIndex α :=
  { blank none ix.k1 ix.b maxSegments with unfit := ix.unfit }

/-- Entries that can stand in an index without a directory are all in it at once. -/
theorem runOn_insertPrepared_none (directory : ix.directory = none) {entries : List Entry}
    (enter : ∀ e ∈ entries, e.chunk.Enters) (d : Disk) :
    ∃ ix', (insertPrepared entries).runOn ix d = (.ok entries.length, ix', d) ∧
      ix'.entries = ix.entries.putAll (entries.map fun e => (e.chunk.id, e)) ∧ ix'.k1 = ix.k1 ∧ ix'.b = ix.b ∧
      ix'.unfit = ix.unfit ∧ (ix.IsCurrent → ix'.IsCurrent) := by
  have nowhere : (ix.changed (ix.entries.putAll (entries.map fun e => (e.chunk.id, e)))
      (entries.map fun e => .add e.chunk)).advanced.directory = none := directory
  rw [insertPrepared, runOn_bind_ok (runOn_memory _ _)]
  simp only [addAll_of_enters enter]
  rw [runOn_bind_ok (runOn_setMemory _ _ _), runOn_bind_ok (runOn_ofExcept _ _ _),
    runOn_bind_ok (runOn_modifyMemory _ _ _), runOn_bind_ok (runOn_commit_none nowhere)]
  exact ⟨_, rfl, rfl, rfl, rfl, rfl, fun current => (current.advanced _ _).refreshed⟩

end

/-! ## Answers -/

section Answers
variable {α : Type} [Scalar α] {ix other : LexicalIndex α}

/-- No search and no look at the chunks tells two indexes apart. -/
structure AnswersAlike (ix other : LexicalIndex α) : Prop where
  search : ∀ text maxResults kind, ix.search text maxResults kind = other.search text maxResults kind
  searchName : ∀ pattern maxResults, ix.searchName pattern maxResults = other.searchName pattern maxResults
  searchPath : ∀ pattern maxResults, ix.searchPath pattern maxResults = other.searchPath pattern maxResults
  count : ix.count = other.count
  chunk? : ∀ id, ix.chunk? id = other.chunk? id
  chunks : ix.chunks = other.chunks

/-- All answers come of the entries that searches read and of the parameters. -/
theorem AnswersAlike.of_view (view : ix.view.entries = other.view.entries) (k1 : ix.k1 = other.k1) (b : ix.b = other.b)
    (unfit : ix.unfit = other.unfit) : ix.AnswersAlike other := by
  have model (field : Field) : ix.model? field = other.model? field := by simp only [model?, view, k1, b]
  have ranked (q : Query) (field : Field) (maxResults : Int) (kind : Option ChunkKind) :
      ix.ranked q field maxResults kind = other.ranked q field maxResults kind := by
    simp only [LexicalIndex.ranked, rank, model, view, unfit]
  have searchField (field : Field) (pattern : String) (maxResults : Int) :
      ix.searchField field pattern maxResults = other.searchField field pattern maxResults := by
    simp only [LexicalIndex.searchField, matching, ranked, view]
  exact {
    search := fun text maxResults kind => by simp only [LexicalIndex.search, ranked]
    searchName := searchField .name
    searchPath := searchField .path
    count := by simp only [LexicalIndex.count, view]
    chunk? := fun id => by simp only [LexicalIndex.chunk?, view]
    chunks := by simp only [LexicalIndex.chunks, view] }

/-- A fresh index takes the chunks of an index, in their order, and then answers as that one does. -/
theorem Entered.anew (h : Entered ix) (maxSegments : Except Fault Int) (d : Disk) :
    ∃ filled, (insertBatch (ix.entries.values.map Entry.chunk)).runOn (ix.fresh maxSegments) d
        = (.ok ix.entries.values.length, filled, d) ∧ ix.AnswersAlike filled := by
  obtain ⟨current, filed⟩ := h.isCurrent
  have prepared : (ix.entries.values.map Entry.chunk).mapM Entry.prepare = .ok ix.entries.values :=
    mapM_map_ok fun e he => (filed.values e he).1
  have nowhere : (ix.fresh maxSegments).directory = none := rfl
  obtain ⟨filled, inserted, entries, k1, b, unfit, current'⟩ :=
    runOn_insertPrepared_none nowhere (fun e he => (filed.values e he).2) d
  have again : filled.entries = ix.entries := by
    rw [entries, filed.items_eq]
    exact Keyed.ofList_items ix.entries
  refine ⟨filled, ?_, .of_view ?_ k1.symm b.symm unfit.symm⟩
  · rw [insertBatch, prepared, runOn_bind_ok (runOn_ofExcept _ _ _), inserted]
  · rw [current.view, (current' ⟨le_rfl, fun _ => rfl⟩).view, again]

end Answers

end CodeSearch.LexicalIndex
