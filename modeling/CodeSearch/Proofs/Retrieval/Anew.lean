import CodeSearch.Proofs.Lexical.Anew
import CodeSearch.Proofs.Vector.Anew
/-!
# Answers do not tell what an index has been through

Main statement: whatever runs have led to a lexical index or to an index of flat vectors, the snapshot that searches
read is not out of date, and all answers are those of a fresh index into which the same content is inserted at once
(`answers_anew`).
-/

namespace CodeSearch

open Lexical CodeSearch.Action

/-- A lexical index that operations, searches and openings have led to, with failures of any writes, answers as a fresh
index in memory does that has the same parameters and takes its chunks in their order. An index of flat vectors that
writes and searches have led to, calls that fail included, finds by vectors what a fresh one does that takes its vectors
in their order. -/
theorem answers_anew {α : Type} [Scalar α] :
    (∀ ix : LexicalIndex α, ix.Entered → ix.view.entries = ix.entries.values ∧
      ∀ maxSegments d, ∃ filled, (LexicalIndex.insertBatch (ix.entries.values.map Entry.chunk)).runOn
        (ix.fresh maxSegments) d = (.ok ix.entries.values.length, filled, d) ∧ ix.AnswersAlike filled) ∧
    ∀ ix : VectorIndex α, ix.Flat → (∀ s, ix.view = .ok s → s.rows = ix.rows) ∧
      ∀ now dimension, dimension = .null ∨ dimension = ix.dimension → ∃ filled,
        (ix.fresh dimension).insertEmbedded now ix.chunks.values (ix.vectors.map Tensor.ofList)
          = (.ok ix.chunks.values.length, filled) ∧
        ∀ query maxResults least exclude,
          ix.findVector query maxResults least exclude = filled.findVector query maxResults least exclude := by
  refine ⟨fun ix h => ⟨h.isCurrent.1.view, h.anew⟩, fun ix h => ⟨fun s read => ?_, fun now _ => h.anew now⟩⟩
  exact (h.settled.current.view read).2.1

/-- One index is cleared and filled again. In another one a vector takes the place of one of another width, after a try
that is refused while the width is known. -/
theorem answers_anew_refilled :
    let x := Chunk.plain "x" "alpha"
    let y := Chunk.plain "y" "beta"
    let opened : LexicalIndex Float := .blank none (.whole 1) (.whole 1) (.ok 10)
    let emptied := (Operation.clear.run.runOn ((Operation.insert x).run.runOn opened Disk.blank).2.1 Disk.blank).2.1
    let ix := ((Operation.insertBatch [y, x]).run.runOn emptied Disk.blank).2.1
    let begun : VectorIndex Float := .blank ⟨fun _ => .error .wrongType, none, fun _ => .error .wrongType⟩ none .null
      (.ok 1) (.ok (.whole 50000))
    let removed := ((begun.insertEmbedded 0 [x] [.ofList [1]]).2.remove "x").2
    let refused := (removed.insertEmbedded 0 [y] [.ofList [1, 2]]).2
    let v := (refused.insertEmbedded 0 [y] [.ofList [2]]).2
    ix.Entered ∧ ix.entries.keys = ["y", "x"] ∧ ix.view.entries = ix.entries.values ∧
      (∃ filled, (LexicalIndex.insertBatch (ix.entries.values.map Entry.chunk)).runOn (ix.fresh (.ok 10)) Disk.blank
        = (.ok ix.entries.values.length, filled, Disk.blank) ∧ ix.AnswersAlike filled) ∧
      v.Flat ∧ v.entries.keys = ["y"] ∧ v.vectors.map List.length = [1] ∧
      ∃ filled, (v.fresh .null).insertEmbedded 1 v.chunks.values (v.vectors.map Tensor.ofList)
        = (.ok v.chunks.values.length, filled) ∧
        ∀ query maxResults least exclude,
          v.findVector query maxResults least exclude = filled.findVector query maxResults least exclude := by
  intro x y opened emptied ix begun removed refused v
  have entered : ix.Entered := by
    have enter {c : Chunk} (checked : c.unchecked = []) (shallow : c.IsShallow) : c.Enters :=
      Chunk.enters_of_shallow checked shallow
    have none : opened.Entered := .opened none _ _ _ [] Disk.blank rfl (List.forall_mem_nil _)
    refine ((none.operation (.insert x) ?_ Disk.blank).operation .clear ?_ Disk.blank).operation (.insertBatch [y, x]) ?_
      Disk.blank
    · exact List.forall_mem_singleton.2 (enter rfl (by decide))
    · exact List.forall_mem_nil _
    · exact List.forall_mem_cons.2 ⟨enter rfl (by decide), List.forall_mem_singleton.2 (enter rfl (by decide))⟩
  have flat : v.Flat := by
    have named (c : Chunk) (h : c.checkId = .ok ()) : ∀ other ∈ [c], other.checkId = .ok () :=
      List.forall_mem_singleton.2 h
    have short (vector : List Float) (h : vector.length < VectorIndex.columnLimit) :
        ∀ other ∈ [vector], other.length < VectorIndex.columnLimit := List.forall_mem_singleton.2 h
    have none : begun.Flat := .blank _ _ _ _ _ none rfl
    exact (((none.insertedEmbedded 0 (named x rfl) (short [1] (by decide))).removed "x").insertedEmbedded 0
      (named y rfl) (short [1, 2] (by decide))).insertedEmbedded 0 (named y rfl) (short [2] (by decide))
  obtain ⟨lexical, vectors⟩ := answers_anew (α := Float)
  obtain ⟨current, anew⟩ := lexical ix entered
  exact ⟨entered, by decide +kernel, current, anew _ _, flat, by decide +kernel, by decide +kernel,
    (vectors v flat).2 1 .null (.inl rfl)⟩

end CodeSearch
