import CodeSearch.Proofs.Lexical.Faults
import CodeSearch.Proofs.Lexical.Stock
/-!
# By what faults a commit ends

What an index writes are its entries, its pending changes and the names of its segments, and no step of a commit brings
in anything else. So a condition on an index that tells which faults can keep these from the disk, and that the steps
of a commit keep (`Writes`), tells by which faults a commit ends (`Writes.ends_commit`).
-/

namespace CodeSearch.LexicalIndex

open Lexical CodeSearch.Action

variable {α : Type}

/-- What keeps the parts of an index from being written to a directory is a fault of a kind. -/
structure Forms (bad : Fault → Prop) (dir : Path) (ix : LexicalIndex α) : Prop where
  limit : FailsBy bad ix.maxSegments
  records : ∀ e ∈ ix.entries.values, FailsBy bad e.chunk.stored
  pending : FailsBy bad (Disk.checkContent (segmentContent ix.pending))
  entries : FailsBy bad (Disk.checkContent (segmentContent ix.asChanges))
  manifest : FailsBy bad (Disk.checkContent (manifestContent ix.segments ix.nextSegment))
  segments : ∀ name ∈ ix.segments, (dir.child name).Passes bad

/-- A condition on an index that the steps of a commit keep, and under which only faults of a kind can end one. -/
structure Writes (bad : Fault → Prop) (directory : Option Path) (p : LexicalIndex α → Prop) : Prop where
  placed {ix : LexicalIndex α} : p ix → ix.directory = directory
  refreshed {ix : LexicalIndex α} : p ix → p ix.refreshed
  written {ix : LexicalIndex α} : p ix → p { ix with pending := [] }
  numbered {ix : LexicalIndex α} : p ix → p { ix with nextSegment := ix.nextSegment + 1 }
  listed {ix : LexicalIndex α} {names : List String} (n : Int) : (∀ name ∈ names, name ∈ ix.segments) → p ix →
    p { ix with segments := names ++ [segmentName n] }
  forms {ix : LexicalIndex α} {dir : Path} : dir ∈ directory → p ix → ix.Forms bad dir
  files {dir : Path} {name : String} : dir ∈ directory → IsPlainName name → (dir.child name).Takes bad
  storage (text : String) (cause : Fault) : bad (.storage .writeLexical text cause)

namespace Writes

variable {bad : Fault → Prop} {directory : Option Path} {p : LexicalIndex α → Prop} {dir : Path}

/-- What a commit leaves alone can be told along with it. -/
theorem and (writes : Writes bad directory p) {C : LexicalIndex α → Prop} (steady : Steady C) :
    Writes bad directory fun ix => p ix ∧ C ix where
  placed h := writes.placed h.1
  refreshed h := ⟨writes.refreshed h.1, steady.refreshed h.2⟩
  written h := ⟨writes.written h.1, steady.stored _ _ _ h.2⟩
  numbered h := ⟨writes.numbered h.1, steady.stored _ _ _ h.2⟩
  listed n old h := ⟨writes.listed n old h.1, steady.stored _ _ _ h.2⟩
  forms there h := writes.forms there h.1
  files := writes.files
  storage := writes.storage

variable (writes : Writes bad directory p)
include writes

section Steps
variable (there : dir ∈ directory)
include there

theorem ends_writeManifest : Ends p bad (writeManifest dir) :=
  ends_memory fun _ h =>
    ends_store writes.storage (writes.files there isPlainName_manifestName) (writes.forms there h).manifest

/-- A segment is written, and its name is used. -/
theorem ends_writeSegment {β : Type} {changes : List Change} {next : String → Action (LexicalIndex α) β}
    (fits : FailsBy bad (Disk.checkContent (segmentContent changes))) (rest : ∀ n, Ends p bad (next (segmentName n))) :
    Ends p bad (writeSegment dir changes >>= next) := by
  rw [writeSegment, bind_assoc]
  refine ends_memory fun ix _ => ?_
  simp only [bind_assoc, pure_bind]
  refine (ends_store writes.storage (writes.files there (isPlainName_segmentName _)) fits).bind fun _ => ?_
  exact (ends_modifyMemory fun _ h => writes.numbered h).bind fun _ => rest _

theorem ends_compact : Ends p bad (compact dir) := by
  refine ends_memory fun ix h => ?_
  have forms := writes.forms there h
  refine ends_answer (.mapM forms.records) fun _ _ => writes.ends_writeSegment there forms.entries fun n => ?_
  refine (ends_modifyMemory fun _ h => writes.listed n (List.forall_mem_nil _) h).bind fun _ => ?_
  refine (writes.ends_writeManifest there).bind fun _ => Ends.forM fun name old => ?_
  exact ends_discard (forms.segments name old)

theorem ends_commitPending {ix : LexicalIndex α} (h : p ix) : Ends p bad (commitPending dir ix.pending) := by
  refine writes.ends_writeSegment there (writes.forms there h).pending fun n => ?_
  refine (ends_modifyMemory fun ix h => writes.listed n (fun _ => id) h).bind fun _ => ?_
  refine (writes.ends_writeManifest there).bind fun _ => ?_
  refine (ends_modifyMemory fun _ h => writes.written h).bind fun _ => ends_memory fun ix h => ?_
  refine ends_answer (writes.forms there h).limit fun most _ => ?_
  split
  · exact writes.ends_compact there
  · exact ends_pure _

end Steps

theorem ends_commit : Ends p bad commit := by
  refine (ends_modifyMemory fun _ h => writes.refreshed h).bind fun _ => ends_memory fun ix h => ?_
  have placed := writes.placed h
  split
  · exact ends_setMemory (writes.written h)
  next dir there =>
    split
    · exact writes.ends_commitPending (placed ▸ there) h
    · exact ends_pure _

/-- Entries are inserted, if only faults of a kind keep them from being added. -/
theorem ends_insertPrepared {entries : List Entry}
    (added : ∀ ix, p ix → FailsBy bad (addAll entries ix).1 ∧ p (addAll entries ix).2)
    (advanced : ∀ ix, p ix → p ix.advanced) : Ends p bad (insertPrepared entries) := by
  refine ends_memory fun ix h => (ends_setMemory (added ix h).2).bind fun _ => ?_
  refine (ends_ofExcept (added ix h).1).bind fun _ => (ends_modifyMemory advanced).bind fun _ => ?_
  exact writes.ends_commit.bind fun _ => ends_pure _

end Writes

end CodeSearch.LexicalIndex
