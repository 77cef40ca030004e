import CodeSearch.Indexing.Directory
import CodeSearch.Proofs.Indexing.Batch
import CodeSearch.Proofs.Lexical.Stock
import CodeSearch.Proofs.Vector.Anew
/-!
# Nothing is left to be stored

An indexer is idle when no change waits for the disk. A report that says that everything is persisted is true of the
indexer in this sense, whatever was in its indexes before (`leaves_indexDirectory`): the lexical index has committed what
was pending, and the vectors have been saved.
-/

namespace CodeSearch.LexicalIndex

open Lexical CodeSearch.Action

variable {α : Type}

theorem keeps_compact_pending (dir : Path) :
    Keeps (fun ix => ix.pending = []) (compact dir : Action (LexicalIndex α) Unit) := by
  have segment (changes : List Change) :
      Keeps (fun ix => ix.pending = []) (writeSegment dir changes : Action (LexicalIndex α) String) := by
    refine keeps_memory fun _ _ => (keeps_store _ _ _).bind fun _ => Keeps.bind (keeps_modifyMemory ?_) fun _ => ?_
    · exact fun _ h => h
    · exact keeps_pure _
  refine keeps_memory fun ix _ => (keeps_ofExcept _).bind fun _ => (segment _).bind fun name => ?_
  refine Keeps.bind (keeps_modifyMemory ?_) fun _ => ?_
  · exact fun _ h => h
  · exact (keeps_writeManifest dir).bind fun _ => keeps_discardSegments dir _

/-- A commit that is done leaves nothing pending. -/
theorem leaves_commit {p : LexicalIndex α → Prop} :
    Leaves p (fun _ ix => ix.pending = []) (commit : Action (LexicalIndex α) Unit) := by
  refine (leaves_nothing (modifyMemory refreshed)).bind fun _ => leaves_memory fun ix _ => ?_
  split
  · exact leaves_setMemory rfl
  next dir _ =>
    split
    next =>
      -- what is pending is dropped when the manifest names it, and a compaction after that adds nothing
      refine (leaves_nothing (writeSegment dir ix.pending)).bind fun name => ?_
      refine (leaves_nothing (modifyMemory _)).bind fun _ => (leaves_nothing (writeManifest dir)).bind fun _ => ?_
      have dropped : Leaves (fun _ => True) (fun _ ix => ix.pending = [])
          (modifyMemory fun ix : LexicalIndex α => { ix with pending := [] }) := leaves_modifyMemory fun _ _ => rfl
      refine dropped.bind fun _ => Keeps.leaves (keeps_memory fun ix _ => (keeps_ofExcept _).bind fun most => ?_)
      split
      · exact keeps_compact_pending dir
      · exact keeps_pure _
    next none =>
      have empty : ix.pending = [] := by simpa using none
      exact leaves_pure fun _ same => same ▸ empty

theorem leaves_insertPrepared {p : LexicalIndex α → Prop} (entries : List Entry) :
    Leaves p (fun _ ix => ix.pending = []) (insertPrepared entries : Action (LexicalIndex α) Nat) := by
  refine leaves_memory fun ix _ => (leaves_nothing (setMemory _)).bind fun _ => ?_
  refine (leaves_nothing (ofExcept _)).bind fun _ => (leaves_nothing (modifyMemory _)).bind fun _ => ?_
  exact leaves_commit.bind fun _ => (keeps_pure _).leaves

end CodeSearch.LexicalIndex

namespace CodeSearch.VectorIndex

open CodeSearch.Action

theorem leaves_save {p : VectorIndex Float → Prop} (target : Option Path) :
    Leaves p (fun _ ix => ix.dirty = false) (save target) := by
  refine leaves_memory fun ix _ => ?_
  split
  · exact leaves_throw _
  · refine (leaves_nothing (ofExcept _)).bind fun value => (leaves_nothing (store _ _ _)).bind fun _ => ?_
    exact leaves_modifyMemory fun _ _ => rfl

end CodeSearch.VectorIndex

namespace CodeSearch.Indexer

open Indexing CodeSearch.Action

/-- If there is an index of vectors, it has a place on the disk. -/
def Placed (ix : Indexer) : Prop := ∀ v ∈ ix.vectors, v.snapshotPath.isSome = true

/-- No change waits for the disk. -/
structure IsIdle (ix : Indexer) : Prop where
  pending : ix.lexical.pending = []
  clean : ∀ v ∈ ix.vectors, v.dirty = false

/-! ## Stages of a commit -/

section Stages
variable {p q : Indexer → Prop}

/-- Work on the index of vectors, of which the other indexes know nothing. -/
theorem leaves_onVectors {inside left : VectorIndex Float → Prop} {work : Action (VectorIndex Float) Unit}
    (h : Leaves inside (fun _ => left) work) (before : ∀ ix, p ix → ∀ v ∈ ix.vectors, inside v)
    (frame : ∀ ix v, p ix → q { ix with vectors := some v }) (idle : ∀ ix, p ix → q ix) :
    Leaves p (fun _ ix => q ix ∧ ∀ v ∈ ix.vectors, left v) (onVectors work) := by
  refine leaves_memory fun ix hp => ?_
  split
  next none =>
    refine leaves_pure fun _ same => ?_
    subst same
    exact ⟨idle _ hp, by simp [none]⟩
  next v there =>
    refine h.onPart (fun _ _ => before ix hp v there) fun s _ v' same hv => ⟨frame s v' (same ▸ hp), fun other ho => ?_⟩
    obtain rfl := Option.some.inj ho
    exact hv

theorem leaves_storageFault? {work : Action Indexer Unit} (h : Leaves p (fun _ => q) work) :
    Leaves p (fun fault ix => fault = none → q ix) (storageFault? work) := by
  rintro ix d fault ix' d' hp run rfl
  generalize done : work.runOn ix d = after
  obtain ⟨answer, ix₁, d₁⟩ := after
  obtain ⟨_, same, clean, _⟩ := runOn_storageFault? done
  rw [run] at same
  cases same
  obtain rfl := clean rfl
  exact h ix d () _ _ hp done

theorem leaves_insertVectors (now : Float) (batch : Batch) :
    Leaves Placed (fun _ => Placed) (onVectors (insertVectors now batch)) := by
  have inside : Keeps (fun v : VectorIndex Float => v.snapshotPath.isSome = true) (insertVectors now batch) := by
    refine keeps_memory fun v placed => ?_
    have same := VectorIndex.sameSetup_insertEmbedded now batch.chunks (batch.vectors.map Tensor.ofList) v
    exact (keeps_setMemory (same.snapshotPath ▸ placed)).bind fun _ => (keeps_ofExcept _).bind fun _ => keeps_pure _
  have placed := leaves_onVectors (q := fun _ => True) inside.leaves (fun _ => id) (fun _ _ _ => trivial) fun _ _ =>
    trivial
  exact placed.mono (fun _ => id) fun _ _ => And.right

theorem leaves_insertEntries (batch : Batch) :
    Leaves Placed (fun _ ix => ix.Placed ∧ ix.lexical.pending = []) (insertEntries batch) := by
  have inside : Leaves (fun _ => True) (fun _ lexical => lexical.pending = [])
      (do let _ ← LexicalIndex.insertPrepared batch.entries : Action (LexicalIndex Float) Unit) :=
    (LexicalIndex.leaves_insertPrepared batch.entries).bind fun _ => (keeps_pure ()).leaves
  exact inside.onPart (fun _ _ => trivial) fun _ _ _ placed pending => ⟨placed, pending⟩

/-- What is persisted has been saved, if it has a place. -/
theorem leaves_persist : Leaves (fun ix => ix.Placed ∧ ix.lexical.pending = []) (fun _ => IsIdle) persist := by
  refine leaves_memory fun ix ⟨placed, pending⟩ => ?_
  have saved : Leaves (fun s => s = ix) (fun _ => IsIdle) (onVectors (VectorIndex.save none)) := by
    have clean := leaves_onVectors (p := fun ix => ix.lexical.pending = []) (VectorIndex.leaves_save none)
      (fun _ _ _ _ => trivial) (fun _ _ => id) fun _ => id
    exact clean.mono (fun s same => same ▸ pending) fun _ _ ⟨pending, clean⟩ => ⟨pending, clean⟩
  have stored (path : Path) :
      Keeps IsIdle (onPart Indexer.store (fun ix store => { ix with store }) (ChunkStore.save path)) := by
    have inside : Keeps (fun _ => True) (ChunkStore.save path) := fun _ _ _ => trivial
    exact inside.onPart (fun _ _ => trivial) fun _ _ idle _ => ⟨idle.pending, idle.clean⟩
  have vectorless (unplaced : ¬ (ix.vectors.any fun v => v.snapshotPath.isSome) = true) : ix.IsIdle := by
    refine ⟨pending, fun v there => absurd ?_ unplaced⟩
    exact (Option.any_eq_true _ _).2 ⟨v, there, placed v there⟩
  split
  next path _ =>
    split
    next => exact saved.bind fun _ => (stored path).leaves
    next unplaced =>
      exact ((stored path).leaves).mono (fun s same => same ▸ vectorless unplaced) fun _ _ => id
  next =>
    split
    next => exact saved.bind fun _ => (keeps_pure _).leaves
    next unplaced => exact leaves_pure fun s same => same ▸ vectorless unplaced

theorem keeps_register {c : Chunk} (frame : ∀ ix store, p ix → p { ix with store }) : Keeps p (register c) :=
  keeps_memory fun ix h => keeps_answer fun store _ => keeps_setMemory (frame ix store h)

theorem keeps_rebuildGraph (frame : ∀ ix graph, p ix → p { ix with graph }) : Keeps p rebuildGraph := by
  refine keeps_memory fun ix h => ?_
  split
  · exact keeps_pure _
  · exact (keeps_setMemory (frame ix _ h)).bind fun _ => keeps_ofExcept _

end Stages

/-! ## Reports -/

/-- Where a report says that everything is persisted, nothing waits for the disk. -/
theorem leaves_commit (now : Float) (batch : Batch) :
    Leaves Placed (fun report ix => report.persisted = true → ix.IsIdle) (commit now batch) := by
  refine leaves_anyMemory fun ix => leaves_answer fun batch => (leaves_insertVectors now batch).bind fun _ => ?_
  refine (leaves_storageFault? (leaves_insertEntries batch)).bind fun lexicalFault => ?_
  have registered : Keeps (fun ix : Indexer => lexicalFault = none → ix.Placed ∧ ix.lexical.pending = [])
      (batch.chunks.forM register) := Keeps.forM fun _ => keeps_register fun _ _ h => h
  refine registered.leaves.bind fun _ => ?_
  -- what comes after a fault of the lexical index does not matter: the report tells of it
  have persisted : Leaves (fun ix : Indexer => lexicalFault = none → ix.Placed ∧ ix.lexical.pending = [])
      (fun storeFault ix => lexicalFault = none → storeFault = none → ix.IsIdle) (storageFault? persist) := by
    cases lexicalFault with
    | none => exact (leaves_storageFault? leaves_persist).mono (fun _ h => h rfl) fun _ _ h _ => h
    | some fault => exact (leaves_nothing _).mono (fun _ => id) fun _ _ _ => nofun
  refine persisted.bind fun storeFault => ?_
  have rebuilt : Keeps (fun ix : Indexer => lexicalFault = none → storeFault = none → ix.IsIdle) rebuildGraph :=
    keeps_rebuildGraph fun _ _ h some none => ⟨(h some none).pending, (h some none).clean⟩
  refine rebuilt.leaves.bind fun _ => leaves_memory fun ix idle => leaves_pure ?_
  rintro _ rfl clean
  have none : lexicalFault.toList ++ storeFault.toList = [] := List.isEmpty_iff.1 clean
  obtain ⟨lexical, store⟩ := List.append_eq_nil_iff.1 none
  exact idle (Option.toList_eq_nil_iff.1 lexical) (Option.toList_eq_nil_iff.1 store)

end CodeSearch.Indexer
