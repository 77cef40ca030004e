import CodeSearch.Indexing.Batch
import CodeSearch.Proofs.Lexical.Endings
/-!
# By what faults the stages of a commit end

A commit of a batch comes in stages, each of which writes to one of the indexes. For each stage there is a lemma that
says by which faults it ends, and what it keeps, from what is known of the index that it writes to.
-/

namespace CodeSearch

open CodeSearch.Action

variable {bad : Fault → Prop}

theorem VectorIndex.failsBy_payload {v : VectorIndex Float} (records : ∀ c ∈ v.chunks.values, FailsBy bad c.stored) :
    FailsBy bad v.payload := by
  refine FailsBy.bind (.mapM fun item hi => ?_) fun _ _ => .ok _
  exact (records item.2 (List.mem_map_of_mem hi)).bind fun _ _ => .ok _

theorem VectorIndex.ends_save {q : VectorIndex Float → Prop}
    (storage : ∀ text cause, bad (.storage .saveVectors text cause)) (placeless : bad .noSnapshotPath)
    (files : ∀ v, q v → ∀ path ∈ v.snapshotPath, path.Takes bad ∧ FailsBy bad v.payload)
    (cleaned : ∀ v, q v → q { v with dirty := false }) : Ends q bad (save none) := by
  refine ends_memory fun v h => ?_
  split
  · exact ends_throw placeless
  next path target =>
    obtain ⟨takes, payload⟩ := files v h path target
    refine ends_answer payload fun value _ => ?_
    exact (ends_store storage takes (.ok _)).bind fun _ => ends_modifyMemory cleaned

theorem ChunkStore.ends_save {q : ChunkStore → Prop} {path : Path}
    (storage : ∀ text cause, bad (.storage .saveChunks text cause)) (takes : path.Takes bad)
    (records : ∀ s, q s → ∀ c ∈ s.toList, FailsBy bad c.stored)
    (forms : ∀ s content, q s → s.content = .ok content → FailsBy bad (Disk.checkContent content)) :
    Ends q bad (save path) := by
  refine ends_memory fun s h => ?_
  refine ends_answer (FailsBy.bind (.mapM (records s h)) fun _ _ => .ok _) fun content made => ?_
  exact ends_store storage takes (forms s content h made)

namespace Indexer

open Indexing

variable {p : Indexer → Prop} {batch : Batch}

theorem ends_onVectors {q : VectorIndex Float → Prop} {work : Action (VectorIndex Float) Unit} (ends : Ends q bad work)
    (before : ∀ ix, p ix → ∀ v ∈ ix.vectors, q v) (after : ∀ ix v, p ix → q v → p { ix with vectors := some v }) :
    Ends p bad (onVectors work) := by
  refine ends_memory fun ix h => ?_
  split
  · exact ends_pure _
  next v there => exact ends.onPart (fun _ _ => before ix h v there) after

/-- A fault of the storage does not end the work. -/
theorem ends_storageFault? {work : Action Indexer Unit}
    (ends : Ends p (fun fault => fault.isStorage = true ∨ bad fault) work) : Ends p bad (storageFault? work) := by
  have power : (Fault.powerLoss.isStorage = true ∨ bad .powerLoss) ↔ bad .powerLoss := or_iff_right Bool.false_ne_true
  refine Ends.tryCatch power (ends.bind fun _ => ends_pure _) fun fault why => ?_
  split
  next => exact ends_pure _
  next other => exact ends_throw (why.resolve_left other)

theorem ends_insertEntries {q : LexicalIndex Float → Prop}
    (ends : Ends q bad (LexicalIndex.insertPrepared batch.entries)) (before : ∀ ix, p ix → q ix.lexical)
    (after : ∀ ix lexical, p ix → q lexical → p { ix with lexical }) :
    Ends p bad (insertEntries batch) := (ends.bind fun _ => ends_pure _).onPart before after

theorem ends_register {c : Chunk} (fails : ∀ ix, p ix → FailsBy bad (ix.store.put c))
    (after : ∀ ix store, p ix → ix.store.put c = .ok store → p { ix with store }) : Ends p bad (register c) :=
  ends_memory fun ix h => ends_answer (fails ix h) fun store made => ends_setMemory (after ix store h made)

theorem ends_persist (vectors : Ends p bad (onVectors (VectorIndex.save none)))
    (store : ∀ ix, p ix → ∀ path ∈ ix.storeFile,
      Ends p bad (onPart Indexer.store (fun ix store => { ix with store }) (ChunkStore.save path))) :
    Ends p bad persist := by
  refine ends_memory fun ix h => ?_
  split
  next path there =>
    have stored := store ix h path there
    split
    · exact vectors.bind fun _ => stored
    · exact stored
  next =>
    split
    · exact vectors.bind fun _ => ends_pure _
    · exact ends_pure _

theorem ends_rebuildGraph (fails : ∀ ix, p ix → ∀ g ∈ ix.graph, FailsBy bad (g.rebuild ix.store.toList).1)
    (after : ∀ ix g, p ix → p { ix with graph := some g }) : Ends p bad rebuildGraph := by
  refine ends_memory fun ix h => ?_
  split
  · exact ends_pure _
  next g there => exact (ends_setMemory (after ix _ h)).bind fun _ => ends_ofExcept (fails ix h g there)

end Indexer

end CodeSearch
