import CodeSearch.Proofs.ChunkStore.Reload
import CodeSearch.Proofs.Indexing.Room
import CodeSearch.Proofs.Lexical.History
import CodeSearch.Proofs.Lexical.Retry
/-!
# What a call has persisted is there

`Reached` are the indexers and disks that calls of `indexChunks` reach in which any effect may fail.
`Reached.persisted_reopens`: if a call reports that all has been persisted, the three stores are opened again with what
the indexer holds.
-/

namespace CodeSearch.Indexer

open Lexical Indexing CodeSearch.Action

/-- The lexical index, the snapshot of the vectors and the file of the store are kept in different places, and the
manifest of the lexical index is on the way to none of them. -/
structure StoragePlaces (dir snapshot storeFile : Path) : Prop where
  fits : DirectoryFits dir
  snapshotApart : ∀ place, IndexPlace dir place → ¬ snapshot.Written place
  storeApart : ∀ place, IndexPlace dir place → ¬ storeFile.Written place
  snapshotWay : ¬ snapshot.parent.Way (dir.child manifestName).place
  storeWay : ¬ storeFile.parent.Way (dir.child manifestName).place
  apart : ¬ storeFile.Written snapshot.place

/-- What is asked of chunks that are to come back from the disk: data, lines in order, and data that is nested no
deeper than a record can be. -/
def Recordable (c : Chunk) : Prop := c.WellRead ∧ c.InOrder ∧ c.IsShallow

/-- An indexer and the disk on which all its parts are kept. -/
structure Kept (dir snapshot storeFile : Path) (most : Int) (ix : Indexer) (d : Disk) (disk own : Log)
    (next count : Nat) : Prop where
  lexical : ix.lexical.IsSound dir most d disk own next count
  recorded : ix.lexical.Recorded disk own
  vectors : ∃ v, ix.vectors = some v ∧ v.snapshotPath = some snapshot ∧ Chunk.Filed Recordable v.chunks
  store : Chunk.Filed Recordable ix.store.chunks
  storeFile : ix.storeFile = some storeFile

/-- The snapshot and the file of the store hold what the indexer does. -/
structure Saved (snapshot storeFile : Path) (ix : Indexer) (d : Disk) : Prop where
  vectors : ∃ v stored : VectorIndex Float, ix.vectors = some v ∧ d.FileAt snapshot (.binary stored.snapshotJson) ∧
    stored.entries = v.entries ∧ stored.chunks = v.chunks
  store : d.FileAt storeFile ix.store.fileContent

section Kept
variable {dir snapshot storeFile : Path} {most : Int} {ix : Indexer} {d d' : Disk} {disk own : Log} {next count : Nat}
variable {batch : Batch}

theorem Filed.checked {chunks : Keyed String Chunk} (h : Chunk.Filed Recordable chunks) :
    ∀ c ∈ chunks.values, c.unchecked = [] := fun c hc => (h.values c hc).1.checked

/-- Work on the disk away from the lexical index leaves it kept. -/
theorem Kept.elsewhere {files ways : Path → Prop} (h : ix.Kept dir snapshot storeFile most d disk own next count)
    (change : Disk.Changed files ways d d') (apart : ∀ place, IndexPlace dir place → ¬ files place)
    (clear : ¬ ways (dir.child manifestName).place) : ix.Kept dir snapshot storeFile most d' disk own next count :=
  { h with
    lexical := { h.lexical with
      kept := h.lexical.kept.changed change (apart _ ⟨_, .manifest, rfl⟩) clear fun n _ => apart _ ⟨_, .segment n, rfl⟩ } }

/-! ## The stages of a commit -/

theorem Kept.insertVectors (h : ix.Kept dir snapshot storeFile most d disk own next count) (now : Float)
    (ready : Ready Recordable batch) :
    ∃ answer ix', (onVectors (insertVectors now batch)).runOn ix d = (answer, ix', d) ∧
      ix'.Kept dir snapshot storeFile most d disk own next count ∧ ix'.store = ix.store := by
  rcases runOn_insertVectors now (fun c hc => (ready.chunks c hc).1.checked) ix d with
    ⟨fault, failed⟩ | ⟨vectors, done, put⟩
  · exact ⟨_, ix, failed, h, rfl⟩
  · obtain ⟨v, there, path, filed⟩ := h.vectors
    rw [there] at put
    cases put with
    | some put =>
      refine ⟨_, _, done, { h with vectors := ⟨_, rfl, put.snapshotPath.trans path, ?_⟩ }, rfl⟩
      rw [put.chunks]
      exact filed.putAll ready.chunks

theorem Kept.insertEntries (places : StoragePlaces dir snapshot storeFile)
    (h : ix.Kept dir snapshot storeFile most d disk own next count) (ready : Ready Recordable batch) :
    ∃ answer ix' d' disk' own' next' count', (insertEntries batch).runOn ix d = (answer, ix', d') ∧
      ix'.Kept dir snapshot storeFile most d' disk' own' next' count' ∧ ix'.store = ix.store ∧
      (answer = .ok () → ix'.lexical.pending = []) := by
  obtain ⟨answer, lexical, d', disk', own', next', count', run, _, sound, recorded, done⟩ :=
    h.recorded.insert places.fits h.lexical ready.chunks
  rw [← ready.entries] at run
  exact ⟨answer, _, d', disk', own', next', count', runOn_insertEntries batch ix d run,
    { h with lexical := sound, recorded }, rfl, done⟩

theorem Kept.register (h : ix.Kept dir snapshot storeFile most d disk own next count)
    (ready : Ready Recordable batch) (free : ∀ c ∈ batch.chunks, ix.store.conflicts c = false) :
    ∃ ix', (batch.chunks.forM register).runOn ix d = (.ok (), ix', d) ∧
      ix'.Kept dir snapshot storeFile most d disk own next count ∧ ix'.lexical = ix.lexical :=
  ⟨_, runOn_register (fun c hc => (ready.chunks c hc).1.made) ready.once ix free d,
    { h with store := h.store.putAll ready.chunks }, rfl⟩

/-- The snapshot and the file of the store are written, and the lexical index stays as it is. -/
theorem Kept.persist (places : StoragePlaces dir snapshot storeFile)
    (h : ix.Kept dir snapshot storeFile most d disk own next count) :
    ∃ answer ix' d', persist.runOn ix d = (answer, ix', d') ∧
      ix'.Kept dir snapshot storeFile most d' disk own next count ∧ ix'.lexical = ix.lexical ∧
      (answer = .ok () → ix'.Saved snapshot storeFile d') := by
  obtain ⟨v, there, path, filed⟩ := h.vectors
  obtain ⟨answer, v', d₁, saved, path', entries, chunks, change, stored, _⟩ :=
    VectorIndex.runOn_save path (Filed.checked filed) d
  have h₁ : Kept dir snapshot storeFile most { ix with vectors := some v' } d₁ disk own next count :=
    { h.elsewhere change places.snapshotApart places.snapshotWay with
      vectors := ⟨v', rfl, path'.trans path, chunks.symm ▸ filed⟩ }
  have first := runOn_onVectors there saved
  rw [runOn_persist_placed there path h.storeFile]
  cases answer with
  | error fault => exact ⟨.error fault, _, d₁, runOn_bind_error first _, h₁, rfl, fun done => by cases done⟩
  | ok _ =>
    obtain ⟨answer, d₂, saved', change', stored'⟩ :=
      ChunkStore.runOn_save (ChunkStore.hasRecords_of_filed (h.store.mono fun _ => And.left)) storeFile d₁
    refine ⟨answer, _, d₂, (runOn_bind_ok first _).trans (runOn_onStore saved'),
      h₁.elsewhere change' places.storeApart places.storeWay, rfl, fun done => ?_⟩
    exact ⟨⟨v', v, rfl, (stored rfl).2.changed change' places.apart, entries.symm, chunks.symm⟩, (stored'.1 done).fileAt⟩

/-- No report comes of a fault. -/
theorem no_report {fault : Fault} {q : Report → Prop} (report : Report)
    (told : (.error fault : Except Fault Report) = .ok report) : q report := by
  cases told

/-- A commit keeps all parts, whatever becomes of its writes. If it reports that all has been persisted, nothing is
pending, and the snapshot and the file of the store hold what the indexer does. -/
theorem Kept.commit (places : StoragePlaces dir snapshot storeFile)
    (h : ix.Kept dir snapshot storeFile most d disk own next count) (now : Float) (ready : Ready Recordable batch) :
    ∃ answer ix' d' disk' own' next' count', (commit now batch).runOn ix d = (answer, ix', d') ∧
      ix'.Kept dir snapshot storeFile most d' disk' own' next' count' ∧
      ∀ report, answer = .ok report → report.persisted = true →
        ix'.lexical.pending = [] ∧ ix'.Saved snapshot storeFile d' := by
  rw [Indexer.commit, runOn_bind_ok (runOn_memory _ _)]
  cases dropped : batch.dropCollisions ix.store with
  | error fault =>
    exact ⟨.error fault, ix, d, disk, own, next, count, runOn_bind_error (runOn_ofExcept _ _ _) _, h, no_report⟩
  | ok b =>
    obtain ⟨ready, free⟩ := dropCollisions_ok ready dropped
    rw [runOn_bind_ok (runOn_ofExcept _ _ _)]
    obtain ⟨answer, ix₁, run₁, h₁, store₁⟩ := h.insertVectors now ready
    cases answer with
    | error fault => exact ⟨.error fault, ix₁, d, disk, own, next, count, runOn_bind_error run₁ _, h₁, no_report⟩
    | ok _ =>
      rw [runOn_bind_ok run₁]
      obtain ⟨answer, ix₂, d₂, disk₂, own₂, next₂, count₂, run₂, h₂, store₂, pending⟩ := h₁.insertEntries places ready
      obtain ⟨lexicalFault, run₂, done₂, _⟩ := runOn_storageFault? run₂
      cases lexicalFault with
      | error fault => exact ⟨.error fault, ix₂, d₂, disk₂, own₂, next₂, count₂, runOn_bind_error run₂ _, h₂, no_report⟩
      | ok lexicalFault =>
        rw [runOn_bind_ok run₂]
        obtain ⟨ix₃, run₃, h₃, lexical₃⟩ := h₂.register ready (by rw [store₂, store₁]; exact free)
        obtain ⟨answer, ix₄, d₄, run₄, h₄, lexical₄, saved⟩ := h₃.persist places
        obtain ⟨storeFault, run₄, done₄, _⟩ := runOn_storageFault? run₄
        rw [runOn_bind_ok run₃]
        cases storeFault with
        | error fault => exact ⟨.error fault, ix₄, d₄, disk₂, own₂, next₂, count₂, runOn_bind_error run₄ _, h₄, no_report⟩
        | ok storeFault =>
          obtain ⟨answer, graph, run₅, _⟩ := runOn_rebuildGraph ix₄ d₄
          have h₅ : Kept dir snapshot storeFile most { ix₄ with graph } d₄ disk₂ own₂ next₂ count₂ := { h₄ with }
          rw [runOn_bind_ok run₄]
          cases answer with
          | error fault => exact ⟨.error fault, _, d₄, disk₂, own₂, next₂, count₂, runOn_bind_error run₅ _, h₅, no_report⟩
          | ok _ =>
            rw [runOn_bind_ok run₅, runOn_bind_ok (runOn_memory _ _)]
            refine ⟨_, _, d₄, disk₂, own₂, next₂, count₂, rfl, h₅, ?_⟩
            rintro _ ⟨⟩ persisted
            -- all is reported to be persisted only if neither part of the storage has failed
            have none : lexicalFault = none ∧ storeFault = none := by
              cases lexicalFault <;> cases storeFault <;> simp at persisted ⊢
            obtain ⟨rfl, rfl⟩ := none
            refine ⟨?_, { saved (done₄ rfl) with }⟩
            rw [← pending (done₂ rfl), ← lexical₃, ← lexical₄]

/-- A call keeps all parts. -/
theorem Kept.indexChunks (places : StoragePlaces dir snapshot storeFile)
    (h : ix.Kept dir snapshot storeFile most d disk own next count) (now : Float) {chunks : List Chunk}
    (good : ∀ c ∈ chunks, Recordable c) :
    ∃ answer ix' d' disk' own' next' count', (indexChunks now chunks).runOn ix d = (answer, ix', d') ∧
      ix'.Kept dir snapshot storeFile most d' disk' own' next' count' ∧
      ∀ report, answer = .ok report → report.persisted = true →
        ix'.lexical.pending = [] ∧ ix'.Saved snapshot storeFile d' := by
  rw [Indexer.indexChunks, runOn_bind_ok (runOn_memory _ _)]
  cases prepared : ix.prepare chunks with
  | error fault =>
    exact ⟨.error fault, ix, d, disk, own, next, count, runOn_bind_error (runOn_ofExcept _ _ _) _, h, no_report⟩
  | ok batch =>
    rw [prepare_eq ix fun c hc => (good c hc).1.checked] at prepared
    have ready := finish_ready (filed_distinct good) (fun c hc => ⟨hc.1.checked, hc.1.id_filled⟩) prepared
    rw [runOn_bind_ok (runOn_ofExcept _ _ _)]
    exact h.commit places now ⟨ready.entries, ready.once, fun c hc => (ready.chunks c hc).1⟩

end Kept

/-! ## Runs -/

/-- What calls of `indexChunks` reach from stores without chunks, where each effect on the disk has any fate. The chunks
are those of data, with lines in order, and records can be made of them. -/
inductive Reached (dir snapshot storeFile : Path) : Indexer → Disk → Prop where
  | opened {ix : Indexer} {d : Disk} {k1 b : Parameter Float} {most : Int} {unfit : Unfit} {embedder : Embedder Float}
      {dimension : Json} {workers : Except Fault Int} {preselection : Except Fault Number}
      (nothing : d.nodeAt? (dir.child manifestName).place = none)
      (lexical : LexicalIndex.openAt (some dir) k1 b (.ok most) unfit d = .ok ix.lexical)
      (vectors : ix.vectors = some (.blank embedder (some snapshot) dimension workers preselection))
      (store : ix.store = .empty) (file : ix.storeFile = some storeFile) : Reached dir snapshot storeFile ix d
  | called {ix ix' : Indexer} {d d' : Disk} {now : Float} {chunks : List Chunk} {answer : Except Fault Report}
      (h : Reached dir snapshot storeFile ix d) (good : ∀ c ∈ chunks, c.FromData ∧ c.InOrder ∧ c.IsShallow)
      (run : (indexChunks now chunks).runOn ix d = (answer, ix', d')) : Reached dir snapshot storeFile ix' d'

section Run
variable {dir snapshot storeFile : Path} {ix ix' : Indexer} {d d' : Disk} {now : Float} {chunks : List Chunk}

theorem Reached.kept (places : StoragePlaces dir snapshot storeFile) (h : Reached dir snapshot storeFile ix d) :
    ∃ most disk own next count, ix.Kept dir snapshot storeFile most d disk own next count := by
  induction h with
  | opened nothing lexical vectors store file =>
    obtain ⟨sound, inStep⟩ := LexicalIndex.opened_fresh places.fits nothing lexical
    exact ⟨_, [], [], 1, 1, sound, inStep.recorded, ⟨_, vectors, rfl, .empty⟩, store ▸ .empty, file⟩
  | @called _ _ _ _ now _ _ _ good run ih =>
    obtain ⟨most, disk, own, next, count, kept⟩ := ih
    obtain ⟨answer, ix', d', disk', own', next', count', run', kept', _⟩ :=
      kept.indexChunks places now fun c hc => ⟨(good c hc).1.wellRead, (good c hc).2⟩
    rw [run] at run'
    obtain ⟨_, rfl, rfl⟩ := by simpa using run'
    exact ⟨most, disk', own', next', count', kept'⟩

/-- If a call reports that all has been persisted, the lexical index, the vector index and the store are opened again
with the entries, the vectors and the chunks that the indexer holds. -/
theorem Reached.persisted_reopens (places : StoragePlaces dir snapshot storeFile)
    (h : Reached dir snapshot storeFile ix d) (good : ∀ c ∈ chunks, c.FromData ∧ c.InOrder ∧ c.IsShallow)
    {report : Report} (run : (indexChunks now chunks).runOn ix d = (.ok report, ix', d'))
    (persisted : report.persisted = true) :
    (∀ (k1 b : Parameter Float) (most : Int) (unfit : Unfit), ∃ lexical,
      LexicalIndex.openAt (some dir) k1 b (.ok most) unfit d' = .ok lexical ∧
      lexical.entries = ix'.lexical.entries) ∧
    (∀ (embedder : Embedder Float) (workers : Except Fault Int) (preselection : Except Fault Number), ∃ live vectors,
      ix'.vectors = some live ∧
      VectorIndex.openAt embedder (some snapshot) .null workers preselection d' = .ok vectors ∧
      vectors.entries = live.entries ∧ vectors.chunks = live.chunks) ∧
    ChunkStore.openAt (some storeFile) d' = .ok ix'.store := by
  obtain ⟨most, disk, own, next, count, kept⟩ := h.kept places
  obtain ⟨answer, ix₁, d₁, disk', own', next', count', run', kept', done⟩ :=
    kept.indexChunks places now fun c hc => ⟨(good c hc).1.wellRead, (good c hc).2⟩
  rw [run] at run'
  obtain ⟨rfl, rfl, rfl⟩ := by simpa using run'
  obtain ⟨pending, saved⟩ := done report rfl persisted
  refine ⟨fun k1 b most' unfit => ?_, fun embedder workers preselection => ?_, ?_⟩
  · obtain ⟨lexical, opened, _, inStep⟩ := kept'.lexical.reopened places.fits k1 b most' unfit
    exact ⟨lexical, opened, inStep.entries.trans (kept'.recorded.written pending)⟩
  · obtain ⟨v, there, _, filed⟩ := kept'.vectors
    obtain ⟨v', stored, there', snapshot, entries, chunks⟩ := saved.vectors
    rw [there] at there'
    injection there' with same
    subst same
    have read : ∀ item ∈ stored.chunks.items, item.2.WellRead ∧ item.2.InOrder := by
      rw [chunks]
      exact fun item hi => ⟨(filed item hi).2.1, (filed item hi).2.2.1⟩
    obtain ⟨opened, run, entries', chunks'⟩ := VectorIndex.openAt_of_saved snapshot read embedder workers preselection
    exact ⟨v, opened, there, run, entries'.trans entries, chunks'.trans chunks⟩
  · have content := ChunkStore.content_of_shallow (fun c hc => (kept'.store.values c hc).1.checked)
      fun c hc => (kept'.store.values c hc).2.2
    exact ChunkStore.openAt_of_saved (kept'.store.mono fun c hc => ⟨hc.1, hc.2.1⟩) ⟨_, content, saved.store⟩

end Run

/-! ## Two calls -/

/-- No place is on the way to the beginning of paths. -/
theorem not_way_start (place : Path) : ¬ Path.Way ⟨"", []⟩ place := by
  rintro ⟨step, there, _⟩
  cases there

/-- Three names beside each other, of a directory and of two files. -/
theorem houses_beside : Houses ⟨"", ["lex"]⟩ ⟨"", ["vec.pkl"]⟩ ⟨"", ["chunks.json"]⟩ 8 := by
  have names : ∀ name ∈ ["vec.pkl", "chunks.json"], (⟨"", [name]⟩ : Path).name ≠ "" ∧ (⟨"", [name]⟩ : Path).Fits ∧
      (⟨"", [name]⟩ : Path).temporary.Fits := by decide +kernel
  have storable {name : String} (hn : name ∈ ["vec.pkl", "chunks.json"]) : Path.Storable ⟨"", [name]⟩ :=
    ⟨(names name hn).1, (names name hn).2.1, (names name hn).2.2, show Path.Fits ⟨"", []⟩ by decide +kernel,
      List.forall_mem_nil _, fun place _ => not_way_start place⟩
  refine ⟨LexicalIndex.holds_lex, storable (by simp), storable (by simp), fun place file way => ?_⟩
  -- only to the files of the lexical index do ways lead
  replace way : Path.Way ⟨"", ["lex"]⟩ place :=
    way.resolve_right fun other => other.elim (not_way_start place) (not_way_start place)
  have lex := LexicalIndex.way_lex way
  rcases file with index | (beside | own) | (beside | own)
  · exact LexicalIndex.holds_lex.apart place index way
  · exact absurd (lex.symm.trans beside) (by decide +kernel)
  · exact absurd (lex.symm.trans own) (by decide +kernel)
  · exact absurd (lex.symm.trans beside) (by decide +kernel)
  · exact absurd (lex.symm.trans own) (by decide +kernel)

theorem places_beside : StoragePlaces ⟨"", ["lex"]⟩ ⟨"", ["vec.pkl"]⟩ ⟨"", ["chunks.json"]⟩ := by
  have deeper : ∀ {place : Path}, IndexPlace ⟨"", ["lex"]⟩ place → place.parts.length = 2 := by
    rintro _ ⟨name, isName, rfl⟩
    rw [Path.place_child isName.plain]
    rfl
  refine ⟨LexicalIndex.fits_lex, ?_, ?_, not_way_start _, not_way_start _, ?_⟩
  · rintro place inside (rfl | rfl) <;> exact absurd (deeper inside) (by decide +kernel)
  · rintro place inside (rfl | rfl) <;> exact absurd (deeper inside) (by decide +kernel)
  · rintro (same | same)
    · exact absurd same (by decide +kernel)
    · exact absurd same (by decide +kernel)

/-- On a blank disk there is room for all files. -/
theorem housed_sample : sample.Housed ⟨"", ["lex"]⟩ ⟨"", ["vec.pkl"]⟩ ⟨"", ["chunks.json"]⟩ .blank 1 where
  lexical := (LexicalIndex.isReady_blank _ _ 2 []).writable
  number := rfl
  vectors := ⟨_, rfl, rfl⟩
  chunks := rfl
  room := by
    refine Disk.room_of_empty (fun place there => ?_) []
    rcases there with (index | (rfl | rfl) | (rfl | rfl)) | (way | way | way)
    · exact index.inside
    · decide +kernel
    · decide +kernel
    · decide +kernel
    · decide +kernel
    · rw [LexicalIndex.way_lex way]
      exact List.cons_ne_nil _ _
    · exact absurd way (not_way_start place)
    · exact absurd way (not_way_start place)
  used := rfl

theorem agrees_sample : sample.Agrees := by
  refine ⟨rfl, ⟨le_rfl, fun _ => rfl⟩, ?_⟩
  rintro v ⟨⟩
  exact ⟨rfl, rfl⟩

/-- The second chunk is indexed twice, and is in the store once, at its place. -/
theorem toList_twice {ix₁ ix₂ : Indexer}
    (first : ix₁.store.chunks = sample.store.chunks.putAll
      ((taken sample.store (LexicalIndex.words.take 2)).map fun c => (c.id, c)))
    (second : ix₂.store.chunks = ix₁.store.chunks.putAll
      ((taken ix₁.store (LexicalIndex.words.drop 1)).map fun c => (c.id, c))) :
    ix₂.store.toList = LexicalIndex.words := by
  have taken₁ : taken sample.store (LexicalIndex.words.take 2) = LexicalIndex.words.take 2 :=
    (sublist_taken _ _).eq_of_length (by decide +kernel)
  have store₁ : ix₁.store = ⟨Keyed.empty.putAll ((LexicalIndex.words.take 2).map fun c => (c.id, c))⟩ := by
    refine congrArg ChunkStore.mk (first.trans ?_)
    rw [taken₁]
    rfl
  have taken₂ : taken ix₁.store (LexicalIndex.words.drop 1) = LexicalIndex.words.drop 1 := by
    rw [store₁]
    exact (sublist_taken _ _).eq_of_length (by decide +kernel)
  rw [ChunkStore.toList, second, taken₂, store₁]
  rfl

/-- Two chunks of three are indexed, and then the second again with the third one. What the second call reports to have
persisted is opened again: the same three chunks in all stores. -/
theorem persisted_reopens_twice :
    ∃ (first second : Report) (ix₁ ix₂ : Indexer) (d₁ d₂ : Disk) (lexical : LexicalIndex Float)
      (vectors : VectorIndex Float) (store : ChunkStore),
      ((indexChunks 0 (LexicalIndex.words.take 2)).runOn sample .blank = (.ok first, ix₁, d₁) ∧ first.persisted = true ∧
        (indexChunks 0 (LexicalIndex.words.drop 1)).runOn ix₁ d₁ = (.ok second, ix₂, d₂) ∧ second.persisted = true) ∧
      (LexicalIndex.openAt (some ⟨"", ["lex"]⟩) (.whole 1) (.whole 1) (.ok 2) [] d₂ = .ok lexical ∧
        VectorIndex.openAt (.hashed 2) (some ⟨"", ["vec.pkl"]⟩) .null (.ok 1) (.ok (.whole 50000)) d₂ = .ok vectors ∧
        ChunkStore.openAt (some ⟨"", ["chunks.json"]⟩) d₂ = .ok store) ∧
      store.toList = LexicalIndex.words ∧ lexical.entries = store.chunks.mapValues Entry.ofChunk ∧
      vectors.entries.keys = store.chunks.keys ∧ vectors.chunks = store.chunks := by
  have good : ∀ c ∈ LexicalIndex.words, c.Made ∧ (Change.add c).IsClear := by
    intro c hc
    have clear := (LexicalIndex.clear_words c hc).1
    exact ⟨clear.1.1.made, clear⟩
  have data : ∀ c ∈ LexicalIndex.words, c.FromData ∧ c.InOrder ∧ c.IsShallow := by
    intro c hc
    obtain ⟨clear, order⟩ := LexicalIndex.clear_words c hc
    exact ⟨clear.fromData order, order, clear.1.2⟩
  obtain ⟨first, ix₁, d₁, n₁, run₁, persisted₁, indexed₁, healthy₁, le₁, housed₁⟩ :=
    housed_sample.runOn_indexChunks houses_beside healthy_sample (fun c hc => good c (List.mem_of_mem_take hc)) 0
      (by decide)
  obtain ⟨second, ix₂, d₂, _, run₂, persisted, indexed₂, _⟩ :=
    housed₁.runOn_indexChunks houses_beside healthy₁ (fun c hc => good c (List.mem_of_mem_drop hc)) 0 (by omega)
  have nothing := (LexicalIndex.isFresh_blank []).manifest
  have reached : Reached ⟨"", ["lex"]⟩ ⟨"", ["vec.pkl"]⟩ ⟨"", ["chunks.json"]⟩ sample .blank :=
    .opened nothing (LexicalIndex.openAt_of_nothing LexicalIndex.fits_lex.manifest nothing _ _ (.ok 2) []) rfl rfl rfl
  have called := reached.called (fun c hc => data c (List.mem_of_mem_take hc)) run₁
  obtain ⟨lexical, vectors, store⟩ := Reached.persisted_reopens places_beside called
    (fun c hc => data c (List.mem_of_mem_drop hc)) run₂ persisted
  obtain ⟨lexical, opened, entries⟩ := lexical (.whole 1) (.whole 1) 2 []
  obtain ⟨live, vectors, there, opened', entries', chunks⟩ := vectors (.hashed 2) (.ok 1) (.ok (.whole 50000))
  have agrees₂ : ix₂.Agrees := (agrees_sample.put indexed₁.entries indexed₁.current indexed₁.vectors indexed₁.store).put
    indexed₂.entries indexed₂.current indexed₂.vectors indexed₂.store
  obtain ⟨keys, same⟩ := agrees₂.vectors live there
  have all := toList_twice indexed₁.store indexed₂.store
  exact ⟨first, second, ix₁, ix₂, d₁, d₂, lexical, vectors, ix₂.store, ⟨run₁, persisted₁, run₂, persisted⟩,
    ⟨opened, opened', store⟩, all, entries.trans agrees₂.lexical, (congrArg Keyed.keys entries').trans keys,
    chunks.trans same⟩

end CodeSearch.Indexer
