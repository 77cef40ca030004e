import CodeSearch.Proofs.Indexing.Healthy
import CodeSearch.Proofs.Lexical.Room
/-!
# Room for all files of an indexer

The lexical index, the snapshot of the vectors and the file of the store can be kept beside each other (`Houses`). Where
there is room for all of them and no effect is refused (`Housed`), a healthy indexer stores whatever it indexes: the call
reports that all has been persisted (`Housed.runOn_indexChunks`). It takes no more than two numbers of segments.
-/

namespace CodeSearch

open Lexical CodeSearch.Action

/-- A chunk that can be written and read again fits wherever there is a place for it. -/
theorem Chunk.Fit.of_clear {c : Chunk} (h : (Change.add c).IsClear) (text : Bool) : c.Fit text :=
  ⟨h.1.1.made, h.1.2, fun _ => h.form⟩

/-! ## The snapshot and the file of the store -/

/-- Where there is room for a snapshot it is written, if there are records of all chunks. -/
theorem VectorIndex.runOn_save_room {v : VectorIndex Float} {path : Path} {d : Disk}
    (target : v.snapshotPath = some path) (storable : path.Storable) (room : d.Room path.Written path.parent.Way)
    (used : d.fates = []) (records : ∀ c ∈ v.chunks.values, ∃ record, c.stored = .ok record) :
    ∃ d', (save none).runOn v d = (.ok (), { v with dirty := false }, d') ∧
      Disk.Changed path.Written path.parent.Way d d' := by
  obtain ⟨payload, made⟩ := (VectorIndex.failsBy_payload fun c hc => .of_ok (records c hc)).exists_ok
  have whole : Disk.checkContent (.binary payload) = .ok () := rfl
  obtain ⟨d', run, change, _⟩ := runOn_store_room storable room (Disk.grants_of_used used _) whole .saveVectors v
  refine ⟨d', ?_, change⟩
  rw [save, runOn_bind_ok (runOn_memory _ _), show (none : Option Path).or v.snapshotPath = some path from target]
  simp only [made]
  rw [runOn_bind_ok (runOn_ofExcept _ _ _), runOn_bind_ok run]
  rfl

/-- Where there is room for the file of a store it is written, if there are forms of all chunks. -/
theorem ChunkStore.runOn_save_room {s : ChunkStore} {path : Path} {d : Disk} (storable : path.Storable)
    (room : d.Room path.Written path.parent.Way) (used : d.fates = []) (written : ∀ c ∈ s.toList, c.Written) :
    ∃ d', (save path).runOn s d = (.ok (), s, d') ∧ Disk.Changed path.Written path.parent.Way d d' := by
  obtain ⟨content, made⟩ : ∃ content, s.content = .ok content := by
    refine FailsBy.exists_ok (FailsBy.bind (.mapM fun c hc => ?_) fun _ _ => .ok _)
    exact .of_ok (written c hc).recorded
  obtain ⟨d', run, change, _⟩ := runOn_store_room storable room (Disk.grants_of_used used _)
    (ChunkStore.checkContent_of_written written made) .saveChunks s
  refine ⟨d', ?_, change⟩
  rw [save, runOn_bind_ok (runOn_memory _ _), made, runOn_bind_ok (runOn_ofExcept _ _ _), run]

namespace Indexer

open Indexing

/-! ## Where all is kept -/

section Places
variable (dir snapshot storeFile : Path)

/-- The places of the files of an indexer. -/
def FilePlace (place : Path) : Prop := IndexPlace dir place ∨ snapshot.Written place ∨ storeFile.Written place

/-- The places on the ways to its files. -/
def FileWay (place : Path) : Prop := dir.Way place ∨ snapshot.parent.Way place ∨ storeFile.parent.Way place

/-- The files of an indexer can be stored beside each other, as far as the names are concerned, while the numbers of the
segments are below a bound. -/
structure Houses (bound : ℕ) : Prop where
  lexical : Holds dir bound
  vectors : snapshot.Storable
  chunks : storeFile.Storable
  apart : ∀ place, FilePlace dir snapshot storeFile place → ¬ FileWay dir snapshot storeFile place

/-- An indexer that nothing keeps from writing its files. The next segment has some number. -/
structure Housed (ix : Indexer) (d : Disk) (n : ℕ) : Prop where
  lexical : ix.lexical.IsWritable dir
  number : ix.lexical.nextSegment = n
  vectors : ∃ v, ix.vectors = some v ∧ v.snapshotPath = some snapshot
  chunks : ix.storeFile = some storeFile
  room : d.Room (FilePlace dir snapshot storeFile) (FileWay dir snapshot storeFile)
  used : d.fates = []

end Places

section Housed
variable {p : Chunk → Prop} {width bound n : ℕ} {dir snapshot storeFile : Path} {ix : Indexer} {batch : Batch} {d : Disk}

/-- What is written at the places of some files leaves room for all of them. -/
theorem Houses.room_changed {d' : Disk} (houses : Houses dir snapshot storeFile bound)
    (room : d.Room (FilePlace dir snapshot storeFile) (FileWay dir snapshot storeFile)) {files ways : Path → Prop}
    (change : Disk.Changed files ways d d') (hf : ∀ place, files place → FilePlace dir snapshot storeFile place)
    (hw : ∀ place, ways place → FileWay dir snapshot storeFile place) :
    d'.Room (FilePlace dir snapshot storeFile) (FileWay dir snapshot storeFile) :=
  room.changed houses.apart (change.mono hf hw)

theorem Housed.ready (h : ix.Housed dir snapshot storeFile d n) : ix.lexical.IsReady dir d n :=
  ⟨h.lexical, h.room.mono (fun _ => .inl) fun _ => .inl, h.number⟩

/-- The snapshot and the file of the store are written. -/
theorem Housed.runOn_persist (houses : Houses dir snapshot storeFile bound) (h : ix.Housed dir snapshot storeFile d n)
    (healthy : ix.Healthy p width) :
    ∃ vectors d', persist.runOn ix d = (.ok (), { ix with vectors }, d') ∧ Option.Rel Marked ix.vectors vectors ∧
      ({ ix with vectors } : Indexer).Housed dir snapshot storeFile d' n := by
  obtain ⟨v, there, target⟩ := h.vectors
  obtain ⟨d₁, run₁, change₁⟩ := VectorIndex.runOn_save_room target houses.vectors
    (h.room.mono (fun _ hp => .inr (.inl hp)) fun _ hp => .inr (.inl hp)) h.used
    (healthy.snapshot v there snapshot target).2
  have room₁ := houses.room_changed h.room change₁ (fun _ hp => .inr (.inl hp)) fun _ hp => .inr (.inl hp)
  have used₁ := change₁.no_fates h.used
  obtain ⟨d₂, run₂, change₂⟩ := ChunkStore.runOn_save_room houses.chunks
    (room₁.mono (fun _ hp => .inr (.inr hp)) fun _ hp => .inr (.inr hp)) used₁
    (healthy.storeFile storeFile h.chunks).2
  have room₂ := houses.room_changed room₁ change₂ (fun _ hp => .inr (.inr hp)) fun _ hp => .inr (.inr hp)
  refine ⟨some { v with dirty := false }, d₂, ?_, ?_, ?_⟩
  · rw [runOn_persist_placed there target h.chunks, runOn_bind_ok (runOn_onVectors there run₁)]
    exact runOn_onStore run₂
  · rw [there]
    exact .some ⟨false, rfl⟩
  · exact { h with vectors := ⟨_, rfl, target⟩, room := room₂, used := change₂.no_fates used₁ }

/-- Entries come into the lexical index, and are committed there. -/
theorem Housed.runOn_insertEntries (houses : Houses dir snapshot storeFile bound)
    (h : ix.Housed dir snapshot storeFile d n) (past : ix.lexical.snapshot.generation ≤ ix.lexical.generation)
    (writable : ∀ dir ∈ ix.lexical.directory, dir.Sound ∧ ix.lexical.Encodable dir)
    (ready : Ready (Chunk.Fit ix.writesText) batch) (clear : ∀ c ∈ batch.chunks, (Change.add c).IsClear)
    (below : n + 1 < bound) :
    ∃ lexical next d', (storageFault? (insertEntries batch)).runOn ix d = (.ok none, { ix with lexical }, d') ∧
      lexical.entries = ix.lexical.entries.putAll (batch.chunks.map fun c => (c.id, .ofChunk c)) ∧
      lexical.directory = ix.lexical.directory ∧ lexical.IsCurrent ∧
      (∀ dir ∈ lexical.directory, dir.Sound ∧ lexical.Encodable dir) ∧ next ≤ n + 2 ∧
      ({ ix with lexical } : Indexer).Housed dir snapshot storeFile d' next := by
  have uncut : .cut ∉ d.fates := by simp [h.used]
  obtain ⟨fault, lexical, d', run, entries, directory, current, encodable, _, _⟩ :=
    runOn_insertEntries_encodable ix past writable ready uncut
  obtain ⟨lexical', next, d'', inserted, le, _, ready', change⟩ :=
    LexicalIndex.runOn_insertPrepared_ready houses.lexical h.ready h.used below clear
  rw [← ready.entries] at inserted
  have done := runOn_storageFault?_ok (Indexer.runOn_insertEntries batch ix d inserted)
  have same := run.symm.trans done
  simp only [Prod.mk.injEq, Except.ok.injEq, Indexer.mk.injEq, and_true] at same
  obtain ⟨rfl, rfl, rfl⟩ := same
  refine ⟨lexical, next, d', run, entries, directory, current, encodable, le, ?_⟩
  exact { h with
    lexical := ready'.writable
    number := ready'.number
    room := houses.room_changed h.room change (fun _ => .inl) fun _ => .inl
    used := change.no_fates h.used }

/-- A batch is committed, and all has been persisted. -/
theorem Housed.commit (houses : Houses dir snapshot storeFile bound) (h : ix.Housed dir snapshot storeFile d n)
    (healthy : ix.Healthy p width) (ready : Ready (Chunk.Fit ix.writesText) batch)
    (clear : ∀ c ∈ batch.chunks, (Change.add c).IsClear) (free : ∀ c ∈ batch.chunks, ix.store.conflicts c = false)
    (fits : Fits batch ix.vectors width) (now : Float) (below : n + 1 < bound) :
    ∃ report ix' d' next, (commit now batch).runOn ix d = (.ok report, ix', d') ∧ report.persisted = true ∧
      next ≤ n + 2 ∧ ix'.Housed dir snapshot storeFile d' next := by
  have made : ∀ c ∈ batch.chunks, c.Made := fun c hc => (ready.chunks c hc).made
  obtain ⟨vectors, run₁, put, _, serves⟩ := runOn_insertVectors_served (d := d) healthy.vectors made fits now
  have h₁ : ({ ix with vectors } : Indexer).Housed dir snapshot storeFile d n := by
    obtain ⟨v, there, target⟩ := h.vectors
    obtain ⟨v', there', put⟩ := exists_of_rel (rel_flip put) v there
    exact { h with vectors := ⟨v', there', put.snapshotPath.trans target⟩ }
  obtain ⟨lexical, next, d₂, run₂, entries, directory, current, encodable, le, h₂⟩ :=
    h₁.runOn_insertEntries houses healthy.past healthy.lexical ready clear below
  have h₃ := healthy.registered ready.chunks ⟨entries, directory, current, put⟩ encodable serves
  have run₃ : (batch.chunks.forM register).runOn { ix with lexical, vectors } d₂
      = (.ok (), ix.registered batch.chunks lexical vectors, d₂) :=
    runOn_register made ready.once { ix with lexical, vectors } free d₂
  have housed : (ix.registered batch.chunks lexical vectors).Housed dir snapshot storeFile d₂ next := { h₂ with }
  obtain ⟨vectors₄, d₄, run₄, rel, h₄⟩ := housed.runOn_persist houses h₃
  have run₅ := (h₃.marked rel rfl).runOn_rebuildGraph d₄
  rw [runOn_commit_stages (dropCollisions_of_free fun e he => free e.chunk (List.mem_map_of_mem he)) run₁ run₂ run₃
    (runOn_storageFault?_ok run₄) run₅]
  exact ⟨_, _, d₄, next, rfl, rfl, le, { h₄ with }⟩

/-- A batch is indexed, and all has been persisted. -/
theorem Housed.runOn_indexChunks (houses : Houses dir snapshot storeFile bound)
    (h : ix.Housed dir snapshot storeFile d n) (healthy : ix.Healthy p width) {chunks : List Chunk}
    (good : ∀ c ∈ chunks, p c ∧ (Change.add c).IsClear) (now : Float) (below : n + 1 < bound) :
    ∃ report ix' d' next, (indexChunks now chunks).runOn ix d = (.ok report, ix', d') ∧ report.persisted = true ∧
      ix.Indexed chunks report ix' ∧ ix'.Healthy p width ∧ next ≤ n + 2 ∧
      ix'.Housed dir snapshot storeFile d' next := by
  have kinds : ∀ c ∈ chunks, c.Refused ∨ (p c ∧ c.Fit ix.writesText) :=
    fun c hc => .inr ⟨(good c hc).1, .of_clear (good c hc).2 _⟩
  obtain ⟨vectors, prepared, _, fits, ready, free⟩ := healthy.prepared kinds
  have clear : ∀ c ∈ (ix.drafted chunks vectors).chunks, (Change.add c).IsClear := by
    rw [chunks_drafted]
    exact fun c hc => (good c ((filed_members _ _).values c (List.mem_filter.1 hc).1)).2
  obtain ⟨report, ix', d', next, committed, persisted, le, housed⟩ :=
    h.commit houses healthy ready clear free fits now below
  obtain ⟨report', ix'', d'', run, indexed, _, healthy', _⟩ :=
    healthy.runOn_indexChunks kinds now (d := d) (by simp [h.used])
  rw [← runOn_indexChunks_ok prepared, run] at committed
  obtain ⟨rfl, rfl, rfl⟩ := by simpa using committed
  exact ⟨_, _, _, next, run, persisted, indexed, healthy', le, housed⟩

end Housed

end Indexer

end CodeSearch
