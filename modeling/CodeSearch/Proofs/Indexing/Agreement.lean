import CodeSearch.Proofs.Graph.Terms
import CodeSearch.Proofs.Indexing.Batch
import CodeSearch.Proofs.Lexical.Faults
/-!
# The indexes agree

After a commit the lexical index, the vector index and the store hold the same chunks under the same ids in the same
order, and the graph is that of the store (`Agrees.commit`), if nothing but the storage can fail: the chunks make
records, and these can be written. No content changes (`KeepsContents`).
-/

namespace CodeSearch.ChunkStore

/-- What has a place under an id has its content for ever. -/
def KeepsContents (s s' : ChunkStore) : Prop :=
  ∀ id c, s.get? id = some c → ∃ c', s'.get? id = some c' ∧ c'.content = c.content

theorem KeepsContents.refl (s : ChunkStore) : s.KeepsContents s := fun _ c found => ⟨c, found, rfl⟩

theorem KeepsContents.trans {s s' s'' : ChunkStore} (first : s.KeepsContents s') (second : s'.KeepsContents s'') :
    s.KeepsContents s'' := by
  intro id c found
  obtain ⟨c', found', same'⟩ := first id c found
  obtain ⟨c'', found'', same''⟩ := second id c' found'
  exact ⟨c'', found'', same''.trans same'⟩

/-- Chunks that do not collide with the store change no content. -/
theorem keepsContents_putAll {s : ChunkStore} {chunks : List Chunk} (free : ∀ c ∈ chunks, s.conflicts c = false) :
    s.KeepsContents ⟨s.chunks.putAll (chunks.map fun c => (c.id, c))⟩ := by
  intro id c found
  have there : id ∈ (s.chunks.putAll (chunks.map fun c => (c.id, c))).keys :=
    Keyed.mem_keys_putAll.2 (.inl (Keyed.mem_keys.2 ⟨c, found⟩))
  obtain ⟨c', found'⟩ := Keyed.mem_keys.1 there
  refine ⟨c', found', ?_⟩
  rcases Keyed.mem_items_putAll (Keyed.get?_eq_some.1 found') with old | new
  · have same := found.symm.trans (Keyed.get?_eq_some.2 old)
    rw [Option.some.inj same]
  · obtain ⟨c'', hc, same⟩ := List.mem_map.1 new
    obtain ⟨rfl, rfl⟩ := Prod.mk.inj same
    have same : ¬ c.content ≠ c''.content := by
      have := free c'' hc
      rw [conflicts, found, Option.any_some] at this
      exact of_decide_eq_false this
    exact (not_not.1 same).symm

end CodeSearch.ChunkStore

namespace CodeSearch.Indexer

open Lexical Indexing CodeSearch.Action

/-- Records of chunks are written as texts. -/
def writesText (ix : Indexer) : Bool := ix.lexical.directory.isSome || ix.storeFile.isSome

/-- A record of the chunk can be made and, if it is to be written as a text, has a form in a file. -/
structure Storable (text : Bool) (c : Chunk) : Prop where
  read : c.WellRead
  shallow : c.IsShallow
  whole : text = true → c.json.isWhole = true

/-- All indexes hold the same chunks under the same ids in the same order. -/
structure Agrees (ix : Indexer) : Prop where
  lexical : ix.lexical.entries = ix.store.chunks.mapValues Entry.ofChunk
  current : ix.lexical.IsCurrent
  vectors : ∀ v ∈ ix.vectors, v.entries.keys = ix.store.chunks.keys ∧ v.chunks = ix.store.chunks

/-- The graph is that of the store. -/
def GraphBuilt (ix : Indexer) : Prop := ∀ g ∈ ix.graph, g = g.build ix.store.toList

/-- Nothing but the storage can keep the chunks of the indexer from the disk. -/
structure Writable (ix : Indexer) : Prop where
  store : Chunk.Filed (Storable ix.writesText) ix.store.chunks
  lexical : ∀ dir ∈ ix.lexical.directory, dir.Sound ∧ ix.lexical.IsWritable dir
  snapshot : ∀ v ∈ ix.vectors, ∀ path ∈ v.snapshotPath, path.IsFile
  storeFile : ∀ path ∈ ix.storeFile, path.IsFile

section Commit
variable {ix : Indexer} {batch : Batch} {d : Disk}

theorem checkContent_store {s : ChunkStore} (h : Chunk.Filed (Storable true) s.chunks) :
    Disk.checkContent s.fileContent = .ok () := by
  have whole : (Json.arr (s.toList.map Chunk.json)).isWhole = true := by
    rw [Json.isWhole_arr]
    intro record hr
    obtain ⟨c, hc, rfl⟩ := List.mem_map.1 hr
    exact (h.values c hc).whole rfl
  have records := ChunkStore.isData_records (ChunkStore.hasRecords_of_filed (h.mono fun _ => Storable.read))
  exact if_pos (Json.isWhole_render records.textsKept whole)

theorem isClear_add {c : Chunk} (h : Storable true c) : (Change.add c).IsClear := by
  refine ⟨⟨h.read, h.shallow⟩, ?_⟩
  have op : Text.isWhole "op" = true := by decide +kernel
  have add : Text.isWhole "add" = true := by decide +kernel
  have chunk : Text.isWhole "chunk" = true := by decide +kernel
  simp only [Change.json, Json.isWhole, Json.fieldsWhole, op, add, chunk, h.whole rfl]
  rfl

/-- An index of vectors with the same vectors and chunks. -/
structure VectorsStay (v v' : VectorIndex Float) : Prop where
  snapshotPath : v'.snapshotPath = v.snapshotPath
  entries : v'.entries = v.entries
  chunks : v'.chunks = v.chunks

theorem vectorsStay_refl (vectors : Option (VectorIndex Float)) : Option.Rel VectorsStay vectors vectors :=
  rel_refl fun _ => ⟨rfl, rfl, rfl⟩

/-- The vectors are stored, if they have a place. -/
theorem runOn_saveVectors (files : ∀ v ∈ ix.vectors, ∀ path ∈ v.snapshotPath, path.IsFile)
    (good : ∀ v ∈ ix.vectors, ∀ c ∈ v.chunks.values, c.unchecked = [] ∧ c.IsShallow) (uncut : .cut ∉ d.fates) :
    ∃ answer vectors d', (if ix.vectors.any fun v => v.snapshotPath.isSome then onVectors (VectorIndex.save none)
        else pure ()).runOn ix d = (answer, { ix with vectors }, d') ∧
      Option.Rel VectorsStay ix.vectors vectors ∧ .cut ∉ d'.fates ∧ OnlyStorage answer := by
  split
  next placed =>
    obtain ⟨v, there, isSome⟩ := (Option.any_eq_true _ _).1 placed
    obtain ⟨path, target⟩ := Option.isSome_iff_exists.1 isSome
    have chunks := good v there
    obtain ⟨answer, v', d', saved, path', entries, same, change, _, faults⟩ :=
      VectorIndex.runOn_save target (fun c hc => (chunks c hc).1) d
    exact ⟨answer, some v', d', runOn_onVectors there saved, there ▸ .some ⟨path', entries, same⟩, change.no_cut uncut,
      faults (files v there path target) uncut fun c hc => (chunks c hc).2⟩
  next => exact ⟨.ok (), ix.vectors, d, rfl, vectorsStay_refl _, uncut, .ok ()⟩

/-- The store is stored, if it has a place. -/
def saveStore (file : Option Path) : Action Indexer Unit :=
  match file with
  | some path => onPart Indexer.store (fun ix store => { ix with store }) (ChunkStore.save path)
  | none => pure ()

theorem runOn_saveStore (vectors : Option (VectorIndex Float)) (files : ∀ path ∈ ix.storeFile, path.IsFile)
    (store : Chunk.Filed (Storable ix.writesText) ix.store.chunks) (uncut : .cut ∉ d.fates) :
    ∃ answer d', (saveStore ix.storeFile).runOn { ix with vectors } d = (answer, { ix with vectors }, d') ∧
      .cut ∉ d'.fates ∧ OnlyStorage answer := by
  generalize there : ix.storeFile = file
  cases file with
  | none => exact ⟨.ok (), d, rfl, uncut, .ok ()⟩
  | some path =>
    have text : ix.writesText = true := by rw [writesText, there, Option.isSome_some, Bool.or_true]
    rw [text] at store
    obtain ⟨answer, d', saved, change, _, faults⟩ :=
      ChunkStore.runOn_save (ChunkStore.hasRecords_of_filed (store.mono fun _ => Storable.read)) path d
    have content := ChunkStore.content_of_shallow (fun c hc => (store.values c hc).read.checked)
      fun c hc => (store.values c hc).shallow
    exact ⟨answer, d', runOn_onStore saved, change.no_cut uncut,
      faults (files path there) uncut content (checkContent_store store)⟩

/-- What there is a place for is stored; a fault that keeps it from the disk is one of the storage. -/
theorem runOn_persist (files : ∀ v ∈ ix.vectors, ∀ path ∈ v.snapshotPath, path.IsFile)
    (storeFiles : ∀ path ∈ ix.storeFile, path.IsFile)
    (vectors : ∀ v ∈ ix.vectors, v.chunks = ix.store.chunks)
    (store : Chunk.Filed (Storable ix.writesText) ix.store.chunks) (uncut : .cut ∉ d.fates) :
    ∃ answer vectors d', persist.runOn ix d = (answer, { ix with vectors }, d') ∧
      Option.Rel VectorsStay ix.vectors vectors ∧ .cut ∉ d'.fates ∧ OnlyStorage answer := by
  have good : ∀ v ∈ ix.vectors, ∀ c ∈ v.chunks.values, c.unchecked = [] ∧ c.IsShallow := by
    intro v hv c hc
    rw [vectors v hv] at hc
    exact ⟨(store.values c hc).read.checked, (store.values c hc).shallow⟩
  obtain ⟨answer, vectors', d₁, saved, stay, uncut₁, faults⟩ := runOn_saveVectors files good uncut
  have stages : persist.runOn ix d = (((if ix.vectors.any fun v => v.snapshotPath.isSome then
      onVectors (VectorIndex.save none) else pure ()) >>= fun _ => saveStore ix.storeFile).runOn ix d) := by
    rw [persist, runOn_bind_ok (runOn_memory _ _)]
    by_cases placed : (ix.vectors.any fun v => v.snapshotPath.isSome) = true
    · simp only [placed, if_true]
      rfl
    · simp only [placed]
      rfl
  rw [stages]
  cases answer with
  | error fault => exact ⟨.error fault, vectors', d₁, runOn_bind_error saved _, stay, uncut₁, faults⟩
  | ok _ =>
    rw [runOn_bind_ok saved]
    obtain ⟨answer, d₂, stored, uncut₂, faults⟩ := runOn_saveStore vectors' storeFiles store uncut₁
    exact ⟨answer, vectors', d₂, stored, stay, uncut₂, faults⟩

section Inserted
variable {chunks : List Chunk} {lexical : LexicalIndex Float} {vectors : Option (VectorIndex Float)}

/-- The chunks of a batch that have come into each index. -/
structure Inserted (chunks : List Chunk) (ix : Indexer) (lexical : LexicalIndex Float)
    (vectors : Option (VectorIndex Float)) : Prop where
  entries : lexical.entries = ix.lexical.entries.putAll (chunks.map fun c => (c.id, .ofChunk c))
  directory : lexical.directory = ix.lexical.directory
  current : lexical.IsCurrent
  vectors : Option.Rel (VectorsPut chunks) ix.vectors vectors

/-- The indexer once the chunks are in its store as well. -/
def registered (ix : Indexer) (chunks : List Chunk) (lexical : LexicalIndex Float)
    (vectors : Option (VectorIndex Float)) : Indexer :=
  { ix with lexical, vectors, store := ⟨ix.store.chunks.putAll (chunks.map fun c => (c.id, c))⟩ }

/-- Chunks that have come into all indexes leave them in agreement. -/
theorem Agrees.put {ix' : Indexer} (h : ix.Agrees)
    (entries : ix'.lexical.entries = ix.lexical.entries.putAll (chunks.map fun c => (c.id, .ofChunk c)))
    (current : ix'.lexical.IsCurrent) (vectors : Option.Rel (VectorsPut chunks) ix.vectors ix'.vectors)
    (store : ix'.store.chunks = ix.store.chunks.putAll (chunks.map fun c => (c.id, c))) : ix'.Agrees := by
  refine ⟨?_, current, fun v' hv => ?_⟩
  · rw [entries, store, h.lexical, Keyed.mapValues_putAll, List.map_map]
    rfl
  · obtain ⟨v, there, put⟩ := exists_of_rel vectors v' hv
    obtain ⟨keys, same⟩ := h.vectors v there
    obtain ⟨pairs, entries, ids⟩ := put.entries
    rw [entries, store, put.chunks, same]
    refine ⟨Keyed.keys_putAll_congr keys (ids.trans ?_), rfl⟩
    rw [List.map_map]
    rfl

theorem Agrees.registered (h : ix.Agrees) (inserted : Inserted chunks ix lexical vectors) :
    (ix.registered chunks lexical vectors).Agrees :=
  h.put inserted.entries inserted.current inserted.vectors rfl

theorem Writable.registered (h : ix.Writable) (good : ∀ c ∈ chunks, Storable ix.writesText c)
    (inserted : Inserted chunks ix lexical vectors)
    (clear : ∀ dir ∈ lexical.directory, dir.Sound ∧ lexical.IsWritable dir) :
    (ix.registered chunks lexical vectors).Writable ∧ (ix.registered chunks lexical vectors).writesText = ix.writesText := by
  have text : (ix.registered chunks lexical vectors).writesText = ix.writesText := by
    change (lexical.directory.isSome || ix.storeFile.isSome) = ix.writesText
    rw [inserted.directory, writesText]
  refine ⟨⟨text.symm ▸ h.store.putAll good, clear, fun v' hv path hp => ?_, h.storeFile⟩, text⟩
  obtain ⟨v, there, put⟩ := exists_of_rel inserted.vectors v' hv
  rw [put.snapshotPath] at hp
  exact h.snapshot v there path hp

end Inserted

/-- Neither a graph nor how the vectors are stored is anything to the agreement. -/
theorem Agrees.stay (h : ix.Agrees) {vectors : Option (VectorIndex Float)} (stay : Option.Rel VectorsStay ix.vectors vectors)
    (graph : Option (CodeGraph Float)) : ({ ix with vectors, graph } : Indexer).Agrees := by
  refine { h with vectors := fun v' hv => ?_ }
  obtain ⟨v, there, same⟩ := exists_of_rel stay v' hv
  obtain ⟨keys, chunks⟩ := h.vectors v there
  rw [same.entries, same.chunks]
  exact ⟨keys, chunks⟩

theorem Writable.stay (h : ix.Writable) {vectors : Option (VectorIndex Float)}
    (stay : Option.Rel VectorsStay ix.vectors vectors) (graph : Option (CodeGraph Float)) :
    ({ ix with vectors, graph } : Indexer).Writable := by
  refine { h with snapshot := fun v' hv path hp => ?_ }
  obtain ⟨v, there, same⟩ := exists_of_rel stay v' hv
  rw [same.snapshotPath] at hp
  exact h.snapshot v there path hp

/-- The graph is made anew from the store, if there is one. -/
theorem runOn_rebuildGraph_built (ix : Indexer) (made : ∀ c ∈ ix.store.toList, c.Made) (d : Disk) :
    ∃ answer graph, rebuildGraph.runOn ix d = (answer, { ix with graph }, d) ∧
      GraphBuilt { ix with graph } := by
  obtain ⟨answer, graph, run, built⟩ := runOn_rebuildGraph ix d
  refine ⟨answer, graph, run, fun g hg => ?_⟩
  obtain ⟨old, _, same⟩ := built g hg
  rw [CodeGraph.rebuild_of_made made] at same
  rw [(Prod.mk.inj same).2]
  rfl

/-- A commit leaves the indexes in agreement, with the graph of the store, and changes no content that is there. -/
theorem Agrees.commit (h : ix.Agrees) (built : ix.GraphBuilt) (writable : ix.Writable)
    (ready : Ready (Storable ix.writesText) batch) (now : Float) (uncut : .cut ∉ d.fates) :
    ∃ answer ix' d', (commit now batch).runOn ix d = (answer, ix', d') ∧ ix'.Agrees ∧ ix'.GraphBuilt ∧ ix'.Writable ∧
      ix'.writesText = ix.writesText ∧ .cut ∉ d'.fates ∧ ix.store.KeepsContents ix'.store := by
  rw [Indexer.commit, runOn_bind_ok (runOn_memory _ _)]
  cases dropped : batch.dropCollisions ix.store with
  | error fault =>
    exact ⟨.error fault, ix, d, runOn_bind_error (runOn_ofExcept _ _ _) _, h, built, writable, rfl, uncut, .refl _⟩
  | ok b =>
    obtain ⟨ready, free⟩ := dropCollisions_ok ready dropped
    have read : ∀ c ∈ b.chunks, c.WellRead := fun c hc => (ready.chunks c hc).read
    rw [runOn_bind_ok (runOn_ofExcept _ _ _)]
    -- the vectors come first, and where they do not fit the other parts are as they were
    rcases runOn_insertVectors now (fun c hc => (read c hc).checked) ix d with ⟨fault, failed⟩ | ⟨vectors, run₁, put⟩
    · exact ⟨.error fault, ix, d, runOn_bind_error failed _, h, built, writable, rfl, uncut, .refl _⟩
    rw [runOn_bind_ok run₁]
    -- from here on a fault of the storage is noted, and all chunks come into every part
    obtain ⟨answer, lexical, d₂, inserted, entries, directory, current, clear, uncut₂, faults⟩ :=
      LexicalIndex.runOn_insert_writable h.current writable.lexical
        (fun c hc => ⟨read c hc, (ready.chunks c hc).shallow⟩)
        (fun placed c hc => isClear_add (by
          have text : ix.writesText = true := by rw [writesText, placed, Bool.true_or]
          exact text ▸ ready.chunks c hc)) uncut
    rw [← ready.entries] at inserted
    obtain ⟨answer', run₂, _, all⟩ := runOn_storageFault? (runOn_insertEntries b { ix with vectors } d inserted)
    obtain ⟨lexicalFault, rfl⟩ := all faults
    have run₃ : (b.chunks.forM register).runOn { ix with lexical, vectors } d₂
        = (.ok (), ix.registered b.chunks lexical vectors, d₂) :=
      runOn_register (fun c hc => (read c hc).made) ready.once { ix with lexical, vectors } free d₂
    have came : Inserted b.chunks ix lexical vectors := ⟨entries, directory, current, put⟩
    have h₃ := h.registered came
    obtain ⟨writable₃, text⟩ := writable.registered ready.chunks came clear
    rw [runOn_bind_ok run₂, runOn_bind_ok run₃]
    obtain ⟨answer, vectors', d₄, run₄, stay, uncut₄, faults⟩ := runOn_persist writable₃.snapshot writable₃.storeFile
      (fun v hv => (h₃.vectors v hv).2) writable₃.store uncut₂
    obtain ⟨answer', run₄, _, all⟩ := runOn_storageFault? run₄
    obtain ⟨storeFault, rfl⟩ := all faults
    rw [runOn_bind_ok run₄]
    obtain ⟨answer, graph, run₅, built⟩ := runOn_rebuildGraph_built
      { ix.registered b.chunks lexical vectors with vectors := vectors' }
      (fun c hc => (writable₃.store.values c hc).read.made) d₄
    have h₅ := h₃.stay stay graph
    have writable₅ := writable₃.stay stay graph
    have keeps := ChunkStore.keepsContents_putAll free
    cases answer with
    | error fault => exact ⟨.error fault, _, d₄, runOn_bind_error run₅ _, h₅, built, writable₅, text, uncut₄, keeps⟩
    | ok _ =>
      rw [runOn_bind_ok run₅, runOn_bind_ok (runOn_memory _ _)]
      exact ⟨_, _, d₄, rfl, h₅, built, writable₅, text, uncut₄, keeps⟩

end Commit

end CodeSearch.Indexer
