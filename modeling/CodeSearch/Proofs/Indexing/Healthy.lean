import CodeSearch.Proofs.Indexing.Agreement
import CodeSearch.Proofs.Indexing.Distinct
import CodeSearch.Proofs.Indexing.Endings
import CodeSearch.Proofs.Indexing.Memory
import CodeSearch.Proofs.Lexical.Growth
import CodeSearch.Proofs.Vector.Widths
/-!
# Healthy indexers

An indexer is healthy if nothing but the storage can fail in it: what it holds can be written, its directories and files
have names that a system can keep, and the texts of the chunks that come in get vectors of the width of the index. Then
a batch of chunks, some of which may be refused, comes through all stages of its indexing, whatever the disk does short
of losing its power, and leaves a healthy indexer (`Healthy.runOn_indexChunks`). The indexes need not agree for that,
and need not have come about in any particular way.
-/

namespace CodeSearch

open CodeSearch.Action

/-- If there is a fault it is one of the storage. -/
abbrev StorageOnly (fault : Fault) : Prop := fault.isStorage = true

/-! ## Chunks -/

namespace Chunk

/-- A record of the chunk can be made, and has a form in a file. -/
structure Written (c : Chunk) : Prop where
  recorded : ∃ record, c.stored = .ok record
  form : c.json.HasForm

/-- A chunk that nothing keeps out of the indexes. Where records are written as texts its record has a form in a file. -/
structure Fit (text : Bool) (c : Chunk) : Prop where
  made : c.Made
  shallow : c.IsShallow
  form : text = true → c.json.HasForm

/-- A chunk whose id is empty or whose content is blank, both being texts. -/
structure Refused (c : Chunk) : Prop where
  id : c.unchecked.get? "id" = none
  content : c.unchecked.get? "content" = none
  empty : c.isFilled = false

theorem Refused.named {c : Chunk} (h : c.Refused) : c.checkId = .ok () := by
  rw [checkId, checkBeside, h.id]
  rfl

theorem Refused.decided {c : Chunk} (h : c.Refused) : Lexical.Entry.prepare c
    = if c.isFilled then .ok (.ofChunk c) else .error (.invalidChunk .blankIdOrContent (.str c.id)) := by
  rw [prepare_of_empty h.id h.content h.empty, h.empty]
  rfl

theorem Fit.enters {text : Bool} {c : Chunk} (h : c.Fit text) : c.Enters := enters_of_shallow h.made.checked h.shallow

theorem Fit.written {c : Chunk} (h : c.Fit true) : c.Written := ⟨h.enters.recorded, h.form rfl⟩

theorem fit_plain {id content : String} (h : (plain id content).WellRead)
    (whole : (plain id content).json.isWhole = true) (text : Bool) : (plain id content).Fit text :=
  ⟨h.made, Nat.zero_le _, fun _ => ⟨(isData_json h).textsKept, whole⟩⟩

theorem json_of_stored {c : Chunk} {record : Json} (h : c.stored = .ok record) : record = c.json := by
  rw [stored] at h
  split at h
  · cases h
  · split at h
    · injection h with h
      exact h.symm
    · cases h

end Chunk

/-! ## The lexical index -/

namespace LexicalIndex

open Lexical

variable {α : Type}

/-- An index all of whose changes, entries and segments have a form in the files of a directory. -/
structure Encodable (dir : Path) (ix : LexicalIndex α) : Prop where
  limit : ∃ most, ix.maxSegments = .ok most
  entries : ∀ e ∈ ix.entries.values, e.chunk.Written
  pending : ∀ change ∈ ix.pending, change.json.HasForm
  segments : ∀ name ∈ ix.segments, Text.IsClear name.toList ∧ (dir.child name).Sound

theorem hasForm_add {c : Chunk} (h : c.json.HasForm) : (Change.add c).json.HasForm := by
  have texts : ∀ text ∈ ["op", "add", "chunk"], Text.IsClear text.toList := by
    intro text ht
    exact .of_ascii (by revert text; decide)
  refine Json.hasForm_obj.2 (List.forall_mem_cons.2 ⟨⟨texts _ (by simp), Json.hasForm_str.2 (texts _ (by simp))⟩, ?_⟩)
  exact List.forall_mem_singleton.2 ⟨texts _ (by simp), h⟩

theorem isFile_child {dir : Path} (sound : dir.Sound) {name : String} (plain : IsPlainName name) :
    (dir.child name).IsFile := by
  refine ⟨?_, Path.sound_child plain sound, ?_⟩
  · rw [Path.name_child plain]
    exact plain.ne_empty
  · rw [Path.temporary_child plain]
    exact Path.sound_child plain.temporary sound

/-- Only the storage keeps such an index from its directory. -/
theorem writes_encodable {directory : Option Path} (sound : ∀ dir ∈ directory, dir.Sound) :
    Writes (α := α) StorageOnly directory fun ix =>
      ix.directory = directory ∧ ∀ dir ∈ directory, ix.Encodable dir where
  placed h := h.1
  refreshed h := ⟨h.1, fun dir hd => { h.2 dir hd with }⟩
  written h := ⟨h.1, fun dir hd => { h.2 dir hd with pending := List.forall_mem_nil _ }⟩
  numbered h := ⟨h.1, fun dir hd => { h.2 dir hd with }⟩
  listed n old h := by
    refine ⟨h.1, fun dir hd => { h.2 dir hd with segments := List.forall_mem_append.2 ⟨?_, ?_⟩ }⟩
    · exact fun name hn => (h.2 dir hd).segments name (old name hn)
    · exact List.forall_mem_singleton.2
        ⟨isClear_segmentName n, Path.sound_child (isPlainName_segmentName n) (sound dir hd)⟩
  forms {ix dir} hd h := by
    have encodable := h.2 dir hd
    refine ⟨.of_ok encodable.limit, fun e he => .of_ok (encodable.entries e he).recorded, ?_, ?_, ?_, ?_⟩
    · exact .of_ok ⟨(), checkContent_segment encodable.pending⟩
    · have adds : ∀ e ∈ ix.entries.values, (Change.add e.chunk).json.HasForm :=
        fun e he => hasForm_add (encodable.entries e he).form
      exact .of_ok ⟨(), checkContent_segment (List.forall_mem_map.2 adds)⟩
    · exact .of_ok ⟨(), checkContent_manifest (fun name hn => (encodable.segments name hn).1) _⟩
    · exact fun name hn => Path.passes_of_sound (encodable.segments name hn).2
  files hd plain := (isFile_child (sound _ hd) plain).takes
  storage _ _ := rfl

/-- The entries of fit chunks come into the index, whatever becomes of the files. -/
theorem runOn_insertPrepared_encodable {ix : LexicalIndex α} (past : ix.snapshot.generation ≤ ix.generation)
    (writable : ∀ dir ∈ ix.directory, dir.Sound ∧ ix.Encodable dir) {chunks : List Chunk}
    (enters : ∀ c ∈ chunks, c.Enters) (forms : ix.directory.isSome = true → ∀ c ∈ chunks, c.json.HasForm) {d : Disk}
    (uncut : .cut ∉ d.fates) :
    ∃ answer ix' d', (insertPrepared (chunks.map Entry.ofChunk)).runOn ix d = (answer, ix', d') ∧
      ix'.entries = ix.entries.putAll (chunks.map fun c => (c.id, .ofChunk c)) ∧ ix'.directory = ix.directory ∧
      ix'.IsCurrent ∧ (∀ dir ∈ ix'.directory, dir.Sound ∧ ix'.Encodable dir) ∧ .cut ∉ d'.fates ∧
      FailsBy StorageOnly answer := by
  have sound : ∀ dir ∈ ix.directory, dir.Sound := fun dir hd => (writable dir hd).1
  have good : ∀ e ∈ chunks.map Entry.ofChunk, e.chunk.Enters := List.forall_mem_map.2 enters
  have added := addAll_of_enters good ix
  have pairs : (chunks.map Entry.ofChunk).map (fun e => (e.chunk.id, e)) = chunks.map fun c => (c.id, .ofChunk c) := by
    rw [List.map_map]
    rfl
  rw [pairs, List.map_map] at added
  let filled := (ix.changed (ix.entries.putAll (chunks.map fun c => (c.id, .ofChunk c)))
    (chunks.map fun c => .add c)).advanced
  have encodable : ∀ dir ∈ ix.directory, filled.Encodable dir := by
    intro dir hd
    have old := (writable dir hd).2
    have forms := forms (by rw [hd]; rfl)
    refine { old with
      entries := Keyed.forall_values_putAll old.entries ?_
      pending := List.forall_mem_append.2 ⟨old.pending, ?_⟩ }
    · exact List.forall_mem_map.2 fun c hc => ⟨(enters c hc).recorded, forms c hc⟩
    · exact List.forall_mem_map.2 fun c hc => hasForm_add (forms c hc)
  -- the generation has gone past that of the snapshot, so the snapshot cannot pass for that of the new entries
  have current : filled.IsCurrent :=
    ⟨Nat.le_succ_of_le past, fun same => absurd same (Nat.ne_of_lt (Nat.lt_succ_of_le past))⟩
  have ends := (((writes_encodable sound).and (IsCurrent.steady.and (.entries filled.entries))).ends_commit.bind
    fun _ => ends_pure (chunks.map Entry.ofChunk).length) filled d ⟨⟨rfl, encodable⟩, current, rfl⟩
    (Disk.spared_of_uncut uncut)
  rw [insertPrepared, runOn_bind_ok (runOn_memory _ _)]
  simp only [added]
  rw [runOn_bind_ok (runOn_setMemory _ _ _), runOn_bind_ok (runOn_ofExcept _ _ _),
    runOn_bind_ok (runOn_modifyMemory _ _ _)]
  obtain ⟨⟨⟨placed, encodable'⟩, current', entries⟩, spared, fails⟩ := ends
  refine ⟨_, _, _, rfl, entries, placed, current', fun dir hd => ?_, fun cut => ?_, fails⟩
  · exact ⟨sound dir (placed ▸ hd), encodable' dir (placed ▸ hd)⟩
  · exact absurd (spared cut) Bool.false_ne_true

end LexicalIndex

/-! ## The vector index -/

namespace VectorIndex

open CodeSearch.Vector

/-- The index can take vectors of a width, and the texts of chunks of a kind get such vectors, one for each. -/
structure Serves (p : Chunk → Prop) (width : Nat) (v : VectorIndex Float) : Prop where
  dimension : v.dimension = .null ∨ (Json.int width).same v.dimension = true
  embeds : ∀ chunks : List Chunk, (∀ c ∈ chunks, p c) → ∃ vectors, v.embedChunks chunks = .ok vectors ∧
    vectors.length = chunks.length ∧ ∀ vector ∈ vectors, vector.length = width

/-- An index whose embedder works serves all chunks that are made of records. -/
theorem Takes.serves {p : Chunk → Prop} {width : Nat} {v : VectorIndex Float} (h : v.Takes width)
    (made : ∀ c, p c → c.Made) : v.Serves p width := by
  refine ⟨h.dimension.imp_right fun known => ?_, fun chunks hc => embedChunks_ok h fun c inside => made c (hc c inside)⟩
  rw [known]
  exact Json.same_int_self _

/-- An index into which chunks have been put with some vectors. Its embedder is the same, and so is what it does. -/
structure PutWith (now : Float) (chunks : List Chunk) (vectors : List (List Float)) (v v' : VectorIndex Float) : Prop where
  embedChunks : v'.embedChunks = v.embedChunks
  entries : v'.entries = v.entries.putAll ((chunks.zip vectors).map fun pair => (pair.1.id, ⟨pair.2, now⟩))

/-- Such vectors are inserted under the ids of their chunks. -/
theorem Serves.inserted {p : Chunk → Prop} {width : Nat} {v : VectorIndex Float} (h : v.Serves p width)
    {chunks : List Chunk} (made : ∀ c ∈ chunks, c.Made) {vectors : List (List Float)}
    (count : vectors.length = chunks.length) (wide : ∀ vector ∈ vectors, vector.length = width) (now : Float) :
    ∃ v', v.insertEmbedded now chunks (vectors.map Tensor.ofList) = (.ok chunks.length, v') ∧
      Indexer.VectorsPut chunks v v' ∧ PutWith now chunks vectors v v' ∧ v'.Serves p width := by
  obtain ⟨known, fits⟩ := widths_expected h.dimension wide
  have named : ∀ c ∈ chunks, c.checkId = .ok () := fun c hc => Chunk.checkId_of_checked (made c hc).checked
  have filled : ∀ c ∈ chunks, c.checkFilled = .ok () := fun c hc => Chunk.checkFilled_of_made (made c hc)
  have firsts : (chunks.zip vectors).map Prod.fst = chunks := List.map_fst_zip (Nat.le_of_eq count.symm)
  have ids : ((chunks.zip vectors).map fun pair => (pair.1.id, (⟨pair.2, now⟩ : Vector.Entry Float))).map Prod.fst
      = chunks.map Chunk.id := by
    conv_rhs => rw [← firsts, List.map_map]
    rw [List.map_map]
    rfl
  have same : (chunks.zip vectors).map (fun pair => (pair.1.id, pair.1)) = chunks.map fun c => (c.id, c) := by
    conv_rhs => rw [← firsts, List.map_map]
    rfl
  have inserted := insertEmbedded_of_widths named count.symm (checkWidths_of_hasWidth filled fits count.symm) now
  rw [same] at inserted
  refine ⟨_, inserted, ?_⟩
  split
  · exact ⟨⟨rfl, ⟨_, rfl, ids⟩, rfl⟩, ⟨rfl, rfl⟩, known, h.embeds⟩
  · exact ⟨⟨rfl, ⟨_, rfl, ids⟩, rfl⟩, ⟨rfl, rfl⟩, known, h.embeds⟩

end VectorIndex

/-! ## The store -/

/-- A store of chunks with records has a file, and its text has no halves. -/
theorem ChunkStore.checkContent_of_written {s : ChunkStore} {content : Content} (written : ∀ c ∈ s.toList, c.Written)
    (made : s.content = .ok content) : Disk.checkContent content = .ok () := by
  obtain ⟨records, stored, made⟩ := exists_of_bind_ok made
  injection made with made
  subst made
  refine Disk.checkContent_render (Json.hasForm_arr.2 fun record hr => ?_)
  obtain ⟨c, hc, one⟩ := mem_of_mapM_ok stored record hr
  exact Chunk.json_of_stored one ▸ (written c hc).form

/-! ## The indexer -/

namespace Indexer

open Lexical Indexing

/-- Nothing but the storage can fail when chunks of a kind are indexed. -/
structure Healthy (p : Chunk → Prop) (width : Nat) (ix : Indexer) : Prop where
  past : ix.lexical.snapshot.generation ≤ ix.lexical.generation
  lexical : ∀ dir ∈ ix.lexical.directory, dir.Sound ∧ ix.lexical.Encodable dir
  vectors : ∀ v ∈ ix.vectors, v.Serves p width
  snapshot : ∀ v ∈ ix.vectors, ∀ path ∈ v.snapshotPath, path.IsFile ∧
    ∀ c ∈ v.chunks.values, ∃ record, c.stored = .ok record
  storeFile : ∀ path ∈ ix.storeFile, path.IsFile ∧ ∀ c ∈ ix.store.toList, c.Written
  graph : ix.graph.isSome = true → ∀ c ∈ ix.store.toList, c.Made

/-- What a batch has made of an indexer: the chunks that are taken are in all indexes, and what is told of the others
are collisions, chunks that are refused, and what has become of the files. -/
structure Indexed (ix : Indexer) (chunks : List Chunk) (report : Report) (ix' : Indexer) : Prop where
  received : report.received = chunks.length
  indexed : report.indexed = (taken ix.store chunks).length
  complaints : ∃ faults : List Fault, (∀ fault ∈ faults, StorageOnly fault) ∧
    report.complaints = (distinct ix.store chunks).2
      ++ ((distinct ix.store chunks).1.values.filter fun c => !c.isFilled).map refusal ++ faults.map .failed
  entries : ix'.lexical.entries = ix.lexical.entries.putAll ((taken ix.store chunks).map fun c => (c.id, .ofChunk c))
  current : ix'.lexical.IsCurrent
  vectors : Option.Rel (VectorsPut (taken ix.store chunks)) ix.vectors ix'.vectors
  store : ix'.store.chunks = ix.store.chunks.putAll ((taken ix.store chunks).map fun c => (c.id, c))

section Stages
variable {p : Chunk → Prop} {width : Nat} {ix : Indexer} {batch : Batch} {d : Disk}

/-- Work that only the storage can end has an answer. -/
theorem runOn_storageFault?_storage {work : Action Indexer Unit} {answer : Except Fault Unit} {ix' : Indexer}
    {d' : Disk} (run : work.runOn ix d = (answer, ix', d')) (storage : FailsBy StorageOnly answer) :
    ∃ fault : Option Fault, (storageFault? work).runOn ix d = (.ok fault, ix', d') ∧ ∀ f ∈ fault, StorageOnly f := by
  rw [storageFault?, runOn_tryCatch, runOn_bind, run]
  cases answer with
  | ok _ => exact ⟨none, rfl, fun f hf => absurd hf (Option.not_mem_none f)⟩
  | error fault =>
    have stored : fault.isStorage = true := storage fault rfl
    refine ⟨some fault, ?_, fun f hf => Option.some.inj hf ▸ stored⟩
    simp only [stored, if_true]
    rfl

/-- An index of vectors that has been marked as one that is stored or is not. -/
def Marked (v v' : VectorIndex Float) : Prop := ∃ dirty, v' = { v with dirty }

/-- An indexer that differs in nothing but the mark of its vectors. -/
def Stays (ix ix' : Indexer) : Prop := ∃ vectors, ix' = { ix with vectors } ∧ Option.Rel Marked ix.vectors vectors

theorem Stays.refl (ix : Indexer) : ix.Stays ix := ⟨ix.vectors, rfl, rel_refl fun v => ⟨v.dirty, rfl⟩⟩

/-- The vectors and the store of a healthy indexer are stored, or only the storage keeps them from it. -/
theorem Healthy.ends_persist (h : ix.Healthy p width) : Ends ix.Stays StorageOnly persist := by
  have saved : Ends (fun v' => ∃ v ∈ ix.vectors, Marked v v') StorageOnly (VectorIndex.save none) := by
    refine VectorIndex.ends_save (fun _ _ => rfl) rfl ?_ ?_
    · rintro _ ⟨v, hv, dirty, rfl⟩ path hp
      obtain ⟨file, records⟩ := h.snapshot v hv path hp
      exact ⟨file.takes, VectorIndex.failsBy_payload fun c hc => .of_ok (records c hc)⟩
    · rintro _ ⟨v, hv, dirty, rfl⟩
      exact ⟨v, hv, false, rfl⟩
  refine Indexer.ends_persist (ends_onVectors saved ?_ ?_) ?_
  · rintro _ ⟨vectors, rfl, rel⟩ v' hv
    exact exists_of_rel rel v' hv
  · rintro _ _ ⟨vectors, rfl, _⟩ ⟨v, hv, marked⟩
    exact ⟨_, rfl, hv ▸ .some marked⟩
  · rintro _ ⟨vectors, rfl, stay⟩ path hp
    obtain ⟨file, written⟩ := h.storeFile path hp
    have stored : Ends (fun s => s = ix.store) StorageOnly (ChunkStore.save path) := by
      refine ChunkStore.ends_save (fun _ _ => rfl) file.takes ?_ ?_
      · rintro _ rfl c hc
        exact .of_ok (written c hc).recorded
      · rintro _ content rfl made
        exact .of_ok ⟨(), ChunkStore.checkContent_of_written written made⟩
    refine stored.onPart ?_ ?_
    · rintro _ ⟨vectors, rfl, _⟩
      rfl
    · rintro _ _ ⟨vectors, rfl, stay⟩ rfl
      exact ⟨vectors, rfl, stay⟩

/-- So a healthy indexer is stored, or the storage is to blame. -/
theorem Healthy.runOn_persist (h : ix.Healthy p width) (uncut : .cut ∉ d.fates) :
    ∃ fault vectors d', (storageFault? persist).runOn ix d = (.ok fault, { ix with vectors }, d') ∧
      Option.Rel Marked ix.vectors vectors ∧ .cut ∉ d'.fates ∧ ∀ f ∈ fault, StorageOnly f := by
  have ends := h.ends_persist ix d (Stays.refl ix) (Disk.spared_of_uncut uncut)
  rcases saved : persist.runOn ix d with ⟨answer, ix', d'⟩
  rw [saved] at ends
  obtain ⟨⟨vectors, rfl, rel⟩, spared, storage⟩ := ends
  obtain ⟨fault, caught, stored⟩ := runOn_storageFault?_storage saved storage
  exact ⟨fault, vectors, d', caught, rel, fun cut => absurd (spared cut) Bool.false_ne_true, stored⟩

theorem Healthy.runOn_rebuildGraph (h : ix.Healthy p width) (d : Disk) :
    rebuildGraph.runOn ix d = (.ok (), { ix with graph := ix.graph.map fun g => g.build ix.store.toList }, d) := by
  cases there : ix.graph with
  | none =>
    have same : { ix with graph := none } = ix := by rw [← there]
    rw [Option.map_none, same, rebuildGraph, runOn_bind_ok (runOn_memory _ _), there]
    rfl
  | some g =>
    rw [runOn_rebuildGraph_made (h.graph (by rw [there]; rfl)), there]

/-! ## A batch that comes through -/

/-- What is drafted of a batch, if it is only by their ids and contents that chunks are refused. -/
theorem draft_of_decided {chunks : List Chunk} (named : ∀ c ∈ chunks, c.checkId = .ok ())
    (decided : ∀ c ∈ chunks, Entry.prepare c
      = if c.isFilled then .ok (.ofChunk c) else .error (.invalidChunk .blankIdOrContent (.str c.id))) :
    ix.draft chunks = .ok ((taken ix.store chunks).map Entry.ofChunk, (distinct ix.store chunks).2
      ++ ((distinct ix.store chunks).1.values.filter fun c => !c.isFilled).map refusal) := by
  have prepared := prepareAll_eq fun c hc => decided c ((filed_members ix.store chunks).values c hc)
  rw [draft, forM_ok named, ok_bind]
  simp only [prepared]
  rfl

/-- The vectors of a batch are inserted. -/
theorem runOn_insertVectors_served (serves : ∀ v ∈ ix.vectors, v.Serves p width) (made : ∀ c ∈ batch.chunks, c.Made)
    (fits : Fits batch ix.vectors width) (now : Float) :
    ∃ vectors, (onVectors (insertVectors now batch)).runOn ix d = (.ok (), { ix with vectors }, d) ∧
      Option.Rel (VectorsPut batch.chunks) ix.vectors vectors ∧
      Option.Rel (VectorIndex.PutWith now batch.chunks batch.vectors) ix.vectors vectors ∧
      ∀ v ∈ vectors, v.Serves p width := by
  cases there : ix.vectors with
  | none =>
    have same : { ix with vectors := none } = ix := by rw [← there]
    exact ⟨none, by rw [same]; exact runOn_insertVectors_none there, .none, .none, nofun⟩
  | some v =>
    obtain ⟨v', inserted, put, vectors, serves'⟩ :=
      (serves v there).inserted made (fits.count (by rw [there]; rfl)) fits.wide now
    refine ⟨some v', ?_, .some put, .some vectors, fun other ho => Option.some.inj ho ▸ serves'⟩
    rw [runOn_insertVectors_some there, inserted]
    rfl

/-- The entries of fit chunks come into the lexical index, or the storage keeps them from its directory. -/
theorem runOn_insertEntries_encodable (ix : Indexer) (past : ix.lexical.snapshot.generation ≤ ix.lexical.generation)
    (writable : ∀ dir ∈ ix.lexical.directory, dir.Sound ∧ ix.lexical.Encodable dir)
    (ready : Ready (Chunk.Fit ix.writesText) batch) (uncut : .cut ∉ d.fates) :
    ∃ fault lexical d', (storageFault? (insertEntries batch)).runOn ix d = (.ok fault, { ix with lexical }, d') ∧
      lexical.entries = ix.lexical.entries.putAll (batch.chunks.map fun c => (c.id, .ofChunk c)) ∧
      lexical.directory = ix.lexical.directory ∧ lexical.IsCurrent ∧
      (∀ dir ∈ lexical.directory, dir.Sound ∧ lexical.Encodable dir) ∧ .cut ∉ d'.fates ∧
      ∀ f ∈ fault, StorageOnly f := by
  have forms (placed : ix.lexical.directory.isSome = true) : ∀ c ∈ batch.chunks, c.json.HasForm := by
    have text : ix.writesText = true := by rw [writesText, placed, Bool.true_or]
    exact fun c hc => (ready.chunks c hc).form text
  obtain ⟨answer, lexical, d', run, entries, directory, current, encodable, uncut', storage⟩ :=
    LexicalIndex.runOn_insertPrepared_encodable past writable (fun c hc => (ready.chunks c hc).enters) forms uncut
  rw [← ready.entries] at run
  have answered : (insertEntries batch).runOn ix d = (answer.map fun _ => (), { ix with lexical }, d') := by
    refine Indexer.runOn_insertEntries batch ix d ?_
    rw [runOn_bind, run]
    cases answer <;> rfl
  obtain ⟨fault, caught, stored⟩ := runOn_storageFault?_storage answered (storage.map _)
  exact ⟨fault, lexical, d', caught, entries, directory, current, encodable, uncut', stored⟩

/-- An indexer stays healthy when fit chunks come into its indexes and its store. -/
theorem Healthy.registered (h : ix.Healthy p width) {chunks : List Chunk} (fit : ∀ c ∈ chunks, c.Fit ix.writesText)
    {lexical : LexicalIndex Float} {vectors : Option (VectorIndex Float)}
    (inserted : Inserted chunks ix lexical vectors)
    (encodable : ∀ dir ∈ lexical.directory, dir.Sound ∧ lexical.Encodable dir)
    (serves : ∀ v ∈ vectors, v.Serves p width) : (ix.registered chunks lexical vectors).Healthy p width where
  past := inserted.current.1
  lexical := encodable
  vectors := serves
  snapshot v' hv path hp := by
    obtain ⟨v, there, put⟩ := exists_of_rel inserted.vectors v' hv
    rw [put.snapshotPath] at hp
    obtain ⟨file, records⟩ := h.snapshot v there path hp
    refine ⟨file, ?_⟩
    rw [put.chunks]
    exact Keyed.forall_values_putAll records (List.forall_mem_map.2 fun c hc => (fit c hc).enters.recorded)
  storeFile path hp := by
    have text : ix.writesText = true := by
      have placed : ix.storeFile.isSome = true := Option.isSome_iff_exists.2 ⟨path, hp⟩
      rw [writesText, placed, Bool.or_true]
    obtain ⟨file, written⟩ := h.storeFile path hp
    exact ⟨file, Keyed.forall_values_putAll written (List.forall_mem_map.2 fun c hc => (text ▸ fit c hc).written)⟩
  graph built := Keyed.forall_values_putAll (h.graph built) (List.forall_mem_map.2 fun c hc => (fit c hc).made)

/-- Whether the vectors are stored and what the graph is like is nothing to the health of an indexer. -/
theorem Healthy.marked (h : ix.Healthy p width) {vectors : Option (VectorIndex Float)}
    (rel : Option.Rel Marked ix.vectors vectors) {graph : Option (CodeGraph Float)}
    (built : graph.isSome = ix.graph.isSome) : ({ ix with vectors, graph } : Indexer).Healthy p width := by
  refine { h with vectors := fun v' hv => ?_, snapshot := fun v' hv => ?_, graph := fun g => h.graph (built ▸ g) }
  · obtain ⟨v, there, dirty, rfl⟩ := exists_of_rel rel v' hv
    exact ⟨(h.vectors v there).dimension, (h.vectors v there).embeds⟩
  · obtain ⟨v, there, dirty, rfl⟩ := exists_of_rel rel v' hv
    exact h.snapshot v there

/-- The chunks stand in an index whether it is stored or not. -/
theorem vectorsPut_marked {chunks : List Chunk} {before vectors after : Option (VectorIndex Float)}
    (put : Option.Rel (VectorsPut chunks) before vectors) (rel : Option.Rel Marked vectors after) :
    Option.Rel (VectorsPut chunks) before after :=
  rel_trans put rel fun _ _ _ put ⟨_, same⟩ => same ▸ ⟨put.snapshotPath, put.entries, put.chunks⟩

theorem putWith_marked {now : Float} {chunks : List Chunk} {embedded : List (List Float)}
    {before vectors after : Option (VectorIndex Float)}
    (put : Option.Rel (VectorIndex.PutWith now chunks embedded) before vectors) (rel : Option.Rel Marked vectors after) :
    Option.Rel (VectorIndex.PutWith now chunks embedded) before after :=
  rel_trans put rel fun _ _ _ put ⟨_, same⟩ => same ▸ ⟨put.embedChunks, put.entries⟩

/-- What a commit has made of an indexer: all chunks of the batch are in all indexes, and what is told beside what was
told of the batch is what has become of the files. -/
structure Committed (now : Float) (batch : Batch) (ix : Indexer) (report : Report) (ix' : Indexer) : Prop where
  inserted : Inserted batch.chunks ix ix'.lexical ix'.vectors
  vectors : Option.Rel (VectorIndex.PutWith now batch.chunks batch.vectors) ix.vectors ix'.vectors
  store : ix'.store.chunks = ix.store.chunks.putAll (batch.chunks.map fun c => (c.id, c))
  graph : ix'.graph = ix.graph.map fun g => g.build ix'.store.toList
  received : report.received = batch.received
  indexed : report.indexed = batch.entries.length
  complaints : ∃ faults : List Fault, (∀ fault ∈ faults, StorageOnly fault) ∧
    report.complaints = batch.complaints ++ faults.map .failed

/-- A batch that nothing is to be said against is committed, whatever becomes of the files. -/
theorem Healthy.commit (h : ix.Healthy p width) (ready : Ready (Chunk.Fit ix.writesText) batch)
    (free : ∀ c ∈ batch.chunks, ix.store.conflicts c = false) (fits : Fits batch ix.vectors width) (now : Float)
    (uncut : .cut ∉ d.fates) :
    ∃ report ix' d', (commit now batch).runOn ix d = (.ok report, ix', d') ∧ Committed now batch ix report ix' ∧
      ix'.Healthy p width ∧ ix'.writesText = ix.writesText ∧ .cut ∉ d'.fates := by
  have made : ∀ c ∈ batch.chunks, c.Made := fun c hc => (ready.chunks c hc).made
  -- one stage after the other: vectors, entries, store, files, graph
  obtain ⟨vectors, run₁, put, embedded, serves⟩ := runOn_insertVectors_served (d := d) h.vectors made fits now
  obtain ⟨lexicalFault, lexical, d₂, run₂, entries, directory, current, encodable, uncut₂, storage₂⟩ :=
    runOn_insertEntries_encodable { ix with vectors } h.past h.lexical ready uncut
  have came : Inserted batch.chunks ix lexical vectors := ⟨entries, directory, current, put⟩
  have h₃ := h.registered ready.chunks came encodable serves
  have run₃ : (batch.chunks.forM register).runOn { ix with lexical, vectors } d₂
      = (.ok (), ix.registered batch.chunks lexical vectors, d₂) :=
    runOn_register made ready.once { ix with lexical, vectors } free d₂
  obtain ⟨storeFault, vectors₄, d₄, run₄, rel, uncut₄, storage₄⟩ := h₃.runOn_persist uncut₂
  have run₅ := (h₃.marked rel rfl).runOn_rebuildGraph d₄
  rw [runOn_commit_stages (dropCollisions_of_free fun e he => free e.chunk (List.mem_map_of_mem he)) run₁ run₂ run₃ run₄
    run₅]
  have text : (lexical.directory.isSome || ix.storeFile.isSome) = ix.writesText := by rw [directory, writesText]
  have storage : ∀ fault ∈ lexicalFault.toList ++ storeFault.toList, StorageOnly fault :=
    List.forall_mem_append.2 ⟨by simpa using storage₂, by simpa using storage₄⟩
  refine ⟨_, _, d₄, rfl, ?_, h₃.marked rel (Option.isSome_map ..), text, uncut₄⟩
  exact {
    inserted := ⟨entries, directory, current, vectorsPut_marked put rel⟩
    vectors := putWith_marked embedded rel
    store := rfl
    graph := rfl
    received := rfl
    indexed := rfl
    complaints := ⟨_, storage, rfl⟩ }

/-- The texts of what is drafted get vectors that fit. -/
theorem prepare_served (serves : ∀ v ∈ ix.vectors, v.Serves p width) {chunks : List Chunk} {entries : List Entry}
    {complaints : List Complaint} (drafted : ix.draft chunks = .ok (entries, complaints))
    (known : ∀ e ∈ entries, p e.chunk) :
    ∃ vectors, ix.prepare chunks = .ok ⟨chunks.length, entries, vectors, complaints⟩ ∧
      (∀ v ∈ ix.vectors, v.embedChunks (entries.map Entry.chunk) = .ok vectors) ∧
      Fits ⟨chunks.length, entries, vectors, complaints⟩ ix.vectors width := by
  cases there : ix.vectors with
  | none => exact ⟨[], prepare_none there drafted, nofun, nofun, List.forall_mem_nil _⟩
  | some v =>
    obtain ⟨vectors, embedded, count, wide⟩ :=
      (serves v there).embeds (entries.map Entry.chunk) (List.forall_mem_map.2 known)
    exact ⟨vectors, prepare_ok there drafted embedded, fun other ho => Option.some.inj ho ▸ embedded, fun _ => count, wide⟩

/-- What a batch has made of the vectors and of the graph: the chunks that are taken stand with the vectors of their texts,
and the graph is one of the chunks of the store. -/
structure Derived (now : Float) (ix : Indexer) (chunks : List Chunk) (ix' : Indexer) : Prop where
  vectors : ∃ vectors, (∀ v ∈ ix.vectors, v.embedChunks (taken ix.store chunks) = .ok vectors) ∧
    Option.Rel (VectorIndex.PutWith now (taken ix.store chunks) vectors) ix.vectors ix'.vectors
  graph : ix'.graph = ix.graph.map fun g => g.build ix'.store.toList

/-- The batch that is made of chunks, with the vectors of their texts. -/
def drafted (ix : Indexer) (chunks : List Chunk) (vectors : List (List Float)) : Batch where
  received := chunks.length
  entries := (taken ix.store chunks).map Entry.ofChunk
  vectors := vectors
  complaints := (distinct ix.store chunks).2
    ++ ((distinct ix.store chunks).1.values.filter fun c => !c.isFilled).map refusal

theorem chunks_drafted (ix : Indexer) (chunks : List Chunk) (vectors : List (List Float)) :
    (ix.drafted chunks vectors).chunks = taken ix.store chunks := by
  rw [Batch.chunks, drafted, List.map_map]
  exact List.map_id _

/-- A batch is prepared, and nothing is to be said against what is left of it. -/
theorem Healthy.prepared (h : ix.Healthy p width) {chunks : List Chunk}
    (kinds : ∀ c ∈ chunks, c.Refused ∨ (p c ∧ c.Fit ix.writesText)) :
    ∃ vectors, ix.prepare chunks = .ok (ix.drafted chunks vectors) ∧
      (∀ v ∈ ix.vectors, v.embedChunks (taken ix.store chunks) = .ok vectors) ∧
      Fits (ix.drafted chunks vectors) ix.vectors width ∧
      Ready (Chunk.Fit ix.writesText) (ix.drafted chunks vectors) ∧
      ∀ c ∈ (ix.drafted chunks vectors).chunks, ix.store.conflicts c = false := by
  have drafted : ix.draft chunks = _ := draft_of_decided
    (fun c hc => (kinds c hc).elim Chunk.Refused.named fun fit => fit.2.enters.named)
    (fun c hc => (kinds c hc).elim Chunk.Refused.decided fun fit => Chunk.prepare_of_checked fit.2.made.checked)
  have good : ∀ c ∈ taken ix.store chunks, p c ∧ c.Fit ix.writesText := by
    intro c hc
    obtain ⟨accepted, filled⟩ := List.mem_filter.1 hc
    refine (kinds c ((filed_members _ _).values c accepted)).resolve_left fun refused => ?_
    rw [refused.empty] at filled
    cases filled
  obtain ⟨vectors, prepared, embedded, fits⟩ :=
    prepare_served h.vectors drafted (List.forall_mem_map.2 fun c hc => (good c hc).1)
  have same := ix.chunks_drafted chunks vectors
  refine ⟨vectors, prepared, same ▸ embedded, fits, .of_entries rfl nodup_taken fun c hc => (good c hc).2, ?_⟩
  rw [same]
  exact fun c hc => (free_distinct chunks).values c (List.mem_filter.1 hc).1

/-- A batch comes through all stages: the chunks that are taken are indexed, and all others are told of. -/
theorem Healthy.runOn_indexChunks (h : ix.Healthy p width) {chunks : List Chunk}
    (kinds : ∀ c ∈ chunks, c.Refused ∨ (p c ∧ c.Fit ix.writesText)) (now : Float) (uncut : .cut ∉ d.fates) :
    ∃ report ix' d', (indexChunks now chunks).runOn ix d = (.ok report, ix', d') ∧ ix.Indexed chunks report ix' ∧
      ix.Derived now chunks ix' ∧ ix'.Healthy p width ∧ ix'.writesText = ix.writesText ∧ .cut ∉ d'.fates := by
  obtain ⟨vectors, prepared, embedded, fits, ready, free⟩ := h.prepared kinds
  obtain ⟨report, ix', d', run, done, healthy, text, uncut'⟩ := h.commit ready free fits now uncut
  obtain ⟨inserted, put, store, graph, received, indexed, complaints⟩ := done
  rw [chunks_drafted] at inserted store put
  have derived : ix.Derived now chunks ix' := ⟨⟨vectors, embedded, put⟩, graph⟩
  refine ⟨report, ix', d', (runOn_indexChunks_ok prepared).trans run, ?_, derived, healthy, text, uncut'⟩
  exact {
    received := received
    indexed := indexed.trans (List.length_map _)
    complaints := complaints
    entries := inserted.entries
    current := inserted.current
    vectors := inserted.vectors
    store }

end Stages

/-- An indexer that nothing has been indexed by is healthy, if its files have names that a system can keep, its limit to
the number of segments is a number, and its embedder works. -/
theorem healthy_blank {p : Chunk → Prop} {width : Nat} (made : ∀ c, p c → c.Made) {directory : Option Path}
    (sound : ∀ dir ∈ directory, dir.Sound) (k1 b : Lexical.Parameter Float) (most : Int)
    {vectors : Option (VectorIndex Float)} (blank : ∀ v ∈ vectors, v.chunks = .empty ∧ v.Takes width)
    (snapshot : ∀ v ∈ vectors, ∀ path ∈ v.snapshotPath, path.IsFile) (graph : Option (CodeGraph Float))
    {storeFile : Option Path} (file : ∀ path ∈ storeFile, path.IsFile) :
    Healthy p width { lexical := .blank directory k1 b (.ok most), vectors, graph, storeFile } where
  past := le_rfl
  lexical dir hd := ⟨sound dir hd, ⟨⟨most, rfl⟩, List.forall_mem_nil _, List.forall_mem_nil _, List.forall_mem_nil _⟩⟩
  vectors v hv := (blank v hv).2.serves made
  snapshot v hv path hp := ⟨snapshot v hv path hp, by rw [(blank v hv).1]; exact List.forall_mem_nil _⟩
  storeFile path hp := ⟨file path hp, List.forall_mem_nil _⟩
  graph _ := List.forall_mem_nil _

/-- All indexes have a place on the disk. -/
def sample : Indexer where
  lexical := .blank (some ⟨"", ["lex"]⟩) (.whole 1) (.whole 1) (.ok 2)
  vectors := some (.blank (.hashed 2) (some ⟨"", ["vec.pkl"]⟩) .null (.ok 1) (.ok (.whole 50000)))
  storeFile := some ⟨"", ["chunks.json"]⟩

theorem healthy_sample : sample.Healthy Chunk.Made 2 := by
  have directory : ∀ dir ∈ some (⟨"", ["lex"]⟩ : Path), dir.Sound := by
    rintro dir ⟨⟩
    exact ⟨by decide +kernel, by decide +kernel⟩
  have file {name : String} (hn : name ∈ ["vec.pkl", "chunks.json"]) : Path.IsFile ⟨"", [name]⟩ := by
    revert name
    simp only [Path.IsFile, Path.Sound]
    decide +kernel
  refine healthy_blank (fun _ => id) directory _ _ 2 ?_ ?_ none ?_
  · rintro v ⟨⟩
    exact ⟨rfl, Embedder.works_hashed (by decide) (by decide), .inl rfl⟩
  · rintro v ⟨⟩ path ⟨⟩
    exact file (by simp)
  · rintro path ⟨⟩
    exact file (by simp)

end Indexer

end CodeSearch
