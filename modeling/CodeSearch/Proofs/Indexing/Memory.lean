import CodeSearch.Proofs.Indexing.Agreement
/-!
# Indexing in memory

Nothing that chunks hold can keep an indexer from indexing them, as long as it stores nothing on the disk, its embedder
works, and the data of the chunks is not nested too deeply: `InMemory.indexChunks` takes a batch through all stages, and
leaves the indexer fit for the next one. What is reported are collisions, and all other chunks are indexed.
-/

namespace CodeSearch.Embedder

/-- Texts get vectors of one width, one for each. -/
def Works (e : Embedder Float) (workers : Except Fault Int) (width : Nat) : Prop :=
  ∀ texts, ∃ vectors, e.vectors workers texts = .ok vectors ∧ vectors.length = texts.length ∧
    ∀ vector ∈ vectors, vector.length = width

/-- The embedder that counts tokens works. -/
theorem works_hashed {width : Nat} (positive : 0 < width) {workers : Int} (some : 0 < workers) :
    (hashed width : Embedder Float).Works (.ok workers) width := by
  have each (text : String) : ∃ vector, (hashed width : Embedder Float).vector text = .ok vector ∧
      vector.length = width := by
    have notZero : (decide (width = 0) && !(Token.tokens text).isEmpty) = false := by
      rw [decide_eq_false (Nat.ne_of_gt positive), Bool.false_and]
    obtain ⟨numbers, counted, wide⟩ : ∃ numbers : List Float,
        counts width (fun token => Digest.toNat (Digest.md5Text token) % width) text = .ofList numbers ∧
          numbers.length = width :=
      ⟨_, rfl, by rw [List.length_map, List.length_range]⟩
    refine ⟨numbers, ?_, wide⟩
    rw [vector, hashed]
    simp only [notZero, counted]
    exact Tensor.flatten_ofList numbers
  choose vector embedded wide using each
  intro texts
  by_cases none : texts = []
  · rw [none]
    exact ⟨[], rfl, rfl, List.forall_mem_nil _⟩
  · refine ⟨texts.map vector, ?_, List.length_map _, fun v hv => ?_⟩
    · have enough : ¬ workers ≤ 0 := Int.not_le.2 some
      have all : texts.mapM (hashed width).vector = .ok (texts.map vector) := mapM_ok fun text _ => embedded text
      rw [vectors, if_neg (by simpa using none)]
      simp only [hashed, bind, Except.bind, if_neg enough]
      exact all
    · obtain ⟨text, _, rfl⟩ := List.mem_map.1 hv
      exact wide text

end CodeSearch.Embedder

namespace CodeSearch.VectorIndex

open CodeSearch.Vector

/-- The index can take vectors of a width, and its embedder makes them. -/
structure Takes (v : VectorIndex Float) (width : Nat) : Prop where
  works : v.embedder.Works v.workers width
  dimension : v.dimension = .null ∨ v.dimension = .int width

theorem checkWidths_ok {width : Nat} {chunks : List Chunk} (made : ∀ c ∈ chunks, c.Made) (vectors : List (List Float))
    (wide : ∀ vector ∈ vectors, vector.length = width) {dimension : Json}
    (h : dimension = .null ∨ dimension = .int width) :
    ∃ dimension', checkWidths dimension (chunks.zip (vectors.map Tensor.ofList)) = .ok dimension' ∧
      (dimension' = .null ∨ dimension' = .int width) := by
  induction chunks generalizing vectors dimension with
  | nil => exact ⟨dimension, rfl, h⟩
  | cons c chunks ih =>
    cases vectors with
    | nil => exact ⟨dimension, rfl, h⟩
    | cons vector vectors =>
      have others : ∀ o ∈ chunks, o.Made := fun o ho => made o (List.mem_cons_of_mem _ ho)
      have rest := ih others vectors (fun v hv => wide v (List.mem_cons_of_mem _ hv)) (.inr rfl)
      have length : (Tensor.ofList vector).length = .ok width := by
        rw [Tensor.ofList, Tensor.length, List.length_map, wide vector List.mem_cons_self]
      rw [List.map_cons, List.zip_cons_cons, checkWidths, Chunk.checkFilled_of_made (made c List.mem_cons_self), length]
      -- the first vector gives the width, unless it is known already
      rcases h with rfl | rfl
      · exact rest
      · have same : (Json.int width).same (.int width) = true := by simp [Json.same, Json.sameLeaf, Json.whole]
        simp only [bind, Except.bind, same, if_true]
        exact rest

/-- Vectors of the right width are inserted under the ids of their chunks. -/
theorem insertEmbedded_ok {v : VectorIndex Float} {width : Nat} (takes : v.Takes width) {chunks : List Chunk}
    (made : ∀ c ∈ chunks, c.Made) {vectors : List (List Float)} (count : vectors.length = chunks.length)
    (wide : ∀ vector ∈ vectors, vector.length = width) (now : Float) :
    ∃ v', v.insertEmbedded now chunks (vectors.map Tensor.ofList) = (.ok chunks.length, v') ∧
      v'.snapshotPath = v.snapshotPath ∧ v'.Takes width := by
  obtain ⟨dimension, widths, known⟩ := checkWidths_ok made vectors wide takes.dimension
  refine ⟨_, insertEmbedded_of_widths (fun c hc => Chunk.checkId_of_checked (made c hc).checked) count.symm widths now, ?_⟩
  split <;> exact ⟨rfl, takes.works, known⟩

theorem embedChunks_ok {v : VectorIndex Float} {width : Nat} (takes : v.Takes width) {chunks : List Chunk}
    (made : ∀ c ∈ chunks, c.Made) :
    ∃ vectors, v.embedChunks chunks = .ok vectors ∧ vectors.length = chunks.length ∧
      ∀ vector ∈ vectors, vector.length = width := by
  have checked : chunks.forM Chunk.checkText = .ok () :=
    forM_ok fun c hc => Chunk.checkText_of_checked (made c hc).checked
  obtain ⟨vectors, embedded, count, wide⟩ := takes.works (chunks.map Chunk.searchableText)
  refine ⟨vectors, ?_, by rw [count, List.length_map], wide⟩
  rw [embedChunks, checked]
  exact embedded

end CodeSearch.VectorIndex

namespace CodeSearch.Indexing

open Lexical

variable {s : ChunkStore}

theorem prepareAll_of_made {chunks : List Chunk} (made : ∀ c ∈ chunks, c.Made) :
    prepareAll chunks = .ok (chunks.map Entry.ofChunk, []) := by
  have filled : ∀ c ∈ chunks, c.isFilled = true := fun c hc => Chunk.isFilled_of_made (made c hc)
  have none : (chunks.filter fun c => !c.isFilled) = [] := List.filter_eq_nil_iff.2 fun c hc => by simp [filled c hc]
  rw [prepareAll_eq fun c hc => Chunk.prepare_of_checked (made c hc).checked, List.filter_eq_self.2 filled, none]
  rfl

/-- A batch without collisions is left as it is. -/
theorem dropCollisions_of_free {b : Batch} (free : ∀ e ∈ b.entries, s.conflicts e.chunk = false) :
    b.dropCollisions s = .ok b := by
  have kept : (b.entries.zipIdx.filter fun item => !s.conflicts item.1.chunk).length = b.entries.length := by
    rw [List.filter_eq_self.2 fun item hi => ?_, List.length_zipIdx]
    simp [free item.1 (List.fst_mem_of_mem_zipIdx hi)]
  rw [Batch.dropCollisions]
  simp only [kept, if_true]
  rfl

end CodeSearch.Indexing

namespace CodeSearch.Indexer

open Lexical Indexing CodeSearch.Action

/-- The indexer stores nothing on the disk, can take what its embedder makes, and has only chunks that were made of
records. -/
structure InMemory (ix : Indexer) (width : Nat) : Prop where
  lexical : ix.lexical.directory = none
  vectors : ∀ v ∈ ix.vectors, v.snapshotPath = none ∧ v.Takes width
  storeFile : ix.storeFile = none
  store : Chunk.Filed Chunk.Made ix.store.chunks

section Stages
variable {ix : Indexer} {width : Nat} {batch : Batch} {d : Disk}

/-- The vectors of a batch fit its chunks. -/
structure Fits (batch : Batch) (vectors : Option (VectorIndex Float)) (width : Nat) : Prop where
  count : vectors.isSome = true → batch.vectors.length = batch.chunks.length
  wide : ∀ vector ∈ batch.vectors, vector.length = width

theorem runOn_insertVectors_memory (h : ix.InMemory width) (made : ∀ c ∈ batch.chunks, c.Made)
    (fits : Fits batch ix.vectors width) (now : Float) :
    ∃ vectors, (onVectors (insertVectors now batch)).runOn ix d = (.ok (), { ix with vectors }, d) ∧
      ∀ v ∈ vectors, v.snapshotPath = none ∧ v.Takes width := by
  cases there : ix.vectors with
  | none =>
    have same : { ix with vectors := none } = ix := by rw [← there]
    exact ⟨none, by rw [same]; exact runOn_insertVectors_none there, by simp⟩
  | some v =>
    obtain ⟨nowhere, takes⟩ := h.vectors v there
    obtain ⟨v', inserted, path, takes'⟩ :=
      VectorIndex.insertEmbedded_ok takes made (fits.count (by rw [there]; rfl)) fits.wide now
    refine ⟨some v', ?_, ?_⟩
    · rw [runOn_insertVectors_some there, inserted]
      rfl
    · rintro other ⟨⟩
      exact ⟨path.trans nowhere, takes'⟩

theorem runOn_storageFault?_ok {work : Action Indexer Unit} {ix' : Indexer} {d' : Disk}
    (run : work.runOn ix d = (.ok (), ix', d')) : (storageFault? work).runOn ix d = (.ok none, ix', d') := by
  rw [storageFault?, runOn_tryCatch, runOn_bind, run]
  rfl

theorem runOn_insertEntries_memory (h : ix.InMemory width) (ready : Ready Chunk.Made batch)
    (shallow : ∀ c ∈ batch.chunks, c.IsShallow) :
    ∃ lexical : LexicalIndex Float, (storageFault? (insertEntries batch)).runOn ix d
        = (.ok none, { ix with lexical }, d) ∧ lexical.directory = none := by
  have run := LexicalIndex.runOn_insertPrepared batch.entries ix.lexical d
  have here : (ix.lexical.changed (ix.lexical.entries.putAll (batch.chunks.map fun c => (c.id, Entry.ofChunk c)))
      (batch.chunks.map Change.add)).advanced.directory = none := h.lexical
  rw [ready.entries, LexicalIndex.addAll_of_shallow fun c hc => ⟨(ready.chunks c hc).checked, shallow c hc⟩] at run
  simp only [] at run
  rw [LexicalIndex.runOn_commit_none here] at run
  rw [← ready.entries] at run
  exact ⟨_, runOn_storageFault?_ok (runOn_insertEntries batch ix d run), h.lexical⟩

theorem runOn_persist_memory (h : ix.InMemory width) :
    (storageFault? persist).runOn ix d = (.ok none, ix, d) := by
  have nowhere : (ix.vectors.any fun v => v.snapshotPath.isSome) = false := by
    rw [Option.any_eq_false]
    intro v hv
    simp [(h.vectors v hv).1]
  refine runOn_storageFault?_ok ?_
  rw [persist, runOn_bind_ok (runOn_memory _ _)]
  simp only [nowhere, h.storeFile]
  rfl

/-- The graph of chunks that were made of records is made anew. -/
theorem runOn_rebuildGraph_made (made : ∀ c ∈ ix.store.toList, c.Made) :
    rebuildGraph.runOn ix d = (.ok (), { ix with graph := ix.graph.map fun g => g.build ix.store.toList }, d) := by
  rw [rebuildGraph, runOn_bind_ok (runOn_memory _ _)]
  cases there : ix.graph with
  | none =>
    have same : { ix with graph := none } = ix := by rw [← there]
    rw [Option.map_none, same]
    rfl
  | some g =>
    simp only [CodeGraph.rebuild_of_made made]
    rw [runOn_bind_ok (runOn_setMemory _ _ _)]
    rfl

/-- A batch that fits is committed, and nothing is said against it that has not been said before. -/
theorem InMemory.commit (h : ix.InMemory width) (ready : Ready Chunk.Made batch)
    (shallow : ∀ c ∈ batch.chunks, c.IsShallow) (free : ∀ c ∈ batch.chunks, ix.store.conflicts c = false)
    (fits : Fits batch ix.vectors width) (now : Float) :
    ∃ report ix', (commit now batch).runOn ix d = (.ok report, ix', d) ∧ ix'.InMemory width ∧
      report.received = batch.received ∧ report.indexed = batch.entries.length ∧
      report.complaints = batch.complaints ∧ report.persisted = true ∧
      ix'.store.chunks = ix.store.chunks.putAll (batch.chunks.map fun c => (c.id, c)) := by
  have same : batch.dropCollisions ix.store = .ok batch := by
    refine dropCollisions_of_free fun e he => free e.chunk ?_
    exact List.mem_map_of_mem he
  obtain ⟨vectors, run₁, takes⟩ := runOn_insertVectors_memory (d := d) h ready.chunks fits now
  have h₁ : ({ ix with vectors } : Indexer).InMemory width := { h with vectors := takes }
  obtain ⟨lexical, run₂, nowhere⟩ := runOn_insertEntries_memory (d := d) h₁ ready shallow
  have run₃ : (batch.chunks.forM register).runOn { ix with vectors, lexical } d
      = (.ok (), ix.registered batch.chunks lexical vectors, d) :=
    runOn_register ready.chunks ready.once { ix with vectors, lexical } free d
  have store := h.store.putAll ready.chunks
  have h₃ : (ix.registered batch.chunks lexical vectors).InMemory width := ⟨nowhere, takes, h.storeFile, store⟩
  have run₄ := runOn_persist_memory (d := d) h₃
  have run₅ := runOn_rebuildGraph_made (d := d) h₃.store.values
  rw [runOn_commit_stages same run₁ run₂ run₃ run₄ run₅]
  refine ⟨_, _, rfl, { h₃ with }, rfl, rfl, ?_, rfl, rfl⟩
  simp [told]

/-- Chunks that were made of records are indexed in memory, whatever they hold: the report names collisions, and all
chunks that do not collide are counted and stored. -/
theorem InMemory.indexChunks (h : ix.InMemory width) {chunks : List Chunk} (made : ∀ c ∈ chunks, c.Made)
    (shallow : ∀ c ∈ chunks, c.IsShallow) (now : Float) (d : Disk) :
    ∃ report ix', (indexChunks now chunks).runOn ix d = (.ok report, ix', d) ∧ ix'.InMemory width ∧
      report.received = chunks.length ∧ report.indexed = (distinct ix.store chunks).1.values.length ∧
      report.complaints = (distinct ix.store chunks).2 ∧ report.persisted = true ∧
      ix'.store.chunks = ix.store.chunks.putAll ((distinct ix.store chunks).1.values.map fun c => (c.id, c)) := by
  have filed : Chunk.Filed (fun c => c.Made ∧ c.IsShallow) (distinct ix.store chunks).1 :=
    filed_distinct fun c hc => ⟨made c hc, shallow c hc⟩
  have free := (free_distinct (s := ix.store) chunks).values
  have entries := prepareAll_of_made fun c hc => (filed.values c hc).1
  have chunksOf : ((distinct ix.store chunks).1.values.map Entry.ofChunk).map Entry.chunk
      = (distinct ix.store chunks).1.values := by
    rw [List.map_map]
    exact List.map_id _
  obtain ⟨batch, prepared, received, taken, complaints, fits⟩ :
      ∃ batch, ix.prepare chunks = .ok batch ∧ batch.received = chunks.length ∧
        batch.entries = (distinct ix.store chunks).1.values.map Entry.ofChunk ∧
        batch.complaints = (distinct ix.store chunks).2 ∧ Fits batch ix.vectors width := by
    rw [prepare_eq ix fun c hc => (made c hc).checked, finish, entries]
    cases there : ix.vectors with
    | none => exact ⟨_, rfl, rfl, rfl, List.append_nil _, fun there => (by cases there),
      List.forall_mem_nil _⟩
    | some v =>
      obtain ⟨vectors, embedded, count, wide⟩ :=
        VectorIndex.embedChunks_ok (h.vectors v there).2 fun c hc => (filed.values c hc).1
      refine ⟨⟨chunks.length, (distinct ix.store chunks).1.values.map Entry.ofChunk, vectors,
        (distinct ix.store chunks).2⟩, ?_, rfl, rfl, rfl, fun _ => ?_, wide⟩
      · simp only [bind, Except.bind, chunksOf, embedded, List.append_nil]
        rfl
      · rw [count, Batch.chunks, chunksOf]
  have ready := Ready.of_entries taken filed.nodup_ids fun c hc => filed.values c hc
  have same : batch.chunks = (distinct ix.store chunks).1.values := by rw [Batch.chunks, taken, chunksOf]
  have made : Ready Chunk.Made batch := { ready with chunks := fun c hc => (ready.chunks c hc).1 }
  obtain ⟨report, ix', run, inMemory, rest⟩ := h.commit (d := d) made (fun c hc => (ready.chunks c hc).2)
    (fun c hc => free c (same ▸ hc)) fits now
  refine ⟨report, ix', ?_, inMemory, ?_⟩
  · rw [Indexer.indexChunks, runOn_bind_ok (runOn_memory _ _), prepared, runOn_bind_ok (runOn_ofExcept _ _ _), run]
  · rw [received, taken, complaints, same, List.length_map] at rest
    exact rest

end Stages

end CodeSearch.Indexer
