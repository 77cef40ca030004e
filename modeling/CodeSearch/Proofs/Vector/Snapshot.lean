import CodeSearch.Vector.Snapshot
import CodeSearch.Proofs.ChunkStore
/-!
# The vector index and its snapshot

Vectors that have been computed are inserted all, or none is (`insertEmbedded_cases`). If an index is stored, its
snapshot is opened with the same vectors and the same chunks (`openAt_of_saved`).
-/

namespace CodeSearch.Tensor

variable {α : Type}

theorem rowShape?_scalars (xs : List α) : rowShape? (xs.map .scalar) = some [] := by
  induction xs with
  | nil => rfl
  | cons x xs ih =>
    cases xs with
    | nil => rfl
    | cons y xs =>
      rw [List.map_cons] at ih ⊢
      rw [List.map_cons, rowShape?, shape?, ih]
      rfl

theorem rowNumbers_scalars (xs : List α) : rowNumbers (xs.map .scalar) = .ok xs := by
  induction xs with
  | nil => rfl
  | cons x xs ih =>
    rw [List.map_cons, rowNumbers, ih]
    rfl

/-- A list of numbers is flat already. -/
theorem flatten_ofList (xs : List α) : (ofList xs).flatten = .ok xs := by
  have regular : (ofList xs).isRegular = true := by
    rw [isRegular, ofList, shape?, rowShape?_scalars]
    rfl
  rw [flatten, if_pos regular, ofList, numbers, rowNumbers_scalars]

theorem rowsOfJson_floats (xs : List Float) : rowsOfJson (xs.map .float) = xs.map .scalar := by
  induction xs with
  | nil => rfl
  | cons x xs ih =>
    rw [List.map_cons, rowsOfJson, ih]
    rfl

theorem ofJson_floats (xs : List Float) : ofJson (.arr (xs.map .float)) = ofList xs := by
  rw [ofJson, rowsOfJson_floats, ofList]

end CodeSearch.Tensor

namespace CodeSearch.VectorIndex

open CodeSearch.Vector CodeSearch.Action

variable {α : Type} {ix : VectorIndex α}

/-! ## Inserting -/

theorem putAll_of_named {chunks : List Chunk} (named : ∀ c ∈ chunks, c.checkId = .ok ()) (now : Float)
    (vectors : List (List α)) (ix : VectorIndex α) :
    putAll now ix (chunks.zip (vectors.map Tensor.ofList)) = (.ok (), { ix with
      entries := ix.entries.putAll ((chunks.zip vectors).map fun pair => (pair.1.id, ⟨pair.2, now⟩))
      chunks := ix.chunks.putAll ((chunks.zip vectors).map fun pair => (pair.1.id, pair.1)) }) := by
  induction chunks generalizing vectors ix with
  | nil => rfl
  | cons c chunks ih =>
    cases vectors with
    | nil => rfl
    | cons vector vectors =>
      rw [List.map_cons, List.zip_cons_cons, putAll, Tensor.flatten_ofList, named c List.mem_cons_self]
      exact ih (fun other ho => named other (List.mem_cons_of_mem _ ho)) vectors (ix.put now c vector)

/-- The index into which computed vectors have been put, under the ids of their chunks. -/
structure Inserted (now : Float) (more : List Chunk) (vectors : List (List α)) (ix ix' : VectorIndex α) : Prop where
  snapshotPath : ix'.snapshotPath = ix.snapshotPath
  entries : ix'.entries = ix.entries.putAll ((more.zip vectors).map fun pair => (pair.1.id, ⟨pair.2, now⟩))
  chunks : ix'.chunks = ix.chunks.putAll (more.map fun c => (c.id, c))
  dimension : checkWidths ix.dimension (more.zip (vectors.map Tensor.ofList)) = .ok ix'.dimension
  dirty : ix'.dirty = (ix.dirty || !more.isEmpty)
  count : more.length = vectors.length

theorem insertEmbedded_of_widths {chunks : List Chunk} (named : ∀ c ∈ chunks, c.checkId = .ok ())
    {vectors : List (List α)} (count : chunks.length = vectors.length) {ix : VectorIndex α} {dimension : Json}
    (widths : checkWidths ix.dimension (chunks.zip (vectors.map Tensor.ofList)) = .ok dimension) (now : Float) :
    ix.insertEmbedded now chunks (vectors.map Tensor.ofList) = (.ok chunks.length,
      let ix := { ix with
        entries := ix.entries.putAll ((chunks.zip vectors).map fun pair => (pair.1.id, ⟨pair.2, now⟩))
        chunks := ix.chunks.putAll ((chunks.zip vectors).map fun pair => (pair.1.id, pair.1))
        dimension }
      if chunks.isEmpty then ix else ix.advanced) := by
  have counts : ¬ chunks.length ≠ (vectors.map Tensor.ofList).length := by simp [count]
  rw [insertEmbedded, if_neg counts, widths]
  simp only [putAll_of_named named]

/-- Computed vectors are put, or nothing is changed. -/
theorem insertEmbedded_cases {chunks : List Chunk} (named : ∀ c ∈ chunks, c.checkId = .ok ()) (now : Float)
    (vectors : List (List α)) (ix : VectorIndex α) :
    (∃ fault, ix.insertEmbedded now chunks (vectors.map Tensor.ofList) = (.error fault, ix)) ∨
    ∃ ix', ix.insertEmbedded now chunks (vectors.map Tensor.ofList) = (.ok chunks.length, ix') ∧
      Inserted now chunks vectors ix ix' := by
  by_cases count : chunks.length = vectors.length
  · cases widths : checkWidths ix.dimension (chunks.zip (vectors.map Tensor.ofList)) with
    | error fault =>
      refine .inl ⟨fault, ?_⟩
      rw [insertEmbedded, if_neg (by simpa using count), widths]
    | ok dimension =>
      have firsts : (chunks.zip vectors).map (fun pair => (pair.1.id, pair.1)) = chunks.map fun c => (c.id, c) := by
        conv_rhs => rw [← List.map_fst_zip (Nat.le_of_eq count), List.map_map]
        rfl
      refine .inr ⟨_, insertEmbedded_of_widths named count widths now, ?_⟩
      rw [firsts]
      cases none : chunks.isEmpty with
      | true => exact ⟨rfl, rfl, rfl, widths, by simp [none], count⟩
      | false => exact ⟨rfl, rfl, rfl, widths, by simp [none, advanced], count⟩
  · rw [insertEmbedded, if_pos (by simpa using count)]
    exact .inl ⟨_, rfl⟩

/-! ## The snapshot -/

/-- The value that is stored of an index all of whose chunks make records. -/
def snapshotJson (ix : VectorIndex Float) : Json :=
  .obj [("version", .int 1),
    ("dimension", ix.dimension),
    ("entries", .obj (ix.entries.items.map fun (id, e) => (id, entryJson e))),
    ("chunks", .obj (ix.chunks.items.map fun (id, c) => (id, c.json)))]

theorem mapM_named {items : List (String × Chunk)} :
    (items.mapM fun (id, chunk) => do return (id, ← chunk.stored) : Except Fault Json.Fields)
      = ((items.map Prod.snd).mapM Chunk.stored).map fun records => (items.map Prod.fst).zip records := by
  induction items with
  | nil => rfl
  | cons item items ih =>
    obtain ⟨id, c⟩ := item
    rw [List.mapM_cons, List.map_cons, List.map_cons, List.mapM_cons, ih]
    simp only []
    cases c.stored with
    | error fault => rfl
    | ok record =>
      cases (items.map Prod.snd).mapM Chunk.stored <;> rfl

section Snapshot
variable {ix : VectorIndex Float} {path : Path} {d : Disk}

theorem payload_of_shallow (checked : ∀ c ∈ ix.chunks.values, c.unchecked = [])
    (shallow : ∀ c ∈ ix.chunks.values, c.IsShallow) : ix.payload = .ok ix.snapshotJson := by
  have records : (ix.chunks.items.map Prod.fst).zip (ix.chunks.values.map Chunk.json)
      = ix.chunks.items.map fun (id, c) => (id, c.json) := by
    rw [Keyed.values, List.map_map, List.zip_map']
    rfl
  rw [payload, mapM_named, ← Keyed.values, Chunk.mapM_stored_of_shallow checked shallow]
  simp only [Except.map, records]
  rfl

theorem shallow_of_payload (checked : ∀ c ∈ ix.chunks.values, c.unchecked = []) {value : Json}
    (h : ix.payload = .ok value) : ∀ c ∈ ix.chunks.values, c.IsShallow := by
  rw [payload, mapM_named, ← Keyed.values] at h
  cases records : ix.chunks.values.mapM Chunk.stored with
  | error fault =>
    rw [records] at h
    cases h
  | ok stored => exact (Chunk.mapM_stored_ok checked records).1

/-- An index is stored as a whole at the path that is given, or its own, or what stands there stays as it was. A fault
that keeps it from being stored is one of the storage, if there are records of all chunks. -/
theorem runOn_save_cases (target : Option Path) (path' : target.or ix.snapshotPath = some path)
    (checked : ∀ c ∈ ix.chunks.values, c.unchecked = []) (d : Disk) :
    (∃ d', (save target).runOn ix d = (.ok (), { ix with dirty := false }, d') ∧ (∀ c ∈ ix.chunks.values, c.IsShallow) ∧
      Disk.Changed path.Written path.parent.Way d d' ∧ d'.FileAt path (.binary ix.snapshotJson)) ∨
    ∃ fault d', (save target).runOn ix d = (.error fault, ix, d') ∧
      Disk.Changed (fun q => q = path.temporary.place) path.parent.Way d d' ∧
      (path.IsFile → .cut ∉ d.fates → (∀ c ∈ ix.chunks.values, c.IsShallow) → fault.isStorage = true) := by
  rw [save, runOn_bind_ok (runOn_memory _ _), path']
  simp only []
  rw [runOn_bind, runOn_ofExcept]
  cases stored : ix.payload with
  | error fault =>
    refine .inr ⟨fault, d, rfl, .refl, fun _ _ shallow => ?_⟩
    rw [payload_of_shallow checked shallow] at stored
    cases stored
  | ok value =>
    have shallow := shallow_of_payload checked stored
    rw [payload_of_shallow checked shallow] at stored
    injection stored with stored
    subst stored
    have kept : (Content.binary ix.snapshotJson).IsKept := trivial
    simp only []
    rcases runOn_store .saveVectors path kept ix d with ⟨d', done, change, there⟩ | ⟨fault, d', failed, change, storage⟩
    · rw [runOn_bind_ok done]
      exact .inl ⟨d', rfl, shallow, change, there⟩
    · rw [runOn_bind_error failed]
      refine .inr ⟨fault, d', rfl, change, ?_⟩
      rintro ⟨name, sound, sound'⟩ uncut _
      exact storage name sound sound' uncut rfl

theorem runOn_save (target : ix.snapshotPath = some path) (checked : ∀ c ∈ ix.chunks.values, c.unchecked = [])
    (d : Disk) :
    ∃ answer ix' d', (save none).runOn ix d = (answer, ix', d') ∧
      ix'.snapshotPath = ix.snapshotPath ∧ ix'.entries = ix.entries ∧ ix'.chunks = ix.chunks ∧
      Disk.Changed path.Written path.parent.Way d d' ∧
      (answer = .ok () → (∀ c ∈ ix.chunks.values, c.IsShallow) ∧ d'.FileAt path (.binary ix.snapshotJson)) ∧
      (path.IsFile → .cut ∉ d.fates → (∀ c ∈ ix.chunks.values, c.IsShallow) → OnlyStorage answer) := by
  rcases runOn_save_cases none target checked d with
    ⟨d', done, shallow, change, there⟩ | ⟨fault, d', failed, change, storage⟩
  · exact ⟨.ok (), _, d', done, rfl, rfl, rfl, change, fun _ => ⟨shallow, there⟩, fun _ _ _ => .ok ()⟩
  · refine ⟨.error fault, ix, d', failed, rfl, rfl, rfl, change.mono (fun _ => Or.inl) fun _ => id,
      fun done => (by cases done), ?_⟩
    rintro file uncut shallow _ ⟨⟩
    exact storage file uncut shallow

theorem readEntry_entryJson (e : Entry Float) : readEntry (entryJson e) = .ok e := by
  have vector : (entryJson e).item "vector" = .ok (.arr (e.vector.map .float)) := rfl
  have time : (entryJson e).field? "inserted_at" = .ok (some (.float e.insertedAt)) := rfl
  rw [readEntry, vector]
  simp only [bind, Except.bind]
  rw [Tensor.ofJson_floats, Tensor.flatten_ofList]
  simp only []
  rw [time]
  rfl

theorem mapM_readEntry (items : List (String × Entry Float)) :
    ((items.map fun (id, e) => (id, entryJson e)).mapM fun (id, value) => do return (id, ← readEntry value) :
      Except Fault (List (String × Entry Float))) = .ok items := by
  refine mapM_map_ok fun (id, e) _ => ?_
  simp only []
  rw [readEntry_entryJson]
  rfl

theorem mapM_ofJson {items : List (String × Chunk)} (read : ∀ item ∈ items, item.2.WellRead ∧ item.2.InOrder) :
    ((items.map fun (id, c) => (id, c.json)).mapM fun (id, record) => do return (id, ← Chunk.ofJson record) :
      Except Fault (List (String × Chunk))) = .ok items := by
  refine mapM_map_ok fun (id, c) there => ?_
  obtain ⟨made, order⟩ := read _ there
  simp only []
  rw [Chunk.ofJson_json made order]
  rfl

/-- The chunks that the records of an index give. -/
def readChunks (ix : VectorIndex Float) : Except Fault (List (String × Chunk)) :=
  (ix.chunks.items.map fun (id, c) => (id, c.json)).mapM fun (id, record) => do return (id, ← Chunk.ofJson record)

theorem readParts_snapshot (there : d.FileAt path (.binary ix.snapshotJson)) :
    readParts d path = ix.readChunks.map fun chunks =>
      (ix.dimension, .obj (ix.entries.items.map fun (id, e) => (id, entryJson e)), chunks) := by
  have payload : readPayload d path = .ok ix.snapshotJson := by
    rw [readPayload, there.read]
    rfl
  have width : ix.snapshotJson.field? "dimension" = .ok (some ix.dimension) := rfl
  have entries : ix.snapshotJson.item "entries"
      = .ok (.obj (ix.entries.items.map fun (id, e) => (id, entryJson e))) := rfl
  have chunks : ix.snapshotJson.item "chunks" = .ok (.obj (ix.chunks.items.map fun (id, c) => (id, c.json))) := rfl
  rw [readParts, payload]
  simp only [bind, Except.bind]
  rw [width, entries, chunks, readChunks]
  simp only [Json.fields, Option.getD_some, bind, Except.bind]
  rfl

/-- The snapshot of an index is opened with its vectors and its width, unless another width is asked for, and with the
chunks that its records give. -/
theorem openAt_readChunks (there : d.FileAt path (.binary ix.snapshotJson)) (embedder : Embedder Float) (dimension : Json)
    (workers : Except Fault Int) (preselection : Except Fault Number) :
    openAt embedder (some path) dimension workers preselection d = checkTable dimension >>= fun _ =>
      ix.readChunks.mapError (loadFault path) >>= fun chunks =>
        if !dimension.isNull && !ix.dimension.isNull && !ix.dimension.same dimension then
          .error (.dimensionMismatch dimension ix.dimension)
        else .ok { blank embedder (some path) dimension workers preselection with
          entries := ix.entries, chunks := .ofList chunks,
          dimension := if ix.dimension.isNull then dimension else ix.dimension, generation := 1 } := by
  have entries := mapM_readEntry ix.entries.items
  simp only [bind, Except.bind] at entries
  have asked : (blank embedder (some path) dimension workers preselection).dimension = dimension := rfl
  rw [openAt]
  simp only [there.holds, bind, Except.bind, load, readParts_snapshot there, if_true]
  cases ix.readChunks with
  | error fault => rfl
  | ok chunks =>
    simp only [Except.map, Except.mapError, Json.fields, entries, Keyed.ofList_items, asked]
    split
    · rfl
    · split <;> rfl

/-- The snapshot of an index is opened with its vectors, its chunks and its width, unless another width is asked for. -/
theorem openAt_snapshot (there : d.FileAt path (.binary ix.snapshotJson))
    (read : ∀ item ∈ ix.chunks.items, item.2.WellRead ∧ item.2.InOrder) (embedder : Embedder Float) (dimension : Json)
    (workers : Except Fault Int) (preselection : Except Fault Number) :
    openAt embedder (some path) dimension workers preselection d = checkTable dimension >>= fun _ =>
      if !dimension.isNull && !ix.dimension.isNull && !ix.dimension.same dimension then
        .error (.dimensionMismatch dimension ix.dimension)
      else .ok { blank embedder (some path) dimension workers preselection with
        entries := ix.entries, chunks := ix.chunks, dimension := if ix.dimension.isNull then dimension else ix.dimension,
        generation := 1 } := by
  have chunks : ix.readChunks = .ok ix.chunks.items := mapM_ofJson read
  rw [openAt_readChunks there, chunks]
  simp only [Except.mapError, ok_bind, Keyed.ofList_items]

/-- The snapshot of an index is opened with its vectors and its chunks, if no width is asked for. -/
theorem openAt_of_saved (there : d.FileAt path (.binary ix.snapshotJson))
    (read : ∀ item ∈ ix.chunks.items, item.2.WellRead ∧ item.2.InOrder) (embedder : Embedder Float)
    (workers : Except Fault Int) (preselection : Except Fault Number) :
    ∃ opened, openAt embedder (some path) .null workers preselection d = .ok opened ∧
      opened.entries = ix.entries ∧ opened.chunks = ix.chunks :=
  ⟨_, openAt_snapshot there read embedder .null workers preselection, rfl, rfl⟩

end Snapshot

end CodeSearch.VectorIndex
