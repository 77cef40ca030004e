import CodeSearch.Proofs.Vector.Found
import CodeSearch.Proofs.Vector.Widths
/-!
# The vector index made anew

What an index has been through does not show in what is found by vectors: an index that writes of flat vectors and
searches have led to (`Flat`) finds what a fresh one does into which its vectors are inserted at once (`Flat.anew`).
-/

namespace CodeSearch.VectorIndex

open CodeSearch.Vector

variable {α : Type}

/-! ## What writes leave alone -/

/-- How an index was set up, and the snapshot that searches read. -/
structure SameSetup (ix ix' : VectorIndex α) : Prop where
  embedder : ix'.embedder = ix.embedder
  workers : ix'.workers = ix.workers
  snapshotPath : ix'.snapshotPath = ix.snapshotPath
  preselection : ix'.preselection = ix.preselection
  choice : ix'.choice = ix.choice
  snapshot : ix'.snapshot = ix.snapshot

theorem sameSetup_putAll (now : Float) (pairs : List (Chunk × Tensor α)) (ix : VectorIndex α) :
    SameSetup ix (putAll now ix pairs).2 := by
  induction pairs generalizing ix with
  | nil => exact ⟨rfl, rfl, rfl, rfl, rfl, rfl⟩
  | cons pair pairs ih =>
    obtain ⟨c, vector⟩ := pair
    rw [putAll]
    split
    next numbers _ _ _ => exact { ih (ix.put now c numbers) with }
    next => exact ⟨rfl, rfl, rfl, rfl, rfl, rfl⟩
    next => exact ⟨rfl, rfl, rfl, rfl, rfl, rfl⟩

theorem sameSetup_insertEmbedded (now : Float) (chunks : List Chunk) (vectors : List (Tensor α)) (ix : VectorIndex α) :
    SameSetup ix (ix.insertEmbedded now chunks vectors).2 := by
  have same : SameSetup ix ix := ⟨rfl, rfl, rfl, rfl, rfl, rfl⟩
  have put := sameSetup_putAll now (chunks.zip vectors) ix
  rw [insertEmbedded]
  split
  · exact same
  · split
    · exact same
    · generalize putAll now ix (chunks.zip vectors) = after at put
      obtain ⟨fault | _, ix'⟩ := after
      · exact put
      · simp only []
        split <;> exact { put with }

/-! ## Vectors that match their chunks -/

/-- The stored vectors, in the order of the index. -/
def vectors (ix : VectorIndex α) : List (List α) := ix.entries.values.map Vector.Entry.vector

/-- Vectors and chunks stand under the same ids in one order, and the vectors have the width that is known. -/
structure Matched (entries : Keyed String (Vector.Entry α)) (chunks : Keyed String Chunk) (dimension : Json) : Prop where
  keys : entries.keys = chunks.keys
  filed : Chunk.Filed (fun c => c.checkId = .ok () ∧ c.checkFilled = .ok ()) chunks
  wide : ∀ e ∈ entries.values, HasWidth dimension e.vector ∧ e.vector.length < columnLimit
  table : checkTable dimension = .ok ()

theorem Matched.empty {dimension : Json} (table : checkTable dimension = .ok ()) :
    Matched (α := α) .empty .empty dimension := ⟨rfl, .empty, List.forall_mem_nil _, table⟩

/-- The width of a vector is known, and so it is the one that is expected. -/
theorem hasWidth_expected {dimension : Json} {vector : List α} (wide : HasWidth dimension vector)
    (vectors : List (List α)) : HasWidth (expectedWidth dimension vectors) vector := by
  rw [expectedWidth_of_known wide.known]
  exact wide

theorem checkTable_expected {dimension : Json} (table : checkTable dimension = .ok ()) {vectors : List (List α)}
    (short : ∀ vector ∈ vectors, vector.length < columnLimit) :
    checkTable (expectedWidth dimension vectors) = .ok () := by
  cases vectors with
  | nil => exact table
  | cons vector vectors =>
    rw [expectedWidth]
    split
    · have bounds : ¬ ((vector.length : Int) < 0 ∨ columnLimit ≤ vector.length) := by
        have := short vector List.mem_cons_self
        omega
      rw [checkTable]
      split
      · rfl
      · simp [bounds]
    · exact table

/-- Old vectors and new ones have one width, the one that is then known. -/
theorem Inserted.wide {ix ix' : VectorIndex α} {now : Float} {chunks : List Chunk} {vectors : List (List α)}
    (put : Inserted now chunks vectors ix ix')
    (wide : ∀ e ∈ ix.entries.values, HasWidth ix.dimension e.vector ∧ e.vector.length < columnLimit)
    (short : ∀ vector ∈ vectors, vector.length < columnLimit) :
    ∀ e ∈ ix'.entries.values, HasWidth ix'.dimension e.vector ∧ e.vector.length < columnLimit := by
  obtain ⟨width, _, fits⟩ := hasWidth_of_checkWidths put.count put.dimension
  rw [put.entries]
  refine Keyed.forall_values_putAll (fun e he => ?_) (List.forall_mem_map.2 fun pair hp => ?_)
  · obtain ⟨known, small⟩ := wide e he
    exact ⟨width ▸ hasWidth_expected known vectors, small⟩
  · have there := (List.of_mem_zip hp).2
    exact ⟨fits _ there, short _ there⟩

theorem Inserted.table {ix ix' : VectorIndex α} {now : Float} {chunks : List Chunk} {vectors : List (List α)}
    (put : Inserted now chunks vectors ix ix') (table : checkTable ix.dimension = .ok ())
    (short : ∀ vector ∈ vectors, vector.length < columnLimit) : checkTable ix'.dimension = .ok () := by
  obtain ⟨width, _, _⟩ := hasWidth_of_checkWidths put.count put.dimension
  rw [width]
  exact checkTable_expected table short

/-- Vectors that are inserted match their chunks, and nothing is changed if they cannot be. -/
theorem Matched.insertEmbedded {ix : VectorIndex α} (h : Matched ix.entries ix.chunks ix.dimension) (now : Float)
    {chunks : List Chunk} {vectors : List (List α)} (named : ∀ c ∈ chunks, c.checkId = .ok ())
    (short : ∀ vector ∈ vectors, vector.length < columnLimit) :
    Matched (ix.insertEmbedded now chunks (vectors.map Tensor.ofList)).2.entries
      (ix.insertEmbedded now chunks (vectors.map Tensor.ofList)).2.chunks
      (ix.insertEmbedded now chunks (vectors.map Tensor.ofList)).2.dimension := by
  rcases insertEmbedded_cases named now vectors ix with ⟨fault, failed⟩ | ⟨ix', done, put⟩
  · rw [failed]
    exact h
  rw [done]
  obtain ⟨_, filled, _⟩ := hasWidth_of_checkWidths put.count put.dimension
  refine ⟨?_, ?_, put.wide h.wide short, put.table h.table short⟩
  · rw [put.entries, put.chunks]
    refine Keyed.keys_putAll_congr h.keys ?_
    rw [List.map_map, List.map_map]
    conv_rhs => rw [← List.map_fst_zip (Nat.le_of_eq put.count), List.map_map]
    rfl
  · rw [put.chunks]
    exact h.filed.putAll fun c hc => ⟨named c hc, filled c hc⟩

theorem Matched.count {ix : VectorIndex α} (h : Matched ix.entries ix.chunks ix.dimension) :
    ix.chunks.values.length = ix.vectors.length := by
  have keys := congrArg List.length h.keys
  simpa [vectors, Keyed.keys, Keyed.values] using keys.symm

/-- The chunks of an index, put one after the other beside its vectors, are its chunks. -/
theorem Matched.chunks_again {ix : VectorIndex α} (h : Matched ix.entries ix.chunks ix.dimension) :
    Keyed.empty.putAll ((ix.chunks.values.zip ix.vectors).map fun pair => (pair.1.id, pair.1)) = ix.chunks := by
  have firsts : (ix.chunks.values.zip ix.vectors).map (fun pair => (pair.1.id, pair.1))
      = ix.chunks.values.map fun c => (c.id, c) := by
    conv_rhs => rw [← List.map_fst_zip (Nat.le_of_eq h.count), List.map_map]
    rfl
  rw [firsts, h.filed.items_eq]
  exact Keyed.ofList_items ix.chunks

/-- The vectors of an index, put one after the other, are its vectors with another time. -/
theorem Matched.entries_again {ix : VectorIndex α} (h : Matched ix.entries ix.chunks ix.dimension) (now : Float) :
    Keyed.empty.putAll ((ix.chunks.values.zip ix.vectors).map
        fun pair => (pair.1.id, (⟨pair.2, now⟩ : Vector.Entry α)))
      = ix.entries.mapValues fun e => ⟨e.vector, now⟩ := by
  have ids : ix.chunks.values.map Chunk.id = ix.entries.items.map Prod.fst := by
    have same := congrArg (List.map Prod.fst) h.filed.items_eq
    rw [List.map_map] at same
    exact same.trans h.keys.symm
  have zipped : (ix.chunks.values.map Chunk.id).zip ix.vectors
      = ix.entries.items.map fun item => (item.1, item.2.vector) := by
    rw [ids, vectors, Keyed.values, List.map_map, List.zip_map']
    rfl
  have pairs := congrArg (List.map fun pair => (pair.1, (⟨pair.2, now⟩ : Vector.Entry α))) zipped
  rw [List.zip_map_left, List.map_map, List.map_map] at pairs
  refine (congrArg Keyed.empty.putAll pairs).trans ?_
  exact Keyed.ofList_items (ix.entries.mapValues fun e => (⟨e.vector, now⟩ : Vector.Entry α))

/-- The vectors of an index have the width that is expected of them by an index that begins with the same width, or with
none. -/
theorem Matched.expected {ix : VectorIndex α} (h : Matched ix.entries ix.chunks ix.dimension) {dimension : Json}
    (width : dimension = .null ∨ dimension = ix.dimension) :
    ∀ vector ∈ ix.vectors, HasWidth (expectedWidth dimension ix.vectors) vector := by
  have wide : ∀ vector ∈ ix.vectors, HasWidth ix.dimension vector :=
    List.forall_mem_map.2 fun e he => (h.wide e he).1
  rcases width with rfl | rfl
  · generalize ix.vectors = all at wide
    cases all with
    | nil => exact List.forall_mem_nil _
    | cons first rest =>
      intro vector hv
      rw [HasWidth, (wide vector hv).length_eq (wide first List.mem_cons_self)]
      exact Json.same_int_self _
  · exact fun vector hv => hasWidth_expected (wide vector hv) _

theorem Matched.erase {entries : Keyed String (Vector.Entry α)} {chunks : Keyed String Chunk} {dimension : Json}
    (h : Matched entries chunks dimension) (id : String) : Matched (entries.erase id) (chunks.erase id) dimension := by
  refine ⟨?_, fun item hi => h.filed item (Keyed.mem_items_erase hi), Keyed.forall_values_erase h.wide id, h.table⟩
  rw [Keyed.keys_erase, Keyed.keys_erase, h.keys]

/-! ## What an index has been through -/

section Flat
variable [Scalar α] {ix : VectorIndex α}

/-- An index that was begun without vectors or opened with such as match their chunks, and what writes of flat vectors
and searches make of one, calls that fail included. The ids of the chunks can name entries, and no vector has more
numbers than a row has room for. -/
inductive Flat : VectorIndex α → Prop where
  | blank (embedder : Embedder α) (snapshotPath : Option Path) (dimension : Json) (workers : Except Fault Int)
      (preselection : Except Fault Number) (choice : Option (Choice α)) (table : checkTable dimension = .ok ()) :
      Flat { blank embedder snapshotPath dimension workers preselection with choice }
  | opened (embedder : Embedder α) (snapshotPath : Option Path) {entries : Keyed String (Vector.Entry α)}
      {chunks : Keyed String Chunk} {dimension : Json} (workers : Except Fault Int) (preselection : Except Fault Number)
      (choice : Option (Choice α)) (matched : Matched entries chunks dimension) :
      Flat { blank embedder snapshotPath dimension workers preselection with entries, chunks, generation := 1, choice }
  | inserted {ix : VectorIndex α} (h : Flat ix) (now : Float) {chunk : Chunk} (named : chunk.checkId = .ok ())
      (short : ∀ vector, ix.embedder.vector chunk.searchableText = .ok vector → vector.length < columnLimit) :
      Flat (ix.insert now chunk).2
  | insertedEmbedded {ix : VectorIndex α} (h : Flat ix) (now : Float) {chunks : List Chunk} {vectors : List (List α)}
      (named : ∀ c ∈ chunks, c.checkId = .ok ()) (short : ∀ vector ∈ vectors, vector.length < columnLimit) :
      Flat (ix.insertEmbedded now chunks (vectors.map Tensor.ofList)).2
  | removed {ix : VectorIndex α} (h : Flat ix) (id : String) : Flat (ix.remove id).2
  | cleared {ix : VectorIndex α} (h : Flat ix) : Flat ix.clear
  | searched {ix : VectorIndex α} (h : Flat ix) : Flat ix.refreshed

/-- What is known of an index at all times: its vectors match its chunks, and searches never read what is out of date. -/
structure Settled (ix : VectorIndex α) : Prop where
  matched : Matched ix.entries ix.chunks ix.dimension
  current : ix.IsCurrent
  preselected : ix.snapshot.rows ≠ [] → ∃ least, ix.preselection = .ok least

theorem Settled.insertEmbedded (h : ix.Settled) (now : Float) {chunks : List Chunk} {vectors : List (List α)}
    (named : ∀ c ∈ chunks, c.checkId = .ok ()) (short : ∀ vector ∈ vectors, vector.length < columnLimit) :
    (ix.insertEmbedded now chunks (vectors.map Tensor.ofList)).2.Settled := by
  have setup := sameSetup_insertEmbedded now chunks (vectors.map Tensor.ofList) ix
  refine ⟨h.matched.insertEmbedded now named short, h.current.inserted now named ?_, ?_⟩
  · exact List.forall_mem_map.2 fun vector _ => ⟨vector, Tensor.flatten_ofList vector⟩
  · rw [setup.snapshot, setup.preselection]
    exact h.preselected

theorem Settled.insert (h : ix.Settled) (now : Float) {chunk : Chunk} (named : chunk.checkId = .ok ())
    (short : ∀ vector, ix.embedder.vector chunk.searchableText = .ok vector → vector.length < columnLimit) :
    (ix.insert now chunk).2.Settled := by
  rw [VectorIndex.insert]
  cases checked : chunk.checkText with
  | error fault => exact h
  | ok _ =>
    cases embedded : ix.embedder.vector chunk.searchableText with
    | error fault => exact h
    | ok vector =>
      have short : ∀ other ∈ [vector], other.length < columnLimit :=
        List.forall_mem_singleton.2 (short vector embedded)
      exact h.insertEmbedded now (List.forall_mem_singleton.2 named) short

theorem Settled.remove (h : ix.Settled) (id : String) : (ix.remove id).2.Settled := by
  rw [VectorIndex.remove]
  split
  · exact ⟨h.matched.erase id, h.current.moved rfl rfl, h.preselected⟩
  · exact h

theorem Settled.refreshed (h : ix.Settled) : ix.refreshed.Settled := by
  refine ⟨?_, h.current.refreshed, ?_⟩
  · rw [VectorIndex.refreshed]
    split <;> exact h.matched
  rw [VectorIndex.refreshed]
  split
  next s read =>
    intro some
    -- a snapshot with rows is the one at hand, or was made where nothing is wrong with the preselection
    rw [VectorIndex.view] at read
    split at read
    · injection read with read
      exact h.preselected (read ▸ some)
    · split at read
      · obtain ⟨_, _, read⟩ := exists_of_bind_ok read
        injection read with read
        exact absurd (read ▸ rfl) some
      · split at read
        · obtain ⟨least, selection, _⟩ := exists_of_bind_ok read
          exact ⟨least, selection⟩
        · cases read
  next => exact h.preselected

theorem Flat.settled (h : Flat ix) : ix.Settled := by
  induction h with
  | blank _ _ _ _ _ _ table => exact ⟨.empty table, ⟨Nat.le_refl 0, fun _ => rfl, rfl⟩, nofun⟩
  | opened _ _ _ _ _ matched => exact ⟨matched, ⟨Nat.zero_le 1, nofun, rfl⟩, nofun⟩
  | inserted _ now named short ih => exact ih.insert now named short
  | insertedEmbedded _ now named short ih => exact ih.insertEmbedded now named short
  | removed _ id ih => exact ih.remove id
  | cleared _ ih => exact ⟨.empty ih.matched.table, ih.current.moved rfl rfl, ih.preselected⟩
  | searched _ ih => exact ih.refreshed

/-! ## What is found -/

/-- The rows that a search reads are those of the index, if they may be compared with anything. -/
theorem Settled.rows_view (h : ix.Settled) :
    ix.view.map Snapshot.rows = if ix.rows.isEmpty then .ok [] else ix.preselection.map fun _ => ix.rows := by
  have even : evenWidth ix.rows = true := by
    have wide : ∀ row ∈ ix.rows, HasWidth ix.dimension row.vector := by
      intro row hr
      obtain ⟨e, stored, vector, _⟩ := entry_of_mem_rows hr
      rw [vector]
      exact (h.matched.wide e (List.mem_map.2 ⟨_, Keyed.get?_eq_some.1 stored, rfl⟩)).1
    exact evenWidth_of_eq fun a ha b hb => (wide a ha).length_eq (wide b hb)
  simp only [VectorIndex.view, h.matched.table, even, if_true]
  split
  next same =>
    have rows := h.current.rows same
    cases none : ix.rows with
    | nil => exact congrArg Except.ok (rows.trans none)
    | cons first rest =>
      obtain ⟨least, selected⟩ := h.preselected (by rw [rows, none]; exact List.cons_ne_nil _ _)
      rw [selected]
      exact congrArg Except.ok (rows.trans none)
  next =>
    cases ix.preselection <;> cases ix.rows.isEmpty <;> rfl

/-- What is found comes of the rows that are read and of the way in which they are chosen. -/
theorem findVector_congr {other : VectorIndex α} (rows : ix.view.map Snapshot.rows = other.view.map Snapshot.rows)
    (preselection : ix.preselection = other.preselection) (choice : ix.choice = other.choice) (query : Tensor α)
    (maxResults : Int) (least : α) (exclude : Option String) :
    ix.findVector query maxResults least exclude = other.findVector query maxResults least exclude := by
  have found (ix : VectorIndex α) : ix.findVector query maxResults least exclude
      = ix.view.map Snapshot.rows >>= fun rows =>
        if rows.isEmpty || maxResults ≤ 0 then .ok []
        else compared (ix.choiceFor ⟨0, rows⟩) ⟨0, rows⟩ query maxResults >>= fun similar =>
          nearest similar maxResults least exclude := by
    rw [findVector]
    cases ix.view <;> rfl
  have same (s : Snapshot α) : ix.choiceFor s = other.choiceFor s := by
    rw [choiceFor, preselection, choice, choiceFor]
  rw [found, found, rows]
  simp only [same]

/-- An index that is set up as another one, with a width, and has no vectors. -/
def fresh (ix : VectorIndex α) (dimension : Json) : VectorIndex α :=
  { blank ix.embedder none dimension ix.workers ix.preselection with choice := ix.choice }

/-- Rows come of the vectors and the chunks under the ids, and not of the times. -/
theorem rows_congr {other : VectorIndex α} (chunks : ix.chunks = other.chunks)
    (vectors : ix.entries.items.map (fun item => (item.1, item.2.vector))
      = other.entries.items.map fun item => (item.1, item.2.vector)) : ix.rows = other.rows := by
  have rows (ix : VectorIndex α) : ix.rows = (ix.entries.items.map fun item => (item.1, item.2.vector)).filterMap
      fun (id, vector) => (ix.chunks.get? id).map fun chunk => ⟨id, chunk, vector, norm vector⟩ := by
    rw [VectorIndex.rows, List.filterMap_map]
    rfl
  rw [rows, rows, chunks, vectors]

section Anew
variable (settled : ix.Settled) (now : Float) {dimension : Json} (width : dimension = .null ∨ dimension = ix.dimension)
include settled width

theorem Settled.insertEmbedded_fresh : (ix.fresh dimension).insertEmbedded now ix.chunks.values
    (ix.vectors.map Tensor.ofList) = (.ok ix.chunks.values.length,
      let filled := { ix.fresh dimension with
        entries := ix.entries.mapValues fun e => ⟨e.vector, now⟩
        chunks := ix.chunks
        dimension := expectedWidth dimension ix.vectors }
      if ix.chunks.values.isEmpty then filled else filled.advanced) := by
  have chunk := settled.matched.filed.values
  have widths := checkWidths_of_hasWidth (fun c hc => (chunk c hc).2) (settled.matched.expected width)
    settled.matched.count
  rw [insertEmbedded_of_widths (fun c hc => (chunk c hc).1) settled.matched.count widths now]
  have entries : (ix.fresh dimension).entries = .empty := rfl
  have chunks : (ix.fresh dimension).chunks = .empty := rfl
  rw [entries, chunks, settled.matched.entries_again, settled.matched.chunks_again]

theorem Settled.flat_fresh : Flat ((ix.fresh dimension).insertEmbedded now ix.chunks.values
    (ix.vectors.map Tensor.ofList)).2 := by
  have table : checkTable dimension = .ok () := by
    rcases width with rfl | rfl
    · rfl
    · exact settled.matched.table
  exact .insertedEmbedded (.blank _ _ dimension _ _ ix.choice table) now
    (fun c hc => (settled.matched.filed.values c hc).1)
    (List.forall_mem_map.2 fun e he => (settled.matched.wide e he).2)

/-- The fresh index has the same rows. -/
theorem Settled.rows_fresh : ((ix.fresh dimension).insertEmbedded now ix.chunks.values
    (ix.vectors.map Tensor.ofList)).2.rows = ix.rows := by
  have times : ((ix.entries.mapValues fun e => (⟨e.vector, now⟩ : Vector.Entry α)).items.map
      fun item => (item.1, item.2.vector)) = ix.entries.items.map fun item => (item.1, item.2.vector) := by
    rw [Keyed.mapValues, List.map_map]
    rfl
  rw [settled.insertEmbedded_fresh now width]
  simp only []
  split <;> exact rows_congr rfl times

end Anew

/-- A fresh index takes the vectors of an index, in their order, and then finds by vectors what that one does. It may be
begun with the same width, or with none. -/
theorem Flat.anew (h : Flat ix) (now : Float) {dimension : Json}
    (width : dimension = .null ∨ dimension = ix.dimension) :
    ∃ filled, (ix.fresh dimension).insertEmbedded now ix.chunks.values (ix.vectors.map Tensor.ofList)
        = (.ok ix.chunks.values.length, filled) ∧
      ∀ query maxResults least exclude,
        ix.findVector query maxResults least exclude = filled.findVector query maxResults least exclude := by
  have inserted := h.settled.insertEmbedded_fresh now width
  have rows := h.settled.rows_fresh now width
  have flat := h.settled.flat_fresh now width
  have setup := sameSetup_insertEmbedded now ix.chunks.values (ix.vectors.map Tensor.ofList) (ix.fresh dimension)
  refine ⟨_, Prod.ext (Prod.mk.inj inserted).1 rfl, findVector_congr ?_ setup.preselection.symm setup.choice.symm⟩
  have selection : _ = ix.preselection := setup.preselection
  rw [h.settled.rows_view, flat.settled.rows_view, rows, selection]

end Flat

end CodeSearch.VectorIndex
