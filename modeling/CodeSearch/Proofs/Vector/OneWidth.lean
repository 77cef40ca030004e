import CodeSearch.Proofs.Invariant
import CodeSearch.Proofs.Vector.Anew
import CodeSearch.Proofs.Vector.Close
/-!
# One width for all vectors

The width of a vector is taken of the array as it was given, and the array is flattened when it is put. For arrays whose
length is the number of their numbers this makes no difference (`insertEmbedded_lines`), and then every stored vector has
the width of the index, whatever it has been through, saves and the reading of what was saved included (`Reached.oneWidth`).
So a search by a vector of this width is answered, and a batch with a vector of another one is turned away as a whole
(`Reached.keeps_one_width`).
-/

namespace CodeSearch

/-- An array whose length is the number of its numbers, as that of a list of numbers is. -/
def Tensor.IsLine {α : Type} (t : Tensor α) (numbers : List α) : Prop :=
  t.flatten = .ok numbers ∧ t.length = .ok numbers.length

theorem Tensor.isLine_ofList {α : Type} (numbers : List α) : (ofList numbers).IsLine numbers :=
  ⟨flatten_ofList numbers, congrArg Except.ok (List.length_map _)⟩

namespace VectorIndex

open CodeSearch.Vector CodeSearch.Action

section
variable {α : Type} {tensors : List (Tensor α)} {vectors : List (List α)}

theorem checkWidths_lines (lines : List.Forall₂ Tensor.IsLine tensors vectors) (dimension : Json) (chunks : List Chunk) :
    checkWidths dimension (chunks.zip tensors) = checkWidths dimension (chunks.zip (vectors.map Tensor.ofList)) := by
  induction lines generalizing dimension chunks with
  | nil => rfl
  | @cons t numbers tensors vectors line _ ih =>
    cases chunks with
    | nil => rfl
    | cons c chunks =>
      rw [List.map_cons, List.zip_cons_cons, List.zip_cons_cons, checkWidths, checkWidths, line.2,
        (Tensor.isLine_ofList numbers).2]
      simp only [ih]

theorem putAll_lines (lines : List.Forall₂ Tensor.IsLine tensors vectors) (now : Float) (ix : VectorIndex α)
    (chunks : List Chunk) :
    putAll now ix (chunks.zip tensors) = putAll now ix (chunks.zip (vectors.map Tensor.ofList)) := by
  induction lines generalizing ix chunks with
  | nil => rfl
  | @cons t numbers tensors vectors line _ ih =>
    cases chunks with
    | nil => rfl
    | cons c chunks =>
      rw [List.map_cons, List.zip_cons_cons, List.zip_cons_cons, putAll, putAll, line.1, Tensor.flatten_ofList]
      simp only [ih]

/-- Arrays whose length is the number of their numbers go in as the lists of their numbers do. -/
theorem insertEmbedded_lines (lines : List.Forall₂ Tensor.IsLine tensors vectors) (now : Float) (chunks : List Chunk)
    (ix : VectorIndex α) :
    ix.insertEmbedded now chunks tensors = ix.insertEmbedded now chunks (vectors.map Tensor.ofList) := by
  rw [insertEmbedded, insertEmbedded, checkWidths_lines lines, putAll_lines lines, lines.length_eq, List.length_map]

/-- If one vector of a batch has another width than is expected, nothing is inserted. -/
theorem insertEmbedded_misfit {ix : VectorIndex α} {chunks : List Chunk} (filled : ∀ c ∈ chunks, c.checkFilled = .ok ())
    (count : chunks.length = vectors.length) {misfit : List α} (there : misfit ∈ vectors)
    (other : ¬ HasWidth (expectedWidth ix.dimension vectors) misfit) (now : Float) :
    ∃ vector ∈ vectors, ¬ HasWidth (expectedWidth ix.dimension vectors) vector ∧
      ix.insertEmbedded now chunks (vectors.map Tensor.ofList)
        = (.error (.dimensionMismatch (expectedWidth ix.dimension vectors) (.int vector.length)), ix) := by
  obtain ⟨vector, hv, narrow, failed⟩ := checkWidths_error filled count there other
  refine ⟨vector, hv, narrow, ?_⟩
  rw [insertEmbedded, if_neg (by simpa using count), failed]

end

/-! ## What an index has been through -/

/-- An index that was opened where there was no snapshot, or with what a save of such an index has written, and what writes,
saves and searches make of one, calls that fail and saves that come to a stop included. In the chunks nothing was set
without a check, the vectors are arrays whose length is the number of their numbers, and no vector has more numbers than a
row has room for. -/
inductive Reached : VectorIndex Float → Prop where
  | opened {ix : VectorIndex Float} (embedder : Embedder Float) (snapshotPath : Option Path) (dimension : Json)
      (workers : Except Fault Int) (least : Number) (choice : Option (Choice Float)) (d : Disk)
      (absent : ∀ path ∈ snapshotPath, d.holds path = .ok false)
      (opened : openAt embedder snapshotPath dimension workers (.ok least) d = .ok ix) : Reached { ix with choice }
  | reopened {saved ix : VectorIndex Float} (h : Reached saved) (embedder : Embedder Float) (path : Path)
      (dimension : Json) (workers : Except Fault Int) (least : Number) (choice : Option (Choice Float)) (d : Disk)
      (there : d.FileAt path (.binary saved.snapshotJson))
      (opened : openAt embedder (some path) dimension workers (.ok least) d = .ok ix) : Reached { ix with choice }
  | inserted {ix : VectorIndex Float} (h : Reached ix) (now : Float) {chunk : Chunk} (checked : chunk.unchecked = [])
      (short : ∀ vector, ix.embedder.vector chunk.searchableText = .ok vector → vector.length < columnLimit) :
      Reached (ix.insert now chunk).2
  | insertedBatch {ix : VectorIndex Float} (h : Reached ix) (now : Float) {chunks : List Chunk}
      (checked : ∀ c ∈ chunks, c.unchecked = [])
      (short : ∀ vectors, ix.embedChunks chunks = .ok vectors → ∀ vector ∈ vectors, vector.length < columnLimit)
      (d : Disk) : Reached ((insertBatch now chunks).runOn ix d).2.1
  | insertedEmbedded {ix : VectorIndex Float} (h : Reached ix) (now : Float) {chunks : List Chunk}
      {tensors : List (Tensor Float)} {vectors : List (List Float)} (checked : ∀ c ∈ chunks, c.unchecked = [])
      (lines : List.Forall₂ Tensor.IsLine tensors vectors) (short : ∀ vector ∈ vectors, vector.length < columnLimit) :
      Reached (ix.insertEmbedded now chunks tensors).2
  | removed {ix : VectorIndex Float} (h : Reached ix) (id : String) : Reached (ix.remove id).2
  | cleared {ix : VectorIndex Float} (h : Reached ix) : Reached ix.clear
  | searched {ix : VectorIndex Float} (h : Reached ix) : Reached ix.refreshed
  | saved {ix : VectorIndex Float} (h : Reached ix) (target : Option Path) (d : Disk) :
      Reached ((save target).runOn ix d).2.1

/-- All vectors of an index have its width, and searches can read them. -/
structure OneWidth {α : Type} [Scalar α] (ix : VectorIndex α) : Prop where
  wide : ∀ e ∈ ix.entries.values, HasWidth ix.dimension e.vector ∧ e.vector.length < columnLimit
  table : checkTable ix.dimension = .ok ()
  checked : ∀ c ∈ ix.chunks.values, c.unchecked = []
  current : ix.IsCurrent
  preselection : ∃ least, ix.preselection = .ok least

section
variable {α : Type} [Scalar α] {ix : VectorIndex α}

theorem OneWidth.insertEmbedded (h : ix.OneWidth) (now : Float) {chunks : List Chunk}
    (checked : ∀ c ∈ chunks, c.unchecked = []) {vectors : List (List α)}
    (short : ∀ vector ∈ vectors, vector.length < columnLimit) :
    (ix.insertEmbedded now chunks (vectors.map Tensor.ofList)).2.OneWidth := by
  have named : ∀ c ∈ chunks, c.checkId = .ok () := fun c hc => Chunk.checkId_of_checked (checked c hc)
  have setup := sameSetup_insertEmbedded now chunks (vectors.map Tensor.ofList) ix
  have arrays : ∀ t ∈ vectors.map Tensor.ofList, ∃ numbers, t.flatten = .ok numbers :=
    List.forall_mem_map.2 fun vector _ => ⟨vector, Tensor.flatten_ofList vector⟩
  have current := h.current.inserted now named arrays
  rcases insertEmbedded_cases named now vectors ix with ⟨fault, failed⟩ | ⟨ix', done, put⟩
  · rw [failed]
    exact h
  · rw [done] at setup current ⊢
    refine ⟨put.wide h.wide short, put.table h.table short, ?_, current, setup.preselection ▸ h.preselection⟩
    change ∀ c ∈ ix'.chunks.values, c.unchecked = []
    rw [put.chunks]
    exact Keyed.forall_values_putAll h.checked (List.forall_mem_map.2 checked)

theorem OneWidth.insert (h : ix.OneWidth) (now : Float) {chunk : Chunk} (checked : chunk.unchecked = [])
    (short : ∀ vector, ix.embedder.vector chunk.searchableText = .ok vector → vector.length < columnLimit) :
    (ix.insert now chunk).2.OneWidth := by
  rw [VectorIndex.insert, Chunk.checkText_of_checked checked, ok_bind]
  cases embedded : ix.embedder.vector chunk.searchableText with
  | error fault => exact h
  | ok vector =>
    have short : ∀ other ∈ [vector], other.length < columnLimit := List.forall_mem_singleton.2 (short vector embedded)
    exact h.insertEmbedded now (List.forall_mem_singleton.2 checked) short

theorem OneWidth.remove (h : ix.OneWidth) (id : String) : (ix.remove id).2.OneWidth := by
  have current := h.current.removed id
  rw [VectorIndex.remove] at current ⊢
  split at current
  next there =>
    rw [if_pos there]
    exact ⟨Keyed.forall_values_erase h.wide id, h.table, Keyed.forall_values_erase h.checked id, current,
      h.preselection⟩
  next absent =>
    rw [if_neg absent]
    exact h

theorem OneWidth.clear (h : ix.OneWidth) : ix.clear.OneWidth :=
  ⟨List.forall_mem_nil _, h.table, List.forall_mem_nil _, h.current.moved rfl rfl, h.preselection⟩

theorem OneWidth.refreshed (h : ix.OneWidth) : ix.refreshed.OneWidth := by
  have current := h.current.refreshed
  rw [VectorIndex.refreshed] at current ⊢
  split at current <;> exact { h with current }

theorem OneWidth.stored (h : ix.OneWidth) : { ix with dirty := false }.OneWidth :=
  { h with current := h.current.same rfl rfl rfl }

theorem OneWidth.choosing (h : ix.OneWidth) (choice : Option (Choice α)) : { ix with choice }.OneWidth :=
  { h with current := h.current.same rfl rfl rfl }

/-- A search by an array of the width of the index is answered. -/
theorem OneWidth.findVector_ok (h : ix.OneWidth) {given : Tensor α} {query : List α} (flat : given.flatten = .ok query)
    (fits : ix.dimension.isNull = false → HasWidth ix.dimension query) (maxResults : Int) (least : α)
    (exclude : Option String) : ∃ found, ix.findVector given maxResults least exclude = .ok found := by
  have wide : ∀ row ∈ ix.rows, HasWidth ix.dimension row.vector := by
    intro row hr
    obtain ⟨e, stored, vector, _⟩ := entry_of_mem_rows hr
    rw [vector]
    exact (h.wide e (Keyed.mem_values_of_get? stored)).1
  have even : evenWidth ix.rows = true := evenWidth_of_eq fun a ha b hb => (wide a ha).length_eq (wide b hb)
  obtain ⟨least', preselection⟩ := h.preselection
  obtain ⟨s, read, rows⟩ := h.current.view_ok even (fun _ => h.table) preselection
  refine VectorIndex.findVector_ok read (fun row hr => ?_) flat (fun row hr => ?_) maxResults least exclude
  · obtain ⟨⟨id, e⟩, _, made⟩ := List.mem_filterMap.1 (rows ▸ hr)
    obtain ⟨chunk, registered, rfl⟩ := Option.map_eq_some_iff.1 made
    exact h.checked chunk (Keyed.mem_values_of_get? registered)
  · have stored := wide row (rows ▸ hr)
    exact stored.length_eq (fits stored.known)

end

/-! ## Saves and what is read of them -/

section
variable {ix saved : VectorIndex Float} {path : Path} {d : Disk}

theorem OneWidth.keeps_save (target : Option Path) : Keeps OneWidth (save target) := by
  refine keeps_memory fun ix _ => ?_
  split
  · exact keeps_throw _
  · refine keeps_answer fun value _ => (keeps_store _ _ _).bind fun _ => ?_
    exact keeps_modifyMemory fun ix h => h.stored

theorem OneWidth.insertBatch (h : ix.OneWidth) (now : Float) {chunks : List Chunk} (checked : ∀ c ∈ chunks, c.unchecked = [])
    (short : ∀ vectors, ix.embedChunks chunks = .ok vectors → ∀ vector ∈ vectors, vector.length < columnLimit) (d : Disk) :
    ((VectorIndex.insertBatch now chunks).runOn ix d).2.1.OneWidth := by
  rw [VectorIndex.insertBatch, runOn_bind_ok (runOn_memory _ _)]
  refine keeps_answer (fun vectors embedded => ?_) ix d h
  have after := h.insertEmbedded now checked (short vectors embedded)
  generalize ix.insertEmbedded now chunks (vectors.map Tensor.ofList) = result at after ⊢
  obtain ⟨answer, ix'⟩ := result
  refine (keeps_setMemory after).bind fun _ => (keeps_ofExcept answer).bind fun inserted => ?_
  simp only []
  split
  · exact (OneWidth.keeps_save none).bind fun _ => keeps_pure _
  · exact keeps_pure _

theorem oneWidth_blank (embedder : Embedder Float) (snapshotPath : Option Path) {dimension : Json}
    (workers : Except Fault Int) (least : Number) (table : checkTable dimension = .ok ()) :
    (blank embedder snapshotPath dimension workers (.ok least)).OneWidth :=
  ⟨List.forall_mem_nil _, table, List.forall_mem_nil _, ⟨Nat.le_refl 0, fun _ => rfl, rfl⟩, least, rfl⟩

theorem oneWidth_of_openAt_absent {embedder : Embedder Float} {snapshotPath : Option Path} {dimension : Json}
    {workers : Except Fault Int} {least : Number} (absent : ∀ path ∈ snapshotPath, d.holds path = .ok false)
    (opened : openAt embedder snapshotPath dimension workers (.ok least) d = .ok ix) : ix.OneWidth := by
  obtain ⟨_, table, opened⟩ := exists_of_bind_ok opened
  have begun : ix = blank embedder snapshotPath dimension workers (.ok least) := by
    cases snapshotPath with
    | none => exact (Except.ok.inj opened).symm
    | some path =>
      simp only [absent path rfl, ok_bind, Bool.false_eq_true, if_false] at opened
      exact (Except.ok.inj opened).symm
  rw [begun]
  exact oneWidth_blank embedder snapshotPath workers least table

/-- What was written of an index whose vectors have one width is read as such an index. -/
theorem OneWidth.of_openAt (h : saved.OneWidth) (there : d.FileAt path (.binary saved.snapshotJson))
    {embedder : Embedder Float} {dimension : Json} {workers : Except Fault Int} {least : Number}
    (opened : openAt embedder (some path) dimension workers (.ok least) d = .ok ix) : ix.OneWidth := by
  rw [openAt_readChunks there] at opened
  obtain ⟨_, table, opened⟩ := exists_of_bind_ok opened
  obtain ⟨chunks, read, opened⟩ := exists_of_bind_ok opened
  have checked : ∀ item ∈ chunks, item.2.unchecked = [] := by
    intro item hi
    cases records : saved.readChunks with
    | error fault =>
      rw [records] at read
      cases read
    | ok items =>
      rw [records] at read
      obtain rfl := Except.ok.inj read
      obtain ⟨⟨id, record⟩, _, made⟩ := mem_of_mapM_ok records item hi
      obtain ⟨c, parsed, same⟩ := exists_of_bind_ok made
      obtain rfl := Except.ok.inj same
      exact Chunk.checked_of_ofJson parsed
  split at opened
  next => cases opened
  next =>
    obtain rfl := Except.ok.inj opened
    have wide : ∀ e ∈ saved.entries.values,
        HasWidth (if saved.dimension.isNull then dimension else saved.dimension) e.vector ∧ e.vector.length < columnLimit := by
      intro e he
      obtain ⟨width, small⟩ := h.wide e he
      -- a width is known of an index with vectors
      have known : saved.dimension.isNull = false := width.known
      rw [known, if_neg Bool.false_ne_true]
      exact ⟨width, small⟩
    refine ⟨wide, ?_, Keyed.forall_values_putAll (List.forall_mem_nil _) checked, ⟨Nat.zero_le 1, nofun, rfl⟩, least, rfl⟩
    change checkTable (if saved.dimension.isNull then dimension else saved.dimension) = .ok ()
    split
    · exact table
    · exact h.table

theorem Reached.oneWidth (h : Reached ix) : ix.OneWidth := by
  induction h with
  | opened _ _ _ _ _ choice _ absent opened => exact (oneWidth_of_openAt_absent absent opened).choosing choice
  | reopened _ _ _ _ _ _ choice _ there opened ih => exact (ih.of_openAt there opened).choosing choice
  | inserted _ now checked short ih => exact ih.insert now checked short
  | insertedBatch _ now checked short d ih => exact ih.insertBatch now checked short d
  | insertedEmbedded _ now checked lines short ih =>
    rw [insertEmbedded_lines lines]
    exact ih.insertEmbedded now checked short
  | removed _ id ih => exact ih.remove id
  | cleared _ ih => exact ih.clear
  | searched _ ih => exact ih.refreshed
  | saved _ target d ih => exact OneWidth.keeps_save target _ d ih

/-- Vectors that are embedded and of which one has another width than is expected leave no trace, on the disk neither. -/
theorem runOn_insertBatch_misfit {chunks : List Chunk} {vectors : List (List Float)}
    (embedded : ix.embedChunks chunks = .ok vectors) {now : Float} {fault : Fault}
    (failed : ix.insertEmbedded now chunks (vectors.map Tensor.ofList) = (.error fault, ix)) (d : Disk) :
    (insertBatch now chunks).runOn ix d = (.error fault, ix, d) := by
  rw [insertBatch, runOn_bind_ok (runOn_memory _ _), embedded, runOn_bind_ok (runOn_ofExcept _ _ _), failed,
    runOn_bind_ok (runOn_setMemory _ _ _), runOn_bind_error (runOn_ofExcept _ _ _)]

/-- In an index that writes, saves and readings of what was saved have led to, every vector has as many numbers as the
index is wide. A search by an array of so many numbers is answered. A batch of which one vector has another width is turned
away with the widths and changes nothing, whether its vectors are given or embedded. As long as no width is known, that of
the first vector counts. -/
theorem Reached.keeps_one_width (h : Reached ix) :
    (∀ e ∈ ix.entries.values, HasWidth ix.dimension e.vector) ∧
    (∀ (given : Tensor Float) (query : List Float), given.flatten = .ok query →
      (ix.dimension.isNull = false → HasWidth ix.dimension query) → ∀ maxResults least exclude,
        ∃ found, ix.findVector given maxResults least exclude = .ok found) ∧
    ∀ (chunks : List Chunk) (vectors : List (List Float)), (∀ c ∈ chunks, c.checkFilled = .ok ()) →
      chunks.length = vectors.length → ∀ misfit ∈ vectors, ¬ HasWidth (expectedWidth ix.dimension vectors) misfit →
      ∀ now, ∃ vector ∈ vectors, ¬ HasWidth (expectedWidth ix.dimension vectors) vector ∧
        (∀ tensors, List.Forall₂ Tensor.IsLine tensors vectors → ix.insertEmbedded now chunks tensors
          = (.error (.dimensionMismatch (expectedWidth ix.dimension vectors) (.int vector.length)), ix)) ∧
        (ix.embedChunks chunks = .ok vectors → ∀ d, (insertBatch now chunks).runOn ix d
          = (.error (.dimensionMismatch (expectedWidth ix.dimension vectors) (.int vector.length)), ix, d)) := by
  have oneWidth := h.oneWidth
  refine ⟨fun e he => (oneWidth.wide e he).1, fun given query flat fits => oneWidth.findVector_ok flat fits, ?_⟩
  intro chunks vectors filled count misfit there other now
  obtain ⟨vector, hv, narrow, failed⟩ := insertEmbedded_misfit filled count there other now
  refine ⟨vector, hv, narrow, fun tensors lines => ?_, fun embedded d => runOn_insertBatch_misfit embedded failed d⟩
  rw [insertEmbedded_lines lines, failed]

end

/-! ## A column of two numbers -/

/-- An array of two rows with one number each. -/
def column : Tensor Float := .array [.array [.scalar 1], .array [.scalar 0]]

theorem isLine_column : column.IsLine [1, 0] := ⟨rfl, rfl⟩

/-- An index of which the one vector was given as a column. -/
def tall : VectorIndex Float :=
  (insertEmbedded 0 [.plain "x" "text"] [column]
    (blank { embed := fun _ => .ok (.ofList []) } (some ⟨"", ["vec.pkl"]⟩) .null (.ok 1) (.ok (.whole 50000)))).2

theorem reached_tall : Reached tall := by
  have nothing : Disk.blank.nodeAt? (Path.place ⟨"", ["vec.pkl"]⟩) = none := by decide +kernel
  have opened := Reached.opened { embed := fun _ => .ok (.ofList []) } (some ⟨"", ["vec.pkl"]⟩) .null (.ok 1)
    (.whole 50000) none Disk.blank
    (fun path own => Option.some.inj own ▸ Disk.holds_of_nothing keeps_vec.fits nothing)
    (openAt_of_nothing keeps_vec.fits nothing _ _ _ _)
  exact opened.insertedEmbedded 0 (List.forall_mem_singleton.2 rfl) (.cons isLine_column .nil)
    (List.forall_mem_singleton.2 (by decide))

/-- The index is saved and opened again. -/
theorem keeps_one_width_tall : ∃ reopened,
    openAt tall.embedder (some ⟨"", ["vec.pkl"]⟩) .null (.ok 1) (.ok (.whole 50000)) ((save none).runOn tall Disk.blank).2.2
        = .ok reopened ∧
      (∀ e ∈ reopened.entries.values, HasWidth reopened.dimension e.vector) ∧
      (∃ found, reopened.findVector column 10 0 none = .ok found) ∧
      reopened.insertEmbedded 1 [.plain "y" "text"] [.ofList [1, 2, 3]]
        = (.error (.dimensionMismatch (.int 2) (.int 3)), reopened) := by
  have read : (Chunk.plain "x" "text").WellRead := Chunk.wellRead_plain (.of_ascii (by decide)) (by decide +kernel)
    (.of_ascii (by decide)) (by decide +kernel)
  have done : ((save none).runOn tall Disk.blank).1.toBool = true := by decide +kernel
  have own : (none : Option Path).or tall.snapshotPath = some ⟨"", ["vec.pkl"]⟩ := rfl
  have checked : ∀ c ∈ tall.chunks.values, c.unchecked = [] := List.forall_mem_singleton.2 rfl
  rcases runOn_save_cases none own checked Disk.blank with ⟨d, saved, _, _, there⟩ | ⟨fault, d, failed, _⟩
  · have opened := openAt_snapshot there (List.forall_mem_singleton.2 ⟨read, Nat.le_refl 0⟩) tall.embedder .null (.ok 1)
      (.ok (.whole 50000))
    have reached := Reached.reopened reached_tall _ _ _ _ _ none d there opened
    obtain ⟨wide, answered, turned⟩ := reached.keeps_one_width
    refine ⟨_, by rw [saved]; exact opened, wide, answered column [1, 0] isLine_column.1 (fun _ => by decide) 10 0 none, ?_⟩
    obtain ⟨vector, hv, _, turned, _⟩ := turned [.plain "y" "text"] [[1, 2, 3]]
      (List.forall_mem_singleton.2 (eq_ok_of_toBool (by decide +kernel))) rfl [1, 2, 3] List.mem_cons_self (by decide) 1
    obtain rfl := List.mem_singleton.1 hv
    exact turned _ (.cons (Tensor.isLine_ofList _) .nil)
  · rw [failed] at done
    cases done

end VectorIndex

end CodeSearch
