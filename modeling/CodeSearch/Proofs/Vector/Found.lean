import CodeSearch.Proofs.Scalar
import CodeSearch.Proofs.Vector.Snapshot
import CodeSearch.Vector.Index
/-!
# What searches find in the vector index

A search reads a snapshot, and in every index that writes and searches lead to (`Lived`) the snapshot has the vectors
of the index (`Lived.isCurrent`). So all that is found for a text has a stored vector, whose cosine similarity to that of
the text is the one that is told and as large as was asked for (`found_of_findText`), however rows were chosen beforehand.
-/

namespace CodeSearch.VectorIndex

open CodeSearch.Vector

variable {α : Type}

/-- Arrays of numbers are all put, and the snapshot stays. -/
theorem putAll_ok (now : Float) {pairs : List (Chunk × Tensor α)}
    (good : ∀ pair ∈ pairs, pair.1.checkId = .ok () ∧ ∃ numbers, pair.2.flatten = .ok numbers) (ix : VectorIndex α) :
    ∃ ix', putAll now ix pairs = (.ok (), ix') ∧ ix'.snapshot = ix.snapshot ∧ ix'.generation = ix.generation := by
  induction pairs generalizing ix with
  | nil => exact ⟨ix, rfl, rfl, rfl⟩
  | cons pair pairs ih =>
    obtain ⟨c, vector⟩ := pair
    obtain ⟨named, numbers, flat⟩ := good _ List.mem_cons_self
    obtain ⟨ix', rest, snapshot, generation⟩ :=
      ih (fun other ho => good other (List.mem_cons_of_mem _ ho)) (ix.put now c numbers)
    refine ⟨ix', ?_, snapshot, generation⟩
    rw [putAll, flat, named]
    exact rest

/-- Rows of which any two have the same width. -/
theorem evenWidth_of_eq {rows : List (Row α)} (same : ∀ a ∈ rows, ∀ b ∈ rows, a.vector.length = b.vector.length) :
    evenWidth rows = true := by
  cases rows with
  | nil => rfl
  | cons first rest =>
    exact List.all_eq_true.2 fun row hr => decide_eq_true (same row (List.mem_cons_of_mem _ hr) first List.mem_cons_self)

/-- Rows of even width have that of the first. -/
theorem length_of_evenWidth {first row : Row α} {rows : List (Row α)} (even : evenWidth rows = true)
    (head : rows.head? = some first) (h : row ∈ rows) : row.vector.length = first.vector.length := by
  cases rows with
  | nil => cases head
  | cons other rows =>
    obtain rfl := Option.some.inj head
    rcases List.mem_cons.1 h with rfl | later
    · rfl
    · exact of_decide_eq_true (List.all_eq_true.1 even row later)

/-- What can be told is told as it was found. -/
theorem mapM_checked {found told : List (Similar α)} (h : found.mapM Similar.checked = .ok told) : told = found := by
  have same : ∀ s ∈ found, ∀ s', Similar.checked s = .ok s' → s' = s := by
    intro s _ s' checked
    rw [Similar.checked] at checked
    cases issues : Chunk.noIssues s.chunk.idIssues with
    | error fault =>
      rw [issues] at checked
      cases checked
    | ok _ =>
      rw [issues] at checked
      injection checked with checked
      exact checked.symm
  rw [eq_map_of_mapM_ok same h, List.map_id']

theorem checked_ok {s : Similar α} (h : s.chunk.unchecked = []) : Similar.checked s = .ok s := by
  rw [Similar.checked, Chunk.idIssues_of_checked h]
  rfl

/-! ## Snapshots -/

section Current
variable [Scalar α] {ix : VectorIndex α}

/-- An index that writes and searches have led to. The chunks are ones in which nothing was set without a check, the
vectors are arrays of numbers, and what is loaded may be anything. -/
inductive Lived : VectorIndex α → Prop where
  | blank (embedder : Embedder α) (snapshotPath : Option Path) (dimension : Json) (workers : Except Fault Int)
      (preselection : Except Fault Number) (choice : Option (Choice α)) :
      Lived { blank embedder snapshotPath dimension workers preselection with choice }
  | loaded {ix : VectorIndex α} (h : Lived ix) (entries : Keyed String (Vector.Entry α)) (chunks : Keyed String Chunk)
      (dimension : Json) : Lived { ix with entries, chunks, dimension, generation := ix.generation + 1 }
  | inserted {ix : VectorIndex α} (h : Lived ix) (now : Float) {chunks : List Chunk} {vectors : List (Tensor α)}
      (checked : ∀ c ∈ chunks, c.unchecked = []) (arrays : ∀ vector ∈ vectors, ∃ numbers, vector.flatten = .ok numbers) :
      Lived (ix.insertEmbedded now chunks vectors).2
  | removed {ix : VectorIndex α} (h : Lived ix) (id : String) : Lived (ix.remove id).2
  | cleared {ix : VectorIndex α} (h : Lived ix) : Lived ix.clear
  | searched {ix : VectorIndex α} (h : Lived ix) : Lived ix.refreshed
  | stored {ix : VectorIndex α} (h : Lived ix) : Lived { ix with dirty := false }

/-- The snapshot at hand is of an earlier generation, or has the rows of the index. -/
structure IsCurrent (ix : VectorIndex α) : Prop where
  past : ix.snapshot.generation ≤ ix.generation
  rows : ix.snapshot.generation = ix.generation → ix.snapshot.rows = ix.rows
  even : evenWidth ix.snapshot.rows = true

/-- A write that moves the generation on leaves every snapshot behind. -/
theorem IsCurrent.moved (h : ix.IsCurrent) {ix' : VectorIndex α} (snapshot : ix'.snapshot = ix.snapshot)
    (generation : ix'.generation = ix.generation + 1) : ix'.IsCurrent := by
  have past := h.past
  refine ⟨?_, fun same => ?_, snapshot ▸ h.even⟩
  · rw [snapshot, generation]
    omega
  · rw [snapshot, generation] at same
    omega

/-- A write that leaves the vectors alone changes nothing for searches. -/
theorem IsCurrent.same (h : ix.IsCurrent) {ix' : VectorIndex α} (snapshot : ix'.snapshot = ix.snapshot)
    (generation : ix'.generation = ix.generation) (rows : ix'.rows = ix.rows) : ix'.IsCurrent := by
  refine ⟨?_, fun same => ?_, snapshot ▸ h.even⟩
  · rw [snapshot, generation]
    exact h.past
  · rw [snapshot, generation] at same
    rw [snapshot, rows]
    exact h.rows same

/-- What a search reads are the rows of the index. -/
theorem IsCurrent.view (h : ix.IsCurrent) {s : Snapshot α} (read : ix.view = .ok s) :
    s.generation = ix.generation ∧ s.rows = ix.rows ∧ evenWidth s.rows = true := by
  rw [VectorIndex.view] at read
  split at read
  next same =>
    injection read with read
    subst read
    exact ⟨same, h.rows same, h.even⟩
  next =>
    split at read
    next none =>
      obtain ⟨_, _, read⟩ := exists_of_bind_ok read
      injection read with read
      subst read
      exact ⟨rfl, (List.isEmpty_iff.1 none).symm, rfl⟩
    next =>
      split at read
      next even =>
        obtain ⟨_, _, read⟩ := exists_of_bind_ok read
        injection read with read
        subst read
        exact ⟨rfl, rfl, even⟩
      next => cases read

/-- Rows of one width can be read, if they may be compared with anything, and no rows if there is a table for them. -/
theorem IsCurrent.view_ok (h : ix.IsCurrent) (even : evenWidth ix.rows = true)
    (table : ix.rows = [] → checkTable ix.dimension = .ok ()) {least : Number} (preselection : ix.preselection = .ok least) :
    ∃ s, ix.view = .ok s ∧ s.rows = ix.rows := by
  have readable : ∃ s, ix.view = .ok s := by
    rw [VectorIndex.view]
    split
    · exact ⟨_, rfl⟩
    · split
      next none =>
        rw [table (List.isEmpty_iff.1 none)]
        exact ⟨_, rfl⟩
      next =>
        rw [preselection]
        exact ⟨_, rfl⟩
  obtain ⟨s, read⟩ := readable
  exact ⟨s, read, (h.view read).2.1⟩

theorem IsCurrent.refreshed (h : ix.IsCurrent) : ix.refreshed.IsCurrent := by
  rw [VectorIndex.refreshed]
  split
  next s read =>
    obtain ⟨generation, rows, even⟩ := h.view read
    exact ⟨Nat.le_of_eq generation, fun _ => rows, even⟩
  next => exact h

theorem IsCurrent.inserted (h : ix.IsCurrent) (now : Float) {chunks : List Chunk} {vectors : List (Tensor α)}
    (named : ∀ c ∈ chunks, c.checkId = .ok ()) (arrays : ∀ vector ∈ vectors, ∃ numbers, vector.flatten = .ok numbers) :
    (ix.insertEmbedded now chunks vectors).2.IsCurrent := by
  rw [insertEmbedded]
  split
  · exact h
  · split
    · exact h
    next dimension widths =>
      have good : ∀ pair ∈ chunks.zip vectors, pair.1.checkId = .ok () ∧ ∃ numbers, pair.2.flatten = .ok numbers :=
        fun pair hp => ⟨named _ (List.of_mem_zip hp).1, arrays _ (List.of_mem_zip hp).2⟩
      obtain ⟨ix', put, snapshot, generation⟩ := putAll_ok now good ix
      rw [put]
      simp only []
      split
      next none =>
        -- without chunks nothing was put
        rw [List.isEmpty_iff.1 none, List.zip_nil_left] at put
        obtain ⟨_, rfl⟩ := Prod.mk.inj put
        exact h.same rfl rfl rfl
      next => exact h.moved snapshot (congrArg (· + 1) generation)

theorem IsCurrent.removed (h : ix.IsCurrent) (id : String) : (ix.remove id).2.IsCurrent := by
  rw [remove]
  split
  · exact h.moved rfl rfl
  · exact h

theorem Lived.isCurrent (h : Lived ix) : ix.IsCurrent := by
  induction h with
  | blank => exact ⟨Nat.le_refl 0, fun _ => rfl, rfl⟩
  | loaded _ entries chunks dimension ih => exact ih.moved rfl rfl
  | inserted _ now checked arrays ih => exact ih.inserted now (fun c hc => Chunk.checkId_of_checked (checked c hc)) arrays
  | removed _ id ih => exact ih.removed id
  | cleared _ ih => exact ih.moved rfl rfl
  | searched _ ih => exact ih.refreshed
  | stored _ ih => exact ih.same rfl rfl rfl

/-! ## Rows -/

/-- A row is a stored vector. -/
theorem entry_of_mem_rows {row : Row α} (h : row ∈ ix.rows) :
    ∃ e, ix.entries.get? row.id = some e ∧ row.vector = e.vector ∧ row.norm = norm e.vector := by
  obtain ⟨⟨id, e⟩, stored, made⟩ := List.mem_filterMap.1 h
  obtain ⟨chunk, _, rfl⟩ := Option.map_eq_some_iff.1 made
  exact ⟨e, Keyed.get?_eq_some.2 stored, rfl, rfl⟩

theorem mem_rows_of_chosen {choice : Option (Choice α)} {s : Snapshot α} {query : List α} {wanted : Int} {row : Row α}
    (h : row ∈ chosen choice s query wanted) : row ∈ s.rows := by
  unfold chosen at h
  split at h
  · exact h
  · split at h
    · exact h
    · obtain ⟨n, _, there⟩ := List.mem_filterMap.1 h
      exact List.mem_of_getElem? there

/-- What is compared with a vector are rows, the first of which has its width. -/
theorem row_of_compared {choice : Option (Choice α)} {s : Snapshot α} {given : Tensor α} {query : List α}
    (flat : given.flatten = .ok query) {maxResults : Int} {found : List (Similar α)}
    (h : compared choice s given maxResults = .ok found) :
    ∀ f ∈ found, ∃ row ∈ s.rows, f = ⟨row.id, row.chunk, rowSimilarity row.vector row.norm query (norm query)⟩ ∧
      ∃ first, s.rows.head? = some first ∧ first.vector.length = query.length := by
  rw [compared, flat] at h
  simp only [bind, Except.bind] at h
  cases head : s.rows.head? with
  | none =>
    rw [head] at h
    injection h with h
    rw [← h]
    exact List.forall_mem_nil _
  | some first =>
    rw [head] at h
    by_cases width : query.length = first.vector.length
    · simp only [if_neg (not_not.2 width)] at h
      injection h with h
      intro f hf
      rw [← h, ranked] at hf
      obtain ⟨row, there, rfl⟩ := List.mem_map.1 ((List.mergeSort_perm _ _).mem_iff.1 hf)
      exact ⟨row, mem_rows_of_chosen there, rfl, first, rfl, width.symm⟩
    · simp only [if_pos width] at h
      cases h

/-- What is found near a vector is a row of the index, as similar as asked for. -/
theorem row_of_findVector (current : ix.IsCurrent) {query : List α} {maxResults : Int} {least : α} {exclude : Option String}
    {found : List (Similar α)} (h : ix.findVector (.ofList query) maxResults least exclude = .ok found) :
    ∀ s ∈ found, Scalar.less s.similarity least = false ∧ ∃ e, ix.entries.get? s.chunkId = some e ∧
      e.vector.length = query.length ∧ s.similarity = rowSimilarity e.vector (norm e.vector) query (norm query) := by
  rw [findVector] at h
  cases read : ix.view with
  | error fault =>
    rw [read] at h
    cases h
  | ok snapshot =>
    obtain ⟨_, rows, even⟩ := current.view read
    rw [read] at h
    simp only [bind, Except.bind] at h
    split at h
    next =>
      injection h with h
      rw [← h]
      exact List.forall_mem_nil _
    next =>
      cases among : compared (ix.choiceFor snapshot) snapshot (.ofList query) maxResults with
      | error fault =>
        rw [among] at h
        cases h
      | ok similar =>
        rw [among] at h
        intro s hs
        rw [mapM_checked h] at hs
        have near := List.mem_of_mem_filter (List.mem_of_mem_take hs)
        have enough := List.all_eq_true.1 List.all_takeWhile _ near
        obtain ⟨row, there, rfl, first, head, width⟩ :=
          row_of_compared (Tensor.flatten_ofList query) among s ((List.takeWhile_sublist _).subset near)
        have length := length_of_evenWidth even head there
        rw [rows] at there
        obtain ⟨e, stored, vector, vectorNorm⟩ := entry_of_mem_rows there
        refine ⟨by simpa using enough, e, stored, ?_, ?_⟩
        · rw [← vector, length, width]
        · simp only [vector, vectorNorm]

/-- A search by an array is answered where it has as many numbers as the rows. -/
theorem findVector_ok {s : Snapshot α} (read : ix.view = .ok s) (checked : ∀ row ∈ s.rows, row.chunk.unchecked = [])
    {given : Tensor α} {query : List α} (flat : given.flatten = .ok query)
    (width : ∀ row ∈ s.rows, row.vector.length = query.length) (maxResults : Int) (least : α) (exclude : Option String) :
    ∃ found, ix.findVector given maxResults least exclude = .ok found := by
  rw [findVector, read, ok_bind]
  split
  · exact ⟨[], rfl⟩
  · obtain ⟨similar, among⟩ : ∃ similar, compared (ix.choiceFor s) s given maxResults = .ok similar := by
      rw [compared, flat, ok_bind]
      cases head : s.rows.head? with
      | none => exact ⟨[], rfl⟩
      | some row =>
        have wide := (width row (List.mem_of_mem_head? head)).symm
        simp only [if_neg (not_not.2 wide)]
        exact ⟨_, rfl⟩
    have told : ∀ f ∈ similar, Similar.checked f = .ok f := by
      intro f hf
      obtain ⟨row, there, rfl, _⟩ := row_of_compared flat among f hf
      exact checked_ok (checked row there)
    rw [among, ok_bind, nearest]
    refine ⟨_, mapM_ok fun f hf => told f ?_⟩
    exact (List.takeWhile_sublist _).subset (List.mem_of_mem_filter (List.mem_of_mem_take hf))

/-- A search for a text is answered where the text has a vector of the width of the rows. -/
theorem findText_ok {s : Snapshot α} (read : ix.view = .ok s) (checked : ∀ row ∈ s.rows, row.chunk.unchecked = [])
    {text : String} {vector : List α} (embedded : ix.embedder.vector text = .ok vector)
    (width : ∀ row ∈ s.rows, row.vector.length = vector.length) (maxResults : Int) (least : α) :
    ∃ found, ix.findText text maxResults least = .ok found := by
  rw [findText]
  split
  · exact ⟨[], rfl⟩
  · rw [embedded, ok_bind]
    exact findVector_ok read checked (Tensor.flatten_ofList vector) width maxResults least none

end Current

/-! ## Similarities that are real numbers -/

theorem norm_nonneg (a : List ℝ) : 0 ≤ norm a := Real.sqrt_nonneg _

/-- For real numbers the similarity of a row is the cosine of the angle. -/
theorem rowSimilarity_real (a b : List ℝ) : rowSimilarity a (norm a) b (norm b) = cosine a b := by
  have ha := norm_nonneg a
  have hb := norm_nonneg b
  rw [rowSimilarity, cosine]
  simp only [Bool.or_eq_true, Scalar.same_iff, Scalar.zero_real, Scalar.less_iff]
  by_cases flat : norm a = 0 ∨ norm b = 0
  · have product : ¬ (0 : ℝ) < norm a * norm b := by
      rcases flat with zero | zero <;> simp [zero]
    rw [if_pos flat, if_neg product, Scalar.clip, if_neg (by simp), if_neg (by simp)]
  · have product : (0 : ℝ) < norm a * norm b := by
      rw [not_or] at flat
      exact mul_pos (lt_of_le_of_ne ha (Ne.symm flat.1)) (lt_of_le_of_ne hb (Ne.symm flat.2))
    rw [if_neg flat, if_pos product]

/-- What is found for a text has a stored vector, of that similarity to the vector of the text. -/
theorem found_of_findText {ix : VectorIndex ℝ} (current : ix.IsCurrent) {text : String} {maxResults : Int} {least : ℝ}
    {found : List (Similar ℝ)} (h : ix.findText text maxResults least = .ok found) :
    ∀ s ∈ found, ∃ e vector, ix.entries.get? s.chunkId = some e ∧ ix.embedder.vector text = .ok vector ∧
      cosineSimilarity e.vector vector = .ok s.similarity ∧ least ≤ s.similarity := by
  rw [findText] at h
  simp only [bind, Except.bind] at h
  split at h
  next =>
    injection h with h
    rw [← h]
    exact List.forall_mem_nil _
  next =>
    cases embedded : ix.embedder.vector text with
    | error fault =>
      rw [embedded] at h
      cases h
    | ok vector =>
      rw [embedded] at h
      intro s hs
      obtain ⟨enough, e, stored, width, similarity⟩ := row_of_findVector current h s hs
      refine ⟨e, vector, stored, rfl, ?_, ?_⟩
      · rw [cosineSimilarity, if_pos width, similarity, rowSimilarity_real]
      · rw [← Bool.not_eq_true, Scalar.less_iff, not_lt] at enough
        exact enough

end CodeSearch.VectorIndex
