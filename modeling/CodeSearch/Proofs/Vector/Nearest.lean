import CodeSearch.Proofs.Ranked
import CodeSearch.Proofs.Vector.Found
/-!
# What is nearest to a vector

A search for what is near a vector works with the lengths of rows, stops at the first row that is not similar enough, and
leaves out one id on its way. As long as it compares with all rows (`IsPlain`), it finds the first of the ranking of what
is left of the entries when the others have been taken out by their cosines (`nearest_ranked`).
-/

namespace CodeSearch

/-- A number that is beyond a count is beyond every smaller one. -/
theorem Number.beyond_of_le {limit : Number} {m n : ℕ} (le : m ≤ n) (beyond : limit.atMost (.whole n) = false) :
    limit.atMost (.whole m) = false := by
  cases limit with
  | whole k =>
    simp only [atMost, decide_eq_false_iff_not] at beyond ⊢
    omega
  | real x =>
    simp only [atMost] at beyond ⊢
    cases above : Decimal.ceiling x with
    | error kind =>
      rw [above] at beyond
      cases kind <;> exact beyond
    | ok above =>
      simp only [above, decide_eq_false_iff_not] at beyond ⊢
      omega

namespace VectorIndex

open CodeSearch.Vector

/-! ## Cosines of real vectors -/

theorem dot_comm (a b : List ℝ) : dot a b = dot b a :=
  congrArg Scalar.sum (List.zipWith_comm_of_comm mul_comm)

theorem cosine_comm (a b : List ℝ) : cosine a b = cosine b a := by
  have lengths : norm a * norm b = norm b * norm a := mul_comm _ _
  rw [cosine, cosine, dot_comm, Bool.or_comm]
  simp only [lengths]

theorem clip_bounds (x : ℝ) :
    -1 ≤ Scalar.clip (-Scalar.one) Scalar.one x ∧ Scalar.clip (-Scalar.one) Scalar.one x ≤ 1 := by
  rw [Scalar.clip]
  simp only [Scalar.less_iff, Scalar.one_real]
  split
  · norm_num
  · split
    · norm_num
    · exact ⟨not_lt.1 ‹_›, not_lt.1 ‹_›⟩

theorem cosine_bounds (a b : List ℝ) : -1 ≤ cosine a b ∧ cosine a b ≤ 1 := by
  rw [cosine]
  split
  · rw [Scalar.zero_real]
    norm_num
  · exact clip_bounds _

/-! ## What there is to find -/

/-- An index of vectors of one width, and of so few that a search compares with all of them. -/
structure IsPlain {α : Type} [Scalar α] (ix : VectorIndex α) (width : ℕ) : Prop where
  wide : ∀ e ∈ ix.entries.values, e.vector.length = width
  checked : ∀ c ∈ ix.chunks.values, c.unchecked = []
  table : ix.rows = [] → checkTable ix.dimension = .ok ()
  few : ∃ least, ix.preselection = .ok least ∧ (ix.choice = none ∨ least.atMost (.whole ix.size) = false)

/-- The entries with their cosines to a vector, in the order of the index. -/
noncomputable def likenesses (ix : VectorIndex ℝ) (query : List ℝ) : List (Similar ℝ) :=
  ix.entries.items.filterMap fun (id, e) => (ix.chunks.get? id).map fun chunk => ⟨id, chunk, cosine query e.vector⟩

/-- The answers that a search for what is near a vector should give, by the number of results that it may give: the first
of the ranking of all entries that are as similar as asked for, without one id, each with its cosine to the vector. -/
def IsNearest (ix : VectorIndex ℝ) (query : List ℝ) (least : ℝ) (exclude : Option String)
    (answer : Int → Except Fault (List (Similar ℝ))) : Prop :=
  ∃ all, IsRanking Similar.similarity
      ((ix.likenesses query).filter fun s => some s.chunkId ≠ exclude && !Scalar.less s.similarity least) all ∧
    (∀ s ∈ all, some s.chunkId ≠ exclude ∧ least ≤ s.similarity ∧ -1 ≤ s.similarity ∧ s.similarity ≤ 1 ∧
      ∃ e, ix.entries.get? s.chunkId = some e ∧ cosineSimilarity query e.vector = .ok s.similarity) ∧
    ∀ maxResults, answer maxResults = .ok (all.take maxResults.toNat)

section
variable {ix : VectorIndex ℝ} {width : ℕ} {query : List ℝ}

theorem likenesses_eq (ix : VectorIndex ℝ) (query : List ℝ) : ix.likenesses query
    = ix.rows.map fun row => ⟨row.id, row.chunk, rowSimilarity row.vector row.norm query (norm query)⟩ := by
  rw [likenesses, rows, List.map_filterMap]
  refine List.filterMap_congr fun (id, e) _ => ?_
  simp only [Option.map_map, Function.comp_def, rowSimilarity_real]
  rw [cosine_comm]

theorem entry_of_mem_likenesses {s : Similar ℝ} (h : s ∈ ix.likenesses query) :
    ∃ e chunk, ix.entries.get? s.chunkId = some e ∧ ix.chunks.get? s.chunkId = some chunk ∧ s.chunk = chunk ∧
      s.similarity = cosine query e.vector := by
  obtain ⟨⟨id, e⟩, stored, made⟩ := List.mem_filterMap.1 h
  obtain ⟨chunk, registered, rfl⟩ := Option.map_eq_some_iff.1 made
  exact ⟨e, chunk, Keyed.get?_eq_some.2 stored, registered, rfl, rfl⟩

/-- Rows are ranked by their similarities. -/
theorem ranked_real (rows : List (Row ℝ)) (query : List ℝ) : ranked rows query
    = Scalar.sortDescending Similar.similarity
      (rows.map fun row => ⟨row.id, row.chunk, rowSimilarity row.vector row.norm query (norm query)⟩) := by
  rw [ranked, Scalar.sortDescending_real]
  simp only [standsBefore, Scalar.isNumber_real, Bool.not_true, Bool.and_false, Bool.or_false]

/-- No choice is made among the rows. -/
theorem IsPlain.choiceFor_eq (plain : ix.IsPlain width) {s : Snapshot ℝ} (read : s.rows = ix.rows) :
    ix.choiceFor s = none := by
  obtain ⟨least, given, few⟩ := plain.few
  rw [choiceFor, given]
  rcases few with none | few
  · simp only [none, ite_self]
  · have rows : s.rows.length ≤ ix.size := by
      rw [read]
      exact List.length_filterMap_le _ _
    simp only [Number.beyond_of_le rows few, Bool.false_eq_true, if_false]

theorem IsPlain.length_row (plain : ix.IsPlain width) {row : Row ℝ} (h : row ∈ ix.rows) : row.vector.length = width := by
  obtain ⟨e, stored, vector, _⟩ := entry_of_mem_rows h
  rw [vector]
  exact plain.wide e (Keyed.mem_values_of_get? stored)

/-- A search can read the rows of the index. -/
theorem IsPlain.view_ok (plain : ix.IsPlain width) (current : ix.IsCurrent) : ∃ s, ix.view = .ok s ∧ s.rows = ix.rows := by
  have even : evenWidth ix.rows = true :=
    evenWidth_of_eq fun a ha b hb => (plain.length_row ha).trans (plain.length_row hb).symm
  obtain ⟨least, given, _⟩ := plain.few
  exact current.view_ok even plain.table given

/-- What is compared with a vector of the width of the index are all its entries. -/
theorem IsPlain.compared_eq (plain : ix.IsPlain width) {s : Snapshot ℝ} (read : s.rows = ix.rows) {given : Tensor ℝ}
    (flat : given.flatten = .ok query) (fits : query.length = width) (maxResults : Int) :
    compared (ix.choiceFor s) s given maxResults
      = .ok (Scalar.sortDescending Similar.similarity (ix.likenesses query)) := by
  rw [compared, flat, ok_bind, plain.choiceFor_eq read, chosen, ranked_real, read, ← likenesses_eq]
  cases head : ix.rows with
  | nil => rw [likenesses_eq, head, List.map_nil, Scalar.sortDescending_nil]; rfl
  | cons row rest =>
    have same : query.length = row.vector.length := by rw [fits, plain.length_row (head ▸ List.mem_cons_self)]
    simp only [List.head?_cons, if_neg (not_not.2 same)]
    rfl

/-- Of what is as similar as asked for, one id is left out, and the first of the rest are told. -/
theorem nearest_eq {found : List (Similar ℝ)} (told : ∀ s ∈ found, Similar.checked s = .ok s) {items : List (Similar ℝ)}
    (ranking : IsRanking Similar.similarity items found) (maxResults : Int) (least : ℝ) (exclude : Option String) :
    nearest found maxResults least exclude = .ok ((found.filter fun s =>
      some s.chunkId ≠ exclude && !Scalar.less s.similarity least).take maxResults.toNat) := by
  rw [nearest, ranking.takeWhile_eq_filter, List.filter_filter]
  refine (mapM_ok fun s hs => told s ?_).trans (by rw [List.map_id'])
  exact List.mem_of_mem_filter (List.mem_of_mem_take hs)

/-- A search by an array of the width of the index is answered with what is nearest to its numbers. -/
theorem IsPlain.isNearest_findVector (plain : ix.IsPlain width) (current : ix.IsCurrent) {given : Tensor ℝ}
    (flat : given.flatten = .ok query) (fits : query.length = width) (least : ℝ) (exclude : Option String) :
    ix.IsNearest query least exclude fun maxResults => ix.findVector given maxResults least exclude := by
  have ranking := isRanking_sortDescending Similar.similarity (ix.likenesses query)
  refine ⟨_, ranking.filter _, fun s hs => ?_, fun maxResults => ?_⟩
  · obtain ⟨there, kept⟩ := List.mem_filter.1 hs
    obtain ⟨e, _, stored, _, _, similarity⟩ := entry_of_mem_likenesses (ranking.mem_iff.1 there)
    have width : query.length = e.vector.length := by
      rw [fits, plain.wide e (Keyed.mem_values_of_get? stored)]
    have bounds := cosine_bounds query e.vector
    rw [← similarity] at bounds
    refine ⟨by simpa using (Bool.and_eq_true_iff.1 kept).1, ?_, bounds.1, bounds.2, e, stored, ?_⟩
    · exact (Scalar.not_less_iff id s.similarity least).1 (Bool.and_eq_true_iff.1 kept).2
    · rw [cosineSimilarity, if_pos width, similarity]
  · obtain ⟨s, read, rows⟩ := plain.view_ok current
    have told : ∀ found ∈ Scalar.sortDescending Similar.similarity (ix.likenesses query),
        Similar.checked found = .ok found := by
      intro found hf
      obtain ⟨_, chunk, _, registered, same, _⟩ := entry_of_mem_likenesses (ranking.mem_iff.1 hf)
      exact checked_ok (same ▸ plain.checked chunk (Keyed.mem_values_of_get? registered))
    change ix.findVector given maxResults least exclude = _
    rw [findVector, read, ok_bind]
    split
    next nothing =>
      -- there are no rows, or nothing is asked for
      rcases Bool.or_eq_true_iff.1 nothing with none | zero
      · rw [likenesses_eq, ← rows, List.isEmpty_iff.1 none, List.map_nil, Scalar.sortDescending_nil, List.filter_nil,
          List.take_nil]
        rfl
      · rw [Int.toNat_of_nonpos (of_decide_eq_true zero), List.take_zero]
        rfl
    next =>
      rw [plain.compared_eq rows flat fits, ok_bind]
      exact nearest_eq told ranking maxResults least exclude

/-- A search by an array of the width of the index gives the entries nearest to it, whatever number of results and
similarity are asked for and whatever id is left out. So does a search by a stored entry, which leaves out the entry
itself. -/
theorem nearest_ranked (lived : ix.Lived) (plain : ix.IsPlain width) (least : ℝ) :
    (∀ (given : Tensor ℝ) (query : List ℝ) (exclude : Option String), given.flatten = .ok query → query.length = width →
      ix.IsNearest query least exclude fun maxResults => ix.findVector given maxResults least exclude) ∧
    ∀ id e, ix.entries.get? id = some e →
      ix.IsNearest e.vector least (some id) fun maxResults => ix.findChunk id maxResults least := by
  have current := lived.isCurrent
  refine ⟨fun given query exclude flat fits => plain.isNearest_findVector current flat fits least exclude, ?_⟩
  intro id e stored
  have fits := plain.wide e (Keyed.mem_values_of_get? stored)
  simp only [findChunk, stored]
  exact plain.isNearest_findVector current (Tensor.flatten_ofList e.vector) fits least (some id)

end

/-! ## Two chunks with one vector -/

/-- An index of two chunks, which would take none of three. -/
noncomputable def twins : VectorIndex ℝ :=
  (VectorIndex.insertEmbedded 0 [.plain "x" "alpha", .plain "y" "beta"] [.ofList [(1 : ℝ), 0], .ofList [1, 0]]
    { blank { embed := fun _ => .ok (.ofList [(1 : ℝ)]) } none .null (.ok 1) (.ok (.whole 3)) with
      choice := some { places := fun _ _ _ => [] } }).2

theorem lived_twins : twins.Lived := by
  refine Lived.inserted (.blank _ _ _ _ _ _) 0 (fun c hc => ?_) fun vector hv => ?_
  · rcases List.mem_pair.1 hc with rfl | rfl <;> rfl
  · rcases List.mem_pair.1 hv with rfl | rfl <;> exact ⟨[1, 0], Tensor.flatten_ofList _⟩

theorem plain_twins : twins.IsPlain 2 where
  wide e he := by rcases List.mem_pair.1 he with rfl | rfl <;> rfl
  checked c hc := by rcases List.mem_pair.1 hc with rfl | rfl <;> rfl
  table _ := rfl
  few := ⟨.whole 3, rfl, .inr rfl⟩

/-- Of two chunks that are equally near the first comes first, the other one if the first is left out, and a search by
one of them gives the other. -/
theorem nearest_ranked_twins :
    (∃ cosine : ℝ, twins.findVector (.ofList [1, 1]) 1 (-1) none = .ok [⟨"x", .plain "x" "alpha", cosine⟩] ∧
      twins.findVector (.ofList [1, 1]) 2 (-1) none
        = .ok [⟨"x", .plain "x" "alpha", cosine⟩, ⟨"y", .plain "y" "beta", cosine⟩] ∧
      twins.findVector (.ofList [1, 1]) (-1) (-1) none = .ok []) ∧
    ∃ cosine : ℝ, twins.findChunk "x" 1 (-1) = .ok [⟨"y", .plain "y" "beta", cosine⟩] := by
  obtain ⟨byVector, byChunk⟩ := nearest_ranked lived_twins plain_twins (-1)
  have near (query : List ℝ) : Scalar.less (cosine query [1, 0]) (-1) = false :=
    Bool.eq_false_iff.2 fun less => absurd (Scalar.less_iff.1 less) (not_lt.2 (cosine_bounds _ _).1)
  have likenesses (query : List ℝ) : twins.likenesses query = [⟨"x", .plain "x" "alpha", cosine query [1, 0]⟩,
    ⟨"y", .plain "y" "beta", cosine query [1, 0]⟩] := rfl
  constructor
  · obtain ⟨all, ranking, _, answers⟩ := byVector _ [1, 1] none (Tensor.flatten_ofList _) rfl
    simp only [likenesses, List.filter_cons, List.filter_nil, near, Bool.not_false] at ranking
    obtain rfl := ranking.unique (.of_pairwise (List.pairwise_pair.2 le_rfl))
    exact ⟨_, answers 1, answers 2, answers (-1)⟩
  · obtain ⟨all, ranking, _, answers⟩ := byChunk "x" ⟨[1, 0], 0⟩ rfl
    simp only [likenesses, List.filter_cons, List.filter_nil, near, Bool.not_false] at ranking
    obtain rfl := ranking.unique (.of_pairwise (List.pairwise_singleton _ _))
    exact ⟨_, answers 1⟩

end VectorIndex

end CodeSearch
