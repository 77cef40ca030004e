import CodeSearch.Proofs.Graph.Terms
import CodeSearch.Proofs.Retrieval.PatternQuery
import CodeSearch.Proofs.Retrieval.Stages
/-!
# The results of a search

What a search finds for any number of results is the beginning of one list (`run_ok`). Its chunks are among those of the
candidates that every stage before has let through, so that none stands twice and none comes from elsewhere, and it is
in the order of the combined scores, whatever the oracle replies. This holds for searches for a query and for a fragment
of code (`Retriever.searches_promised`).
-/

namespace CodeSearch.Retrieval

variable {r : Retriever ℝ} {s : Search ℝ}

/-! ## What is promised -/

/-- What is promised of results where the lexical index gives some hits. -/
structure Sound (r : Retriever ℝ) (s : Search ℝ) (hits : List (Lexical.Hit ℝ)) (results : List (RankedCandidate ℝ)) :
    Prop where
  once : (results.map fun c => c.chunk.id).Nodup
  found : ∀ c ∈ results, c.chunk.id ∈ hits.map fun hit => hit.chunk.id
  ordered : results.Pairwise fun a b => b.combinedScore ≤ a.combinedScore
  kept : r.graph.isSome → ∃ keep : ℕ, s.retained hits.length = .ok keep ∧ results.length ≤ keep
  similar : ∀ v ∈ r.vectors, ∀ c ∈ results, Confirmed s v c.chunk.id c.vectorSimilarity

/-- Any number of results is given, soundly and no more than that, and for fewer the first of those for more. -/
def Promised (r : Retriever ℝ) (s : Search ℝ) (answer : ℕ → Except Fault (List (RankedCandidate ℝ))) : Prop :=
  ∃ size hits, s.prefilterSize = .ok size ∧ r.lexical.search s.query size s.kind = .ok hits ∧
    ∀ n, ∃ results, answer n = .ok results ∧ Sound r s hits results ∧ results.length ≤ n ∧
      ∀ m, n ≤ m → ∃ more, answer m = .ok more ∧ results = more.take n

theorem Sound.take {hits : List (Lexical.Hit ℝ)} {all : List (RankedCandidate ℝ)} (h : Sound r s hits all) (n : ℕ) :
    Sound r s hits (all.take n) where
  once := h.once.sublist ((List.take_sublist n all).map _)
  found c hc := h.found c (List.mem_of_mem_take hc)
  ordered := h.ordered.sublist (List.take_sublist n all)
  kept graph := by
    obtain ⟨keep, kept, few⟩ := h.kept graph
    exact ⟨keep, kept, (List.take_sublist n all).length_le.trans few⟩
  similar v hv c hc := h.similar v hv c (List.mem_of_mem_take hc)

theorem Sound.nil (fits : s.Fits) (hits : List (Lexical.Hit ℝ)) : Sound r s hits [] where
  once := List.nodup_nil
  found := List.forall_mem_nil _
  ordered := List.Pairwise.nil
  kept _ := by
    obtain ⟨keep, kept⟩ := fits.retained hits.length
    exact ⟨keep, kept, Nat.zero_le _⟩
  similar _ _ := List.forall_mem_nil _

/-- Where every answer is the beginning of one sound list, all is promised. -/
theorem promised_of_take {size : ℤ} {hits : List (Lexical.Hit ℝ)} {all : List (RankedCandidate ℝ)}
    {answer : ℕ → Except Fault (List (RankedCandidate ℝ))} (sized : s.prefilterSize = .ok size)
    (searched : r.lexical.search s.query size s.kind = .ok hits) (sound : Sound r s hits all)
    (answers : ∀ n, answer n = .ok (all.take n)) : Promised r s answer := by
  refine ⟨size, hits, sized, searched, fun n => ⟨_, answers n, sound.take n, List.length_take_le n all, ?_⟩⟩
  intro m more
  exact ⟨_, answers m, by rw [List.take_take, Nat.min_eq_left more]⟩

/-! ## A whole search -/

/-- The chunk of a candidate and the similarity that it has. -/
def Candidate.known (c : Candidate ℝ) : Chunk × ℝ := (c.chunk, c.similarity)

/-- A list in order of candidates that the stages have let through, with what is known of them, is sound. -/
theorem sound_of_perm {hits : List (Lexical.Hit ℝ)} {found confirmed : List (Candidate ℝ)}
    {all : List (RankedCandidate ℝ)} (once : (hits.map fun hit => hit.chunk.id).Nodup)
    (ids : (found.map fun c => c.chunk.id) = hits.map fun hit => hit.chunk.id)
    (chunks : (confirmed.map Candidate.chunk).Subperm (found.map Candidate.chunk))
    (few : r.graph.isSome → ∃ keep : ℕ, s.retained found.length = .ok keep ∧ confirmed.length ≤ keep)
    (similar : ∀ v ∈ r.vectors, ∀ c ∈ confirmed, Confirmed s v c.chunk.id c.similarity)
    (perm : (all.map known).Perm (confirmed.map Candidate.known))
    (ordered : all.Pairwise fun a b => b.combinedScore ≤ a.combinedScore) : Sound r s hits all := by
  have sub : (all.map fun c => c.chunk.id).Subperm (hits.map fun hit => hit.chunk.id) := by
    have same := (perm.map fun pair => pair.1.id).subperm
    rw [List.map_map, List.map_map] at same
    have given := map_subperm chunks Chunk.id
    rw [List.map_map, List.map_map] at given
    rw [← ids]
    exact same.trans given
  have counts : found.length = hits.length := by
    rw [← List.length_map fun c => c.chunk.id, ids, List.length_map]
  have length : all.length = confirmed.length := by simpa using perm.length_eq
  exact {
    once := nodup_of_subperm sub once
    found := fun c hc => sub.subset (List.mem_map_of_mem hc)
    ordered := ordered
    kept := by
      rw [← counts, length]
      exact few
    similar := by
      intro v hv c hc
      obtain ⟨c', there, same⟩ := List.mem_map.1 (perm.subset (List.mem_map_of_mem hc))
      obtain ⟨chunk, similarity⟩ := Prod.mk.inj same
      rw [← chunk, ← similarity]
      exact similar v hv c' there }

/-- The results of a search for any number of results are the beginning of one list. -/
theorem run_ok (works : Works r) (fits : s.Fits) (answered : s.Answered r) {q : Query}
    (parsed : Query.parse s.query = .ok q) :
    ∃ size hits all, s.prefilterSize = .ok size ∧ r.lexical.search s.query size s.kind = .ok hits ∧
      Sound r s hits all ∧ ∀ n : ℕ, (run r s (.whole n)).results = .ok (all.take n) := by
  obtain ⟨size, hits, found, sized, searched, once, prefiltered, ids, checked⟩ := prefilter_ok works fits parsed
  have scored : ∀ g ∈ r.graph, ∃ scores, s.structural g (found.map fun c => c.chunk.id) = .ok scores :=
    fun g hg => answered.graph g hg found prefiltered
  obtain ⟨kept, filtered, keptChunks, few⟩ := graphFilter_ok works fits scored
  obtain ⟨confirmed, recalled, confirmedChunks, similar⟩ := vectorFilter_ok works fits answered kept
  have chunks := confirmedChunks.trans keptChunks
  have checked' : ∀ c ∈ confirmed.map Candidate.ranked, c.chunk.unchecked = [] := by
    intro c hc
    obtain ⟨c, there, rfl⟩ := List.mem_map.1 hc
    obtain ⟨c', there', same⟩ := List.mem_map.1 (chunks.subset (List.mem_map_of_mem there))
    have plain := checked c' there'
    rw [same] at plain
    exact plain
  obtain ⟨out, reranked, perm⟩ := @rerank_ok r s works _ checked'
  have few' : r.graph.isSome → ∃ keep : ℕ, s.retained found.length = .ok keep ∧ confirmed.length ≤ keep := by
    intro graph
    obtain ⟨keep, kept, few⟩ := few graph
    have fewer := confirmedChunks.length_le
    rw [List.length_map, List.length_map] at fewer
    exact ⟨keep, kept, fewer.trans few⟩
  rw [List.map_map] at perm
  refine ⟨size, hits, RankedCandidate.sort out, sized, searched, ?_, fun n => ?_⟩
  · refine sound_of_perm once ids chunks few' similar ?_ (Scalar.pairwise_sortDescending _ _)
    exact ((Scalar.perm_sortDescending _ _).map known).trans perm
  · rw [run, prefiltered]
    cases found with
    | nil =>
      -- where the lexical index gives nothing, nothing is left to put in order
      have none := chunks.length_le
      rw [List.length_map, List.map_nil, List.length_nil, Nat.le_zero, List.length_eq_zero_iff] at none
      rw [none] at perm
      obtain rfl : out = [] := List.map_eq_nil_iff.1 perm.eq_nil
      have sorted : RankedCandidate.sort ([] : List (RankedCandidate ℝ)) = [] :=
        (Scalar.perm_sortDescending _ _).eq_nil
      rw [sorted, List.take_nil]
      rfl
    | cons first rest =>
      simp only [filtered, recalled, Outcome.late]
      rw [reranked, ok_bind, finish, Number.toSize, ok_bind, upTo_natCast]
      rfl

/-- A search that is not begun where no results are wanted gives as many as it would. -/
theorem searching_ok (works : Works r) (fits : s.Fits) (answered : s.Answered r) {q : Query}
    (parsed : Query.parse s.query = .ok q) : Promised r s fun n => (r.searching s (some (.whole n))).results := by
  obtain ⟨size, hits, all, sized, searched, sound, answers⟩ := run_ok works fits answered parsed
  refine promised_of_take sized searched sound fun n => ?_
  rw [Retriever.searching, Retriever.limit]
  cases n with
  | zero => rfl
  | succ n =>
    have some : (Number.whole (n + 1 : ℕ)).atMost (.whole 0) = false := by
      rw [Number.atMost, decide_eq_false_iff_not]
      omega
    simp only [some]
    exact answers (n + 1)

/-! ## Searches for queries and for fragments of code -/

theorem retained_ok {ratio : ℝ} (h : 0 ≤ ratio) (count : ℕ) : ∃ keep : ℕ, retained ratio count = .ok keep := by
  have share : 0 ≤ ⌈roundedTo9 (ratio * (count : ℤ))⌉ :=
    Int.ceil_nonneg (roundedTo9_nonneg (mul_nonneg h (Int.cast_nonneg (Int.natCast_nonneg count))))
  refine ⟨(min (count : ℤ) ⌈roundedTo9 (ratio * (count : ℤ))⌉).toNat, ?_⟩
  rw [Int.toNat_of_nonneg (le_min (Int.natCast_nonneg count) share)]
  rfl

theorem patternRetained_ok {ratio : ℝ} (h : 0 ≤ ratio) (least count : ℕ) :
    ∃ keep : ℕ, patternRetained ratio (.whole least) count = .ok keep := by
  have share : 0 ≤ ⌊roundedTo9 (ratio * (count : ℤ))⌋ :=
    Int.floor_nonneg.2 (roundedTo9_nonneg (mul_nonneg h (Int.cast_nonneg (Int.natCast_nonneg count))))
  obtain ⟨part, same⟩ := Int.eq_ofNat_of_zero_le share
  have floor : Scalar.floor9 (ratio * Scalar.ofInt count) = .ok ⌊roundedTo9 (ratio * (count : ℤ))⌋ := rfl
  have larger : ∃ kept : ℕ,
      (if (Number.whole least).less (.whole part) then Number.whole part else .whole least) = .whole kept := by
    split
    · exact ⟨part, rfl⟩
    · exact ⟨least, rfl⟩
  obtain ⟨kept, larger⟩ := larger
  rw [patternRetained, floor, same, Except.mapError, ok_bind]
  simp only [larger]
  split
  · exact ⟨kept, rfl⟩
  · exact ⟨count, rfl⟩

theorem fits_querySearch {t : Tunables ℝ} (tuned : Tuned t) (query : String) : (querySearch t query).Fits := by
  obtain ⟨size, sized⟩ := tuned.prefilterSize
  have use {β : Type} (names : List String) (value : β) : t.unfit.use names value = .ok value := by
    rw [Unfit.use, tuned.unfit, Unfit.check_nil]
    rfl
  exact {
    prefilterSize := ⟨size, by simp only [querySearch, use, sized, ok_bind, Number.toSize]⟩
    recallSize := ⟨t.recallSize.bound, by simp only [querySearch, use]; rfl⟩
    threshold := ⟨t.similarityThreshold, use _ _⟩
    retained := fun count => by
      obtain ⟨keep, kept⟩ := retained_ok tuned.ratio count
      exact ⟨keep, by simp only [querySearch, use, ok_bind, kept]⟩ }

theorem fits_patternSearch {t : Tunables ℝ} (tuned : Tuned t) (source : String) (hint : Option String)
    (kind : Option ChunkKind) : (patternSearch t source hint kind).Fits := by
  obtain ⟨size, sized⟩ := tuned.prefilterSize
  obtain ⟨wide, recalled⟩ := tuned.recallSize
  obtain ⟨factor, factored⟩ := tuned.multiplier
  obtain ⟨least, minimum⟩ := tuned.minimum
  have multiplied (name : String) (size : ℤ) : patternSize t name (.whole size) = .ok (.whole (size * factor)) := by
    rw [patternSize, tuned.unfit, Unfit.check_nil, ok_bind, factored]
    rfl
  exact {
    prefilterSize := ⟨size * factor, by simp only [patternSearch, sized, multiplied, ok_bind, Number.toSize]⟩
    recallSize := ⟨_, by simp only [patternSearch, recalled, multiplied]; rfl⟩
    threshold := ⟨_, by simp only [patternSearch, tuned.unfit, Unfit.check_nil, ok_bind]; rfl⟩
    retained := fun count => by
      obtain ⟨keep, kept⟩ := patternRetained_ok tuned.patternRatio least count
      exact ⟨keep, by simp only [patternSearch, tuned.unfit, Unfit.check_nil, ok_bind, minimum, kept]⟩ }

end CodeSearch.Retrieval

namespace CodeSearch.Retriever

open Retrieval

/-- Whatever the components of a retriever and whatever the oracle replies, a search for a query that reads as one and a
search for a fragment of code give sound results, as many as are wanted if there are so many. -/
theorem searches_promised (r : Retriever ℝ) (works : Works r) :
    (∀ query, (∃ q, Query.parse query = .ok q) → (querySearch r.tunables query).Answered r →
      Promised r (querySearch r.tunables query) fun n => (r.find query (some (.whole n))).results) ∧
    ∀ source hint kind, (patternSearch r.tunables source hint kind).Answered r →
      Promised r (patternSearch r.tunables source hint kind)
        fun n => (r.findPattern source hint kind (some (.whole n))).results := by
  constructor
  · rintro query ⟨q, parsed⟩ answered
    exact searching_ok works (fits_querySearch works.tuned query) answered parsed
  · intro source hint kind answered
    have fits := fits_patternSearch works.tuned source hint kind
    have parsed := parse_patternQuery source hint r.tunables.patternMaxIdentifiers
    by_cases empty : (patternSearch r.tunables source hint kind).query = ""
    · -- the search is not begun, though its query could be read
      obtain ⟨size, hits, _, sized, searched, _⟩ := run_ok works fits answered parsed
      refine promised_of_take sized searched (.nil fits hits) fun n => ?_
      rw [findPattern, if_pos empty, List.take_nil]
      rfl
    · have begun (n : ℕ) : r.findPattern source hint kind (some (.whole n))
          = r.searching (patternSearch r.tunables source hint kind) (some (.whole n)) := by
        rw [findPattern, if_neg empty]
      simp only [begun]
      exact searching_ok works fits answered parsed

/-! ## A retriever of three chunks -/

/-- Two chunks with a word in common and one without it. -/
def sampleChunks : List Chunk := [.plain "x" "alpha", .plain "y" "beta(alpha)", .plain "z" "gamma"]

/-- The vector index of the chunks, for an embedder that gives all texts one vector. The first chunk is nearest to it. -/
noncomputable def sampleVectors : VectorIndex ℝ :=
  (VectorIndex.insertEmbedded 0 sampleChunks [.ofList [(1 : ℝ), 0], .ofList [1, 1], .ofList [0, 1]]
    (VectorIndex.blank { embed := fun _ => .ok (.ofList [1, 0]) } none .null (.ok 1) (.ok (.whole 50000)))).2

/-- A retriever of the chunks with all components, for an oracle. -/
noncomputable def sample (oracle : Rerank.Oracle ℝ) : Retriever ℝ where
  lexical := ((Lexical.Operation.insertBatch sampleChunks).run.runOn
    (LexicalIndex.blank none (.whole 1) (.whole 1) (.ok 10)) Disk.blank).2.1
  vectors := some sampleVectors
  graph := some (({ weights := .standard } : CodeGraph ℝ).build sampleChunks)
  reranker := some (.standard oracle)
  lookup := some fun _ => .ok none
  tunables := .standard

/-- An oracle that takes the second chunk for what is wanted and knows of a chunk that is not there. -/
def secondBest : Rerank.Oracle ℝ := fun _ _ => .ok ⟨[⟨"y", 10, "wanted"⟩, ⟨"w", 5, "unknown"⟩, ⟨"x", 0, "no"⟩]⟩

theorem checked_sampleChunks : ∀ c ∈ sampleChunks, c.unchecked = [] := by
  intro c hc
  simp only [sampleChunks, List.mem_cons, List.not_mem_nil, or_false] at hc
  rcases hc with rfl | rfl | rfl <;> rfl

theorem lived_sampleVectors : sampleVectors.Lived := by
  refine VectorIndex.Lived.inserted (.blank _ _ _ _ _ none) 0 checked_sampleChunks fun vector hv => ?_
  simp only [List.mem_cons, List.not_mem_nil, or_false] at hv
  rcases hv with rfl | rfl | rfl <;> exact ⟨_, Tensor.flatten_ofList _⟩

theorem works_sample (oracle : Rerank.Oracle ℝ) : Works (sample oracle) where
  lexical := by
    have opened := LexicalIndex.Lived.opened (α := ℝ) none (.whole 1) (.whole 1) (.ok 10) Disk.blank rfl
    exact opened.operation (.insertBatch sampleChunks) checked_sampleChunks Disk.blank
  vectors v hv := by
    obtain rfl := Option.some.inj hv
    exact lived_sampleVectors
  lookup lookup hl id := by
    obtain rfl := Option.some.inj hl
    exact .inl rfl
  tuned := {
    unfit := rfl
    prefilterSize := ⟨_, rfl⟩
    recallSize := ⟨_, rfl⟩
    multiplier := ⟨_, rfl⟩
    ratio := div_nonneg (Int.cast_nonneg (by decide)) (Int.cast_nonneg (by decide))
    patternRatio := div_nonneg (Int.cast_nonneg (by decide)) (Int.cast_nonneg (by decide))
    minimum := ⟨5, rfl⟩ }
  reranker k hk := by
    obtain rfl := Option.some.inj hk
    exact ⟨rfl, _, rfl⟩

theorem findText_sampleVectors (text : String) (maxResults : ℤ) (least : ℝ) :
    ∃ found, sampleVectors.findText text maxResults least = .ok found := by
  have read : sampleVectors.view = .ok ⟨1, sampleVectors.rows⟩ := rfl
  have embedded : sampleVectors.embedder.vector text = .ok [1, 0] := rfl
  refine VectorIndex.findText_ok read (fun row hr => ?_) embedded (fun row hr => ?_) _ _
  · obtain ⟨⟨id, e⟩, _, made⟩ := List.mem_filterMap.1 hr
    obtain ⟨chunk, registered, rfl⟩ := Option.map_eq_some_iff.1 made
    exact checked_sampleChunks chunk (Keyed.mem_values_of_get? registered)
  · obtain ⟨e, stored, vector, _⟩ := VectorIndex.entry_of_mem_rows hr
    have there : e.vector ∈ [[(1 : ℝ), 0], [1, 1], [0, 1]] :=
      List.mem_map_of_mem (Keyed.mem_values_of_get? stored)
    rw [vector]
    simp only [List.mem_cons, List.not_mem_nil, or_false] at there
    rcases there with h | h | h <;> rw [h] <;> rfl

theorem answered_query_sample (oracle : Rerank.Oracle ℝ) (query : String) :
    (querySearch (sample oracle).tunables query).Answered (sample oracle) := by
  refine ⟨fun g hg found _ => ?_, fun v hv size least _ _ => ?_⟩
  · obtain rfl := Option.some.inj hg
    exact ⟨_, CodeGraph.queryScores_ok rfl _ _⟩
  · obtain rfl := Option.some.inj hv
    exact findText_sampleVectors _ _ _

theorem answered_pattern_sample (oracle : Rerank.Oracle ℝ) (source : String) :
    (patternSearch (sample oracle).tunables source none none).Answered (sample oracle) := by
  refine ⟨fun g hg found _ => ?_, fun v hv size least _ _ => ?_⟩
  · obtain rfl := Option.some.inj hg
    exact ⟨_, CodeGraph.patternScores_ok (by decide +kernel) _ _⟩
  · obtain rfl := Option.some.inj hv
    exact findText_sampleVectors _ _ _

/-- A query that two of the chunks answer and a fragment of code are searched for, with an oracle that turns the order of
the vectors around. -/
theorem searches_promised_sample :
    Promised (sample secondBest) (querySearch (sample secondBest).tunables "alpha")
      (fun n => ((sample secondBest).find "alpha" (some (.whole n))).results) ∧
    Promised (sample secondBest) (patternSearch (sample secondBest).tunables "alpha = beta()" none none)
      fun n => ((sample secondBest).findPattern "alpha = beta()" none none (some (.whole n))).results := by
  obtain ⟨queries, patterns⟩ := searches_promised (sample secondBest) (works_sample secondBest)
  have parsed : ∃ q, Query.parse "alpha" = .ok q := Query.parse_of_plain (by decide)
  exact ⟨queries "alpha" parsed (answered_query_sample _ _), patterns _ none none (answered_pattern_sample _ _)⟩

end CodeSearch.Retriever
