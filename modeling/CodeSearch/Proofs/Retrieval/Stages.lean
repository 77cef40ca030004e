import CodeSearch.Proofs.Lexical.Hits
import CodeSearch.Proofs.Rerank.Fusion
import CodeSearch.Proofs.Vector.Found
import CodeSearch.Retrieval.Pipeline
/-!
# What each stage of a search does

The first stage gives a candidate for each hit (`prefilter_ok`). The stages after it leave candidates out and put the
others in a new order: what a stage gives out, as often as it does, it was given (`graphFilter_ok`, `vectorFilter_ok`,
`rerank_ok`). The vector index gives each candidate the similarity of a vector that is stored under its id, and nothing
later changes that.
-/

namespace CodeSearch.Retrieval

/-! ## Retrievers whose stages answer -/

/-- The sizes are integers, the shares that the graph keeps are not negative, and all can be used. -/
structure Tuned (t : Tunables ℝ) : Prop where
  unfit : t.unfit = []
  prefilterSize : ∃ size, t.prefilterSize = .whole size
  recallSize : ∃ size, t.recallSize = .whole size
  multiplier : ∃ factor, t.patternSizeMultiplier = .whole factor
  ratio : 0 ≤ t.retentionRatio
  patternRatio : 0 ≤ t.patternRetentionRatio
  minimum : ∃ least : ℕ, t.patternMinRetained = .whole least

/-- Everything that the stages work with is in order: the indexes are ones that operations have led to, a chunk that is
looked up has the id under which it is, and of the reranker nothing but the oracle can fail. -/
structure Works (r : Retriever ℝ) : Prop where
  lexical : r.lexical.Lived
  vectors : ∀ v ∈ r.vectors, v.Lived
  lookup : ∀ lookup ∈ r.lookup, ∀ id, lookup id = .ok none ∨
    ∃ c, lookup id = .ok (some c) ∧ c.id = id ∧ c.unchecked = []
  tuned : Tuned r.tunables
  reranker : ∀ k ∈ r.reranker, k.unfit = [] ∧ ∃ n, k.maxContentChars = .whole n

/-- The sizes and the threshold of a search can be used, and a share of some candidates is a number of them. -/
structure Search.Fits (s : Search ℝ) : Prop where
  prefilterSize : ∃ size, s.prefilterSize = .ok size
  recallSize : ∃ size, s.recallSize = .ok size
  threshold : ∃ least, s.threshold = .ok least
  retained : ∀ count : ℕ, ∃ keep : ℕ, s.retained count = .ok keep

/-- The graph has scores for what the lexical index gives, and the vector index an answer. -/
structure Search.Answered (s : Search ℝ) (r : Retriever ℝ) : Prop where
  graph : ∀ g ∈ r.graph, ∀ found, prefilter r s = .ok found →
    ∃ scores, s.structural g (found.map fun c => c.chunk.id) = .ok scores
  vectors : ∀ v ∈ r.vectors, ∀ size least, s.recallSize = .ok size → s.threshold = .ok least →
    ∃ found, v.findText s.recallText size least = .ok found

/-- A vector is stored under an id, and this is its similarity to the vector of the text of a search, and enough. -/
def Confirmed (s : Search ℝ) (v : VectorIndex ℝ) (id : String) (similarity : ℝ) : Prop :=
  ∃ e vector least, v.entries.get? id = some e ∧ v.embedder.vector s.recallText = .ok vector ∧
    Vector.cosineSimilarity e.vector vector = .ok similarity ∧ s.threshold = .ok least ∧ least ≤ similarity

variable {r : Retriever ℝ} {s : Search ℝ}

/-! ## The lexical stage -/

/-- The chunk of a hit is found, wherever it is looked for first. -/
theorem chunk?_of_hit (works : Works r) {q : Query} {size : Int} {kind : Option ChunkKind} {hit : Lexical.Hit ℝ}
    (found : hit ∈ r.lexical.rank q .content size kind) :
    ∃ c, r.chunk? hit.chunk.id = .ok (some c) ∧ c.id = hit.chunk.id ∧ c.unchecked = [] := by
  obtain ⟨c, held, id, checked⟩ := works.lexical.isSearchable.chunk?_of_mem_rank q .content size kind found
  unfold Retriever.chunk?
  cases lookup : r.lookup with
  | none => exact ⟨c, by rw [held]; rfl, id, checked⟩
  | some lookup' =>
    rcases works.lookup lookup' lookup hit.chunk.id with none | ⟨other, some, otherId, otherChecked⟩
    · exact ⟨c, by simp only [none, held]; rfl, id, checked⟩
    · exact ⟨other, by simp only [some]; rfl, otherId, otherChecked⟩

/-- There is a candidate for each hit, with a chunk of its id. -/
theorem prefilter_ok (works : Works r) (fits : s.Fits) {q : Query} (parsed : Query.parse s.query = .ok q) :
    ∃ size hits found, s.prefilterSize = .ok size ∧ r.lexical.search s.query size s.kind = .ok hits ∧
      (hits.map fun hit => hit.chunk.id).Nodup ∧ prefilter r s = .ok found ∧
      (found.map fun c => c.chunk.id) = (hits.map fun hit => hit.chunk.id) ∧ ∀ c ∈ found, c.chunk.unchecked = [] := by
  obtain ⟨size, sized⟩ := fits.prefilterSize
  have searchable := works.lexical.isSearchable
  have ranked := searchable.ranked_ok q .content size s.kind
  have once := searchable.nodup_rank q .content size s.kind
  have resolved := fun hit => @chunk?_of_hit r works q size s.kind hit
  generalize r.lexical.rank q .content size s.kind = hits at ranked once resolved
  have searched : r.lexical.search s.query size s.kind = .ok hits := by
    rw [LexicalIndex.search, parsed]
    exact ranked
  -- without hits there is nothing to resolve
  cases hits with
  | nil =>
    refine ⟨size, [], [], sized, searched, once, ?_, rfl, List.forall_mem_nil _⟩
    rw [prefilter, parsed, sized]
    simp only [Except.mapError, bind, Except.bind, ranked]
    rfl
  | cons hit rest =>
    obtain ⟨best, greatest⟩ : ∃ best, Scalar.greatest? ((hit :: rest).map Lexical.Hit.score) = some best := ⟨_, rfl⟩
    generalize hit :: rest = hits at *
    have : Nonempty Chunk := ⟨hit.chunk⟩
    choose! chunk known id checked using resolved
    have candidates : (hits.mapM fun hit => do return (← r.chunk? hit.chunk.id).map (Candidate.ofHit best hit))
        = .ok (hits.map fun hit => some (Candidate.ofHit best hit (chunk hit))) :=
      mapM_ok fun hit there => by rw [known hit there]; rfl
    refine ⟨size, hits, hits.map fun hit => Candidate.ofHit best hit (chunk hit), sized, searched, once, ?_, ?_, ?_⟩
    · rw [prefilter, parsed, sized]
      rw [Except.mapError, ok_bind, ok_bind, ranked, ok_bind]
      simp only [greatest]
      rw [candidates, ok_bind, List.filterMap_map]
      exact congrArg Except.ok (congrFun List.filterMap_eq_map hits)
    · rw [List.map_map]
      exact List.map_congr_left fun hit there => id hit there
    · intro c hc
      obtain ⟨hit, there, rfl⟩ := List.mem_map.1 hc
      exact checked hit there

/-! ## The stages after it -/

/-- The graph keeps candidates that it was given, and no more than are to be kept. -/
theorem graphFilter_ok (works : Works r) (fits : s.Fits) {found : List (Candidate ℝ)}
    (answered : ∀ g ∈ r.graph, ∃ scores, s.structural g (found.map fun c => c.chunk.id) = .ok scores) :
    ∃ kept, graphFilter r s found = .ok kept ∧ (kept.map Candidate.chunk).Subperm (found.map Candidate.chunk) ∧
      (r.graph.isSome → ∃ keep : ℕ, s.retained found.length = .ok keep ∧ kept.length ≤ keep) := by
  rw [graphFilter]
  cases graph : r.graph with
  | none => exact ⟨found, rfl, List.Subperm.refl _, nofun⟩
  | some g =>
    obtain ⟨scores, scored⟩ := answered g graph
    obtain ⟨keep, kept⟩ := fits.retained found.length
    simp only [scored, ok_bind, kept, works.tuned.unfit, Unfit.check_nil]
    refine ⟨_, rfl, ?_, fun _ => ⟨keep, rfl, ?_⟩⟩
    · rw [upTo_natCast]
      have same : (found.map fun c => blend r.tunables ((scores.lookup c.chunk.id).getD Scalar.zero) c).map
          Candidate.chunk = found.map Candidate.chunk := by
        rw [List.map_map]
        rfl
      rw [← same]
      refine ((List.take_sublist _ _).map _).subperm.trans ?_
      exact ((Scalar.perm_sortDescending _ _).map _).subperm
    · rw [upTo_natCast, List.length_take]
      exact Nat.min_le_left _ _

/-- The vector index confirms candidates that it was given, and only those whose stored vector is similar enough. -/
theorem vectorFilter_ok (works : Works r) (fits : s.Fits) (answered : s.Answered r) (kept : List (Candidate ℝ)) :
    ∃ confirmed, vectorFilter r s kept = .ok confirmed ∧
      (confirmed.map Candidate.chunk).Subperm (kept.map Candidate.chunk) ∧
      ∀ v ∈ r.vectors, ∀ c ∈ confirmed, Confirmed s v c.chunk.id c.similarity := by
  rw [vectorFilter]
  cases vectors : r.vectors with
  | none =>
    refine ⟨_, rfl, ?_, nofun⟩
    rw [List.map_map]
    exact List.Subperm.refl _
  | some v =>
    obtain ⟨size, sized⟩ := fits.recallSize
    obtain ⟨least, threshold⟩ := fits.threshold
    obtain ⟨found, near⟩ := answered.vectors v vectors size least sized threshold
    have recalled := VectorIndex.found_of_findText (works.vectors v vectors).isCurrent near
    have told : Except.toOption (Except.ok least : Except Fault ℝ) = some least := rfl
    simp only [sized, ok_bind, threshold, told, Option.getD_some, near]
    refine ⟨_, rfl, ?_, ?_⟩
    · refine ((Scalar.perm_sortDescending _ _).map _).subperm.trans (filterMap_sublist ?_ _).subperm
      intro c c' same
      obtain ⟨_, _, rfl⟩ := Option.map_eq_some_iff.1 same
      rfl
    · intro other same c hc
      obtain rfl := Option.some.inj same
      obtain ⟨c, _, made⟩ := List.mem_filterMap.1 ((Scalar.perm_sortDescending _ _).mem_iff.1 hc)
      obtain ⟨similar, first, rfl⟩ := Option.map_eq_some_iff.1 made
      obtain ⟨e, vector, stored, embedded, similarity, enough⟩ := recalled similar (List.mem_of_find?_eq_some first)
      have id : similar.chunkId = c.chunk.id := by simpa using List.find?_some first
      exact ⟨e, vector, least, id ▸ stored, embedded, similarity, threshold, enough⟩

/-- A candidate by its chunk and the similarity that it has been given. -/
def known (c : RankedCandidate ℝ) : Chunk × ℝ := (c.chunk, c.vectorSimilarity)

/-- An opinion changes neither. -/
theorem known_merge (k : Rerank.Reranker ℝ) (request : Rerank.Request) (opinion : Option Rerank.Opinion)
    (c : RankedCandidate ℝ) : known (k.merge request opinion c) = known c := by
  cases opinion <;> rfl

/-- The reranker puts all candidates in a new order, whatever the oracle replies. -/
theorem rerank_ok (works : Works r) {ranked : List (RankedCandidate ℝ)}
    (checked : ∀ c ∈ ranked, c.chunk.unchecked = []) :
    ∃ out, (rerank r s ranked).1 = .ok out ∧ (out.map known).Perm (ranked.map known) := by
  rw [rerank]
  cases reranker : r.reranker with
  | none => exact ⟨ranked, rfl, .refl _⟩
  | some k =>
    obtain ⟨fit, n, limit⟩ := works.reranker k reranker
    simp only [Rerank.Reranker.reranked_ok fit limit checked, Rerank.Reranker.rerank_eq]
    refine ⟨_, rfl, ((Scalar.perm_sortDescending _ _).map known).trans ?_⟩
    rw [List.map_map]
    exact List.Perm.of_eq (List.map_congr_left fun c _ => known_merge k _ _ c)

end CodeSearch.Retrieval
