import CodeSearch.Proofs.Ranked
import CodeSearch.Proofs.Retrieval.Results
/-!
# Searches whose oracle is not heard

An oracle that always fails, or always replies without opinions, leaves every candidate to its similarity, weighed by
the sum of the two weights. If that is positive, the order is the one without a reranker (`rerank_of_mute`). Nothing
else of a search depends on the reranker, and so it finds the same chunks in the same order with such an oracle as
without one (`Retriever.find_of_mute`).
-/

namespace CodeSearch

namespace Scalar

/-! ## Sorting by weighed numbers -/

variable {β : Type} {key : β → ℝ} {items : List β}

/-- A positive weight does not change the order. -/
theorem sortDescending_weighed {weight : ℝ} (positive : 0 < weight) (key : β → ℝ) (items : List β) :
    sortDescending (fun item => weight * key item) items = sortDescending key items := by
  have same (a b : β) : less (weight * key a) (weight * key b) = less (key a) (key b) := by
    rw [Bool.eq_iff_iff, less_iff, less_iff]
    exact mul_lt_mul_iff_right₀ positive
  rw [sortDescending_real, sortDescending_real]
  simp only [same]

/-- What is in order stays as it is. -/
theorem sortDescending_sortDescending (key : β → ℝ) (items : List β) :
    sortDescending key (sortDescending key items) = sortDescending key items :=
  (isRanking_sortDescending key _).unique (.of_pairwise (pairwise_sortDescending key items))

end Scalar

namespace Rerank.Reranker

variable {k : Reranker ℝ} {request : Request}

/-- The oracle always fails, or has no opinion. -/
def IsMute (k : Reranker ℝ) : Prop :=
  ∀ request shown, (∃ fault, k.oracle request shown = .error fault) ∨ k.oracle request shown = .ok {}

/-- A candidate on which there is no opinion. -/
noncomputable def unheard (k : Reranker ℝ) (request : Request) (c : RankedCandidate ℝ) : RankedCandidate ℝ :=
  { c with
    externalScore := none
    combinedScore := (k.vectorWeight + k.llmWeight) * c.vectorSimilarity
    method := request.fallback }

theorem merge_none (c : RankedCandidate ℝ) : k.merge request none c = k.unheard request c := by
  rw [merge, unheard, add_mul]

/-- Where the oracle is mute, all candidates are unheard. -/
theorem rerank_of_mute (mute : k.IsMute) (candidates : List (RankedCandidate ℝ)) :
    k.rerank request candidates = RankedCandidate.sort (candidates.map (k.unheard request)) := by
  have reply : k.replyTo request (k.summaries candidates) = {} := by
    rw [replyTo]
    rcases mute request (k.summaries candidates) with ⟨fault, failed⟩ | empty
    · rw [failed]
    · rw [empty]
  have none (id : String) : opinionOn (k.summaries candidates) {} id = none := by
    rw [opinionOn]
    split <;> rfl
  simp only [rerank_eq, reply, none, merge_none]

end Rerank.Reranker

namespace Retrieval

variable {r : Retriever ℝ} {s : Search ℝ}

/-! ## Chunks that come through the stages -/

/-- A candidate of the first stage has a chunk that was looked up. -/
theorem looked_of_prefilter {found : List (Candidate ℝ)} (ran : prefilter r s = .ok found) :
    ∀ c ∈ found, ∃ id, r.chunk? id = .ok (some c.chunk) := by
  intro c hc
  obtain ⟨q, _, ran⟩ := exists_of_bind_ok ran
  obtain ⟨size, _, ran⟩ := exists_of_bind_ok ran
  obtain ⟨hits, _, ran⟩ := exists_of_bind_ok ran
  split at ran
  next =>
    cases ran
    cases hc
  next best _ =>
    obtain ⟨looked, all, ran⟩ := exists_of_bind_ok ran
    cases ran
    have there : some c ∈ looked := by simpa using hc
    obtain ⟨hit, _, made⟩ := mem_of_mapM_ok all (some c) there
    obtain ⟨chunk, found, made⟩ := exists_of_bind_ok made
    obtain ⟨chunk, rfl, rfl⟩ := Option.map_eq_some_iff.1 (Except.ok.inj made)
    exact ⟨_, found⟩

theorem chunk_of_graphFilter {found kept : List (Candidate ℝ)} (ran : graphFilter r s found = .ok kept) :
    ∀ c ∈ kept, c.chunk ∈ found.map Candidate.chunk := by
  intro c hc
  unfold graphFilter at ran
  split at ran
  next =>
    cases ran
    exact List.mem_map_of_mem hc
  next g _ =>
    obtain ⟨scores, _, ran⟩ := exists_of_bind_ok ran
    obtain ⟨keep, _, ran⟩ := exists_of_bind_ok ran
    obtain ⟨_, _, ran⟩ := exists_of_bind_ok ran
    cases ran
    have blended := (Scalar.perm_sortDescending _ _).mem_iff.1 (mem_of_mem_upTo hc)
    obtain ⟨before, there, rfl⟩ := List.mem_map.1 blended
    exact List.mem_map.2 ⟨before, there, rfl⟩

theorem chunk_of_vectorFilter {kept confirmed : List (Candidate ℝ)} (ran : vectorFilter r s kept = .ok confirmed) :
    ∀ c ∈ confirmed, c.chunk ∈ kept.map Candidate.chunk := by
  intro c hc
  unfold vectorFilter at ran
  split at ran
  next =>
    cases ran
    obtain ⟨before, there, rfl⟩ := List.mem_map.1 hc
    exact List.mem_map.2 ⟨before, there, rfl⟩
  next v _ =>
    obtain ⟨size, _, ran⟩ := exists_of_bind_ok ran
    obtain ⟨recalled, _, ran⟩ := exists_of_bind_ok ran
    obtain ⟨_, _, ran⟩ := exists_of_bind_ok ran
    cases ran
    obtain ⟨before, there, made⟩ := List.mem_filterMap.1 ((Scalar.perm_sortDescending _ _).mem_iff.1 hc)
    obtain ⟨similar, _, rfl⟩ := Option.map_eq_some_iff.1 made
    exact List.mem_map.2 ⟨before, there, rfl⟩

/-! ## Searches -/

theorem guarded_map {f : RankedCandidate ℝ → RankedCandidate ℝ} (results : Except Fault (List (RankedCandidate ℝ))) :
    guarded (results.map (List.map f)) = (guarded results).map (List.map f) := by
  cases results with
  | ok results => rfl
  | error fault => cases fault <;> rfl

variable {k : Rerank.Reranker ℝ}

/-- The best of the candidates are the best without the oracle. -/
theorem finish_rerank_of_mute (mute : k.IsMute) (weighs : 0 < k.vectorWeight + k.llmWeight) (request : Rerank.Request)
    (candidates : List (Candidate ℝ)) (maxResults : Number) :
    finish maxResults (k.rerank request (candidates.map Candidate.ranked))
      = (finish maxResults (candidates.map Candidate.ranked)).map (List.map (k.unheard request)) := by
  have order : RankedCandidate.sort (k.rerank request (candidates.map Candidate.ranked))
      = (RankedCandidate.sort (candidates.map Candidate.ranked)).map (k.unheard request) := by
    rw [Rerank.Reranker.rerank_of_mute mute, RankedCandidate.sort, RankedCandidate.sort,
      Scalar.sortDescending_sortDescending, List.map_map, Scalar.sortDescending_map, RankedCandidate.sort,
      Scalar.sortDescending_map, List.map_map]
    exact congrArg _ (Scalar.sortDescending_weighed weighs Candidate.similarity candidates)
  rw [finish, finish, order]
  cases maxResults.toSize with
  | error fault => rfl
  | ok size => exact congrArg Except.ok (upTo_map size _ _)

/-- A retriever with a reranker of which nothing can fail but the oracle, which is mute. The weights let the
similarities count. -/
structure Muted (r : Retriever ℝ) (k : Rerank.Reranker ℝ) : Prop where
  reranker : r.reranker = some k
  mute : k.IsMute
  unfit : k.unfit = []
  limit : ∃ n, k.maxContentChars = .whole n
  weighs : 0 < k.vectorWeight + k.llmWeight
  checked : ∀ id c, r.chunk? id = .ok (some c) → c.unchecked = []

/-- A search whose oracle is mute is one without a reranker, up to what is noted of its candidates. -/
theorem run_of_mute (muted : Muted r k) (s : Search ℝ) (maxResults : Number) :
    (run r s maxResults).results
      = (run { r with reranker := none } s maxResults).results.map (List.map (k.unheard s.request)) := by
  have prefiltered : prefilter { r with reranker := none } s = prefilter r s := rfl
  have filtered (found : List (Candidate ℝ)) :
      graphFilter { r with reranker := none } s found = graphFilter r s found := rfl
  have recalled (kept : List (Candidate ℝ)) :
      vectorFilter { r with reranker := none } s kept = vectorFilter r s kept := rfl
  rw [run, run, prefiltered]
  cases ran : prefilter r s with
  | error fault => exact guarded_map (.error fault)
  | ok found =>
    cases found with
    | nil => rfl
    | cons first rest =>
      simp only [filtered]
      cases graph : graphFilter r s (first :: rest) with
      | error fault => exact guarded_map (.error fault)
      | ok kept =>
        simp only [recalled]
        cases vectors : vectorFilter r s kept with
        | error fault => exact guarded_map (.error fault)
        | ok confirmed =>
          -- the candidates are chunks that have been looked up, whatever the filters made of them
          have plain : ∀ c ∈ confirmed.map Candidate.ranked, c.chunk.unchecked = [] := by
            intro c hc
            obtain ⟨c, there, rfl⟩ := List.mem_map.1 hc
            obtain ⟨c₁, there₁, same₁⟩ := List.mem_map.1 (chunk_of_vectorFilter vectors c there)
            obtain ⟨c₂, there₂, same₂⟩ := List.mem_map.1 (chunk_of_graphFilter graph c₁ there₁)
            obtain ⟨id, looked⟩ := looked_of_prefilter ran c₂ there₂
            exact muted.checked id c.chunk (same₂.trans same₁ ▸ looked)
          have reranked : (rerank r s (confirmed.map Candidate.ranked)).1
              = .ok (k.rerank s.request (confirmed.map Candidate.ranked)) := by
            obtain ⟨n, limit⟩ := muted.limit
            rw [rerank, muted.reranker]
            simp only [Rerank.Reranker.reranked_ok muted.unfit limit plain]
          have finished := finish_rerank_of_mute muted.mute muted.weighs s.request confirmed maxResults
          simp only [Outcome.late, reranked]
          exact (congrArg guarded finished).trans (guarded_map _)

/-- Results that have their similarities for their scores. -/
def IsUnweighed (results : Except Fault (List (RankedCandidate ℝ))) : Prop :=
  ∀ found, results = .ok found → ∀ c ∈ found, c.combinedScore = c.vectorSimilarity

theorem IsUnweighed.guarded {results : Except Fault (List (RankedCandidate ℝ))} (h : IsUnweighed results) :
    IsUnweighed (guarded results) := by
  intro found ran
  cases results with
  | ok results => exact h found ran
  | error fault =>
    cases fault <;> cases ran <;> exact List.forall_mem_nil _

theorem isUnweighed_error (fault : Fault) : IsUnweighed (.error fault) := nofun

theorem isUnweighed_finish (candidates : List (Candidate ℝ)) (maxResults : Number) :
    IsUnweighed (finish maxResults (candidates.map Candidate.ranked)) := by
  intro found ran c hc
  obtain ⟨size, _, ran⟩ := exists_of_bind_ok ran
  cases ran
  have there := (Scalar.perm_sortDescending _ _).mem_iff.1 (mem_of_mem_upTo hc)
  obtain ⟨c, _, rfl⟩ := List.mem_map.1 there
  rfl

/-- Without a reranker the similarities are the scores. -/
theorem isUnweighed_run (none : r.reranker = none) (s : Search ℝ) (maxResults : Number) :
    IsUnweighed (run r s maxResults).results := by
  have ranked (candidates : List (RankedCandidate ℝ)) : rerank r s candidates = (.ok candidates, Option.none) := by
    rw [rerank, none]
  unfold run
  split
  · exact (isUnweighed_error _).guarded
  · exact fun found ran => by
      cases ran
      exact List.forall_mem_nil _
  · split
    · exact (isUnweighed_error _).guarded
    · unfold Outcome.late
      split
      · exact (isUnweighed_error _).guarded
      · simp only [ranked]
        exact (isUnweighed_finish _ maxResults).guarded

end Retrieval

namespace Retriever

open Retrieval

variable {r : Retriever ℝ} {k : Rerank.Reranker ℝ}

/-- An answer is the one that there would be without the oracle: the same chunks in the same order, none with a score
from outside, and with the same combined scores if the weights add up to one. -/
structure Unheard (k : Rerank.Reranker ℝ) (answer without : Except Fault (List (RankedCandidate ℝ))) : Prop where
  chunks : answer.map (List.map RankedCandidate.chunk) = without.map (List.map RankedCandidate.chunk)
  external : ∀ found, answer = .ok found → ∀ c ∈ found, c.externalScore = none
  scores : k.vectorWeight + k.llmWeight = 1 →
    answer.map (List.map RankedCandidate.combinedScore) = without.map (List.map RankedCandidate.combinedScore)

theorem unheard_of_isUnweighed (request : Rerank.Request) {without : Except Fault (List (RankedCandidate ℝ))}
    (unweighed : IsUnweighed without) : Unheard k (without.map (List.map (k.unheard request))) without := by
  cases without with
  | error fault => exact ⟨rfl, nofun, fun _ => rfl⟩
  | ok found =>
    refine ⟨congrArg Except.ok ?_, fun out ran c hc => ?_, fun whole => congrArg Except.ok ?_⟩
    · rw [List.map_map]
      rfl
    · cases ran
      obtain ⟨c, _, rfl⟩ := List.mem_map.1 hc
      rfl
    · rw [List.map_map]
      refine List.map_congr_left fun c hc => ?_
      rw [Function.comp_apply, Rerank.Reranker.unheard, whole, one_mul]
      exact (unweighed found rfl c hc).symm

/-- Where nothing is found, there is no difference. -/
theorem unheard_self {answer : Except Fault (List (RankedCandidate ℝ))}
    (nothing : ∀ found, answer = .ok found → found = []) :
    Unheard k answer answer :=
  ⟨rfl, fun found ran => nothing found ran ▸ List.forall_mem_nil _, fun _ => rfl⟩

theorem nothing_of_guarded_error {fault : Fault} {found : List (RankedCandidate ℝ)}
    (ran : guarded (.error fault) = .ok found) : found = [] := by
  cases fault <;> cases ran <;> rfl

/-- A search for any number of results. -/
theorem searching_of_mute (muted : Muted r k) (s : Search ℝ) (maxResults : Option Number) :
    Unheard k (r.searching s maxResults).results (searching { r with reranker := none } s maxResults).results := by
  have wanted : limit { r with reranker := none } maxResults = r.limit maxResults := rfl
  rw [searching, searching, wanted]
  cases r.limit maxResults with
  | error fault => exact unheard_self fun _ => nothing_of_guarded_error
  | ok size =>
    simp only []
    split
    · exact unheard_self fun _ ran => (Except.ok.inj ran).symm
    · rw [run_of_mute muted]
      exact unheard_of_isUnweighed s.request (isUnweighed_run rfl s size)

/-- A reranker whose oracle always fails, or has no opinion, is as good as none: for every query and every fragment, and
every number of results. -/
theorem find_of_mute (muted : Muted r k) :
    (∀ query maxResults,
      Unheard k (r.find query maxResults).results (find { r with reranker := none } query maxResults).results) ∧
    ∀ source hint kind maxResults, Unheard k (r.findPattern source hint kind maxResults).results
      (findPattern { r with reranker := none } source hint kind maxResults).results := by
  refine ⟨fun query maxResults => searching_of_mute muted _ _,
    fun source hint kind maxResults => ?_⟩
  rw [findPattern, findPattern]
  by_cases empty : (patternSearch r.tunables source hint kind).query = ""
  · rw [if_pos empty, if_pos empty]
    exact unheard_self fun _ ran => (Except.ok.inj ran).symm
  · rw [if_neg empty, if_neg empty]
    exact searching_of_mute muted _ _

/-- An oracle that cannot be reached. -/
def unreachable : Rerank.Oracle ℝ := fun _ _ => .error (.oracleUnavailable "" none)

/-- No chunk that the retriever of three chunks looks up was set without a check. -/
theorem checked_of_sample {oracle : Rerank.Oracle ℝ} {id : String} {c : Chunk}
    (found : (sample oracle).chunk? id = .ok (some c)) : c.unchecked = [] := by
  have looked : ((sample oracle).lexical.chunk? id).or (sampleVectors.chunk? id) = some c := Except.ok.inj found
  rcases Option.or_eq_some_iff.1 looked with indexed | ⟨_, embedded⟩
  · obtain ⟨e, there, rfl⟩ := Option.map_eq_some_iff.1 indexed
    exact (works_sample oracle).lexical.isSearchable.view.checked e (List.mem_of_find?_eq_some there)
  · exact checked_sampleChunks c (Keyed.mem_values_of_get? embedded)

/-- The retriever of three chunks, whose oracle cannot be reached, answers a query, and finds for it and for a fragment
what it finds without the oracle, with the same scores. -/
theorem find_of_mute_sample :
    (∃ found, ((sample unreachable).find "alpha" (some (.whole 2))).results = .ok found ∧
      ∀ c ∈ found, c.externalScore = none) ∧
    Unheard (.standard unreachable) ((sample unreachable).find "alpha" (some (.whole 2))).results
      (find { sample unreachable with reranker := none } "alpha" (some (.whole 2))).results ∧
    Unheard (.standard unreachable) ((sample unreachable).findPattern "alpha = beta()" none none none).results
      (findPattern { sample unreachable with reranker := none } "alpha = beta()" none none none).results ∧
    ((sample unreachable).find "alpha" (some (.whole 2))).results.map (List.map RankedCandidate.combinedScore)
      = (find { sample unreachable with reranker := none } "alpha" (some (.whole 2))).results.map
        (List.map RankedCandidate.combinedScore) := by
  have works := works_sample unreachable
  have whole : ((4 : ℤ) : ℝ) / ((10 : ℤ) : ℝ) + ((6 : ℤ) : ℝ) / ((10 : ℤ) : ℝ) = 1 := by norm_num
  have muted : Muted (sample unreachable) (.standard unreachable) :=
    ⟨rfl, fun _ _ => .inl ⟨_, rfl⟩, rfl, ⟨500, rfl⟩, lt_of_lt_of_eq one_pos whole.symm, fun _ _ => checked_of_sample⟩
  obtain ⟨queries, patterns⟩ := find_of_mute muted
  have unheard := queries "alpha" (some (.whole 2))
  obtain ⟨q, parsed⟩ : ∃ q, Query.parse "alpha" = .ok q := Query.parse_of_plain (by decide)
  obtain ⟨size, hits, _, _, answers⟩ := searching_ok works (fits_querySearch works.tuned "alpha")
    (answered_query_sample unreachable "alpha") parsed
  obtain ⟨found, answer, _⟩ := answers 2
  exact ⟨⟨found, answer, unheard.external found answer⟩, unheard, patterns _ none none none, unheard.scores whole⟩

end Retriever

end CodeSearch
