import CodeSearch.Proofs.Chunk.RoundTrip
import CodeSearch.Proofs.Lexical.Growth
import CodeSearch.Proofs.Lexical.Relevance
import CodeSearch.Proofs.Query.Selection
/-!
# Rankings and what queries select

What a query selects holds one of its terms, so that it has a positive score. So the condition that hits have such a
score leaves nothing out (`IsTuned.rank_eq`), and a search for as many hits as there are chunks finds all that the
query selects (`IsTuned.rank_perm`).
-/

namespace CodeSearch.LexicalIndex

open Lexical

/-- The relevance is what its formula says, for the tokens of a field. -/
def IsTuned (ix : LexicalIndex ℝ) (field : Field) : Prop :=
  (⟨ix.view.entries.map field.tokens, ix.k1, ix.b⟩ : Bm25 ℝ).IsTuned

/-- The relevance of the tokens of an entry to a query. -/
noncomputable def relevance (ix : LexicalIndex ℝ) (q : Query) (field : Field) (e : Entry) : ℝ :=
  let m : Bm25 ℝ := ⟨ix.view.entries.map field.tokens, ix.k1, ix.b⟩
  m.score m.meanLength (m.weights q.positiveTerms) (field.tokens e)

variable {ix : LexicalIndex ℝ} {field : Field}

theorem IsTuned.relevance_pos (tuned : ix.IsTuned field) {q : Query} {e : Entry} (there : e ∈ ix.view.entries)
    (selected : q.selects (field.tokens e) = true) : 0 < ix.relevance q field e := by
  obtain ⟨⟨term, asked, holds⟩, _⟩ := Query.selects_iff.1 selected
  exact tuned.score_pos (List.mem_map_of_mem there) asked holds

/-- Nothing is selected where there are no tokens. -/
theorem filter_of_model?_eq_none (none : ix.model? field = none) (q : Query) (keep : Entry → Bool) :
    (ix.view.entries.filter fun e => keep e && q.selects (field.tokens e)) = [] := by
  rw [model?] at none
  split at none
  next empty =>
    refine List.filter_eq_nil_iff.2 fun e there => ?_
    have tokens : field.tokens e = [] := by
      simpa using List.all_eq_true.1 empty _ (List.mem_map_of_mem there)
    have unselected : q.selects (field.tokens e) = false := by
      rw [← Bool.not_eq_true, Query.selects_iff, tokens]
      simp
    simp [unselected]
  next => cases none

/-- A ranking sorts what the query selects and scores by relevance, and gives out the first of it. -/
theorem rank_eq_scored (ix : LexicalIndex ℝ) (q : Query) (field : Field) {maxResults : Int} (some : 0 < maxResults)
    (kind : Option ChunkKind) :
    ix.rank q field maxResults kind
      = ((Scalar.sortDescending (ix.relevance q field) (ix.view.entries.filter fun e =>
          ofKind kind e && q.selects (field.tokens e) && Scalar.less Scalar.zero (ix.relevance q field e))).take
            maxResults.toNat).map fun e => ⟨e.chunk, ix.relevance q field e⟩ := by
  have notFew : ¬ maxResults ≤ 0 := not_le.2 some
  -- where nothing is selected, nothing is found
  have nothing (none : (ix.view.entries.filter fun e => ofKind kind e && q.selects (field.tokens e)) = []) :
      (ix.view.entries.filter fun e => ofKind kind e && q.selects (field.tokens e) &&
        Scalar.less Scalar.zero (ix.relevance q field e)) = [] := by
    refine List.filter_eq_nil_iff.2 fun e there found => List.filter_eq_nil_iff.1 none e there ?_
    exact (Bool.and_eq_true_iff.1 found).1
  rw [rank]
  split
  next unasked =>
    have empty : q.isEmpty = true := by simpa [notFew] using unasked
    rw [nothing (List.filter_eq_nil_iff.2 fun e _ => by simp [Query.selects_of_isEmpty empty]),
      Scalar.sortDescending_nil, List.take_nil, List.map_nil]
  next =>
    split
    next none =>
      rw [nothing (filter_of_model?_eq_none none q _), Scalar.sortDescending_nil, List.take_nil, List.map_nil]
    next m model =>
      rw [model?] at model
      split at model
      next => cases model
      next =>
        obtain rfl := Option.some.inj model
        have scored : ix.view.entries.zip ((⟨ix.view.entries.map field.tokens, ix.k1, ix.b⟩ : Bm25 ℝ).scores
            q.positiveTerms) = ix.view.entries.map fun e => (e, ix.relevance q field e) := by
          rw [Bm25.scores, List.map_map]
          conv_lhs => arg 1; rw [← List.map_id ix.view.entries]
          exact List.zip_map'
        simp only [scored, List.filter_map, Scalar.sortDescending_map, ← List.map_take, List.map_map]
        rfl

/-- With such parameters a ranking sorts all that the query selects. -/
theorem IsTuned.rank_eq (tuned : ix.IsTuned field) (q : Query) {maxResults : Int} (some : 0 < maxResults)
    (kind : Option ChunkKind) :
    ix.rank q field maxResults kind
      = ((Scalar.sortDescending (ix.relevance q field)
          (ix.view.entries.filter fun e => ofKind kind e && q.selects (field.tokens e))).take maxResults.toNat).map
        fun e => ⟨e.chunk, ix.relevance q field e⟩ := by
  rw [rank_eq_scored ix q field some]
  congr 3
  refine List.filter_congr fun e there => ?_
  cases selected : q.selects (field.tokens e) with
  | false => simp
  | true => simp [tuned.relevance_pos there selected]

/-- As many hits as there are chunks are all that the query selects. -/
theorem IsTuned.rank_perm (tuned : ix.IsTuned field) (q : Query) (kind : Option ChunkKind) {maxResults : Int}
    (all : ix.count ≤ maxResults) : ((ix.rank q field maxResults kind).map Hit.chunk).Perm
      ((ix.view.entries.filter fun e => ofKind kind e && q.selects (field.tokens e)).map Entry.chunk) := by
  rcases lt_or_ge 0 maxResults with some | none
  · have few : (Scalar.sortDescending (ix.relevance q field)
        (ix.view.entries.filter fun e => ofKind kind e && q.selects (field.tokens e))).length ≤ maxResults.toNat := by
      rw [(Scalar.perm_sortDescending _ _).length_eq]
      have := List.length_filter_le (fun e => ofKind kind e && q.selects (field.tokens e)) ix.view.entries
      rw [count] at all
      omega
    rw [tuned.rank_eq q some, List.take_of_length_le few, List.map_map]
    exact (Scalar.perm_sortDescending _ _).map _
  · have entries : ix.view.entries = [] := by
      rw [count] at all
      exact List.eq_nil_of_length_eq_zero (by omega)
    have found : ix.rank q field maxResults kind = [] := by
      rw [rank, if_pos (by simp [none])]
    rw [found, entries]
    rfl

/-- A search for as many hits as there are chunks finds what its query selects. -/
theorem IsTuned.search_perm (tuned : ix.IsTuned .content) (searchable : ix.IsSearchable) {text : String} {q : Query}
    (parsed : Query.parse text = .ok q) {maxResults : Int} (all : ix.count ≤ maxResults) :
    ∃ hits, ix.search text maxResults none = .ok hits ∧
      (hits.map Hit.chunk).Perm ((ix.view.entries.filter fun e => q.selects e.tokens).map Entry.chunk) := by
  refine ⟨ix.rank q .content maxResults none, ?_, tuned.rank_perm q none all⟩
  rw [search, parsed]
  exact searchable.ranked_ok q .content maxResults none

/-! ## An index of one chunk -/

theorem tuned_of_standard (k1 : ix.k1 = .real 1.5) (b : ix.b = .real 0.75) (field : Field) : ix.IsTuned field where
  k1_pos := by
    rw [k1]
    change (0 : ℝ) < 1.5
    norm_num
  b_nonneg := by
    rw [b]
    change (0 : ℝ) ≤ 0.75
    norm_num
  b_le := by
    rw [b]
    change (0.75 : ℝ) ≤ 1
    norm_num
  exact _ _ := by
    rw [k1, b]
    exact ⟨Parameter.isExact_real _ _, Parameter.isExact_real _ _⟩

/-- An index that one operation has made of a blank one. -/
theorem grown_of_blank {p : Chunk → Prop} (op : Operation) (good : ∀ c ∈ op.chunks, p c) :
    Grown p (op.run.runOn (blank none (.real 1.5) (.real 0.75) (.ok 10) : LexicalIndex ℝ) Disk.blank).2.1 :=
  .operation (.opened none _ _ (.ok 10) Disk.blank rfl) op good Disk.blank

noncomputable def sample : LexicalIndex ℝ :=
  ((Operation.insert (.plain "x" "alpha = beta(gamma)")).run.runOn (blank none (.real 1.5) (.real 0.75) (.ok 10))
    Disk.blank).2.1

theorem tuned_sample (field : Field) : sample.IsTuned field := tuned_of_standard rfl rfl field

theorem grown_sample : sample.Grown fun c => c.unchecked = [] ∧ c.IsShallow :=
  grown_of_blank (.insert _) (List.forall_mem_singleton.2 ⟨rfl, Nat.zero_le _⟩)

end CodeSearch.LexicalIndex
