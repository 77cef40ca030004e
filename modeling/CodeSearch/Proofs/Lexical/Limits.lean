import CodeSearch.Proofs.Lexical.Deletion
import CodeSearch.Proofs.Ranked
/-!
# Limits and kinds

A query has hits, one for each chunk that it selects and that scores, in the order of the index (`hits`). A search ranks
those of the kind that is asked for and gives out the first of them (`IsSearchable.rank_eq_take`). As a ranking is
decided by what is ranked, the limit and the kind cut pieces out of the one ranking of all hits (`search_limited`).
-/

namespace CodeSearch

/-- A hit of the kind that is asked for, if one is. -/
def Lexical.Hit.ofKind {α : Type} (kind : Option ChunkKind) (hit : Hit α) : Bool :=
  match kind with
  | none => true
  | some kind => hit.chunk.kind? = some kind

@[simp] theorem Lexical.Hit.ofKind_none {α : Type} (hit : Hit α) : Hit.ofKind none hit = true := rfl

namespace LexicalIndex

open Lexical

variable {ix : LexicalIndex ℝ} {q : Query}

/-- The hit that a chunk is, with its relevance to a query as its score. -/
noncomputable def hit (ix : LexicalIndex ℝ) (q : Query) (c : Chunk) : Hit ℝ :=
  ⟨c, ix.relevance q .content (.ofChunk c)⟩

/-- The hits of a query, in the order of the index. -/
noncomputable def hits (ix : LexicalIndex ℝ) (q : Query) : List (Hit ℝ) :=
  ((ix.chunks.filter q.selectsChunk).map (ix.hit q)).filter fun hit => Scalar.less Scalar.zero hit.score

theorem pos_of_mem_hits {found : Hit ℝ} (h : found ∈ ix.hits q) : 0 < found.score := by
  simpa using (List.mem_filter.1 h).2

/-- With parameters as they should be every chunk that is selected is hit. -/
theorem IsTuned.hits_eq (tuned : ix.IsTuned .content) (made : ∀ e ∈ ix.view.entries, e = .ofChunk e.chunk) (q : Query) :
    ix.hits q = (ix.chunks.filter q.selectsChunk).map (ix.hit q) := by
  refine List.filter_eq_self.2 (List.forall_mem_map.2 fun c hc => ?_)
  obtain ⟨there, selected⟩ := List.mem_filter.1 hc
  obtain ⟨e, he, rfl⟩ := List.mem_map.1 there
  have positive : 0 < ix.relevance q .content (.ofChunk e.chunk) := by
    rw [← made e he]
    refine tuned.relevance_pos he ?_
    rw [made e he]
    exact selected
  simpa [hit] using positive

/-- What a ranking looks at in the entries is there in the hits. -/
theorem hits_ofKind (made : ∀ e ∈ ix.view.entries, e = .ofChunk e.chunk) (q : Query) (kind : Option ChunkKind) :
    (ix.view.entries.filter fun e => ofKind kind e && q.selects (Field.content.tokens e) &&
        Scalar.less Scalar.zero (ix.relevance q .content e)).map (fun e => ⟨e.chunk, ix.relevance q .content e⟩)
      = (ix.hits q).filter (Hit.ofKind kind) := by
  have entries (e : Entry) (he : e ∈ ix.view.entries) : (⟨e.chunk, ix.relevance q .content e⟩ : Hit ℝ) = ix.hit q e.chunk :=
    congrArg (Hit.mk e.chunk) (congrArg (ix.relevance q .content) (made e he))
  simp only [hits, chunks, List.filter_map, List.map_map, List.filter_filter]
  refine (List.map_congr_left fun e he => entries e (List.mem_filter.1 he).1).trans ?_
  refine congrArg (List.map _) (List.filter_congr fun e he => ?_)
  have selected : q.selects (Field.content.tokens e) = q.selectsChunk e.chunk := by
    conv_lhs => rw [made e he]
    rfl
  have score : ix.relevance q .content e = (ix.hit q e.chunk).score := congrArg Hit.score (entries e he)
  rw [selected, score, Bool.and_assoc, Bool.and_comm (q.selectsChunk e.chunk)]
  rfl

/-- A search ranks the hits of the kind that is asked for, and gives out the first of them. -/
theorem rank_eq_take (made : ∀ e ∈ ix.view.entries, e = .ofChunk e.chunk) (q : Query) (maxResults : Int)
    (kind : Option ChunkKind) : ix.rank q .content maxResults kind
      = (Scalar.sortDescending Hit.score ((ix.hits q).filter (Hit.ofKind kind))).take maxResults.toNat := by
  rcases lt_or_ge 0 maxResults with some | none
  · rw [rank_eq_scored ix q .content some, ← hits_ofKind made, Scalar.sortDescending_map, List.map_take]
  · rw [rank, if_pos (by simp [none]), Int.toNat_of_nonpos none, List.take_zero]

/-- As many hits as there are chunks are all hits. -/
theorem length_hits_le (ix : LexicalIndex ℝ) (q : Query) : (ix.hits q).length ≤ ix.count := by
  refine (List.length_filter_le _ _).trans ?_
  rw [List.length_map]
  refine (List.length_filter_le _ _).trans ?_
  rw [chunks, List.length_map, count]

/-- A search for as many hits as there are chunks ranks all hits of its query: best first, those of one score in the
order of the index, each with a positive score and no id twice. Whatever number and kind are asked for, a search finds
the first of the hits of the kind, and none if the number is negative. -/
theorem search_limited (grown : Grown (fun c => c.unchecked = []) ix) {text : String} (parsed : Query.parse text = .ok q) :
    ∃ all, ix.search text ix.count none = .ok all ∧ IsRanking Hit.score (ix.hits q) all ∧
      (∀ hit ∈ all, 0 < hit.score) ∧ (all.map fun hit => hit.chunk.id).Nodup ∧
      ∀ (maxResults : Int) (kind : Option ChunkKind),
        ix.search text maxResults kind = .ok ((all.filter (Hit.ofKind kind)).take maxResults.toNat) := by
  have searchable := (grown.lived fun _ checked => checked).isSearchable
  have made := grown.made.view.1
  have search (maxResults : Int) (kind : Option ChunkKind) : ix.search text maxResults kind
      = .ok ((Scalar.sortDescending Hit.score ((ix.hits q).filter (Hit.ofKind kind))).take maxResults.toNat) := by
    rw [LexicalIndex.search, parsed, ← rank_eq_take made]
    exact searchable.ranked_ok q .content maxResults kind
  have ranking : IsRanking Hit.score (ix.hits q) (Scalar.sortDescending Hit.score (ix.hits q)) :=
    isRanking_sortDescending _ _
  have every : (ix.hits q).filter (Hit.ofKind none) = ix.hits q := List.filter_eq_self.2 fun hit _ => Hit.ofKind_none hit
  have few : (Scalar.sortDescending Hit.score (ix.hits q)).length ≤ (ix.count : Int).toNat := by
    rw [ranking.perm.length_eq, Int.toNat_natCast]
    exact ix.length_hits_le q
  have all : ix.rank q .content ix.count none = Scalar.sortDescending Hit.score (ix.hits q) := by
    rw [rank_eq_take made, every, List.take_of_length_le few]
  refine ⟨_, ?_, ranking, fun hit found => pos_of_mem_hits (ranking.mem_iff.1 found), ?_, fun maxResults kind => ?_⟩
  · rw [search, every, List.take_of_length_le few]
  · rw [← all]
    exact searchable.nodup_rank q .content ix.count none
  · rw [search, (isRanking_sortDescending Hit.score _).unique (ranking.filter (Hit.ofKind kind))]

/-! ## An index of two chunks with one text -/

/-- A field that has the text of the method beside it. -/
def twin : Chunk := { Chunk.plain "y" "beta(gamma)" with kind := .field }

noncomputable def twins : LexicalIndex ℝ :=
  ((Operation.insertBatch [.plain "x" "beta(gamma)", twin]).run.runOn
    (blank none (.real 1.5) (.real 0.75) (.ok 10)) Disk.blank).2.1

theorem grown_twins : twins.Grown fun c => c.unchecked = [] := by
  refine grown_of_blank (.insertBatch _) fun c hc => ?_
  rcases List.mem_pair.1 hc with rfl | rfl <;> rfl

/-- Of two chunks with one score the first comes first, and a limit of one leaves the other if its kind is asked for. -/
theorem search_limited_twins : ∃ score : ℝ, 0 < score ∧
    twins.search "Beta" 2 none
      = .ok [⟨.plain "x" "beta(gamma)", score⟩, ⟨twin, score⟩] ∧
    twins.search "Beta" 1 none = .ok [⟨.plain "x" "beta(gamma)", score⟩] ∧
    twins.search "Beta" 1 (some .field)
      = .ok [⟨twin, score⟩] ∧
    twins.search "Beta" (-1) none = .ok [] := by
  have parsed : Query.parse "Beta" = .ok ⟨firsts (Token.tokens "Beta"), [], [], []⟩ := Query.parse_words (by decide)
  obtain ⟨all, _, ranking, positive, _, limited⟩ := search_limited grown_twins parsed
  generalize eq : (⟨firsts (Token.tokens "Beta"), [], [], []⟩ : Query) = q at ranking
  have selects : ∀ c ∈ twins.chunks, q.selectsChunk c = true := by
    subst eq
    decide +kernel
  have hits : twins.hits q = [twins.hit q (.plain "x" "beta(gamma)"), twins.hit q twin] := by
    rw [(tuned_of_standard rfl rfl .content).hits_eq grown_twins.made.view.1, List.filter_eq_self.2 selects]
    rfl
  have same : (twins.hit q twin).score = (twins.hit q (.plain "x" "beta(gamma)")).score := rfl
  rw [hits] at ranking
  obtain rfl := ranking.unique (.of_pairwise (List.pairwise_pair.2 same.le))
  exact ⟨_, positive _ List.mem_cons_self, limited 2 none, limited 1 none, limited 1 (some .field), limited (-1) none⟩

end LexicalIndex

end CodeSearch
