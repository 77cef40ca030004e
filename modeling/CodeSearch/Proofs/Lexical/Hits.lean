import CodeSearch.Proofs.Lexical.Stock
import CodeSearch.Proofs.Scalar
/-!
# What searches find in the lexical index

Entries stand under the ids of their chunks (`Filed`), and whatever operations an index has been through and whatever
has become of its writes (`Lived`), a search reads a list of entries with one for each id (`Lived.isSearchable`). So all
hits of a search can be told, and no id is hit twice (`ranked_ok`).
-/

namespace CodeSearch

namespace Lexical

/-- Each entry stands under the id of its chunk, in which nothing was set without a check. -/
def Filed (entries : Keyed String Entry) : Prop :=
  ∀ item ∈ entries.items, item.1 = item.2.chunk.id ∧ item.2.chunk.unchecked = []

/-- The entries are of different ids, and in their chunks nothing was set without a check. -/
structure Distinct (entries : List Entry) : Prop where
  ids : (entries.map fun e => e.chunk.id).Nodup
  checked : ∀ e ∈ entries, e.chunk.unchecked = []

end Lexical

namespace LexicalIndex

open Lexical CodeSearch.Action

variable {α : Type}

/-! ## Indexes that can be searched -/

/-- What there is to search is as it should be, and the parameters can be computed with. -/
structure IsSearchable (ix : LexicalIndex α) : Prop where
  entries : Filed ix.entries
  snapshot : Distinct ix.snapshot.entries
  fit : ix.unfit = []

/-- An index that can be searched is one that holds entries of chunks in which nothing was set without a check. -/
theorem isSearchable_iff {ix : LexicalIndex α} :
    ix.IsSearchable ↔ ix.Stocked fun e => e.chunk.unchecked = [] :=
  ⟨fun h => ⟨h.entries, h.snapshot.checked, h.snapshot.ids, h.fit⟩, fun h => ⟨h.entries, ⟨h.ids, h.snapshot⟩, h.fit⟩⟩

theorem IsSearchable.view {ix : LexicalIndex α} (h : ix.IsSearchable) : Distinct ix.view.entries :=
  ⟨(isSearchable_iff.1 h).view.2, (isSearchable_iff.1 h).view.1⟩

/-- An index that was opened with parameters that can be computed with, and what operations and searches make of one. The
chunks are ones in which nothing was set without a check; the disks, and what becomes of the writes, may be anything. -/
inductive Lived : LexicalIndex α → Prop where
  | opened {ix : LexicalIndex α} (directory : Option Path) (k1 b : Parameter α) (maxSegments : Except Fault Int) (d : Disk)
      (opened : openAt directory k1 b maxSegments [] d = .ok ix) : Lived ix
  | operation {ix : LexicalIndex α} (h : Lived ix) (op : Operation) (checked : ∀ c ∈ op.chunks, c.unchecked = [])
      (d : Disk) : Lived (op.run.runOn ix d).2.1
  | inserted {ix : LexicalIndex α} (h : Lived ix) {entries : List Entry}
      (checked : ∀ e ∈ entries, e.chunk.unchecked = []) (d : Disk) : Lived ((insertPrepared entries).runOn ix d).2.1
  | searched {ix : LexicalIndex α} (h : Lived ix) : Lived ix.refreshed

theorem Lived.isSearchable {ix : LexicalIndex α} (h : Lived ix) : ix.IsSearchable := by
  rw [isSearchable_iff]
  induction h with
  | opened directory k1 b maxSegments d opened => exact .of_openAt (fun _ checked => checked) opened
  | operation _ op checked d ih => exact Stocked.keeps_operation op checked _ d ih
  | inserted _ checked d ih => exact Stocked.keeps_insertPrepared checked _ d ih
  | searched _ ih => exact ih.refreshed

/-! ## Hits -/

theorem checked_hit {hit : Hit α} (h : hit.chunk.unchecked = []) : hit.checked = .ok hit := by
  rw [Hit.checked, Chunk.hitIssues_of_checked h]
  rfl

/-- The chunks of hits are chunks of entries, each no more often. -/
theorem rank_subperm (ix : LexicalIndex ℝ) (q : Query) (field : Field) (maxResults : Int) (kind : Option ChunkKind) :
    ((ix.rank q field maxResults kind).map Hit.chunk).Subperm (ix.view.entries.map Entry.chunk) := by
  unfold rank
  split
  · exact List.nil_subperm
  · split
    · exact List.nil_subperm
    next m model =>
      have corpus : m.corpus.length = ix.view.entries.length := by
        rw [model?] at model
        split at model
        · cases model
        · injection model with model
          rw [← model, List.length_map]
      have all : (ix.view.entries.zip (m.scores q.positiveTerms)).map (fun pair => pair.1.chunk)
          = ix.view.entries.map Entry.chunk := by
        have first := @List.map_fst_zip _ _ ix.view.entries (m.scores q.positiveTerms)
          (by rw [Bm25.scores, List.length_map, corpus])
        conv_rhs => rw [← first, List.map_map]
        rfl
      rw [List.map_map, ← all]
      -- the first, of those sorted, of those selected
      refine map_subperm ?_ _
      refine (List.take_sublist _ _).subperm.trans ?_
      exact (Scalar.perm_sortDescending _ _).subperm.trans List.filter_sublist.subperm

section Searchable
variable {ix : LexicalIndex ℝ} (h : ix.IsSearchable) (q : Query) (field : Field) (maxResults : Int)
  (kind : Option ChunkKind)
include h

/-- No id is found twice. -/
theorem IsSearchable.nodup_rank : ((ix.rank q field maxResults kind).map fun hit => hit.chunk.id).Nodup := by
  have ids := map_subperm (ix.rank_subperm q field maxResults kind) Chunk.id
  rw [List.map_map, List.map_map] at ids
  exact nodup_of_subperm ids h.view.ids

/-- What is found is the chunk of an entry. -/
theorem IsSearchable.mem_rank {hit : Hit ℝ} (found : hit ∈ ix.rank q field maxResults kind) :
    hit.chunk.unchecked = [] ∧ ∃ e ∈ ix.view.entries, e.chunk = hit.chunk := by
  obtain ⟨e, there, same⟩ := List.mem_map.1 ((ix.rank_subperm q field maxResults kind).subset (List.mem_map_of_mem found))
  exact ⟨same ▸ h.view.checked e there, e, there, same⟩

/-- All hits can be told. -/
theorem IsSearchable.ranked_ok : ix.ranked q field maxResults kind = .ok (ix.rank q field maxResults kind) := by
  have told := mapM_ok fun hit found => checked_hit (h.mem_rank q field maxResults kind found).1
  rw [ranked, h.fit, Unfit.check_nil, told, List.map_id']
  split <;> rfl

/-- What was found can be had under its id. -/
theorem IsSearchable.chunk?_of_mem_rank {hit : Hit ℝ} (found : hit ∈ ix.rank q field maxResults kind) :
    ∃ c, ix.chunk? hit.chunk.id = some c ∧ c.id = hit.chunk.id ∧ c.unchecked = [] := by
  obtain ⟨_, e, there, same⟩ := h.mem_rank q field maxResults kind found
  cases first : ix.view.entries.find? fun e => e.chunk.id = hit.chunk.id with
  | none =>
    have differ := List.find?_eq_none.1 first e there
    rw [same] at differ
    exact absurd (decide_eq_true rfl) differ
  | some other =>
    refine ⟨other.chunk, by rw [chunk?, first, Option.map_some], ?_, ?_⟩
    · simpa using List.find?_some first
    · exact h.view.checked other (List.mem_of_find?_eq_some first)

end Searchable

end LexicalIndex

end CodeSearch
