import CodeSearch.Proofs.Lexical.Faults
import CodeSearch.Proofs.Lexical.Ranking
import CodeSearch.Proofs.Query.Words
/-!
# Searches and deletions by one query

A search for as many hits as there are chunks finds the chunks that its query selects, and a deletion by the query takes
out just these, if the snapshot that it reads is not out of date (`search_delete_agree`).
-/

namespace CodeSearch

/-- A query selects a chunk by the tokens of its searchable text. -/
def Query.selectsChunk (q : Query) (c : Chunk) : Bool := q.selects (Token.tokens c.searchableText)

namespace LexicalIndex

open Lexical CodeSearch.Action

section
variable {α : Type} {ix : LexicalIndex α} {q : Query}

/-- The entries that a query selects, in the order of the index. -/
def selected (ix : LexicalIndex α) (q : Query) : List Entry := ix.entries.values.filter fun e => q.selects e.tokens

/-- What a deletion leaves, and its answer: the index is without what the query selects, and the answer says how much
that is. If the deletion has to be written and the commit fails, the answer is the fault of the commit, but the entries
are gone all the same. -/
structure Deleted (ix : LexicalIndex α) (d : Disk) (q : Query) (answer : Except Fault Nat) (ix' : LexicalIndex α)
    (d' : Disk) : Prop where
  current : ix'.IsCurrent
  entries : ix'.entries = ix.entries.filter fun item => !q.selects item.2.tokens
  told : answer = .ok (ix.selected q).length ∨ ix.selected q ≠ [] ∧ ix.directory.isSome ∧
    ∃ fault ix₁, answer = .error fault ∧ commit.runOn ix₁ d = (.error fault, ix', d')

theorem Deleted.of_selected_nil (none : ix.selected q = []) {ix' : LexicalIndex α} (current : ix'.IsCurrent)
    (same : ix'.entries = ix.entries) (d : Disk) : Deleted ix d q (.ok 0) ix' d where
  current := current
  entries := by
    rw [same, filter_none (p := fun e => q.selects e.tokens)]
    exact List.isEmpty_iff.2 (List.map_eq_nil_iff.2 none)
  told := .inl (by rw [none]; rfl)

theorem deleted_deleteSelected (current : ix.IsCurrent) (filed : ∀ item ∈ ix.entries.items, item.1 = item.2.chunk.id)
    (q : Query) (d : Disk) :
    ∃ answer ix' d', (deleteSelected q).runOn ix d = (answer, ix', d') ∧ Deleted ix d q answer ix' d' := by
  have view : ix.refreshed.view.entries = ix.entries.values := current.refreshed.view
  have run : (deleteSelected q).runOn ix d = if q.isEmpty then (.ok 0, ix, d)
      else if ((ix.selected q).map fun e => e.chunk.id).isEmpty then (.ok 0, ix.refreshed, d)
      else (do commit; return ((ix.selected q).map fun e => e.chunk.id).length : Action (LexicalIndex α) Nat).runOn
        (((ix.selected q).map fun e => e.chunk.id).foldl deleted ix.refreshed).advanced d := by
    rw [runOn_deleteSelected, view]
    rfl
  rw [run]
  by_cases asked : q.isEmpty = true
  · have none : ix.selected q = [] := List.filter_eq_nil_iff.2 fun e _ => by simp [Query.selects_of_isEmpty asked]
    rw [if_pos asked]
    exact ⟨.ok 0, ix, d, rfl, .of_selected_nil none current rfl d⟩
  rw [if_neg asked]
  by_cases none : ix.selected q = []
  · rw [none, if_pos (by rfl)]
    exact ⟨.ok 0, ix.refreshed, d, rfl, .of_selected_nil none current.refreshed rfl d⟩
  have doomed : ¬ ((ix.selected q).map fun e => e.chunk.id).isEmpty = true := by simpa using none
  rw [if_neg doomed, runOn_bind_pure, List.length_map]
  -- the generation is counted on before the commit, so that searches see the deletion whatever becomes of the commit
  obtain ⟨changes, gone, _⟩ := foldl_deleted ((ix.selected q).map fun e => e.chunk.id) ix.refreshed
  generalize eq : (((ix.selected q).map fun e => e.chunk.id).foldl deleted ix.refreshed).advanced = ix₁
  have erased : ix₁.entries = ix.entries.filter fun item => !q.selects item.2.tokens := by
    rw [← eq, gone]
    exact foldl_erase filed fun e => q.selects e.tokens
  have moved : ix₁.IsCurrent := by
    rw [← eq, gone]
    exact current.refreshed.moved rfl rfl
  have directory : ix₁.directory = ix.directory := by
    rw [← eq, gone]
    rfl
  obtain ⟨current', entries⟩ := (IsCurrent.steady.and (.entries ix₁.entries)).keeps_commit ix₁ d ⟨moved, rfl⟩
  generalize committed : commit.runOn ix₁ d = after at current' entries
  obtain ⟨answer, ix', d'⟩ := after
  refine ⟨_, ix', d', rfl, current', entries.trans erased, ?_⟩
  cases answer with
  | ok _ => exact .inl rfl
  | error fault =>
    refine .inr ⟨none, ?_, fault, ix₁, rfl, committed⟩
    cases nowhere : ix.directory with
    | some _ => rfl
    | none =>
      rw [runOn_commit_none (directory.trans nowhere)] at committed
      cases committed

/-- After a deletion nothing is selected any more. -/
theorem Deleted.selected_nil {d d' : Disk} {answer : Except Fault Nat} {ix' : LexicalIndex α}
    (h : Deleted ix d q answer ix' d') : ix'.selected q = [] := by
  refine List.filter_eq_nil_iff.2 fun e he => ?_
  obtain ⟨item, hi, rfl⟩ := List.mem_map.1 he
  rw [h.entries] at hi
  simpa using (List.mem_filter.1 hi).2

theorem runOn_deleteByQuery {text : String} (parsed : Query.parse text = .ok q) (ix : LexicalIndex α) (d : Disk) :
    (deleteByQuery text).runOn ix d = (deleteSelected q).runOn ix d := by
  rw [deleteByQuery, parsed]
  rfl

/-- Deleting again at once tells that nothing was there. -/
theorem Deleted.again (filed : ∀ item ∈ ix.entries.items, item.1 = item.2.chunk.id) {d d' : Disk}
    {answer : Except Fault Nat} {ix' : LexicalIndex α} (h : Deleted ix d q answer ix' d') (d'' : Disk) :
    ((deleteSelected q).runOn ix' d'').1 = .ok 0 := by
  have filed' : ∀ item ∈ ix'.entries.items, item.1 = item.2.chunk.id := fun item hi => by
    rw [h.entries] at hi
    exact filed item (List.mem_filter.1 hi).1
  obtain ⟨answer, _, _, run, again⟩ := deleted_deleteSelected h.current filed' q d''
  rw [run]
  rcases again.told with told | ⟨some, _⟩
  · rw [told, h.selected_nil]
    rfl
  · exact absurd h.selected_nil some

end

/-! ## By the chunks -/

/-- Entries that are chosen by their tokens are those whose chunks are chosen. -/
theorem map_filter_of_made {entries : List Entry} (made : ∀ e ∈ entries, e = .ofChunk e.chunk) (keep : List String → Bool) :
    (entries.filter fun e => keep e.tokens).map Entry.chunk
      = (entries.map Entry.chunk).filter fun c => keep (Token.tokens c.searchableText) := by
  rw [List.filter_map]
  congr 1
  refine List.filter_congr fun e he => ?_
  exact congrArg keep (congrArg Entry.tokens (made e he))

/-- A search for as many hits as there are chunks finds the chunks that the query selects. A deletion by the query takes
out these, leaves the others in their order, and tells how many it took out, unless it has to be written and the commit
fails. After it nothing is left to be deleted. -/
theorem search_delete_agree {ix : LexicalIndex ℝ} (grown : Grown (fun c => c.unchecked = []) ix)
    (tuned : ix.IsTuned .content) {text : String} {q : Query} (parsed : Query.parse text = .ok q) :
    (∀ maxResults : Int, ix.count ≤ maxResults → ∃ hits, ix.search text maxResults none = .ok hits ∧
      (hits.map Hit.chunk).Perm (ix.chunks.filter q.selectsChunk)) ∧
    (Grown (fun c => c.unchecked = [] ∧ c.IsShallow) ix → ∀ d, ∃ answer ix' d',
      (deleteByQuery text).runOn ix d = (answer, ix', d') ∧
      ix'.chunks = ix.chunks.filter (fun c => !q.selectsChunk c) ∧
      (answer = .ok (ix.chunks.filter q.selectsChunk).length ∨
        ix.directory.isSome ∧ ∃ fault ix₁, answer = .error fault ∧ commit.runOn ix₁ d = (.error fault, ix', d')) ∧
      ∀ d'', ((deleteByQuery text).runOn ix' d'').1 = .ok 0) := by
  have searchable := (grown.lived fun _ checked => checked).isSearchable
  have made := grown.made
  have chosen : (ix.view.entries.filter fun e => q.selects e.tokens).map Entry.chunk = ix.chunks.filter q.selectsChunk :=
    map_filter_of_made made.view.1 q.selects
  constructor
  · intro maxResults all
    obtain ⟨hits, found, same⟩ := tuned.search_perm searchable parsed all
    exact ⟨hits, found, chosen ▸ same⟩
  · intro good d
    have current := good.isCurrent fun _ good => good
    have filed : ∀ item ∈ ix.entries.items, item.1 = item.2.chunk.id := fun item hi => (made.entries item hi).1
    obtain ⟨answer, ix', d', run, after⟩ := deleted_deleteSelected current filed q d
    have number : (ix.selected q).length = (ix.chunks.filter q.selectsChunk).length := by
      rw [← chosen, List.length_map, current.view]
      rfl
    refine ⟨answer, ix', d', (runOn_deleteByQuery parsed ix d).trans run, ?_, ?_, fun d'' => ?_⟩
    · have left : ix'.entries.values = ix.entries.values.filter fun e => !q.selects e.tokens := by
        rw [after.entries, Keyed.values, Keyed.values, List.filter_map]
        rfl
      rw [chunks, chunks, after.current.view, current.view, left]
      exact map_filter_of_made made.entries.values fun tokens => !q.selects tokens
    · rw [← number]
      exact after.told.imp_right And.right
    · rw [runOn_deleteByQuery parsed]
      exact after.again filed d''

/-- Four chunks, the first and the third with a word in common. -/
def assorted : List Chunk :=
  [.plain "x" "alpha = beta(gamma)", .plain "y" "delta", .plain "z" "Beta()", .plain "w" "epsilon"]

noncomputable def mixed : LexicalIndex ℝ :=
  ((Operation.insertBatch assorted).run.runOn (blank none (.real 1.5) (.real 0.75) (.ok 10)) Disk.blank).2.1

/-- A search finds the two chunks that hold the word. A deletion takes them out, and leaves the others in their order. -/
theorem search_delete_agree_mixed :
    (∃ hits, mixed.search "Beta" 4 none = .ok hits ∧
      (hits.map Hit.chunk).Perm [.plain "x" "alpha = beta(gamma)", .plain "z" "Beta()"]) ∧
    ∃ ix' d', (deleteByQuery "Beta").runOn mixed Disk.blank = (.ok 2, ix', d') ∧
      ix'.chunks = [.plain "y" "delta", .plain "w" "epsilon"] ∧
      ∀ d'', ((deleteByQuery "Beta").runOn ix' d'').1 = .ok 0 := by
  have parsed : Query.parse "Beta" = .ok ⟨firsts (Token.tokens "Beta"), [], [], []⟩ := Query.parse_words (by decide)
  have grown : mixed.Grown fun c => c.unchecked = [] ∧ c.IsShallow := by
    refine grown_of_blank (.insertBatch assorted) ?_
    simp only [Operation.chunks, assorted, List.forall_mem_cons]
    exact ⟨⟨rfl, Nat.zero_le _⟩, ⟨rfl, Nat.zero_le _⟩, ⟨rfl, Nat.zero_le _⟩, ⟨rfl, Nat.zero_le _⟩, List.forall_mem_nil _⟩
  have chunks : mixed.chunks = assorted := rfl
  have chosen : assorted.map (Query.selectsChunk ⟨firsts (Token.tokens "Beta"), [], [], []⟩)
      = [true, false, true, false] := by decide +kernel
  simp only [assorted, List.map_cons, List.map_nil, List.cons.injEq] at chosen
  obtain ⟨x, y, z, w, _⟩ := chosen
  obtain ⟨found, deleted⟩ := search_delete_agree (grown.mono fun _ => And.left) (tuned_of_standard rfl rfl _) parsed
  obtain ⟨answer, ix', d', run, left, told, again⟩ := deleted grown Disk.blank
  rw [chunks] at found left told
  simp only [assorted, List.filter_cons, List.filter_nil, x, y, z, w, if_true, Bool.not_true, Bool.not_false,
    Bool.false_eq_true, if_false] at found left told
  refine ⟨found 4 le_rfl, ix', d', ?_, left, again⟩
  rcases told with rfl | ⟨stored, _⟩
  · exact run
  · cases stored

end LexicalIndex

end CodeSearch
