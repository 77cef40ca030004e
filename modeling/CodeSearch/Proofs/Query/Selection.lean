import CodeSearch.Proofs.Firsts
import CodeSearch.Query.Basic
/-!
# What a query selects

The conditions of a query on a list of tokens, one by one (`selects_iff`), and what they come to for a query of words
and for one of a single phrase.
-/

namespace CodeSearch

theorem containsRun_iff {α : Type} [BEq α] [LawfulBEq α] {run items : List α} :
    containsRun run items = true ↔ run <:+: items := by
  induction items with
  | nil => rw [containsRun, List.isEmpty_iff, List.infix_nil]
  | cons a items ih => rw [containsRun, Bool.or_eq_true, List.isPrefixOf_iff_prefix, ih, List.infix_cons_iff]

namespace Query

variable {q : Query} {tokens : List String}

theorem selects_iff : q.selects tokens = true ↔
    (∃ term ∈ q.positiveTerms, term ∈ tokens) ∧ (∀ term ∈ q.required, term ∈ tokens) ∧
      (∀ term ∈ q.excluded, term ∉ tokens) ∧ ∀ phrase ∈ q.phrases, phrase <:+: tokens := by
  simp [selects, containsRun_iff, and_assoc]

/-- An empty query selects nothing. -/
theorem selects_of_isEmpty (h : q.isEmpty = true) (tokens : List String) : q.selects tokens = false := by
  rw [isEmpty, List.isEmpty_iff] at h
  rw [← Bool.not_eq_true, selects_iff, h]
  simp

/-- Words select what has the token of one of them. -/
theorem selects_words {terms : List String} :
    (⟨firsts terms, [], [], []⟩ : Query).selects tokens = true ↔ ∃ term ∈ terms, term ∈ tokens := by
  simp [selects_iff, positiveTerms, mem_firsts]

/-- A phrase selects what has its tokens side by side. -/
theorem selects_phrase {phrase : List String} (some : phrase ≠ []) :
    (⟨[], [], [], [phrase]⟩ : Query).selects tokens = true ↔ phrase <:+: tokens := by
  have positive (run : phrase <:+: tokens) : ∃ term ∈ phrase, term ∈ tokens := by
    obtain ⟨term, there⟩ := List.exists_mem_of_ne_nil phrase some
    exact ⟨term, there, run.subset there⟩
  simpa [selects_iff, positiveTerms, mem_firsts] using positive

end Query

end CodeSearch
