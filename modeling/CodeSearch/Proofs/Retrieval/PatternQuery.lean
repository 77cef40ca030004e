import CodeSearch.Proofs.Firsts
import CodeSearch.Proofs.Query.Words
import CodeSearch.Proofs.Scalar
import CodeSearch.Proofs.Text.Codes
import CodeSearch.Retrieval.PatternQuery
/-!
# Queries from code can be read

The query for a fragment of code has nothing but identifiers and blanks: the first telling names of the fragment
(`selects_tellingIdentifiers`), and all names of a hint. A text without operators and quotes reads as its words, and so
does that (`parse_patternQuery`).
-/

namespace CodeSearch

namespace Retrieval

/-- A character of joined texts is one of the separator or of a text. -/
theorem mem_intercalate {separator : List Char} {texts : List (List Char)} {c : Char}
    (h : c ∈ separator.intercalate texts) : c ∈ separator ∨ ∃ text ∈ texts, c ∈ text := by
  induction texts with
  | nil => cases h
  | cons text texts ih =>
    cases texts with
    | nil => exact .inr ⟨text, List.mem_cons_self, by simpa using h⟩
    | cons next texts =>
      rw [List.intercalate_cons_cons, List.append_assoc, List.mem_append, List.mem_append] at h
      rcases h with here | between | later
      · exact .inr ⟨text, List.mem_cons_self, here⟩
      · exact .inl between
      · rcases ih later with between | ⟨other, there, mem⟩
        · exact .inl between
        · exact .inr ⟨other, List.mem_cons_of_mem _ there, mem⟩

theorem isPlain_of_identifiers {text name : String} (h : name ∈ identifiers text) :
    ∀ c ∈ name.toList, Query.IsPlain c := by
  obtain ⟨word, found, rfl⟩ := List.mem_map.1 h
  rw [String.toList_ofList]
  have shape := (List.mem_filter.1 found).2
  cases word with
  | nil => exact List.forall_mem_nil _
  | cons c rest =>
    rw [isIdentifier, Bool.and_eq_true, List.all_eq_true] at shape
    obtain ⟨first, others⟩ := shape
    refine List.forall_mem_cons.2
      ⟨Query.isPlain_of_identifierChar ?_, fun other ho => Query.isPlain_of_identifierChar (others other ho)⟩
    rw [Text.isIdentifierChar, first, Bool.true_or, Bool.true_or]

/-! ## The names that go into a query -/

theorem isTelling_iff {name : String} :
    isTelling name = true ↔ 3 ≤ name.length ∧ Text.lower name ∉ Vocabulary.reservedWords := by
  simp [isTelling]

/-- Some names of a fragment, up to a number: telling ones, each once, in the order in which they come first. One is
left out only if there are as many before it. -/
structure Selects (source : String) (count : ℤ) (names : List String) : Prop where
  few : names.length ≤ count
  once : names.Nodup
  ordered : names.Pairwise fun a b => (identifiers source).idxOf a < (identifiers source).idxOf b
  telling : ∀ name ∈ names, name ∈ identifiers source ∧ 3 ≤ name.length ∧ Text.lower name ∉ Vocabulary.reservedWords
  whole : ∀ name ∈ identifiers source, 3 ≤ name.length → Text.lower name ∉ Vocabulary.reservedWords →
    name ∈ names ∨ names.length = count ∧
      ∀ before ∈ names, (identifiers source).idxOf before < (identifiers source).idxOf name

theorem selects_tellingIdentifiers (source : String) (count : ℕ) :
    Selects source count (tellingIdentifiers source count) := by
  have ordered := (firsts_pairwise_idxOf (identifiers source)).filter isTelling
  have mem_iff (name : String) : name ∈ (firsts (identifiers source)).filter isTelling ↔
      name ∈ identifiers source ∧ 3 ≤ name.length ∧ Text.lower name ∉ Vocabulary.reservedWords := by
    rw [List.mem_filter, mem_firsts, isTelling_iff]
  rw [tellingIdentifiers, upTo_natCast]
  generalize (firsts (identifiers source)).filter isTelling = all at ordered mem_iff
  have first := ordered.sublist (List.take_sublist count all)
  refine ⟨?_, first.imp fun {a b} before => ?_, first, fun name hn => (mem_iff name).1 (List.mem_of_mem_take hn),
    fun name hn long free => ?_⟩
  · exact_mod_cast List.length_take_le count all
  · rintro rfl
    exact lt_irrefl _ before
  · have there := (mem_iff name).2 ⟨hn, long, free⟩
    rw [← List.take_append_drop count all] at there ordered
    refine (List.mem_append.1 there).imp_right fun later => ⟨?_, fun before hb => ?_⟩
    · have more := List.length_pos_of_mem later
      rw [List.length_drop] at more
      rw [List.length_take]
      omega
    · exact (List.pairwise_append.1 ordered).2.2 before hb name later

/-! ## The query -/

theorem patternQuery_eq (source : String) (hint : Option String) (maxIdentifiers : ℤ) :
    patternQuery source hint maxIdentifiers
      = " ".intercalate (tellingIdentifiers source maxIdentifiers ++ identifiers (hint.getD "")) := by
  rw [patternQuery]
  congr 2
  cases hint with
  | none => rfl
  | some hint =>
    by_cases empty : hint = ""
    · subst empty
      rfl
    · simp [Chunk.nonEmpty?, Option.filter, empty]

theorem isPlain_patternQuery (source : String) (hint : Option String) (maxIdentifiers : ℤ) :
    ∀ c ∈ (patternQuery source hint maxIdentifiers).toList, Query.IsPlain c := by
  intro c hc
  rw [patternQuery_eq, String.toList_intercalate] at hc
  rcases mem_intercalate hc with blank | ⟨text, there, mem⟩
  · rw [List.mem_singleton.1 blank]
    exact ⟨by decide, by decide, by decide⟩
  · obtain ⟨name, named, rfl⟩ := List.mem_map.1 there
    -- a name is one of the fragment or one of the hint
    rcases List.mem_append.1 named with telling | hinted
    · have selected := mem_of_mem_upTo telling
      exact isPlain_of_identifiers (mem_firsts.1 (List.mem_of_mem_filter selected)) c mem
    · exact isPlain_of_identifiers hinted c mem

/-- The query for a fragment of code reads as a query, whatever the fragment is. -/
theorem parse_patternQuery (source : String) (hint : Option String) (maxIdentifiers : ℤ) :
    Query.parse (patternQuery source hint maxIdentifiers)
      = .ok ⟨firsts (Token.tokens (patternQuery source hint maxIdentifiers)), [], [], []⟩ :=
  Query.parse_words (isPlain_patternQuery source hint maxIdentifiers)

end Retrieval

end CodeSearch
