import CodeSearch.Proofs.Query.Conserved
/-!
# Queries of words, and of one phrase

A text without operators and quotes reads as words that may occur, and they have the tokens of the text
(`parse_words`). A text in quotes reads as one phrase, if it has tokens (`parse_quoted`).
-/

namespace CodeSearch.Query

/-- A character that a query may have in any place: no operator and no quote. -/
def IsPlain (c : Char) : Prop := c ≠ '+' ∧ c ≠ '-' ∧ c ≠ '"'
deriving Decidable

theorem isPlain_of_identifierChar {c : Char} (h : Text.isIdentifierChar c = true) : IsPlain c := by
  refine ⟨?_, ?_, ?_⟩ <;>
  · rintro rfl
    revert h
    decide

theorem IsPlain.not_sign {c : Char} (h : IsPlain c) : c ∉ signs := by
  simpa [signs, IsPlain] using h

/-! ## Words -/

/-- A clause of a word without operator. -/
def IsWord (clause : Clause) : Prop := clause = .optional clause.optionalTokens

theorem IsWord.optionalTokens {clause : Clause} (h : IsWord clause) : clause.optionalTokens = clause.tokens := by
  rw [h]
  rfl

theorem Term.isWord {piece rest : List Char} {clause : Clause} (h : Term piece clause rest)
    (plain : ∀ c ∈ piece, IsPlain c) : IsWord clause := by
  cases h with
  | @word operator c word _ opens start within ends =>
    cases operator with
    | none => rfl
    | plus => exact absurd (by decide) (plain '+' List.mem_cons_self).not_sign
    | minus => exact absurd (by decide) (plain '-' List.mem_cons_self).not_sign
  | phrase => exact absurd (by decide) (plain '"' (by simp)).not_sign

/-- A text of plain characters reads as words alone. -/
theorem Reads.words {position : Nat} {text : List Char} {result : Except (Issue × Nat) (List Clause)}
    (h : Reads position text result) (plain : ∀ c ∈ text, IsPlain c) :
    ∃ clauses, result = .ok clauses ∧ ∀ clause ∈ clauses, IsWord clause := by
  induction h with
  | done => exact ⟨[], rfl, List.forall_mem_nil _⟩
  | skip _ _ ih => exact ih (List.forall_mem_cons.1 plain).2
  | @term position piece rest clause result term _ ih =>
    obtain ⟨own, others⟩ := List.forall_mem_append.1 plain
    obtain ⟨clauses, rfl, words⟩ := ih others
    exact ⟨clause :: clauses, rfl, List.forall_mem_cons.2 ⟨term.isWord own, words⟩⟩
  | fault breaks =>
    -- every issue is about an operator or a quote
    obtain ⟨before, c, sign, rest, rfl, _⟩ := breaks.place
    exact absurd sign (plain c (by simp)).not_sign

theorem parse_words {text : String} (plain : ∀ c ∈ text.toList, IsPlain c) :
    parse text = .ok ⟨firsts (Token.tokens text), [], [], []⟩ := by
  obtain ⟨result, reads⟩ := exists_reads 0 text.toList
  obtain ⟨clauses, rfl, words⟩ := reads.words plain
  refine parse_eq_ok.2 ⟨clauses, reads, ?_⟩
  have tokens : clauses.flatMap Clause.optionalTokens = Token.tokens text :=
    (List.flatMap_congr fun clause hc => (words clause hc).optionalTokens).trans (reads.tokens rfl)
  have nothing {β : Type} (f : Clause → List β) (none : ∀ tokens, f (.optional tokens) = []) :
      clauses.flatMap f = [] := by
    refine List.flatMap_eq_nil_iff.2 fun clause hc => ?_
    rw [words clause hc]
    exact none _
  have phrases : clauses.filterMap Clause.phrase? = [] := by
    refine List.filterMap_eq_nil_iff.2 fun clause hc => ?_
    rw [words clause hc]
    rfl
  simp only [ofClauses, tokens, nothing Clause.requiredTokens fun _ => rfl, nothing Clause.excludedTokens fun _ => rfl,
    phrases]
  rfl

theorem parse_of_plain {text : String} (plain : ∀ c ∈ text.toList, IsPlain c) : ∃ q, parse text = .ok q :=
  ⟨_, parse_words plain⟩

/-! ## Phrases -/

/-- A text with tokens and without quotes reads as a phrase if it is put in quotes. -/
theorem parse_quoted {text : String} (noQuote : '"' ∉ text.toList) (some : Token.tokens text ≠ []) :
    parse ("\"" ++ text ++ "\"") = .ok ⟨[], [], [], [Token.tokens text]⟩ := by
  have phrase : Term (Operator.none.sign ++ '"' :: (text.toList ++ ['"'])) (.phrase (Token.tokens text)) [] :=
    .phrase noQuote some
  have shape : ("\"" ++ text ++ "\"").toList = Operator.none.sign ++ '"' :: (text.toList ++ ['"']) ++ [] := by
    simp [Operator.sign]
  refine parse_eq_ok.2 ⟨[.phrase (Token.tokens text)], ?_, rfl⟩
  rw [shape]
  exact .term phrase .done

end CodeSearch.Query
