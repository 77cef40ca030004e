import CodeSearch.Proofs.Firsts
import CodeSearch.Proofs.Query.Grammar
import CodeSearch.Proofs.Text.Codes
/-!
# No token of a query text is lost

The tokens of the clauses, one clause after the other, are those of the text (`Reads.tokens`), and what is told of a text
that cannot be read is the place of an operator or a quote in it (`Reads.place`). So a query has just the tokens of its
text, or there is none (`parse_conserves`).
-/

namespace CodeSearch

namespace Text

/-- The code of a character that stands for itself is found behind the codes of what is before it. -/
theorem codes_at (before : List Char) {c : Char} (plain : c ≠ mark) (own : half? c = none) (rest : List Char) :
    (codes (before ++ c :: rest))[(codes before).length]? = some c.toNat := by
  induction before using codes.induct with
  | case1 => simp [codes_cons plain, own, codes]
  | case2 =>
    -- a mark at the end says no more than that the character is meant itself
    simp [codes]
  | case3 d noMark => simp [codes_cons noMark, codes_cons plain, own, codes, noMark]
  | case4 d more ih => simpa [codes_mark] using ih
  | case5 d e more noMark ih => simpa [codes_cons noMark] using ih

end Text

/-- All tokens of a clause. -/
def Clause.tokens : Clause → List String
  | .optional tokens | .required tokens | .excluded tokens | .phrase tokens => tokens

namespace Query

/-- All tokens of a query, of what kind they may be. -/
def tokens (q : Query) : List String := q.optional ++ q.required ++ q.excluded ++ q.phrases.flatten

/-! ## Tokens of the clauses -/

@[simp]
theorem tokens_wordClause (operator : Operator) (tokens : List String) : (operator.wordClause tokens).tokens = tokens := by
  cases operator <;> rfl

@[simp]
theorem tokens_phraseClause (operator : Operator) (tokens : List String) :
    (operator.phraseClause tokens).tokens = tokens := by
  cases operator <;> rfl

theorem termTokens_cons {c : Char} (outside : Text.isIdentifierChar c = false) (rest : List Char) :
    termTokens (c :: rest) = termTokens rest :=
  Token.tokenize_cons {} outside rest

theorem termTokens_sign (operator : Operator) (rest : List Char) : termTokens (operator.sign ++ rest) = termTokens rest := by
  cases operator with
  | none => rfl
  | plus => exact termTokens_cons (by decide) rest
  | minus => exact termTokens_cons (by decide) rest

theorem Skipped.outside {position : Nat} {c : Char} {rest : List Char} (h : Skipped position c rest) :
    Text.isIdentifierChar c = false := by
  cases h with
  | blank blank => exact Text.not_isIdentifierChar_of_isBlank blank
  | alone operator => rcases operator with rfl | rfl <;> decide

/-- No identifier goes on where a word of a query ends. -/
theorem boundary_of_starts {rest : List Char} (ends : Text.Starts inWord rest) (word : List Char) :
    Text.Boundary word rest := by
  refine .inr fun c first => ?_
  have outside := ends c first
  by_cases quote : c = '"'
  · subst quote
    decide
  · have blank : Text.isBlank c = true := by simpa [inWord, quote] using outside
    exact Text.not_isIdentifierChar_of_isBlank blank

/-- A term has the tokens of its clause, and the text behind it has its own. -/
theorem Term.tokens {piece rest : List Char} {clause : Clause} (h : Term piece clause rest) :
    termTokens (piece ++ rest) = clause.tokens ++ termTokens rest := by
  cases h with
  | @word operator c word _ opens start within ends =>
    rw [List.append_assoc, termTokens_sign, tokens_wordClause]
    exact Token.tokenize_append {} (boundary_of_starts ends _)
  | @phrase operator body _ noQuote some =>
    have boundary : Text.Boundary body ('"' :: rest) := .inr fun c first => by
      obtain rfl : '"' = c := Option.some.inj first
      decide
    rw [List.append_assoc, List.cons_append, List.append_assoc, List.singleton_append, termTokens_sign,
      termTokens_cons (by decide), tokens_phraseClause]
    exact (Token.tokenize_append {} boundary).trans (congrArg _ (termTokens_cons (by decide) rest))

/-- The clauses have the tokens of the text, in its order. -/
theorem Reads.tokens {position : Nat} {text : List Char} {result : Except (Issue × Nat) (List Clause)}
    (h : Reads position text result) {clauses : List Clause} (read : result = .ok clauses) :
    clauses.flatMap Clause.tokens = termTokens text := by
  induction h generalizing clauses with
  | done =>
    cases read
    rfl
  | skip skipped _ ih => rw [ih read, termTokens_cons skipped.outside]
  | @term _ piece rest clause result term _ ih =>
    cases result with
    | error issue => cases read
    | ok later =>
      cases read
      rw [List.flatMap_cons, ih rfl, term.tokens]
  | fault => cases read

/-! ## Places of issues -/

/-- The characters that issues are about. -/
def signs : List Char := ['+', '-', '"']

theorem Breaks.place {position offset : Nat} {text : List Char} {issue : Issue} (h : Breaks position text issue offset) :
    ∃ before, ∃ c ∈ signs, ∃ rest, text = before ++ c :: rest ∧ offset = before.length := by
  cases h with
  | @dangling c rest operator lost =>
    have sign : c ∈ signs := by rcases operator with rfl | rfl <;> decide
    exact ⟨[], c, sign, rest, rfl, rfl⟩
  | @unbalanced operator rest _ => exact ⟨operator.sign, '"', by decide, rest, rfl, rfl⟩
  | @emptyPhrase operator body rest _ _ => exact ⟨operator.sign, '"', by decide, body ++ '"' :: rest, rfl, rfl⟩

/-- An issue has its place in the text, at an operator or a quote. -/
theorem Reads.place {position place : Nat} {text : List Char} {result : Except (Issue × Nat) (List Clause)}
    (h : Reads position text result) {issue : Issue} (failed : result = .error (issue, place)) :
    ∃ before, ∃ c ∈ signs, ∃ rest, text = before ++ c :: rest ∧ place = position + before.length := by
  induction h with
  | done => cases failed
  | @skip _ c _ _ _ _ ih =>
    obtain ⟨before, d, sign, rest, rfl, rfl⟩ := ih failed
    exact ⟨c :: before, d, sign, rest, rfl, by simp [Nat.add_assoc, Nat.add_comm 1]⟩
  | @term _ piece _ _ result _ _ ih =>
    cases result with
    | ok later => cases failed
    | error issue' =>
      cases failed
      obtain ⟨before, d, sign, rest, rfl, rfl⟩ := ih rfl
      exact ⟨piece ++ before, d, sign, rest, by simp, by simp [Nat.add_assoc]⟩
  | fault breaks =>
    cases failed
    obtain ⟨before, d, sign, rest, rfl, rfl⟩ := breaks.place
    exact ⟨before, d, sign, rest, rfl, rfl⟩

/-! ## Tokens of the query -/

/-- A token of a query is one of a clause. -/
theorem mem_tokens_ofClauses {clauses : List Clause} {token : String} :
    token ∈ (ofClauses clauses).tokens ↔ token ∈ clauses.flatMap Clause.tokens := by
  have split (clause : Clause) : token ∈ clause.tokens ↔ token ∈ clause.optionalTokens ∨ token ∈ clause.requiredTokens ∨
      token ∈ clause.excludedTokens ∨ ∃ phrase, clause.phrase? = some phrase ∧ token ∈ phrase := by
    cases clause <;> simp [Clause.tokens, Clause.optionalTokens, Clause.requiredTokens, Clause.excludedTokens,
      Clause.phrase?]
  simp only [tokens, ofClauses, List.mem_append, mem_firsts, List.mem_flatMap, List.mem_flatten, List.mem_filterMap, split]
  constructor
  · rintro (((⟨clause, there, found⟩ | ⟨clause, there, found⟩) | ⟨clause, there, found⟩) |
      ⟨phrase, ⟨clause, there, found⟩, held⟩)
    · exact ⟨clause, there, .inl found⟩
    · exact ⟨clause, there, .inr (.inl found)⟩
    · exact ⟨clause, there, .inr (.inr (.inl found))⟩
    · exact ⟨clause, there, .inr (.inr (.inr ⟨phrase, found, held⟩))⟩
  · rintro ⟨clause, there, found | found | found | ⟨phrase, found, held⟩⟩
    · exact .inl (.inl (.inl ⟨clause, there, found⟩))
    · exact .inl (.inl (.inr ⟨clause, there, found⟩))
    · exact .inl (.inr ⟨clause, there, found⟩)
    · exact .inr ⟨phrase, ⟨clause, there, found⟩, held⟩

/-- A query text reads as a query with just the tokens of the text, those that are optional, required or excluded once
each, or it is told of the text where in it an operator or a quote is at fault. -/
theorem parse_conserves (text : String) :
    (∃ e, parse text = .error e ∧ e.query = text ∧ e.place < Text.size text ∧
      ∃ c ∈ signs, (Text.codes text.toList)[e.place]? = some c.toNat) ∨
    ∃ q, parse text = .ok q ∧ (∀ token, token ∈ q.tokens ↔ token ∈ Token.tokens text) ∧
      q.optional.Nodup ∧ q.required.Nodup ∧ q.excluded.Nodup := by
  cases read : parse text with
  | error e =>
    obtain ⟨failed, rfl⟩ := parse_eq_error.1 read
    obtain ⟨before, c, sign, rest, shape, position⟩ := failed.place rfl
    have plain : ∀ c ∈ signs, c ≠ Text.mark ∧ Text.half? c = none := by decide
    have place : e.place = (Text.codes before).length := by
      simp [SyntaxError.place, shape, position]
    have found : (Text.codes e.query.toList)[e.place]? = some c.toNat := by
      rw [place, shape]
      exact Text.codes_at before (plain c sign).1 (plain c sign).2 rest
    exact .inl ⟨e, rfl, rfl, (List.getElem?_eq_some_iff.1 found).1, c, sign, found⟩
  | ok q =>
    obtain ⟨clauses, reads, rfl⟩ := parse_eq_ok.1 read
    refine .inr ⟨_, rfl, fun token => ?_, firsts_nodup _, firsts_nodup _, firsts_nodup _⟩
    rw [mem_tokens_ofClauses, reads.tokens rfl]
    rfl

end Query

end CodeSearch
