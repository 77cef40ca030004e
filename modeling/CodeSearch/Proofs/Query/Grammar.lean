import CodeSearch.Query.Parser
import CodeSearch.Proofs.Token.Tokens
import Mathlib.Data.List.TakeWhile
/-!
# The grammar of queries

A query text is read from its front: a character is passed over, a term gives a clause, or the reading ends by an issue.
`Reads` has a rule for each of these. Every text can be read in one way (`exists_reads`, `Reads.scan_eq`), and `scan`
reads it so (`scan_iff`). What holds of queries is then shown rule by rule.
-/

namespace CodeSearch.Query

/-- A character that says what becomes of the term behind it. -/
def IsOperator (c : Char) : Prop := c = '+' ∨ c = '-'
deriving Decidable

/-- An operator as it is written. -/
def Operator.sign : Operator → List Char
  | .none => []
  | .plus => ['+']
  | .minus => ['-']

/-- A text begins with a blank. -/
def StartsBlank (text : List Char) : Prop := ∃ c ∈ text.head?, Text.isBlank c = true

/-- A term may begin with a character, behind an operator or without one. -/
structure Opens (operator : Operator) (c : Char) : Prop where
  visible : Text.isBlank c = false
  bare : operator = .none → ¬ IsOperator c

/-- A character that is passed over in front of a text: a blank, or an operator that stands alone and is not the first
character of the query. -/
inductive Skipped (position : Nat) (c : Char) (rest : List Char) : Prop where
  | blank (blank : Text.isBlank c = true)
  | alone (operator : IsOperator c) (later : 0 < position) (gap : StartsBlank rest)

/-- A term with its clause, in front of a text: a word, which goes on as far as it can, or a phrase in quotes. -/
inductive Term : List Char → Clause → List Char → Prop where
  | word {operator : Operator} {c : Char} {word rest : List Char} (opens : Opens operator c) (start : c ≠ '"')
      (within : ∀ d ∈ word, inWord d = true) (ends : Text.Starts inWord rest) :
      Term (operator.sign ++ c :: word) (operator.wordClause (termTokens (c :: word))) rest
  | phrase {operator : Operator} {body rest : List Char} (noQuote : '"' ∉ body) (some : termTokens body ≠ []) :
      Term (operator.sign ++ '"' :: (body ++ ['"'])) (operator.phraseClause (termTokens body)) rest

/-- The issue of a text that cannot be read on from its front, and how far from there its place is. -/
inductive Breaks (position : Nat) : List Char → Issue → Nat → Prop where
  | dangling {c : Char} {rest : List Char} (operator : IsOperator c)
      (lost : rest = [] ∨ position = 0 ∧ StartsBlank rest) : Breaks position (c :: rest) (.dangling c) 0
  | unbalanced {operator : Operator} {rest : List Char} (noQuote : '"' ∉ rest) :
      Breaks position (operator.sign ++ '"' :: rest) .unbalanced operator.sign.length
  | emptyPhrase {operator : Operator} {body rest : List Char} (noQuote : '"' ∉ body) (none : termTokens body = []) :
      Breaks position (operator.sign ++ '"' :: (body ++ '"' :: rest)) .emptyPhrase operator.sign.length

/-- How a text is read that has `position` characters of the query before it. -/
inductive Reads : Nat → List Char → Except (Issue × Nat) (List Clause) → Prop where
  | done {position : Nat} : Reads position [] (.ok [])
  | skip {position : Nat} {c : Char} {rest : List Char} {result : Except (Issue × Nat) (List Clause)} :
      Skipped position c rest → Reads (position + 1) rest result → Reads position (c :: rest) result
  | term {position : Nat} {piece rest : List Char} {clause : Clause} {result : Except (Issue × Nat) (List Clause)} :
      Term piece clause rest → Reads (position + piece.length) rest result →
      Reads position (piece ++ rest) (result.map (clause :: ·))
  | fault {position offset : Nat} {text : List Char} {issue : Issue} :
      Breaks position text issue offset → Reads position text (.error (issue, position + offset))

/-! ## Characters and their places -/

theorem IsOperator.visible {c : Char} (h : IsOperator c) : Text.isBlank c = false := by
  rcases h with rfl | rfl <;> decide

theorem StartsBlank.starts {text : List Char} (h : StartsBlank text) : Text.Starts inWord text := by
  intro c first
  obtain ⟨d, first', blank⟩ := h
  obtain rfl : d = c := Option.some.inj (first'.symm.trans first)
  simp [inWord, blank]

theorem StartsBlank.append {text : List Char} (h : StartsBlank text) (tail : List Char) : StartsBlank (text ++ tail) := by
  obtain ⟨c, first, blank⟩ := h
  exact ⟨c, by simp [Option.mem_def.1 first], blank⟩

theorem Term.length_pos {piece rest : List Char} {clause : Clause} (h : Term piece clause rest) : 0 < piece.length := by
  cases h <;> simp

/-! ## Every text can be read -/

/-- What a text that is not empty begins with: something to pass over, something that ends the reading, or a term with
its operator. -/
theorem front_cases (position : Nat) (c : Char) (rest : List Char) :
    Skipped position c rest ∨ (∃ issue offset, Breaks position (c :: rest) issue offset) ∨
      ∃ operator d more, c :: rest = Operator.sign operator ++ d :: more ∧ Opens operator d := by
  by_cases blank : Text.isBlank c = true
  · exact .inl (.blank blank)
  have visible : Text.isBlank c = false := Bool.eq_false_of_not_eq_true blank
  by_cases operator : IsOperator c
  · cases rest with
    | nil => exact .inr (.inl ⟨_, _, .dangling operator (.inl rfl)⟩)
    | cons d more =>
      by_cases gap : Text.isBlank d = true
      · have gap : StartsBlank (d :: more) := ⟨d, rfl, gap⟩
        rcases Nat.eq_zero_or_pos position with first | later
        · exact .inr (.inl ⟨_, _, .dangling operator (.inr ⟨first, gap⟩)⟩)
        · exact .inl (.alone operator later gap)
      · have opens (o : Operator) (some : o ≠ .none) : Opens o d :=
          ⟨Bool.eq_false_of_not_eq_true gap, fun none => absurd none some⟩
        rcases operator with rfl | rfl
        · exact .inr (.inr ⟨.plus, d, more, rfl, opens _ nofun⟩)
        · exact .inr (.inr ⟨.minus, d, more, rfl, opens _ nofun⟩)
  · exact .inr (.inr ⟨.none, c, rest, rfl, visible, fun _ => operator⟩)

/-- What begins with an operator and a visible character is a term, or breaks. -/
theorem term_cases (position : Nat) {operator : Operator} {c : Char} (opens : Opens operator c) (rest : List Char) :
    (∃ issue offset, Breaks position (operator.sign ++ c :: rest) issue offset) ∨
      ∃ piece clause more, operator.sign ++ c :: rest = piece ++ more ∧ Term piece clause more := by
  by_cases quote : c = '"'
  · subst quote
    by_cases closed : '"' ∈ rest
    · obtain ⟨body, more, rfl, noQuote⟩ := List.eq_append_cons_of_mem closed
      by_cases none : termTokens body = []
      · exact .inl ⟨_, _, .emptyPhrase noQuote none⟩
      · refine .inr ⟨operator.sign ++ '"' :: (body ++ ['"']), _, more, ?_, .phrase noQuote none⟩
        simp
    · exact .inl ⟨_, _, .unbalanced closed⟩
  · refine .inr ⟨operator.sign ++ c :: rest.takeWhile inWord, _, rest.dropWhile inWord, ?_,
      .word opens quote (fun d hd => List.mem_takeWhile_imp hd) ?_⟩
    · simp
    · intro d first
      have ends := List.head?_dropWhile_not inWord rest
      rwa [Option.mem_def.1 first] at ends

theorem exists_reads (position : Nat) (text : List Char) : ∃ result, Reads position text result := by
  -- a term takes several characters at once, so the induction is on the length
  induction length : text.length using Nat.strong_induction_on generalizing text position with
  | _ n ih =>
    subst length
    cases text with
    | nil => exact ⟨_, .done⟩
    | cons c rest =>
      rcases front_cases position c rest with skipped | ⟨issue, offset, breaks⟩ | ⟨operator, d, more, text, opens⟩
      · obtain ⟨result, reads⟩ := ih rest.length (by simp) (position + 1) rest rfl
        exact ⟨result, .skip skipped reads⟩
      · exact ⟨_, .fault breaks⟩
      · rcases term_cases position opens more with ⟨issue, offset, breaks⟩ | ⟨piece, clause, after, split, term⟩
        · exact ⟨_, .fault (text ▸ breaks)⟩
        · rw [text, split] at ih ⊢
          have shorter : after.length < (piece ++ after).length := by
            rw [List.length_append]
            exact Nat.lt_add_of_pos_left term.length_pos
          obtain ⟨result, reads⟩ := ih _ shorter (position + piece.length) after rfl
          exact ⟨_, .term term reads⟩

/-! ## The scan reads so -/

theorem cutAtQuote_append {body : List Char} (noQuote : '"' ∉ body) (after : List Char) :
    cutAtQuote (body ++ '"' :: after) = some (body, after) := by
  induction body with
  | nil => rw [List.nil_append, cutAtQuote, if_pos rfl]
  | cons c body ih =>
    obtain ⟨first, others⟩ := not_or.1 (mt List.mem_cons.2 noQuote)
    rw [List.cons_append, cutAtQuote, if_neg (Ne.symm first), ih others]

theorem cutAtQuote_eq_none {text : List Char} (noQuote : '"' ∉ text) : cutAtQuote text = none := by
  induction text with
  | nil => rfl
  | cons c text ih =>
    obtain ⟨first, others⟩ := not_or.1 (mt List.mem_cons.2 noQuote)
    rw [cutAtQuote, if_neg (Ne.symm first), ih others]

/-- The scan looks at an operator, if there is one, and goes on with the term. -/
theorem scan_sign (position : Nat) {operator : Operator} {c : Char} (opens : Opens operator c) (rest : List Char) :
    scan position (operator.sign ++ c :: rest) = scanTerm operator (position + operator.sign.length) c rest := by
  cases operator with
  | none =>
    have noOperator : ¬ (c = '+' ∨ c = '-') := opens.bare rfl
    simp [Operator.sign, scan, opens.visible, noOperator]
  | plus => simp [Operator.sign, scan, opens.visible, show Text.isBlank '+' = false by decide]
  | minus => simp [Operator.sign, scan, opens.visible, show Text.isBlank '-' = false by decide]

theorem scanTerm_unbalanced (operator : Operator) (position : Nat) {rest : List Char} (noQuote : '"' ∉ rest) :
    scanTerm operator position '"' rest = .error (.unbalanced, position) := by
  rw [scanTerm, if_pos rfl]
  split
  next => rfl
  next found => cases (cutAtQuote_eq_none noQuote).symm.trans found

theorem scanTerm_phrase (operator : Operator) (position : Nat) {body : List Char} (noQuote : '"' ∉ body)
    (after : List Char) : scanTerm operator position '"' (body ++ '"' :: after) =
      if (termTokens body).isEmpty then .error (.emptyPhrase, position)
      else (scan (position + body.length + 2) after).map (operator.phraseClause (termTokens body) :: ·) := by
  have cut := cutAtQuote_append noQuote after
  rw [scanTerm, if_pos rfl]
  split
  next none => cases cut.symm.trans none
  next found =>
    obtain ⟨rfl, rfl⟩ := Prod.mk.inj (Option.some.inj (cut.symm.trans found))
    rfl

theorem scanTerm_word (operator : Operator) (position : Nat) {c : Char} (start : c ≠ '"') {word rest : List Char}
    (within : ∀ d ∈ word, inWord d = true) (ends : Text.Starts inWord rest) :
    scanTerm operator position c (word ++ rest) =
      (scan (position + word.length + 1) rest).map (operator.wordClause (termTokens (c :: word)) :: ·) := by
  have stop : rest.takeWhile inWord = [] ∧ rest.dropWhile inWord = rest := by
    cases rest with
    | nil => exact ⟨rfl, rfl⟩
    | cons d rest => simp [ends d rfl]
  rw [scanTerm, if_neg start, List.takeWhile_append_of_pos within, List.dropWhile_append_of_pos within, stop.1, stop.2,
    List.append_nil]

theorem Skipped.scan_eq {position : Nat} {c : Char} {rest : List Char} (h : Skipped position c rest) :
    scan position (c :: rest) = scan (position + 1) rest := by
  cases h with
  | blank blank => rw [scan, if_pos blank]
  | alone operator later gap =>
    obtain ⟨d, first, blank⟩ := gap
    obtain ⟨more, rfl⟩ := List.head?_eq_some_iff.1 first
    rw [scan, if_neg (by simp [operator.visible]), if_pos (show c = '+' ∨ c = '-' from operator)]
    simp [blank, later]

theorem Term.scan_eq {piece rest : List Char} {clause : Clause} (h : Term piece clause rest) (position : Nat) :
    scan position (piece ++ rest) = (scan (position + piece.length) rest).map (clause :: ·) := by
  cases h with
  | @word operator c word _ opens start within ends =>
    rw [List.append_assoc, List.cons_append, scan_sign position opens, scanTerm_word _ _ start within ends]
    simp [Nat.add_assoc]
  | @phrase operator body _ noQuote some =>
    have opens : Opens operator '"' := ⟨by decide, fun _ => by decide⟩
    rw [List.append_assoc, List.cons_append, List.append_assoc, List.singleton_append, scan_sign position opens,
      scanTerm_phrase _ _ noQuote, if_neg (by simpa using some)]
    simp [Nat.add_assoc]

theorem Breaks.scan_eq {position offset : Nat} {text : List Char} {issue : Issue}
    (h : Breaks position text issue offset) : scan position text = .error (issue, position + offset) := by
  have opens (operator : Operator) : Opens operator '"' := ⟨by decide, fun _ => by decide⟩
  cases h with
  | @dangling c rest operator lost =>
    rw [scan, if_neg (by simp [operator.visible]), if_pos (show c = '+' ∨ c = '-' from operator)]
    rcases lost with rfl | ⟨rfl, d, first, blank⟩
    · rfl
    · obtain ⟨more, rfl⟩ := List.head?_eq_some_iff.1 first
      simp [blank]
  | unbalanced noQuote => rw [scan_sign position (opens _), scanTerm_unbalanced _ _ noQuote]
  | emptyPhrase noQuote none =>
    rw [scan_sign position (opens _), scanTerm_phrase _ _ noQuote, if_pos (by simpa using none)]

theorem Reads.scan_eq {position : Nat} {text : List Char} {result : Except (Issue × Nat) (List Clause)}
    (h : Reads position text result) : scan position text = result := by
  induction h with
  | done => rw [scan]
  | skip skipped _ ih => exact skipped.scan_eq.trans ih
  | term term _ ih => rw [term.scan_eq, ih]
  | fault breaks => exact breaks.scan_eq

/-- The scan gives what the grammar says, clauses or an issue. -/
theorem scan_iff {position : Nat} {text : List Char} {result : Except (Issue × Nat) (List Clause)} :
    scan position text = result ↔ Reads position text result := by
  refine ⟨fun scanned => ?_, Reads.scan_eq⟩
  obtain ⟨result', reads⟩ := exists_reads position text
  rwa [← scanned, reads.scan_eq]

theorem parse_eq_ok {text : String} {q : Query} :
    parse text = .ok q ↔ ∃ clauses, Reads 0 text.toList (.ok clauses) ∧ ofClauses clauses = q := by
  rw [parse]
  cases scanned : scan 0 text.toList with
  | ok clauses => simp [← scan_iff, scanned]
  | error found => simp [← scan_iff, scanned]

theorem parse_eq_error {text : String} {e : SyntaxError} :
    parse text = .error e ↔ Reads 0 text.toList (.error (e.issue, e.position)) ∧ text = e.query := by
  obtain ⟨issue, query, position⟩ := e
  rw [parse]
  cases scanned : scan 0 text.toList with
  | ok clauses => simp [← scan_iff, scanned]
  | error found =>
    obtain ⟨issue', position'⟩ := found
    simp only [← scan_iff, scanned, Except.error.injEq, SyntaxError.mk.injEq, Prod.mk.injEq]
    tauto

end CodeSearch.Query
