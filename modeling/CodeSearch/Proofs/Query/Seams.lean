import CodeSearch.Proofs.Firsts
import CodeSearch.Proofs.Query.Grammar
/-!
# Query texts one behind the other

A text is read in the same way further back in a query, apart from an operator at its very front (`Reads.later`), and a
text behind it that begins with a blank changes nothing of what has been read (`Reads.append`). So two texts with a blank
between them are read as the clauses of the one and then of the other (`parse_joined`).
-/

namespace CodeSearch.Query

variable {position : Nat} {text tail : List Char} {result result' : Except (Issue × Nat) (List Clause)}

/-! ## Further back in the query -/

/-- What is read of a text that stands some characters further back: the same, with its issue at the same place of the
text. -/
def moved (shift : Nat) (result : Except (Issue × Nat) (List Clause)) : Except (Issue × Nat) (List Clause) :=
  result.mapError fun issue => (issue.1, issue.2 + shift)

theorem moved_map (shift : Nat) (clause : Clause) (result : Except (Issue × Nat) (List Clause)) :
    moved shift (result.map (clause :: ·)) = (moved shift result).map (clause :: ·) := by
  cases result <;> rfl

theorem Skipped.later {c : Char} {rest : List Char} (h : Skipped position c rest) (shift : Nat) :
    Skipped (position + shift) c rest := by
  cases h with
  | blank blank => exact .blank blank
  | alone operator later gap => exact .alone operator (Nat.add_pos_left later shift) gap

/-- An issue stays further back, but for an operator with a blank behind it that was the first character. -/
theorem Breaks.later {issue : Issue} {offset : Nat} (h : Breaks position text issue offset) (shift : Nat)
    (kept : position = 0 → ∀ c, issue = .dangling c → shift = 0 ∨ text.length = 1) :
    Breaks (position + shift) text issue offset := by
  cases h with
  | @dangling c rest operator lost =>
    refine .dangling operator ?_
    rcases lost with last | ⟨first, gap⟩
    · exact .inl last
    · rcases kept first c rfl with same | alone
      · exact .inr ⟨by rw [first, same], gap⟩
      · exact .inl (List.eq_nil_of_length_eq_zero (Nat.succ.inj alone))
  | unbalanced noQuote => exact .unbalanced noQuote
  | emptyPhrase noQuote none => exact .emptyPhrase noQuote none

theorem Reads.later (h : Reads position text result) (shift : Nat)
    (kept : position = 0 → ∀ c, result = .error (.dangling c, 0) → shift = 0 ∨ text.length = 1) :
    Reads (position + shift) text (moved shift result) := by
  induction h with
  | done => exact .done
  | @skip position c rest result skipped _ ih =>
    refine .skip (skipped.later shift) ?_
    rw [Nat.add_right_comm]
    -- what comes behind a character is not at the start of the query
    exact ih fun first => absurd first (Nat.succ_ne_zero position)
  | @term position piece rest clause result term _ ih =>
    rw [moved_map]
    refine .term term ?_
    rw [Nat.add_right_comm]
    have some := term.length_pos
    exact ih fun first => by omega
  | @fault position offset text issue breaks =>
    have stays : Breaks (position + shift) text issue offset := by
      refine breaks.later shift fun first c same => kept first c ?_
      cases breaks with
      | dangling => rw [← same, first]
      | unbalanced => cases same
      | emptyPhrase => cases same
    have there : moved shift (.error (issue, position + offset)) = .error (issue, position + shift + offset) := by
      rw [Nat.add_right_comm]
      rfl
    rw [there]
    exact .fault stays

/-! ## A text behind -/

/-- It matters only how the text behind begins. -/
theorem Skipped.before {c : Char} {rest rest' : List Char} (h : Skipped position c rest)
    (begins : StartsBlank rest → StartsBlank rest') : Skipped position c rest' := by
  cases h with
  | blank blank => exact .blank blank
  | alone operator later gap => exact .alone operator later (begins gap)

theorem Term.before {piece rest rest' : List Char} {clause : Clause} (h : Term piece clause rest)
    (begins : Text.Starts inWord rest → Text.Starts inWord rest') : Term piece clause rest' := by
  cases h with
  | word opens start within ends => exact .word opens start within (begins ends)
  | phrase noQuote some => exact .phrase noQuote some

theorem Skipped.append {c : Char} {rest : List Char} (h : Skipped position c rest) (tail : List Char) :
    Skipped position c (rest ++ tail) :=
  h.before fun gap => gap.append tail

theorem Term.append {piece rest : List Char} {clause : Clause} (h : Term piece clause rest)
    (starts : Text.Starts inWord tail) : Term piece clause (rest ++ tail) :=
  h.before fun ends => ends.append starts

/-- The clauses of a text stay, and those of a text behind it come after them. -/
theorem Reads.append (h : Reads position text result) {clauses : List Clause} (read : result = .ok clauses)
    (gap : StartsBlank tail) (behind : Reads (position + text.length) tail result') :
    Reads position (text ++ tail) (result'.map (clauses ++ ·)) := by
  -- what is read of `tail` comes in at the end of the reading of `text`
  induction h generalizing clauses with
  | done =>
    cases read
    have same : result'.map (([] : List Clause) ++ ·) = result' := by cases result' <;> rfl
    rw [same]
    exact behind
  | @skip position c rest _ skipped _ ih =>
    refine .skip (skipped.append tail) (ih read ?_)
    rwa [Nat.add_assoc, Nat.add_comm 1]
  | @term position piece rest clause result term _ ih =>
    cases result with
    | error issue => cases read
    | ok others =>
      cases read
      have split : result'.map ((clause :: others) ++ ·) = (result'.map (others ++ ·)).map (clause :: ·) := by
        cases result' <;> rfl
      rw [List.append_assoc, split]
      refine .term (term.append gap.starts) (ih rfl ?_)
      rwa [Nat.add_assoc, ← List.length_append]
  | fault => cases read

/-! ## Two queries -/

theorem ofClauses_append (a b : List Clause) : ofClauses (a ++ b) =
    { optional := firsts ((ofClauses a).optional ++ (ofClauses b).optional)
      required := firsts ((ofClauses a).required ++ (ofClauses b).required)
      excluded := firsts ((ofClauses a).excluded ++ (ofClauses b).excluded)
      phrases := (ofClauses a).phrases ++ (ofClauses b).phrases } := by
  simp [ofClauses, firsts_append_firsts]

/-- Two texts that can be read, with a blank between them, read as a query with the terms and phrases of the one and then
those of the other, each term once. -/
theorem parse_joined {s t : String} {q r : Query} (first : parse s = .ok q) (second : parse t = .ok r) :
    parse (s ++ " " ++ t) = .ok
      { optional := firsts (q.optional ++ r.optional)
        required := firsts (q.required ++ r.required)
        excluded := firsts (q.excluded ++ r.excluded)
        phrases := q.phrases ++ r.phrases } := by
  obtain ⟨before, reads, rfl⟩ := parse_eq_ok.1 first
  obtain ⟨after, reads', rfl⟩ := parse_eq_ok.1 second
  have shifted : Reads (0 + (s.toList.length + 1)) t.toList (.ok after) := reads'.later _ nofun
  have behind : Reads (0 + s.toList.length) (' ' :: t.toList) (.ok after) := .skip (.blank (by decide)) shifted
  have whole := reads.append rfl ⟨' ', rfl, by decide⟩ behind
  refine parse_eq_ok.2 ⟨before ++ after, ?_, ofClauses_append before after⟩
  rw [String.toList_append, String.toList_append, List.append_assoc]
  exact whole

/-- The first text ends with an operator that stands alone, and the second one begins with a quote. -/
theorem parse_joined_operators :
    (parse "+login get - " = .ok ⟨["get"], ["login"], [], []⟩ ∧
      parse "\"user name\" -get get" = .ok ⟨["get"], [], ["get"], [["user", "name"]]⟩) ∧
      parse ("+login get - " ++ " " ++ "\"user name\" -get get") =
        .ok ⟨["get"], ["login"], ["get"], [["user", "name"]]⟩ := by
  have first : parse "+login get - " = .ok ⟨["get"], ["login"], [], []⟩ := by cbv
  have second : parse "\"user name\" -get get" = .ok ⟨["get"], [], ["get"], [["user", "name"]]⟩ := by cbv
  exact ⟨⟨first, second⟩, parse_joined first second⟩

end CodeSearch.Query
