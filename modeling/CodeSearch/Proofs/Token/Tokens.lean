import CodeSearch.Proofs.Text.Runs
import CodeSearch.Token.Tokenizer
/-!
# Tokens of a text, part by part

A text may be cut wherever no identifier goes across: the tokens of its two parts are its tokens
(`tokenize_append`). So the tokens of a piece between word boundaries stand side by side in those of the whole text
(`tokens_infix`).
-/

namespace CodeSearch

namespace Text

/-! ## Identifier characters -/

/-- The characters of identifiers by their codes. -/
theorem isIdentifierChar_iff (c : Char) : isIdentifierChar c = true ↔
    (65 ≤ c.toNat ∧ c.toNat ≤ 90) ∨ (97 ≤ c.toNat ∧ c.toNat ≤ 122) ∨ (48 ≤ c.toNat ∧ c.toNat ≤ 57) ∨ c.toNat = 95 := by
  have underscore : c = '_' ↔ c.toNat = 95 := by
    rw [← Char.toNat_inj]
    rfl
  simp only [isIdentifierChar, isAsciiLetter, isAsciiUpper, isAsciiLower, isAsciiDigit, Bool.or_eq_true,
    Bool.and_eq_true, decide_eq_true_eq, beq_iff_eq, underscore, Char.le_def, UInt32.le_iff_toNat_le, or_assoc]
  rfl

theorem not_isIdentifierChar_of_isBlank {c : Char} (h : isBlank c = true) : isIdentifierChar c = false := by
  rw [← Bool.not_eq_true, isIdentifierChar_iff]
  simp only [isBlank, Bool.or_eq_true, Bool.and_eq_true, decide_eq_true_eq, beq_iff_eq] at h
  omega

/-- A word boundary is between two texts: one of the characters that meet belongs to no identifier. -/
abbrev Boundary (a b : List Char) : Prop := Apart isIdentifierChar a b

end Text

namespace Token

/-! ## Tokens -/

theorem tokenize_append (rules : Rules) {a b : List Char} (boundary : Text.Boundary a b) :
    tokenize rules (a ++ b) = tokenize rules a ++ tokenize rules b := by
  rw [tokenize, identifiers, Text.runsOf_append boundary, List.flatMap_append]
  rfl

/-- A character that belongs to no identifier adds nothing at the start of a text. -/
theorem tokenize_cons (rules : Rules) {c : Char} (h : Text.isIdentifierChar c = false) (rest : List Char) :
    tokenize rules (c :: rest) = tokenize rules rest := by
  rw [tokenize, identifiers, Text.runsOf_cons_of_not h]
  rfl

/-- The tokens of a piece of a text stand side by side in those of the text. -/
theorem tokens_infix {before piece after : String} (start : Text.Boundary before.toList piece.toList)
    (stop : Text.Boundary piece.toList after.toList) : tokens piece <:+: tokens (before ++ piece ++ after) := by
  simp only [tokens, String.toList_append]
  by_cases none : piece.toList = []
  · rw [none]
    exact List.nil_infix
  · rw [List.append_assoc, tokenize_append {} (start.append_right none _), tokenize_append {} stop]
    exact ⟨tokenize {} before.toList, tokenize {} after.toList, List.append_assoc _ _ _⟩

end Token

end CodeSearch
