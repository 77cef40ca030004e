import CodeSearch.Proofs.Text.Codes
import CodeSearch.Text.Glob
/-!
# What a pattern describes

The rows that are kept while a text is gone through tell of every end of a pattern whether it describes what has been
seen (`Tells`), so a pattern fits just the texts that its pieces describe one after the other (`globMatches_iff`).
A slash and a star behind a pattern are no part of a set in it (`globPieces_append`), and a pattern without wildcards
describes no text but itself (`isLiteral_of_plain`).
-/

namespace CodeSearch.Text

/-- Pieces describe a text: one behind the other they stand for parts of it, a star for any text and all others for one
character each. -/
inductive Describes : List GlobPiece → List Nat → Prop
  | nil : Describes [] []
  | anyText (front : List Nat) {pieces : List GlobPiece} {text : List Nat} :
    Describes pieces text → Describes (.anyText :: pieces) (front ++ text)
  | one {piece : GlobPiece} {c : Nat} {pieces : List GlobPiece} {text : List Nat} :
    piece ≠ .anyText → piece.accepts c = true → Describes pieces text → Describes (piece :: pieces) (c :: text)

section
variable {piece : GlobPiece} {pieces others : List GlobPiece} {c : Nat} {text : List Nat}

@[simp] theorem describes_nil : Describes [] text ↔ text = [] := by
  constructor
  · rintro ⟨⟩
    rfl
  · rintro rfl
    exact .nil

theorem describes_anyText :
    Describes (.anyText :: pieces) text ↔ ∃ front back, text = front ++ back ∧ Describes pieces back := by
  constructor
  · intro h
    cases h with
    | anyText front h => exact ⟨front, _, rfl, h⟩
    | one other => exact absurd rfl other
  · rintro ⟨front, back, rfl, h⟩
    exact .anyText front h

theorem describes_one (other : piece ≠ .anyText) : Describes (piece :: pieces) text ↔
    ∃ c rest, text = c :: rest ∧ piece.accepts c = true ∧ Describes pieces rest := by
  constructor
  · intro h
    cases h with
    | anyText => exact absurd rfl other
    | one _ accepted h => exact ⟨_, _, rfl, accepted, h⟩
  · rintro ⟨c, rest, rfl, accepted, h⟩
    exact .one other accepted h

/-- A star stands for nothing, or for a character and what a star stands for. -/
theorem describes_anyText_cons : Describes (.anyText :: pieces) (c :: text) ↔
    Describes pieces (c :: text) ∨ Describes (.anyText :: pieces) text := by
  rw [describes_anyText, describes_anyText]
  constructor
  · rintro ⟨front, back, same, h⟩
    cases front with
    | nil => exact .inl (same ▸ h)
    | cons d front =>
      obtain ⟨rfl, rfl⟩ := List.cons.inj same
      exact .inr ⟨front, back, rfl, h⟩
  · rintro (h | ⟨front, back, rfl, h⟩)
    · exact ⟨[], _, rfl, h⟩
    · exact ⟨c :: front, back, rfl, h⟩

theorem describes_append : Describes (pieces ++ others) text ↔
    ∃ front back, text = front ++ back ∧ Describes pieces front ∧ Describes others back := by
  induction pieces generalizing text with
  | nil => simp
  | cons piece pieces ih =>
    by_cases star : piece = .anyText
    · subst star
      simp only [List.cons_append, describes_anyText, ih]
      constructor
      · rintro ⟨first, _, rfl, front, back, rfl, h, h'⟩
        exact ⟨first ++ front, back, (List.append_assoc ..).symm, ⟨first, front, rfl, h⟩, h'⟩
      · rintro ⟨_, back, rfl, ⟨first, front, rfl, h⟩, h'⟩
        exact ⟨first, front ++ back, List.append_assoc .., front, back, rfl, h, h'⟩
    · simp only [List.cons_append, describes_one star, ih]
      constructor
      · rintro ⟨c, _, rfl, accepted, front, back, rfl, h, h'⟩
        exact ⟨c :: front, back, rfl, ⟨c, front, rfl, accepted, h⟩, h'⟩
      · rintro ⟨_, back, rfl, ⟨c, front, rfl, accepted, h⟩, h'⟩
        exact ⟨c, front ++ back, rfl, accepted, front, back, rfl, h, h'⟩

end

/-! ## Rows -/

/-- A row tells of every end of some pieces whether it describes a text. -/
def Tells (text : List Nat) (pieces : List GlobPiece) (row : List Bool) : Prop :=
  List.Forall₂ (fun tail answer => answer = true ↔ Describes tail text) pieces.tails row

section
variable {piece : GlobPiece} {pieces : List GlobPiece} {c : Nat} {text : List Nat} {row : List Bool}

theorem tells_cons : Tells text (piece :: pieces) row ↔
    ∃ answer rest, row = answer :: rest ∧ (answer = true ↔ Describes (piece :: pieces) text) ∧ Tells text pieces rest := by
  rw [Tells, List.tails_cons, List.forall₂_cons_left_iff]
  constructor
  · rintro ⟨answer, rest, first, others, rfl⟩
    exact ⟨answer, rest, rfl, first, others⟩
  · rintro ⟨answer, rest, rfl, first, others⟩
    exact ⟨answer, rest, first, others, rfl⟩

/-- The first answer is that for all of the pieces. -/
theorem Tells.head (h : Tells text pieces row) : row.headD false = true ↔ Describes pieces text := by
  cases pieces with
  | nil =>
    obtain ⟨answer, rest, first, _, rfl⟩ := List.forall₂_cons_left_iff.1 h
    exact first
  | cons piece pieces =>
    obtain ⟨answer, rest, rfl, first, _⟩ := tells_cons.1 h
    exact first

theorem tells_emptyRow (pieces : List GlobPiece) : Tells [] pieces (emptyRow pieces) := by
  induction pieces with
  | nil => exact .cons (by simp) .nil
  | cons piece pieces ih =>
    refine tells_cons.2 ⟨_, _, rfl, ?_, ih⟩
    rw [Bool.and_eq_true, decide_eq_true_eq, ih.head]
    by_cases star : piece = .anyText
    · subst star
      simp [describes_anyText]
    · simp [describes_one star, star]

theorem nextRow_one (other : piece ≠ .anyText) : nextRow c (piece :: pieces) row =
    (piece.accepts c && row.tail.headD false) :: nextRow c pieces row.tail := by
  cases piece with
  | anyText => exact absurd rfl other
  | anyChar | code _ | set _ _ => rfl

/-- What a row tells of a text, the next row tells of the text with one character more in front. -/
theorem Tells.next (h : Tells text pieces row) (c : Nat) : Tells (c :: text) pieces (nextRow c pieces row) := by
  induction pieces generalizing row with
  | nil => exact .cons (by simp) .nil
  | cons piece pieces ih =>
    obtain ⟨answer, rest, rfl, first, others⟩ := tells_cons.1 h
    have behind := ih others
    by_cases star : piece = .anyText
    · subst star
      refine tells_cons.2 ⟨_, _, rfl, ?_, behind⟩
      rw [Bool.or_eq_true, List.headD_cons, List.tail_cons, behind.head, first, describes_anyText_cons]
    · rw [nextRow_one star]
      refine tells_cons.2 ⟨_, _, rfl, ?_, behind⟩
      rw [Bool.and_eq_true, List.tail_cons, others.head, describes_one star]
      simp

/-- A text fits some pieces if they describe it. -/
theorem globMatches_iff : globMatches pieces text = true ↔ Describes pieces text := by
  have rows : Tells text pieces (text.foldr (fun c row => nextRow c pieces row) (emptyRow pieces)) := by
    induction text with
    | nil => exact tells_emptyRow pieces
    | cons c text ih => exact ih.next c
  exact rows.head

end

theorem glob_iff {pattern text : String} :
    glob pattern text = true ↔ Describes (globPieces (codes pattern.toList)) (codes text.toList) := globMatches_iff

/-! ## Patterns -/

/-- The slash, `/`. -/
abbrev slash : Nat := 0x2f

theorem setOpening_append (text more : List Nat) :
    setOpening (text ++ slash :: more) = ((setOpening text).1, (setOpening text).2 ++ slash :: more) := by
  rcases text with _ | ⟨c, _ | ⟨d, rest⟩⟩
  · rfl
  · by_cases negated : c = negation
    · subst negated
      rfl
    · by_cases closed : c = closeBracket
      · subst closed
        rfl
      · simp [setOpening, negated, closed]
  · by_cases negated : c = negation
    · subst negated
      by_cases closed : d = closeBracket
      · subst closed
        rfl
      · simp [setOpening, closed]
    · by_cases closed : c = closeBracket
      · subst closed
        rfl
      · simp [setOpening, negated, closed]

/-- A slash and a star close no set, and come behind a set that is closed. -/
theorem setText_append (text : List Nat) : setText (text ++ [slash, star]) =
    (setText text).map fun (inner, rest) => (inner, rest ++ [slash, star]) := by
  have none : [slash, star].dropWhile (· ≠ closeBracket) = [] := by decide
  rw [setText, setText, setOpening_append]
  simp only [List.dropWhile_append, List.takeWhile_append, none]
  cases behind : (setOpening text).2.dropWhile (· ≠ closeBracket) with
  | nil => simp
  | cons c rest =>
    have shorter : ((setOpening text).2.takeWhile (· ≠ closeBracket)).length ≠ (setOpening text).2.length := by
      have whole := congrArg List.length
        (@List.takeWhile_append_dropWhile _ (fun c => decide (c ≠ closeBracket)) (setOpening text).2)
      rw [behind, List.length_append, List.length_cons] at whole
      omega
    rw [if_neg shorter]
    simp

theorem globPieces_set {text inner after : List Nat} (h : setText text = some (inner, after)) :
    globPieces (openBracket :: text) = setPiece inner :: globPieces after := by
  rw [globPieces.eq_4 _ _ (by decide) (by decide), if_pos rfl]
  split
  next found =>
    rw [h] at found
    cases found
    rfl
  next found =>
    rw [h] at found
    cases found

theorem globPieces_bracket {text : List Nat} (h : setText text = none) :
    globPieces (openBracket :: text) = .code openBracket :: globPieces text := by
  rw [globPieces.eq_4 _ _ (by decide) (by decide), if_pos rfl]
  split
  next found =>
    rw [h] at found
    cases found
  next => rfl

theorem globPieces_plain {c : Nat} (noStar : c ≠ star) (noMark : c ≠ questionMark) (noBracket : c ≠ openBracket)
    (text : List Nat) : globPieces (c :: text) = .code c :: globPieces text := by
  rw [globPieces.eq_4 _ _ noStar noMark, if_neg noBracket]

/-- A slash and a star behind a pattern stand for themselves and for anything, as no set reaches them. -/
theorem globPieces_append (text : List Nat) :
    globPieces (text ++ [slash, star]) = globPieces text ++ [.code slash, .anyText] := by
  induction text using globPieces.induct with
  | case1 =>
    rw [List.nil_append, globPieces_plain (by decide) (by decide) (by decide), globPieces, globPieces, List.nil_append,
      globPieces]
  | case2 text ih => rw [List.cons_append, globPieces, ih, globPieces, List.cons_append]
  | case3 text ih => rw [List.cons_append, globPieces, ih, globPieces, List.cons_append]
  | case4 text inner after set _ _ ih =>
    have longer : setText (text ++ [slash, star]) = some (inner, after ++ [slash, star]) := by rw [setText_append, set]; rfl
    rw [List.cons_append, globPieces_set longer, globPieces_set set, ih, List.cons_append]
  | case5 text noSet _ _ ih =>
    have longer : setText (text ++ [slash, star]) = none := by rw [setText_append, noSet]; rfl
    rw [List.cons_append, globPieces_bracket longer, globPieces_bracket noSet, ih, List.cons_append]
  | case6 c text noStar noMark noBracket ih =>
    rw [List.cons_append, globPieces_plain noStar noMark noBracket, globPieces_plain noStar noMark noBracket, ih,
      List.cons_append]

/-- A pattern describes no text but itself. -/
def IsLiteral (pattern : String) : Prop :=
  ∀ text, Describes (globPieces (codes pattern.toList)) text → text = codes pattern.toList

theorem ofNat_of_small {c : Char} (small : (half? c).getD c.toNat < 128) : Char.ofNat ((half? c).getD c.toNat) = c := by
  cases half : half? c with
  | none => rw [Option.getD_none, Char.ofNat_toNat]
  | some unit =>
    rw [half, Option.getD_some] at small
    rw [half?] at half
    split at half
    next isHalf =>
      rw [Option.some_inj.1 half] at isHalf
      exact absurd ((isHalf_iff unit).1 isHalf).1 (by omega)
    next => cases half

/-- A code of ASCII is that of a character of the text. -/
theorem mem_of_mem_codes {code : Nat} (small : code < 128) {text : List Char} (h : code ∈ codes text) :
    Char.ofNat code ∈ text := by
  induction text using codes.induct with
  | case1 => cases h
  | case2 => cases h
  | case3 c plain =>
    rw [codes_cons plain, codes, List.mem_singleton] at h
    rw [h, ofNat_of_small (h ▸ small)]
    exact List.mem_cons_self
  | case4 d rest ih =>
    rw [codes_mark] at h
    rcases List.mem_cons.1 h with rfl | later
    · rw [Char.ofNat_toNat]
      exact List.mem_cons_of_mem _ List.mem_cons_self
    · exact List.mem_cons_of_mem _ (List.mem_cons_of_mem _ (ih later))
  | case5 c d rest plain ih =>
    rw [codes_cons plain] at h
    rcases List.mem_cons.1 h with first | later
    · rw [first, ofNat_of_small (first ▸ small)]
      exact List.mem_cons_self
    · exact List.mem_cons_of_mem _ (ih later)

/-- Without wildcards a pattern is literal. -/
theorem isLiteral_of_plain {pattern : String} (plain : hasWildcard pattern = false) : IsLiteral pattern := by
  have free : ∀ code ∈ codes pattern.toList, code ≠ star ∧ code ≠ questionMark ∧ code ≠ openBracket := by
    simp only [hasWildcard, List.any_eq_false, Bool.or_eq_true, decide_eq_true_eq, not_or] at plain
    intro code hc
    refine ⟨?_, ?_, ?_⟩
    · rintro rfl
      exact (plain _ (mem_of_mem_codes (by decide) hc)).1.1 rfl
    · rintro rfl
      exact (plain _ (mem_of_mem_codes (by decide) hc)).1.2 rfl
    · rintro rfl
      exact (plain _ (mem_of_mem_codes (by decide) hc)).2 rfl
  rw [IsLiteral]
  generalize codes pattern.toList = text at free
  induction text with
  | nil =>
    rw [globPieces]
    exact fun text h => describes_nil.1 h
  | cons code rest ih =>
    obtain ⟨noStar, noMark, noBracket⟩ := free code List.mem_cons_self
    rw [globPieces_plain noStar noMark noBracket]
    intro text h
    obtain ⟨c, text, rfl, same, h⟩ := (describes_one (by simp)).1 h
    rw [GlobPiece.accepts, decide_eq_true_eq] at same
    rw [same, ih (fun other ho => free other (List.mem_cons_of_mem _ ho)) text h]

end CodeSearch.Text
