import CodeSearch.Proofs.Token.Tokens
/-!
# The scan of a whole text for literals

A text may also be cut at its hexadecimal literals first, found from left to right over the whole text, and into
identifiers between them. Literals and identifiers overlap freely, but no literal goes across a character that belongs to
no identifier: what is scanned before such a character and behind it is scanned apart (`scan_append`). So the scan
gives the tokens that the identifiers give one by one (`tokenize_eq_scan`), and the tokens of two texts with a gap
between them are the tokens of the one and then of the other (`tokenize_across_gap`).
-/

namespace CodeSearch

namespace Token

/-! ## What the scan finds -/

/-- The tokens of a stretch of a text. A plain stretch may hold several identifiers, or none. -/
def Stretch.scanned (rules : Rules) : Stretch → List String
  | .plain text => (identifiers text).flatMap (plainTokens rules)
  | .hex literal => [lowered literal]

/-- The tokens of a text that is cut at its literals first. -/
def scan (rules : Rules) (text : List Char) : List String :=
  if rules.keepHex then (stretches text).flatMap (Stretch.scanned rules) else Stretch.scanned rules (.plain text)

/-! ## Stretches of a text in two parts -/

/-- The stretches of two texts that meet within a plain stretch. -/
def Stretch.join : List Stretch → List Stretch → List Stretch
  | [], after => after
  | [.plain text], .plain rest :: after => .plain (text ++ rest) :: after
  | stretch :: before, after => stretch :: join before after

theorem Stretch.prepend_plain (c : Char) (later : List Stretch) :
    ∃ text after, Stretch.prepend c later = .plain (c :: text) :: after := by
  cases later with
  | nil => exact ⟨[], [], rfl⟩
  | cons stretch later =>
    cases stretch with
    | plain text => exact ⟨text, later, rfl⟩
    | hex literal => exact ⟨[], .hex literal :: later, rfl⟩

theorem Stretch.prepend_join (c d : Char) (before after : List Stretch) :
    Stretch.prepend c (join before (prepend d after)) = join (prepend c before) (prepend d after) := by
  obtain ⟨text, later, starts⟩ := Stretch.prepend_plain d after
  rw [starts]
  cases before with
  | nil => rfl
  | cons stretch before =>
    cases stretch with
    | hex literal => cases before <;> rfl
    | plain word => cases before <;> rfl

theorem isIdentifierChar_of_isHexDigit {c : Char} (h : isHexDigit c = true) : Text.isIdentifierChar c = true := by
  rw [Text.isIdentifierChar_iff]
  simp only [isHexDigit, Text.isAsciiDigit, Bool.or_eq_true, Bool.and_eq_true, decide_eq_true_eq, Char.le_def,
    UInt32.le_iff_toNat_le] at h
  have codes : ('a'.val.toNat = 97 ∧ 'f'.val.toNat = 102) ∧ ('A'.val.toNat = 65 ∧ 'F'.val.toNat = 70) ∧
    ('0'.val.toNat = 48 ∧ '9'.val.toNat = 57) := by decide
  simp only [Char.toNat]
  omega

section
variable {c : Char} (outside : Text.isIdentifierChar c = false)
include outside

theorem not_isHexDigit : isHexDigit c = false := by
  rw [← Bool.not_eq_true]
  intro digit
  simp [isIdentifierChar_of_isHexDigit digit] at outside

/-- Such a character begins no literal. -/
theorem stretches_cons_outside (rest : List Char) : stretches (c :: rest) = Stretch.prepend c (stretches rest) := by
  refine stretches.eq_3 c rest fun d later zero _ => ?_
  subst zero
  simp [Text.isIdentifierChar, Text.isAsciiDigit] at outside

theorem takeWhile_isHexDigit_append (a b : List Char) :
    (a ++ c :: b).takeWhile isHexDigit = a.takeWhile isHexDigit := by
  induction a with
  | nil => simp [not_isHexDigit outside]
  | cons d a ih => cases digit : isHexDigit d <;> simp [digit, ih]

theorem dropWhile_isHexDigit_append (a b : List Char) :
    (a ++ c :: b).dropWhile isHexDigit = a.dropWhile isHexDigit ++ c :: b := by
  induction a with
  | nil => simp [not_isHexDigit outside]
  | cons d a ih => cases digit : isHexDigit d <;> simp [digit, ih]

theorem stretches_append (a b : List Char) :
    stretches (a ++ c :: b) = Stretch.join (stretches a) (stretches (c :: b)) := by
  rw [stretches_cons_outside outside b]
  induction a using stretches.induct with
  | case1 => rw [stretches, List.nil_append, stretches_cons_outside outside, Stretch.join]
  | case2 d rest digit ih =>
    -- the literal ends before `c`
    simp only [List.cons_append]
    rw [stretches, if_pos digit, stretches, if_pos digit, takeWhile_isHexDigit_append outside,
      dropWhile_isHexDigit_append outside, ih]
    cases stretches (rest.dropWhile isHexDigit) <;> rfl
  | case3 d rest digit ih =>
    simp only [List.cons_append] at ih ⊢
    rw [stretches, if_neg digit, ih, stretches, if_neg digit, Stretch.prepend_join]
  | case4 first rest noLiteral ih =>
    rw [List.cons_append, stretches.eq_3 first rest noLiteral, ← Stretch.prepend_join, ← ih]
    by_cases literal : ∃ d later, first = '0' ∧ rest ++ c :: b = 'x' :: d :: later
    · -- only `0x` at the end of `a` can get the look of a literal, and `c` is no digit of it
      obtain ⟨d, later, rfl, text⟩ := literal
      rw [text, stretches]
      have notDigit : isHexDigit d = false := by
        match rest, text with
        | [], text =>
          obtain ⟨rfl, -⟩ := List.cons.inj text
          simp [Text.isIdentifierChar, Text.isAsciiLetter, Text.isAsciiLower] at outside
        | [x], text =>
          obtain ⟨rfl, -⟩ := List.cons.inj (List.cons.inj text).2
          exact not_isHexDigit outside
        | x :: e :: rest, text =>
          obtain ⟨rfl, -⟩ := List.cons.inj text
          exact (noLiteral e rest rfl rfl).elim
      rw [if_neg (by simp [notDigit])]
    · exact stretches.eq_3 first _ fun d later zero text => literal ⟨d, later, zero, text⟩

end

/-! ## The scan of two parts -/

section
variable (rules : Rules) {c : Char} (outside : Text.isIdentifierChar c = false)
include outside

theorem scanned_cons (text : List Char) :
    Stretch.scanned rules (.plain (c :: text)) = Stretch.scanned rules (.plain text) := by
  rw [Stretch.scanned, identifiers, Text.runsOf_cons_of_not outside]
  rfl

theorem scanned_prepend (later : List Stretch) :
    (Stretch.prepend c later).flatMap (Stretch.scanned rules) = later.flatMap (Stretch.scanned rules) := by
  have alone : Stretch.scanned rules (.plain [c]) = [] := scanned_cons rules outside []
  cases later with
  | nil => simp [Stretch.prepend, alone]
  | cons stretch later =>
    cases stretch with
    | plain text => simp [Stretch.prepend, scanned_cons rules outside]
    | hex literal => simp [Stretch.prepend, alone]

/-- A plain stretch may be cut before such a character. -/
theorem scanned_append (text rest : List Char) : Stretch.scanned rules (.plain (text ++ c :: rest)) =
    Stretch.scanned rules (.plain text) ++ Stretch.scanned rules (.plain (c :: rest)) := by
  have boundary : Text.Boundary text (c :: rest) := .inr fun d first => by
    obtain rfl : c = d := by simpa using first
    exact outside
  rw [Stretch.scanned, identifiers, Text.runsOf_append boundary, List.flatMap_append]
  rfl

theorem scanned_join (before later : List Stretch) :
    (Stretch.join before (Stretch.prepend c later)).flatMap (Stretch.scanned rules) =
      before.flatMap (Stretch.scanned rules) ++ later.flatMap (Stretch.scanned rules) := by
  rw [← scanned_prepend rules outside later]
  obtain ⟨text, after, starts⟩ := Stretch.prepend_plain c later
  rw [starts]
  induction before with
  | nil => rfl
  | cons stretch before ih =>
    cases before with
    | nil =>
      cases stretch with
      | plain word => simp [Stretch.join, scanned_append rules outside]
      | hex literal => rfl
    | cons next before =>
      have joins : Stretch.join (stretch :: next :: before) (.plain (c :: text) :: after) =
          stretch :: Stretch.join (next :: before) (.plain (c :: text) :: after) := by
        cases stretch <;> rfl
      rw [joins, List.flatMap_cons, ih, ← List.append_assoc, ← List.flatMap_cons]

/-- What stands before a character outside identifiers is scanned apart from what stands behind it. -/
theorem scan_append (a b : List Char) : scan rules (a ++ c :: b) = scan rules a ++ scan rules b := by
  unfold scan
  split
  · rw [stretches_append outside, stretches_cons_outside outside, scanned_join rules outside]
  · rw [scanned_append rules outside, Stretch.scanned, Stretch.scanned, Stretch.scanned, identifiers, identifiers,
      identifiers, Text.runsOf_cons_of_not outside]

theorem scan_cons (rest : List Char) : scan rules (c :: rest) = scan rules rest := by
  have nothing : scan rules [] = [] := by
    unfold scan
    split <;> simp [stretches, Stretch.scanned, identifiers, Text.runsOf]
  simpa [nothing] using scan_append rules outside [] rest

end

theorem scan_gap (rules : Rules) {gap : List Char} (outside : ∀ c ∈ gap, Text.isIdentifierChar c = false)
    (text : List Char) : scan rules (gap ++ text) = scan rules text := by
  induction gap with
  | nil => rfl
  | cons c gap ih =>
    rw [List.cons_append, scan_cons rules (outside c List.mem_cons_self),
      ih fun d hd => outside d (List.mem_cons_of_mem c hd)]

/-! ## The scan and the identifiers -/

theorem plain_mem_prepend {c : Char} {rest plain : List Char} {later : List Stretch}
    (within : ∀ text, .plain text ∈ later → text ≠ [] ∧ text ⊆ rest) (h : .plain plain ∈ Stretch.prepend c later) :
    plain ≠ [] ∧ plain ⊆ c :: rest := by
  have old (there : .plain plain ∈ later) : plain ≠ [] ∧ plain ⊆ c :: rest :=
    ⟨(within plain there).1, List.subset_cons_of_subset c (within plain there).2⟩
  match later with
  | [] =>
    obtain rfl : plain = [c] := by simpa [Stretch.prepend] using h
    exact ⟨List.cons_ne_nil _ _, by simp⟩
  | .plain text :: after =>
    rcases List.mem_cons.mp h with first | there
    · obtain rfl := Stretch.plain.inj first
      exact ⟨List.cons_ne_nil _ _, List.cons_subset_cons c (within text List.mem_cons_self).2⟩
    · exact old (List.mem_cons_of_mem _ there)
  | .hex literal :: after =>
    rcases List.mem_cons.mp h with first | there
    · obtain rfl := Stretch.plain.inj first
      exact ⟨List.cons_ne_nil _ _, by simp⟩
    · exact old there

/-- A plain stretch is not empty, and its characters are some of the text. -/
theorem plain_mem_stretches {text plain : List Char} (h : .plain plain ∈ stretches text) :
    plain ≠ [] ∧ plain ⊆ text := by
  induction text using stretches.induct generalizing plain with
  | case1 => simp [stretches] at h
  | case2 d rest digit ih =>
    rw [stretches, if_pos digit, List.mem_cons] at h
    obtain ⟨some, within⟩ := ih (h.resolve_left nofun)
    refine ⟨some, fun c hc => ?_⟩
    have inRest := (List.dropWhile_sublist (l := rest) isHexDigit).subset (within hc)
    simp [inRest]
  | case3 d rest digit ih =>
    rw [stretches, if_neg digit] at h
    exact plain_mem_prepend (fun _ => ih) h
  | case4 first rest noLiteral ih =>
    rw [stretches.eq_3 first rest noLiteral] at h
    exact plain_mem_prepend (fun _ => ih) h

/-- Within one identifier no stretch is cut further. -/
theorem scan_identifier (rules : Rules) {word : List Char} (some : word ≠ [])
    (inside : ∀ c ∈ word, Text.isIdentifierChar c = true) : scan rules word = identifierTokens rules word := by
  have whole {text : List Char} (some : text ≠ []) (within : text ⊆ word) :
      Stretch.scanned rules (.plain text) = plainTokens rules text := by
    have one : identifiers text = [text] := Text.runsOf_eq_singleton some fun c hc => inside c (within hc)
    simp [Stretch.scanned, one]
  unfold scan identifierTokens
  split
  · refine List.flatMap_congr fun stretch found => ?_
    cases stretch with
    | plain text => exact whole (plain_mem_stretches found).1 (plain_mem_stretches found).2
    | hex literal => rfl
  · exact whole some (List.Subset.refl word)

/-- The tokens of a text are what the scan of the whole text for literals finds. -/
theorem tokenize_eq_scan (rules : Rules) (text : List Char) : tokenize rules text = scan rules text := by
  induction len : text.length using Nat.strong_induction_on generalizing text with
  | _ n ih =>
    by_cases inside : ∀ c ∈ text, Text.isIdentifierChar c = true
    · cases text with
      | nil =>
        unfold tokenize scan
        split <;> simp [stretches, Stretch.scanned, identifiers, Text.runsOf]
      | cons c rest =>
        have one : identifiers (c :: rest) = [c :: rest] := Text.runsOf_eq_singleton (List.cons_ne_nil c rest) inside
        rw [scan_identifier rules (List.cons_ne_nil c rest) inside, tokenize, one, List.flatMap_singleton]
    · -- the text is cut at a character outside identifiers, and both parts are shorter
      push Not at inside
      obtain ⟨c, hc, outside⟩ := inside
      obtain ⟨a, b, rfl⟩ := List.append_of_mem hc
      have outside : Text.isIdentifierChar c = false := Bool.eq_false_of_not_eq_true outside
      have boundary : Text.Boundary a (c :: b) := .inr fun d first => by
        obtain rfl : c = d := by simpa using first
        exact outside
      have shorter : a.length < n ∧ b.length < n := by
        simp only [List.length_append, List.length_cons] at len
        omega
      rw [tokenize_append rules boundary, tokenize_cons rules outside, scan_append rules outside,
        ih _ shorter.1 a rfl, ih _ shorter.2 b rfl]

/-- The tokens of two texts with a gap between them are the tokens of the one and then of the other, by all rules and
for every gap of characters outside identifiers, a single one included. -/
theorem tokenize_across_gap (rules : Rules) (s t : List Char) {gap : List Char} (some : gap ≠ [])
    (outside : ∀ c ∈ gap, Text.isIdentifierChar c = false) :
    tokenize rules (s ++ gap ++ t) = tokenize rules s ++ tokenize rules t := by
  simp only [tokenize_eq_scan]
  obtain ⟨c, gap, rfl⟩ := List.exists_cons_of_ne_nil some
  rw [List.append_assoc, List.cons_append, scan_append rules (outside c List.mem_cons_self),
    scan_gap rules fun d hd => outside d (List.mem_cons_of_mem c hd)]

/-- A literal that would go on, a name in two letter cases and a half of a literal on both sides of a gap. -/
theorem tokenize_across_space :
    (" ".toList ≠ [] ∧ ∀ c ∈ " ".toList, Text.isIdentifierChar c = false) ∧
      tokenize {} ("get0x8".toList ++ " ".toList ++ "84_userName0x".toList) =
        tokenize {} "get0x8".toList ++ tokenize {} "84_userName0x".toList :=
  ⟨by decide, tokenize_across_gap {} _ _ (by decide) (by decide)⟩

end Token

end CodeSearch
