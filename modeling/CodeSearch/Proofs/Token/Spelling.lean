import CodeSearch.Proofs.Token.Parts
/-!
# Spellings of an identifier

Letter case says where an identifier is cut, and only what is cut is put into lower case. So two spellings that differ in
letter case alone need not have a token in common. They have one if they are cut alike (`exists_token_of_alike`): if they
hold the same hexadecimal literal, or if neither holds a literal within it and both of them are tokens as a whole, or both
have one part. Where no literal lies within, this is the only way to a common token (`alike_of_common`).
-/

namespace CodeSearch

namespace Text

theorem toNat_asciiLowerChar {c : Char} (upper : 65 ≤ c.toNat ∧ c.toNat ≤ 90) : (asciiLowerChar c).toNat = c.toNat + 32 := by
  have valid : (c.toNat + 32).isValidChar := .inl (by omega)
  have isUpper : ('A' ≤ c && c ≤ 'Z') = true := by
    simp only [Bool.and_eq_true, decide_eq_true_eq, Char.le_def, UInt32.le_iff_toNat_le]
    exact upper
  rw [asciiLowerChar, if_pos isUpper, Char.ofNat, dif_pos valid]
  rfl

theorem asciiLowerChar_of_not_upper {c : Char} (other : ¬ (65 ≤ c.toNat ∧ c.toNat ≤ 90)) : asciiLowerChar c = c := by
  refine if_neg fun upper => other ?_
  simp only [Bool.and_eq_true, decide_eq_true_eq, Char.le_def, UInt32.le_iff_toNat_le] at upper
  exact upper

@[simp]
theorem asciiLowerChar_eq_underscore {c : Char} : asciiLowerChar c = '_' ↔ c = '_' := by
  by_cases upper : 65 ≤ c.toNat ∧ c.toNat ≤ 90
  · have toNat := toNat_asciiLowerChar upper
    have underscore : '_'.toNat = 95 := by decide
    constructor
    · intro lower
      rw [lower] at toNat
      omega
    · rintro rfl
      omega
  · rw [asciiLowerChar_of_not_upper upper]

@[simp]
theorem isIdentifierChar_asciiLowerChar (c : Char) : isIdentifierChar (asciiLowerChar c) = isIdentifierChar c := by
  by_cases upper : 65 ≤ c.toNat ∧ c.toNat ≤ 90
  · have toNat := toNat_asciiLowerChar upper
    rw [Bool.eq_iff_iff, isIdentifierChar_iff, isIdentifierChar_iff]
    omega
  · rw [asciiLowerChar_of_not_upper upper]

end Text

namespace Token

/-! ## Stretches of an identifier -/

def Stretch.text : Stretch → List Char
  | .plain text | .hex text => text

theorem text_prepend (c : Char) (later : List Stretch) :
    (Stretch.prepend c later).flatMap Stretch.text = c :: later.flatMap Stretch.text := by
  rcases later with _ | ⟨_ | _, _⟩ <;> rfl

/-- One behind the other the stretches are the identifier. -/
theorem text_stretches (word : List Char) : (stretches word).flatMap Stretch.text = word := by
  induction word using stretches.induct with
  | case1 => simp [stretches]
  | case2 d rest digit ih =>
    rw [stretches, if_pos digit, List.flatMap_cons, ih, Stretch.text]
    simp
  | case3 d rest digit ih => rw [stretches, if_neg digit, text_prepend, ih]
  | case4 first rest noLiteral ih => rw [stretches.eq_3 first rest noLiteral, text_prepend, ih]

theorem hex_mem_prepend {c : Char} {literal : List Char} {later : List Stretch} :
    .hex literal ∈ Stretch.prepend c later ↔ .hex literal ∈ later := by
  rcases later with _ | ⟨_ | _, _⟩ <;> simp [Stretch.prepend]

/-- A literal ends with a hexadecimal digit. -/
theorem hex_mem_stretches {word literal : List Char} (h : .hex literal ∈ stretches word) :
    ∃ d digits, literal = '0' :: 'x' :: d :: digits ∧ ∀ e ∈ d :: digits, isHexDigit e = true := by
  induction word using stretches.induct with
  | case1 => simp [stretches] at h
  | case2 d rest digit ih =>
    rw [stretches, if_pos digit] at h
    rcases List.mem_cons.1 h with first | later
    · obtain rfl := Stretch.hex.inj first
      exact ⟨d, rest.takeWhile isHexDigit, rfl, List.forall_mem_cons.2 ⟨digit, fun e he => List.mem_takeWhile_imp he⟩⟩
    · exact ih later
  | case3 d rest digit ih =>
    rw [stretches, if_neg digit, hex_mem_prepend] at h
    exact ih h
  | case4 first rest noLiteral ih =>
    rw [stretches.eq_3 first rest noLiteral, hex_mem_prepend] at h
    exact ih h

/-- A word that is a hexadecimal literal as a whole, or holds none. -/
def IsUncut (word : List Char) : Prop := (stretches word).length = 1
deriving Decidable

theorem IsUncut.stretches_eq {word : List Char} (h : IsUncut word) :
    stretches word = [.plain word] ∨ stretches word = [.hex word] := by
  obtain ⟨stretch, one⟩ := List.length_eq_one_iff.1 h
  have text := text_stretches word
  rw [one, List.flatMap_singleton] at text
  rw [one, ← text]
  cases stretch with
  | plain text => exact .inl rfl
  | hex text => exact .inr rfl

theorem identifierTokens_of_plain {word : List Char} (plain : stretches word = [.plain word]) :
    identifierTokens {} word = plainTokens {} word := by
  simp [identifierTokens, plain, Stretch.tokens]

theorem identifierTokens_of_literal {word : List Char} (literal : stretches word = [.hex word]) :
    identifierTokens {} word = [lowered word] := by
  simp [identifierTokens, literal, Stretch.tokens]

theorem isBare_of_literal {word : List Char} (literal : stretches word = [.hex word]) : IsBare word := by
  obtain ⟨d, digits, shape, isDigit⟩ := hex_mem_stretches (literal ▸ List.mem_singleton_self _)
  rw [shape]
  refine ⟨by simp, fun last => ?_⟩
  rw [List.getLast?_cons_cons, List.getLast?_cons_cons] at last
  have := isDigit _ (List.mem_of_getLast? last)
  revert this
  decide

/-- What has a token has at least two characters. -/
theorem IsUncut.two_le_length {word : List Char} (uncut : IsUncut word)
    (inside : ∀ c ∈ word, Text.isIdentifierChar c = true) (some : identifierTokens {} word ≠ []) : 2 ≤ word.length := by
  rcases uncut.stretches_eq with plain | literal
  · rw [identifierTokens_of_plain plain] at some
    obtain ⟨token, there⟩ := List.exists_mem_of_ne_nil _ some
    by_cases several : 1 < (splitIdentifier {} word).length
    · exact several.trans_le (length_splitIdentifier_le inside)
    · obtain ⟨long, _⟩ := (mem_plainTokens_of_few inside (Nat.le_of_not_lt several)).1 there
      exact long.trans (List.length_filter_le _ _)
  · obtain ⟨d, digits, rfl, _⟩ := hex_mem_stretches (literal ▸ List.mem_singleton_self _)
    simp

/-- Without underscores at its ends such a word is a token as a whole. -/
theorem IsUncut.lowered_mem {word : List Char} (uncut : IsUncut word)
    (inside : ∀ c ∈ word, Text.isIdentifierChar c = true) (bare : IsBare word) (long : 2 ≤ word.length) :
    lowered word ∈ identifierTokens {} word := by
  rcases uncut.stretches_eq with plain | literal
  · rw [identifierTokens_of_plain plain]
    by_cases several : 1 < (splitIdentifier {} word).length
    · exact lowered_mem_of_several inside several
    · have few := Nat.le_of_not_lt several
      rw [mem_plainTokens_of_few inside few, filter_of_bare inside few bare]
      exact ⟨long, rfl⟩
  · rw [identifierTokens_of_literal literal]
    exact List.mem_singleton_self _

/-! ## Spellings -/

/-- The same letters, digits and underscores, where letters may differ in case. -/
def SameLetters (word spelling : List Char) : Prop :=
  word.map Text.asciiLowerChar = spelling.map Text.asciiLowerChar
deriving Decidable

/-- Two spellings of an identifier are cut alike. -/
inductive Alike (word spelling : List Char) : Prop where
  /-- They hold the same hexadecimal literal. -/
  | literal {a b : List Char} (here : .hex a ∈ stretches word) (there : .hex b ∈ stretches spelling)
      (same : SameLetters a b)
  /-- No literal lies within them, and there are no underscores at the ends. -/
  | bare (here : IsUncut word) (there : IsUncut spelling) (bare : IsBare word)
  /-- No literal lies within them, and both have several parts or neither has. -/
  | parts (here : IsUncut word) (there : IsUncut spelling)
      (same : 1 < (splitIdentifier {} word).length ↔ 1 < (splitIdentifier {} spelling).length)

variable {word spelling : List Char}

namespace SameLetters

theorem lowered (h : SameLetters word spelling) : lowered word = lowered spelling := congrArg String.ofList h

theorem length_eq (h : SameLetters word spelling) : word.length = spelling.length := by
  simpa using congrArg List.length h

theorem inside (h : SameLetters word spelling) (inside : ∀ c ∈ word, Text.isIdentifierChar c = true) :
    ∀ c ∈ spelling, Text.isIdentifierChar c = true := by
  have lower : ∀ c ∈ spelling.map Text.asciiLowerChar, Text.isIdentifierChar c = true := by
    rw [← h]
    exact List.forall_mem_map.2 fun c hc => by rw [Text.isIdentifierChar_asciiLowerChar, inside c hc]
  intro c hc
  rw [← Text.isIdentifierChar_asciiLowerChar]
  exact lower _ (List.mem_map_of_mem hc)

theorem isBare (h : SameLetters word spelling) (bare : IsBare word) : IsBare spelling := by
  have lower (text : List Char) : IsBare (text.map Text.asciiLowerChar) ↔ IsBare text := by
    simp [IsBare]
  rwa [← lower, ← h, lower]

/-- Without their underscores spellings are spellings of each other as well. -/
theorem filter (h : SameLetters word spelling) :
    SameLetters (word.filter (· != '_')) (spelling.filter (· != '_')) := by
  have lower (text : List Char) : (text.filter (· != '_')).map Text.asciiLowerChar =
      (text.map Text.asciiLowerChar).filter (· != '_') := by
    rw [List.filter_map]
    congr 1
    refine List.filter_congr fun c _ => ?_
    simp only [Function.comp_apply, bne, beq_eq_decide, Text.asciiLowerChar_eq_underscore]
  rw [SameLetters, lower, lower, h]

theorem symm (h : SameLetters word spelling) : SameLetters spelling word := Eq.symm h

end SameLetters

/-! ## Common tokens -/

/-- No literal lies within two spellings: there are no underscores at their ends, or neither is a literal. -/
theorem bare_or_plain (same : SameLetters word spelling) (here : IsUncut word) (there : IsUncut spelling) :
    IsBare word ∨ identifierTokens {} word = plainTokens {} word ∧
      identifierTokens {} spelling = plainTokens {} spelling := by
  rcases here.stretches_eq with plain | literal
  · rcases there.stretches_eq with plain' | literal'
    · exact .inr ⟨identifierTokens_of_plain plain, identifierTokens_of_plain plain'⟩
    · exact .inl (same.symm.isBare (isBare_of_literal literal'))
  · exact .inl (isBare_of_literal literal)

/-- Spellings that have one part at most have the same tokens. -/
theorem mem_plainTokens_congr (same : SameLetters word spelling) (inside : ∀ c ∈ word, Text.isIdentifierChar c = true)
    (few : (splitIdentifier {} word).length ≤ 1) (few' : (splitIdentifier {} spelling).length ≤ 1) {token : String} :
    token ∈ plainTokens {} spelling ↔ token ∈ plainTokens {} word := by
  rw [mem_plainTokens_of_few inside few, mem_plainTokens_of_few (same.inside inside) few', same.filter.length_eq,
    same.filter.lowered]

/-- Spellings that are cut alike have a token in common. -/
theorem exists_token_of_alike (same : SameLetters word spelling) (inside : ∀ c ∈ word, Text.isIdentifierChar c = true)
    (alike : Alike word spelling) (some : identifierTokens {} spelling ≠ []) :
    ∃ token ∈ identifierTokens {} spelling, token ∈ identifierTokens {} word := by
  have inside' := same.inside inside
  have whole (here : IsUncut word) (there : IsUncut spelling) (bare : IsBare word) :
      ∃ token ∈ identifierTokens {} spelling, token ∈ identifierTokens {} word := by
    have long := there.two_le_length inside' some
    refine ⟨lowered spelling, there.lowered_mem inside' (same.isBare bare) long, ?_⟩
    rw [← same.lowered]
    exact here.lowered_mem inside bare (by rwa [same.length_eq])
  cases alike with
  | @literal a b here there same =>
    refine ⟨lowered b, List.mem_flatMap.2 ⟨_, there, List.mem_singleton_self _⟩, ?_⟩
    rw [← same.lowered]
    exact List.mem_flatMap.2 ⟨_, here, List.mem_singleton_self _⟩
  | bare here there bare => exact whole here there bare
  | parts here there several =>
    rcases bare_or_plain same here there with bare | ⟨plain, plain'⟩
    · exact whole here there bare
    rw [plain'] at some ⊢
    rw [plain]
    -- both are kept whole, or both have at most one part
    by_cases many : 1 < (splitIdentifier {} word).length
    · refine ⟨lowered spelling, lowered_mem_of_several inside' (several.1 many), ?_⟩
      rw [← same.lowered]
      exact lowered_mem_of_several inside many
    · have few' : (splitIdentifier {} spelling).length ≤ 1 := Nat.le_of_not_lt (mt several.2 many)
      obtain ⟨token, asked⟩ := List.exists_mem_of_ne_nil _ some
      exact ⟨token, asked, (mem_plainTokens_congr same inside (Nat.le_of_not_lt many) few').1 asked⟩

/-- If one spelling has several parts and the other has not, underscores at the ends part them for good: the one part
is shorter than the other spelling, and longer than each of its parts. -/
theorem isBare_of_common (same : SameLetters word spelling)
    (inside : ∀ c ∈ word, Text.isIdentifierChar c = true) (several : 1 < (splitIdentifier {} word).length)
    (few : (splitIdentifier {} spelling).length ≤ 1) {token : String} (here : token ∈ plainTokens {} word)
    (there : token ∈ plainTokens {} spelling) : IsBare spelling := by
  obtain ⟨candidate, candidates, spelled⟩ := List.mem_map.1 (List.mem_filter.1 here).1
  obtain ⟨_, only⟩ := (mem_plainTokens_of_few (same.inside inside) few).1 there
  -- tokens that are equal have one length
  have size : candidate.length = (spelling.filter (· != '_')).length := by
    rw [← length_lowered candidate, spelled, only, length_lowered]
  rw [if_pos several] at candidates
  rcases List.mem_cons.1 candidates with rfl | part
  · rw [same.length_eq, eq_comm, List.length_filter_eq_length_iff] at size
    exact ⟨fun first => absurd (size _ (List.mem_of_mem_head? first)) (by decide),
      fun last => absurd (size _ (List.mem_of_getLast? last)) (by decide)⟩
  · have shorter := length_lt_of_several inside several part
    rw [same.filter.length_eq] at shorter
    omega

/-- Where no literal lies within, spellings with a token in common are cut alike. -/
theorem alike_of_common (same : SameLetters word spelling) (inside : ∀ c ∈ word, Text.isIdentifierChar c = true)
    (here : IsUncut word) (there : IsUncut spelling) {token : String} (held : token ∈ identifierTokens {} word)
    (asked : token ∈ identifierTokens {} spelling) : Alike word spelling := by
  by_cases several : 1 < (splitIdentifier {} word).length ↔ 1 < (splitIdentifier {} spelling).length
  · exact .parts here there several
  refine .bare here there ?_
  rcases bare_or_plain same here there with bare | ⟨plain, plain'⟩
  · exact bare
  rw [plain] at held
  rw [plain'] at asked
  by_cases many : 1 < (splitIdentifier {} word).length
  · have few : ¬ 1 < (splitIdentifier {} spelling).length := fun both => several (iff_of_true many both)
    exact same.symm.isBare (isBare_of_common same inside many (Nat.le_of_not_lt few) held asked)
  · have many' : 1 < (splitIdentifier {} spelling).length := by
      by_contra few
      exact several (iff_of_false many few)
    exact isBare_of_common same.symm (same.inside inside) many' (Nat.le_of_not_lt many) asked held

/-! ## Texts of one identifier -/

/-- Two texts have a token in common. -/
def ShareToken (text other : String) : Prop := ∃ token ∈ tokens text, token ∈ tokens other
deriving Decidable

/-- A literal that one spelling alone holds parts the two. -/
example : ¬ ShareToken "id0X1F" "id0x1F" := by decide +kernel

theorem tokens_of_identifier {text : String} (some : text.toList ≠ [])
    (inside : ∀ c ∈ text.toList, Text.isIdentifierChar c = true) : tokens text = identifierTokens {} text.toList := by
  rw [tokens, tokenize, identifiers, Text.runsOf_eq_singleton some inside, List.flatMap_singleton]

end Token

end CodeSearch
