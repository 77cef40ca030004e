import CodeSearch.Proofs.Token.Scan
/-!
# The parts of an identifier

The parts of an identifier lie within it, are not empty and hold no underscore (`mem_splitIdentifier`), and one behind
the other they are the identifier without its underscores (`flatten_splitIdentifier`). So an identifier of several parts
is a token as a whole (`lowered_mem_of_several`), and one of a single part is a token without its underscores
(`mem_plainTokens_of_few`), of which it has none, unless they are at its ends (`filter_of_bare`).
-/

namespace CodeSearch.Token

/-! ## Pieces by letter case -/

theorem cutWords_ne_nil (c : Char) (rest : List Char) : cutWords (c :: rest) ≠ [] := by
  cases rest with
  | nil => simp [cutWords]
  | cons d rest =>
    rw [cutWords]
    split
    · simp
    · split <;> simp

/-- The first character stands alone or goes to the piece behind it. -/
theorem cutWords_cons (c d : Char) (rest : List Char) : ∃ piece pieces, cutWords (d :: rest) = piece :: pieces ∧
    (cutWords (c :: d :: rest) = [c] :: piece :: pieces ∨ cutWords (c :: d :: rest) = (c :: piece) :: pieces) := by
  obtain ⟨piece, pieces, cut⟩ := List.exists_cons_of_ne_nil (cutWords_ne_nil d rest)
  refine ⟨piece, pieces, cut, ?_⟩
  rw [cutWords, cut]
  by_cases begins : beginsWord c d rest = true
  · exact .inl (if_pos begins)
  · exact .inr (if_neg begins)

theorem flatten_cutWords (word : List Char) : (cutWords word).flatten = word := by
  induction word with
  | nil => rfl
  | cons c rest ih =>
    cases rest with
    | nil => rfl
    | cons d rest =>
      obtain ⟨piece, pieces, cut, alone | joined⟩ := cutWords_cons c d rest
      · rw [alone, ← cut, List.flatten_cons, ih, List.singleton_append]
      · rw [cut, List.flatten_cons] at ih
        rw [joined, List.flatten_cons, List.cons_append, ih]

theorem ne_nil_of_mem_cutWords {word piece : List Char} (h : piece ∈ cutWords word) : piece ≠ [] := by
  induction word generalizing piece with
  | nil => cases h
  | cons c rest ih =>
    cases rest with
    | nil =>
      rw [cutWords, List.mem_singleton] at h
      rw [h]
      exact List.cons_ne_nil c []
    | cons d rest =>
      obtain ⟨first, pieces, cut, alone | joined⟩ := cutWords_cons c d rest
      · rw [alone, ← cut] at h
        rcases List.mem_cons.1 h with rfl | later
        · exact List.cons_ne_nil c []
        · exact ih later
      · rw [joined] at h
        rcases List.mem_cons.1 h with rfl | later
        · exact List.cons_ne_nil c first
        · exact ih (cut ▸ List.mem_cons_of_mem first later)

theorem infix_of_mem_cutWords {word piece : List Char} (h : piece ∈ cutWords word) : piece <:+: word := by
  have within := List.infix_of_mem_flatten h
  rwa [flatten_cutWords] at within

/-! ## Parts -/

theorem flatten_cutUnderscores (pieces : List (List Char)) :
    (pieces.flatMap cutUnderscores).flatten = pieces.flatten.filter (· != '_') := by
  induction pieces with
  | nil => rfl
  | cons piece pieces ih =>
    rw [List.flatMap_cons, List.flatten_append, ih, cutUnderscores, Text.flatten_runsOf, List.flatten_cons,
      List.filter_append]

section
variable {word : List Char} (inside : ∀ c ∈ word, Text.isIdentifierChar c = true)
include inside

/-- There are no blanks in an identifier that could cut it as well. -/
theorem flatMap_words_cutWords : (cutWords word).flatMap Text.words = cutWords word := by
  have whole : ∀ piece ∈ cutWords word, Text.words piece = [piece] := by
    intro piece there
    refine Text.runsOf_eq_singleton (ne_nil_of_mem_cutWords there) fun c hc => ?_
    by_contra blank
    have outside := Text.not_isIdentifierChar_of_isBlank (c := c) (by simpa using blank)
    rw [inside c ((infix_of_mem_cutWords there).subset hc)] at outside
    cases outside
  rw [List.flatMap_congr whole]
  exact List.flatMap_singleton' _

theorem splitIdentifier_eq : splitIdentifier {} word = (cutWords word).flatMap cutUnderscores := by
  rw [splitIdentifier, camelParts, if_pos rfl, flatMap_words_cutWords inside]
  rfl

/-- One behind the other the parts are the identifier without its underscores. -/
theorem flatten_splitIdentifier : (splitIdentifier {} word).flatten = word.filter (· != '_') := by
  rw [splitIdentifier_eq inside, flatten_cutUnderscores, flatten_cutWords]

/-- A part is not empty, has no underscore and lies within the identifier. -/
theorem mem_splitIdentifier {part : List Char} (h : part ∈ splitIdentifier {} word) :
    part ≠ [] ∧ '_' ∉ part ∧ part <:+: word := by
  rw [splitIdentifier_eq inside] at h
  obtain ⟨piece, there, found⟩ := List.mem_flatMap.1 h
  obtain ⟨some, plain, within⟩ := Text.mem_runsOf found
  refine ⟨some, fun underscore => ?_, within.trans (infix_of_mem_cutWords there)⟩
  have := plain _ underscore
  simp at this

theorem one_le_length_of_mem {parts : List (List Char)} (h : parts ⊆ splitIdentifier {} word) :
    ∀ size ∈ parts.map List.length, 1 ≤ size :=
  List.forall_mem_map.2 fun _ there => List.length_pos_iff.2 (mem_splitIdentifier inside (h there)).1

theorem length_splitIdentifier_le : (splitIdentifier {} word).length ≤ word.length := by
  calc (splitIdentifier {} word).length
      = ((splitIdentifier {} word).map List.length).length := (List.length_map _).symm
    _ ≤ ((splitIdentifier {} word).map List.length).sum :=
        List.length_le_sum_of_one_le _ (one_le_length_of_mem inside (List.Subset.refl _))
    _ = (word.filter (· != '_')).length := by rw [← flatten_splitIdentifier inside, List.length_flatten]
    _ ≤ word.length := List.length_filter_le _ _

/-- One of several parts is not all of the identifier but its underscores. -/
theorem length_lt_of_several (several : 1 < (splitIdentifier {} word).length) {part : List Char}
    (h : part ∈ splitIdentifier {} word) : part.length < (word.filter (· != '_')).length := by
  have others : 0 < (((splitIdentifier {} word).erase part).map List.length).sum := by
    refine lt_of_lt_of_le ?_
      (List.length_le_sum_of_one_le _ (one_le_length_of_mem inside (List.erase_sublist (a := part)).subset))
    rw [List.length_map, List.length_erase_of_mem h]
    omega
  have all := ((List.perm_cons_erase h).map List.length).sum_eq
  rw [List.map_cons, List.sum_cons, ← List.length_flatten, flatten_splitIdentifier inside] at all
  omega

end

/-! ## Whole identifiers -/

/-- A word without an underscore at either end. -/
def IsBare (word : List Char) : Prop := word.head? ≠ some '_' ∧ word.getLast? ≠ some '_'
deriving Decidable

theorem filter_eq_nil_iff_underscores {text : List Char} : text.filter (· != '_') = [] ↔ ∀ c ∈ text, c = '_' := by
  simp [List.filter_eq_nil_iff]

/-- Around the only part of an identifier there are underscores at most. -/
theorem eq_part_of_bare {word part : List Char} (inside : ∀ c ∈ word, Text.isIdentifierChar c = true)
    (one : splitIdentifier {} word = [part]) (bare : IsBare word) : part = word := by
  obtain ⟨_, plain, before, after, rfl⟩ := mem_splitIdentifier inside (one ▸ List.mem_singleton_self part)
  have own : part.filter (· != '_') = part :=
    List.filter_eq_self.2 fun c hc => bne_iff_ne.2 (ne_of_mem_of_not_mem hc plain)
  have rest : before.filter (· != '_') = [] ∧ after.filter (· != '_') = [] := by
    have all := flatten_splitIdentifier inside
    rw [one, List.flatten_singleton, List.filter_append, List.filter_append, own] at all
    have sizes := congrArg List.length all
    simp only [List.length_append] at sizes
    exact ⟨List.eq_nil_of_length_eq_zero (by omega), List.eq_nil_of_length_eq_zero (by omega)⟩
  have first : before = [] := by
    cases before with
    | nil => rfl
    | cons c before =>
      obtain rfl := filter_eq_nil_iff_underscores.1 rest.1 c List.mem_cons_self
      exact absurd rfl bare.1
  have last : after = [] := by
    by_contra some
    have underscore := filter_eq_nil_iff_underscores.1 rest.2 _ (List.getLast_mem some)
    refine bare.2 ?_
    rw [List.getLast?_append_of_ne_nil _ some, List.getLast?_eq_getLast_of_ne_nil some, underscore]
  rw [first, last, List.nil_append, List.append_nil]

/-- An identifier with at most one part and no underscore at its ends has none at all. -/
theorem filter_of_bare {word : List Char} (inside : ∀ c ∈ word, Text.isIdentifierChar c = true)
    (few : (splitIdentifier {} word).length ≤ 1) (bare : IsBare word) : word.filter (· != '_') = word := by
  have letters := flatten_splitIdentifier inside
  rcases parts : splitIdentifier {} word with _ | ⟨part, _ | ⟨next, more⟩⟩
  · rw [parts, List.flatten_nil, eq_comm, filter_eq_nil_iff_underscores] at letters
    cases word with
    | nil => rfl
    | cons c rest =>
      obtain rfl := letters c List.mem_cons_self
      exact absurd rfl bare.1
  · rw [parts, List.flatten_singleton] at letters
    exact letters.symm.trans (eq_part_of_bare inside parts bare)
  · rw [parts] at few
    simp at few

/-! ## Tokens -/

@[simp]
theorem length_lowered (word : List Char) : (lowered word).length = word.length := by
  simp [lowered]

theorem keeps_lowered (word : List Char) : ({} : Rules).keeps (lowered word) = true ↔ 2 ≤ word.length := by
  simp [Rules.keeps]

/-- An identifier of several parts is a token as a whole. -/
theorem lowered_mem_of_several {word : List Char} (inside : ∀ c ∈ word, Text.isIdentifierChar c = true)
    (several : 1 < (splitIdentifier {} word).length) : lowered word ∈ plainTokens {} word := by
  have long : 2 ≤ word.length := several.trans_le (length_splitIdentifier_le inside)
  have kept := (keeps_lowered word).2 long
  rw [plainTokens]
  refine List.mem_filter.2 ⟨List.mem_map_of_mem ?_, kept⟩
  simp [several]

/-- An identifier with at most one part is a token without its underscores, if it is long enough then. -/
theorem mem_plainTokens_of_few {word : List Char} (inside : ∀ c ∈ word, Text.isIdentifierChar c = true)
    (few : (splitIdentifier {} word).length ≤ 1) {token : String} : token ∈ plainTokens {} word ↔
      2 ≤ (word.filter (· != '_')).length ∧ token = lowered (word.filter (· != '_')) := by
  rw [← flatten_splitIdentifier inside]
  rcases parts : splitIdentifier {} word with _ | ⟨part, _ | ⟨next, more⟩⟩
  · simp [plainTokens, parts]
  · have tokens : plainTokens {} word = [lowered part].filter ({} : Rules).keeps := by simp [plainTokens, parts]
    rw [tokens, List.mem_filter, List.mem_singleton, List.flatten_singleton]
    constructor
    · rintro ⟨rfl, kept⟩
      exact ⟨(keeps_lowered part).1 kept, rfl⟩
    · rintro ⟨long, rfl⟩
      exact ⟨rfl, (keeps_lowered part).2 long⟩
  · rw [parts] at few
    simp at few

end CodeSearch.Token
