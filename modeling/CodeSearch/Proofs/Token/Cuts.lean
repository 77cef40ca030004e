import CodeSearch.Proofs.Text.Spacing
import CodeSearch.Proofs.Token.Parts
/-!
# Where an identifier is cut

An identifier can also be cut by two searches, one for acronyms and then one for humps, each of which puts blanks in. That
gives the same parts, whatever characters there are (`splitIdentifier_eq_searched`): each search finds all places that a
rule on neighbouring characters picks out (`apply_acronym`, `apply_hump`), and the blanks of the first take part in nothing
that the second finds (`insertBlanks_startsHump`). The places at which an identifier is cut are exactly those at which a word
begins (`cutAt_cutWords`), and they tell what the pieces are (`CutAt.unique`).
-/

namespace CodeSearch

namespace Token

open Text

/-! ## The two searches -/

/-- Capitals, as many as can be, and behind them a capital and a small letter. -/
def acronym : Spacing := ⟨.run isAsciiUpper, [.one isAsciiUpper, .one isAsciiLower]⟩

/-- A small letter or a digit, and a capital. -/
def hump : Spacing := ⟨.one fun c => isAsciiLower c || isDecimalDigit c, [.one isAsciiUpper]⟩

/-- The parts of an identifier, by two searches for the pieces and a split of each piece at its underscores. -/
def searchedParts (rules : SplitRules) (word : List Char) : List (List Char) :=
  let pieces := if rules.camelCase then words (hump.apply (acronym.apply word)) else [word]
  pieces.flatMap fun piece =>
    if rules.snakeCase && piece.contains '_' then (piece.splitOn '_').filter (· ≠ [])
    else if piece.any (· ≠ '_') then [piece] else []

/-- The second of two capitals, with a small letter behind it. -/
def endsAcronym (before c : Char) (after : List Char) : Bool :=
  isAsciiUpper before && isAsciiUpper c && after.head?.any isAsciiLower

/-- A capital behind a small letter or a digit. -/
def startsHump (before c : Char) (_ : List Char) : Bool :=
  (isAsciiLower before || isDecimalDigit before) && isAsciiUpper c

theorem not_isAsciiUpper_of_isAsciiLower {c : Char} (lower : isAsciiLower c = true) : isAsciiUpper c = false := by
  simp only [isAsciiLower, isAsciiUpper, Bool.and_eq_true, decide_eq_true_eq, Char.le_def, UInt32.le_iff_toNat_le,
    ← Bool.not_eq_true] at *
  have : 'Z'.val.toNat < 'a'.val.toNat := by decide
  omega

theorem not_isDecimalDigit_of_isAsciiUpper {c : Char} (upper : isAsciiUpper c = true) : isDecimalDigit c = false := by
  simp only [isAsciiUpper, Bool.and_eq_true, decide_eq_true_eq, Char.le_def, UInt32.le_iff_toNat_le] at upper
  have small : c.toNat < 128 := Nat.lt_of_le_of_lt upper.2 (by decide)
  have noDigit : isAsciiDigit c = false := by
    have : '9'.val.toNat < 'A'.val.toNat := by decide
    simp only [isAsciiDigit, Bool.and_eq_false_iff, decide_eq_false_iff_not, Char.le_def, UInt32.le_iff_toNat_le]
    omega
  rw [isDecimalDigit, digitValue?, noDigit]
  simp [small]

theorem take_one {β : Type} {next : List Char → Option β} {has : Char → Bool} {text taken : List Char} {found : β} :
    PatternStep.take next (.one has) text = some (taken, found) ↔
      ∃ c rest, text = c :: rest ∧ has c = true ∧ taken = [c] ∧ next rest = some found := by
  cases text with
  | nil => simp [PatternStep.take]
  | cons c text =>
    rw [PatternStep.take]
    cases inClass : has c with
    | false => simp [inClass]
    | true =>
      rw [if_pos rfl, Option.map_eq_some_iff]
      constructor
      · rintro ⟨found', there, h⟩
        cases h
        exact ⟨c, text, rfl, inClass, rfl, there⟩
      · rintro ⟨_, _, same, _, rfl, there⟩
        cases same
        exact ⟨found, there, rfl⟩

/-- A capital and a small letter are what an acronym ends before. -/
theorem takeSteps_acronym {text taken rest : List Char} :
    takeSteps acronym.others text = some (taken, rest) ↔
      ∃ c d, text = c :: d :: rest ∧ taken = [c, d] ∧ isAsciiUpper c = true ∧ isAsciiLower d = true := by
  simp only [acronym, takeSteps, Option.map_eq_some_iff, Prod.exists, take_one, Prod.mk.injEq]
  constructor
  · rintro ⟨_, _, _, ⟨c, text, rfl, upper, rfl, _, _, _, ⟨d, _, rfl, lower, rfl, there⟩, rfl, rfl⟩, rfl, rfl⟩
    cases there
    exact ⟨c, d, rfl, rfl, upper, lower⟩
  · rintro ⟨c, d, rfl, rfl, upper, lower⟩
    exact ⟨[c], [d], rest,
      ⟨c, d :: rest, rfl, upper, rfl, [d], [], rest, ⟨d, rest, rfl, lower, rfl, rfl⟩, rfl, rfl⟩, rfl, rfl⟩

/-- No run of capitals goes up to a capital before a small letter. -/
theorem longestRun_before_small {c d : Char} (lower : isAsciiLower d = true) (text : List Char) :
    longestRun isAsciiUpper (takeSteps acronym.others) (c :: d :: text) = none := by
  have upper := not_isAsciiUpper_of_isAsciiLower lower
  have behind : takeSteps acronym.others (d :: text) = none := by
    rw [Option.eq_none_iff_forall_ne_some]
    rintro ⟨taken, rest⟩ there
    obtain ⟨_, _, same, _, capital, _⟩ := takeSteps_acronym.1 there
    cases same
    rw [upper] at capital
    cases capital
  have none : longestRun isAsciiUpper (takeSteps acronym.others) (d :: text) = none := by
    rw [longestRun, if_neg (by simp [upper])]
  rw [longestRun, none, behind]
  simp

theorem insertBlanks_of_longestRun {text run back rest : List Char}
    (h : longestRun isAsciiUpper (takeSteps acronym.others) text = some (run, back, rest)) :
    insertBlanks endsAcronym text = run ++ ' ' :: (back ++ insertBlanks endsAcronym rest) := by
  -- the rule picks out one character of a run of capitals, the last one, as does the search after it has taken all of
  -- them and given back one
  induction text generalizing run with
  | nil => cases h
  | cons c text ih =>
    rw [longestRun] at h
    split at h
    next upper =>
      split at h
      next run' found longer =>
        injection h with h
        cases h
        rw [insertBlanks_of_not, ih longer, List.cons_append]
        rintro d after rfl
        by_contra picked
        simp only [endsAcronym, Bool.not_eq_false, Bool.and_eq_true, Option.any_eq_true] at picked
        obtain ⟨_, e, first, lower⟩ := picked
        obtain ⟨more, rfl⟩ := List.head?_eq_some_iff.1 first
        rw [longestRun_before_small lower] at longer
        cases longer
      next =>
        obtain ⟨_, there, h⟩ := Option.map_eq_some_iff.1 h
        cases h
        obtain ⟨d, e, rfl, rfl, capital, lower⟩ := takeSteps_acronym.1 there
        have small := not_isAsciiUpper_of_isAsciiLower lower
        rw [insertBlanks, if_pos (by simp [endsAcronym, upper, capital, lower]),
          insertBlanks_of_not fun f after same => ?_, insertBlanks_of_not fun f after same => ?_]
        · rfl
        · simp [endsAcronym, small]
        · cases same
          simp [endsAcronym, small]
    next => cases h

/-- The search for acronyms finds all that end. -/
theorem apply_acronym (text : List Char) : acronym.apply text = insertBlanks endsAcronym text := by
  have found {text front back rest : List Char} (h : acronym.take text = some (front, back, rest)) :
      insertBlanks endsAcronym text = front ++ ' ' :: (back ++ insertBlanks endsAcronym rest) :=
    insertBlanks_of_longestRun h
  refine Spacing.apply_eq_insertBlanks found (fun {c d rest} none => ?_) text
  by_contra picked
  simp only [endsAcronym, Bool.not_eq_false, Bool.and_eq_true, Option.any_eq_true] at picked
  obtain ⟨⟨before, upper⟩, e, first, lower⟩ := picked
  obtain ⟨more, rfl⟩ := List.head?_eq_some_iff.1 first
  have behind : takeSteps acronym.others (d :: e :: more) = some ([d, e], more) :=
    takeSteps_acronym.2 ⟨d, e, rfl, rfl, upper, lower⟩
  have alone := longestRun_before_small lower (c := d) more
  rw [Spacing.take, acronym, PatternStep.take] at none
  rw [acronym] at behind alone
  rw [longestRun, if_pos before, alone, behind] at none
  cases none

/-- The search for humps finds all of them. -/
theorem apply_hump (text : List Char) : hump.apply text = insertBlanks startsHump text := by
  have taken {text front back rest : List Char} : hump.take text = some (front, back, rest) ↔
      ∃ c d, text = c :: d :: rest ∧ front = [c] ∧ back = [d] ∧ startsHump c d rest = true := by
    simp only [Spacing.take, hump, takeSteps, take_one, Option.map_eq_some_iff, Prod.exists, Prod.mk.injEq, startsHump,
      Bool.and_eq_true]
    constructor
    · rintro ⟨c, _, rfl, before, rfl, _, _, _, ⟨d, _, rfl, upper, rfl, there⟩, rfl, rfl⟩
      cases there
      exact ⟨c, d, rfl, rfl, rfl, before, upper⟩
    · rintro ⟨c, d, rfl, rfl, rfl, before, upper⟩
      exact ⟨c, d :: rest, rfl, before, rfl, [d], [], rest, ⟨d, rest, rfl, upper, rfl, rfl⟩, rfl, rfl⟩
  refine Spacing.apply_eq_insertBlanks (fun {text front back rest} found => ?_) (fun {c d rest} none => ?_) text
  · obtain ⟨c, d, rfl, rfl, rfl, starts⟩ := taken.1 found
    rw [insertBlanks, if_pos starts, insertBlanks_of_not fun e after _ => ?_]
    · rfl
    · -- the capital of a hump starts no other one
      rw [startsHump, Bool.and_eq_true] at starts
      have digit := not_isDecimalDigit_of_isAsciiUpper starts.2
      have small : isAsciiLower d = false := by
        by_contra lower
        have := not_isAsciiUpper_of_isAsciiLower (by simpa using lower)
        rw [starts.2] at this
        cases this
      simp [startsHump, digit, small]
  · by_contra starts
    have there := taken.2 ⟨c, d, rfl, rfl, rfl, by simpa using starts⟩
    rw [none] at there
    cases there

/-! ## Both searches, and the rule -/

theorem beginsWord_eq (before c : Char) (after : List Char) :
    beginsWord before c after = (startsHump before c after || endsAcronym before c after) := by
  cases after <;> cases capital : isAsciiUpper c <;> simp [beginsWord, startsHump, endsAcronym, capital]

theorem exists_insertBlanks_cons (picks : Char → Char → List Char → Bool) (c : Char) (text : List Char) :
    ∃ more, insertBlanks picks (c :: text) = c :: more := by
  cases text with
  | nil => exact ⟨[], rfl⟩
  | cons d text =>
    rw [insertBlanks]
    split
    · exact ⟨_, rfl⟩
    · exact ⟨_, rfl⟩

/-- A blank that is put in takes part in no hump. -/
theorem insertBlanks_startsHump (text : List Char) :
    insertBlanks startsHump (insertBlanks endsAcronym text) = insertBlanks beginsWord text := by
  induction text with
  | nil => rfl
  | cons c text ih =>
    cases text with
    | nil => rfl
    | cons d text =>
      obtain ⟨more, first⟩ := exists_insertBlanks_cons endsAcronym d text
      by_cases ends : endsAcronym c d text = true
      · have begins : beginsWord c d text = true := by rw [beginsWord_eq, ends, Bool.or_true]
        have capital : isAsciiUpper ' ' = false := by decide
        have small : (isAsciiLower ' ' || isDecimalDigit ' ') = false := by decide
        rw [insertBlanks, if_pos ends, insertBlanks.eq_1 beginsWord, if_pos begins, ← ih, insertBlanks_of_not,
          insertBlanks_of_not]
        · rintro e after same
          rw [startsHump, small, Bool.false_and]
        · rintro e after same
          cases same
          rw [startsHump, capital, Bool.and_false]
      · have begins : beginsWord c d text = startsHump c d more := by
          rw [beginsWord_eq, Bool.eq_false_of_not_eq_true ends, Bool.or_false]
          rfl
        rw [insertBlanks, if_neg ends, insertBlanks.eq_1 beginsWord, begins, ← ih, first, insertBlanks]

theorem cutWords_cons_cons (c d : Char) (word : List Char) : cutWords (c :: d :: word) =
    if beginsWord c d word then [c] :: cutWords (d :: word) else (cutWords (d :: word)).modifyHead (c :: ·) := by
  obtain ⟨piece, pieces, cut⟩ := List.exists_cons_of_ne_nil (cutWords_ne_nil d word)
  rw [cutWords, cut]
  rfl

/-- The two searches put blanks between the pieces of a text. -/
theorem apply_searches (word : List Char) : hump.apply (acronym.apply word) = [' '].intercalate (cutWords word) := by
  rw [apply_acronym, apply_hump, insertBlanks_startsHump]
  induction word with
  | nil => rfl
  | cons c word ih =>
    cases word with
    | nil => rfl
    | cons d word =>
      obtain ⟨piece, pieces, cut⟩ := List.exists_cons_of_ne_nil (cutWords_ne_nil d word)
      rw [insertBlanks, ih, cutWords_cons_cons, cut]
      by_cases begins : beginsWord c d word = true
      · rw [if_pos begins, if_pos begins, List.intercalate_cons_cons]
        rfl
      · rw [if_neg begins, if_neg begins, List.modifyHead_cons]
        cases pieces with
        | nil => rw [List.intercalate_singleton, List.intercalate_singleton]
        | cons next pieces => rw [List.intercalate_cons_cons, List.intercalate_cons_cons, List.cons_append, List.cons_append]

/-- A piece is split at its underscores only if it has any, and is left out if it has nothing else. -/
theorem snakeParts_eq (rules : SplitRules) (piece : List Char) : snakeParts rules piece =
    if rules.snakeCase && piece.contains '_' then (piece.splitOn '_').filter (· ≠ [])
    else if piece.any (· ≠ '_') then [piece] else [] := by
  rw [snakeParts, cutUnderscores, ← filter_splitOn]
  cases rules.snakeCase with
  | false =>
    rw [if_neg Bool.false_ne_true, Bool.false_and, if_neg Bool.false_ne_true]
    by_cases underscores : ∀ c ∈ piece, c = '_'
    · rw [if_pos (by simpa using underscores), if_neg (by simpa using underscores)]
    · rw [if_neg (by simpa using underscores), if_pos (by simpa using underscores)]
  | true =>
    by_cases held : '_' ∈ piece
    · simp [held]
    · rw [List.splitOn_eq_singleton held]
      cases piece with
      | nil => rfl
      | cons c piece =>
        have other : c ≠ '_' := fun same => held (same ▸ List.mem_cons_self)
        simp [held, other]

/-- The parts of an identifier are those that the two searches give, whatever characters it has. -/
theorem splitIdentifier_eq_searched (rules : SplitRules) (word : List Char) :
    splitIdentifier rules word = searchedParts rules word := by
  rw [splitIdentifier, searchedParts, camelParts, apply_searches, words_intercalate]
  exact List.flatMap_congr fun piece _ => snakeParts_eq rules piece

/-! ## The places of the cuts -/

/-- Some of the pieces of a text, from its start on, end at a place. -/
def EndsAt (pieces : List (List Char)) (i : Nat) : Prop := ∃ front, front <+: pieces ∧ front.flatten.length = i

/-- The pieces of a text that is cut at some places within it, and nowhere else. -/
structure CutAt (places : Nat → Prop) (text : List Char) (pieces : List (List Char)) : Prop where
  whole : pieces.flatten = text
  filled : ∀ piece ∈ pieces, piece ≠ []
  ends : ∀ i, 0 < i → i < text.length → (EndsAt pieces i ↔ places i)

theorem endsAt_cons {piece : List Char} {pieces : List (List Char)} {i : Nat} :
    EndsAt (piece :: pieces) i ↔ i = 0 ∨ ∃ j, i = piece.length + j ∧ EndsAt pieces j := by
  constructor
  · rintro ⟨front, within, rfl⟩
    cases front with
    | nil => exact .inl rfl
    | cons first front =>
      obtain ⟨rfl, behind⟩ := List.cons_prefix_cons.1 within
      exact .inr ⟨front.flatten.length, by simp, front, behind, rfl⟩
  · rintro (rfl | ⟨_, rfl, front, within, rfl⟩)
    · exact ⟨[], List.nil_prefix, rfl⟩
    · exact ⟨piece :: front, (List.prefix_cons_inj piece).2 within, by simp⟩

theorem endsAt_zero (pieces : List (List Char)) : EndsAt pieces 0 := ⟨[], List.nil_prefix, rfl⟩

/-- A character that stands alone moves all ends on by one. -/
theorem endsAt_alone {c : Char} {pieces : List (List Char)} {i : Nat} :
    EndsAt ([c] :: pieces) (i + 1) ↔ EndsAt pieces i := by
  rw [endsAt_cons]
  constructor
  · rintro (zero | ⟨j, same, there⟩)
    · cases zero
    · obtain rfl : i = j := by simpa [Nat.add_comm] using same
      exact there
  · exact fun there => .inr ⟨i, Nat.add_comm i 1, there⟩

/-- So does one that goes to the first piece, before which nothing ends then. -/
theorem endsAt_joined {c : Char} {piece : List Char} (some : piece ≠ []) {pieces : List (List Char)} {i : Nat} :
    EndsAt ((c :: piece) :: pieces) (i + 1) ↔ 0 < i ∧ EndsAt (piece :: pieces) i := by
  have := List.length_pos_iff.2 some
  rw [endsAt_cons, endsAt_cons, List.length_cons]
  constructor
  · rintro (zero | ⟨j, same, there⟩)
    · cases zero
    · exact ⟨by omega, .inr ⟨j, by omega, there⟩⟩
  · rintro ⟨inner, zero | ⟨j, same, there⟩⟩
    · omega
    · exact .inr ⟨j, by omega, there⟩

namespace CutAt

variable {places : Nat → Prop} {text piece : List Char} {pieces others : List (List Char)}

theorem nil : CutAt places [] [] := ⟨rfl, List.forall_mem_nil _, fun i _ short => absurd short (Nat.not_lt_zero i)⟩

/-- The other pieces are what the rest of the text is cut into. -/
theorem tail (h : CutAt places text (piece :: pieces)) :
    CutAt (fun i => places (piece.length + i)) pieces.flatten pieces := by
  refine ⟨rfl, fun other ho => h.filled other (List.mem_cons_of_mem _ ho), fun i inner short => ?_⟩
  have within : piece.length + i < text.length := by
    rw [← h.whole, List.flatten_cons, List.length_append]
    omega
  rw [← h.ends (piece.length + i) (by omega) within, endsAt_cons]
  constructor
  · exact fun there => .inr ⟨i, rfl, there⟩
  · rintro (zero | ⟨j, same, there⟩)
    · omega
    · obtain rfl : i = j := by omega
      exact there

theorem length_le (h : CutAt places text (piece :: pieces)) {other : List Char} (h' : CutAt places text (other :: others)) :
    piece.length ≤ other.length := by
  by_contra longer
  have some := List.length_pos_iff.2 (h'.filled other List.mem_cons_self)
  have within : other.length < text.length := by
    rw [← h.whole, List.flatten_cons, List.length_append]
    omega
  have place := (h'.ends other.length some within).1 (endsAt_cons.2 (.inr ⟨0, rfl, endsAt_zero others⟩))
  rcases endsAt_cons.1 ((h.ends other.length some within).2 place) with zero | ⟨j, same, _⟩
  · omega
  · omega

/-- The places say what the pieces are. -/
theorem unique (h : CutAt places text pieces) (h' : CutAt places text others) : pieces = others := by
  induction pieces generalizing places text others with
  | nil =>
    cases others with
    | nil => rfl
    | cons other others =>
      have empty := h'.whole
      rw [← h.whole, List.flatten_nil, List.flatten_cons, List.append_eq_nil_iff] at empty
      exact absurd empty.1 (h'.filled other List.mem_cons_self)
  | cons piece pieces ih =>
    cases others with
    | nil =>
      have empty := h.whole
      rw [← h'.whole, List.flatten_nil, List.flatten_cons, List.append_eq_nil_iff] at empty
      exact absurd empty.1 (h.filled piece List.mem_cons_self)
    | cons other others =>
      have same : piece ++ pieces.flatten = other ++ others.flatten := h.whole.trans h'.whole.symm
      obtain ⟨rfl, rest⟩ := List.append_inj same (Nat.le_antisymm (h.length_le h') (h'.length_le h))
      have tail' := h'.tail
      rw [← rest] at tail'
      rw [ih h.tail tail']

end CutAt

/-- By letter case a word begins at a place: at a capital behind a small letter or a digit, or at a capital between
another one and a small letter. -/
def BeginsAt (word : List Char) (i : Nat) : Prop :=
  ∃ before c, word[i - 1]? = some before ∧ word[i]? = some c ∧ isAsciiUpper c = true ∧
    (isAsciiLower before = true ∨ isAsciiDigit before = true ∨
      isAsciiUpper before = true ∧ ∃ next, word[i + 1]? = some next ∧ isAsciiLower next = true)

theorem beginsAt_cons {c : Char} {word : List Char} {i : Nat} (inner : 0 < i) :
    BeginsAt (c :: word) (i + 1) ↔ BeginsAt word i := by
  obtain ⟨i, rfl⟩ := Nat.exists_eq_add_of_lt inner
  simp [BeginsAt]

theorem isDecimalDigit_of_inside {c : Char} (inside : isIdentifierChar c = true) : isDecimalDigit c = isAsciiDigit c := by
  have small : c.toNat < 128 := by
    rw [isIdentifierChar_iff] at inside
    omega
  rw [isDecimalDigit, digitValue?]
  cases isAsciiDigit c <;> simp [small]

theorem beginsAt_one {c d : Char} {word : List Char} (inside : isIdentifierChar c = true) :
    BeginsAt (c :: d :: word) 1 ↔ beginsWord c d word = true := by
  cases word <;> simp [BeginsAt, beginsWord, isDecimalDigit_of_inside inside, or_assoc]

section
variable {word : List Char} (inside : ∀ c ∈ word, isIdentifierChar c = true)
include inside

/-- By letter case an identifier is cut where a word begins, and nowhere else. -/
theorem cutAt_cutWords : CutAt (BeginsAt word) word (cutWords word) := by
  refine ⟨flatten_cutWords word, fun _ => ne_nil_of_mem_cutWords, ?_⟩
  induction word with
  | nil => exact fun i _ short => absurd short (Nat.not_lt_zero i)
  | cons c word ih =>
    cases word with
    | nil => exact fun i inner short => absurd short (Nat.not_lt.2 inner)
    | cons d word =>
      have later := ih fun e he => inside e (List.mem_cons_of_mem c he)
      obtain ⟨piece, pieces, cut⟩ := List.exists_cons_of_ne_nil (cutWords_ne_nil d word)
      have among : piece ∈ cutWords (d :: word) := cut ▸ List.mem_cons_self
      have some : piece ≠ [] := ne_nil_of_mem_cutWords among
      have rule : BeginsAt (c :: d :: word) 1 ↔ beginsWord c d word = true := beginsAt_one (inside c List.mem_cons_self)
      rw [cut] at later
      rw [cutWords_cons_cons, cut]
      rintro (_ | _ | i) inner short
      · cases inner
      · -- the place behind the first character is the one that the rule is about
        rw [Nat.zero_add, rule]
        split
        next begins => simp [begins, endsAt_alone, endsAt_zero]
        next none => simp [none, endsAt_joined some]
      · have short : i + 1 < (d :: word).length := Nat.lt_of_succ_lt_succ short
        rw [beginsAt_cons (Nat.succ_pos i), ← later (i + 1) (Nat.succ_pos i) short]
        split
        next => exact endsAt_alone
        next => simp [endsAt_joined some]

/-- An identifier in pieces by letter case, if it is cut by that at all. -/
theorem exists_cutAt (rules : SplitRules) : ∃ pieces,
    CutAt (fun i => rules.camelCase = true ∧ BeginsAt word i) word pieces ∧
      splitIdentifier rules word = pieces.flatMap (snakeParts rules) := by
  rw [splitIdentifier, camelParts, flatMap_words_cutWords inside]
  cases rules.camelCase with
  | true =>
    refine ⟨cutWords word, ?_, rfl⟩
    simpa using cutAt_cutWords inside
  | false =>
    cases word with
    | nil => exact ⟨[], .nil, by cases h : rules.snakeCase <;> simp [snakeParts, h, cutUnderscores, runsOf]⟩
    | cons c word =>
      refine ⟨[c :: word], ⟨by simp, by simp, fun i inner short => ?_⟩, by simp⟩
      have : i ≠ (c :: word).length := Nat.ne_of_lt short
      simp only [Bool.false_eq_true, false_and, iff_false, endsAt_cons, not_or, not_exists, not_and]
      refine ⟨Nat.ne_of_gt inner, fun j same ends => ?_⟩
      obtain ⟨front, within, rfl⟩ := ends
      rw [List.prefix_nil.1 within] at same
      exact this same

end

/-- What is left of a piece at last: without the parts that have nothing but underscores. -/
theorem snakeParts_eq_filter (rules : SplitRules) (piece : List Char) : snakeParts rules piece =
    (if rules.snakeCase then piece.splitOn '_' else [piece]).filter fun part => part.any (· ≠ '_') := by
  cases snake : rules.snakeCase with
  | false =>
    rw [snakeParts_eq, snake, Bool.false_and, if_neg Bool.false_ne_true, if_neg Bool.false_ne_true,
      List.filter_singleton, Bool.cond_eq_ite]
  | true =>
    have runs : snakeParts rules piece = runsOf (· != '_') piece := by rw [snakeParts, snake, if_pos rfl, cutUnderscores]
    rw [runs, if_pos rfl, ← filter_splitOn]
    refine List.filter_congr fun part there => ?_
    cases part with
    | nil => rfl
    | cons c part =>
      have kept : c :: part ∈ runsOf (· != '_') piece := by
        rw [← filter_splitOn]
        exact List.mem_filter.2 ⟨there, by simp⟩
      have plain := (mem_runsOf kept).2.1 c List.mem_cons_self
      simp at plain
      simp [plain]

/-- An identifier is cut at the places where a word begins by letter case, if it is to be cut by that, which tells the
pieces (`BeginsAt`, `CutAt`); then, if that is wanted, the pieces are split at underscores; and parts that are empty or
have nothing but underscores are left out. This is what the two searches give. Split at underscores, the parts are the
identifier without its underscores. -/
theorem splitIdentifier_cuts (rules : SplitRules) {word : List Char}
    (inside : ∀ c ∈ word, isIdentifierChar c = true) :
    (∃! pieces, CutAt (fun i => rules.camelCase = true ∧ BeginsAt word i) word pieces) ∧
      (∀ pieces, CutAt (fun i => rules.camelCase = true ∧ BeginsAt word i) word pieces →
        splitIdentifier rules word =
          (pieces.flatMap fun piece => if rules.snakeCase then piece.splitOn '_' else [piece]).filter
            fun part => part.any (· ≠ '_')) ∧
      splitIdentifier rules word = searchedParts rules word ∧
      (rules.snakeCase = true → (splitIdentifier rules word).flatten = word.filter (· != '_')) := by
  obtain ⟨pieces, cut, parts⟩ := exists_cutAt inside rules
  refine ⟨⟨pieces, cut, fun _ other => other.unique cut⟩, fun others other => ?_, splitIdentifier_eq_searched rules word,
    fun snake => ?_⟩
  · rw [other.unique cut, parts, List.filter_flatMap]
    exact List.flatMap_congr fun piece _ => snakeParts_eq_filter rules piece
  · have runs : snakeParts rules = cutUnderscores := by
      funext piece
      rw [snakeParts, if_pos snake]
    rw [parts, runs, flatten_cutUnderscores, cut.whole]

/-- Acronyms, a digit, humps and underscores. -/
theorem splitIdentifier_cuts_acronym :
    (∀ c ∈ "getHTTPServer2Go__x_".toList, isIdentifierChar c = true) ∧
      splitIdentifier {} "getHTTPServer2Go__x_".toList = searchedParts {} "getHTTPServer2Go__x_".toList ∧
      (splitIdentifier {} "getHTTPServer2Go__x_".toList).flatten = "getHTTPServer2Gox".toList := by
  have inside : ∀ c ∈ "getHTTPServer2Go__x_".toList, isIdentifierChar c = true := by decide
  obtain ⟨_, _, searched, whole⟩ := splitIdentifier_cuts {} inside
  exact ⟨inside, searched, (whole rfl).trans (by decide)⟩

end Token

end CodeSearch
