import CodeSearch.Disk.Basic
import CodeSearch.Proofs.Disk.Effects
import CodeSearch.Proofs.Json.Access
/-!
# What is read from kept texts

A text from outside is kept with marks before some private characters. Whatever value it holds, the texts in that value
are kept in the same way (`textsKept_parse`): a reader of values never comes between a mark and its character.
-/

namespace CodeSearch.Text

/-! ## Taking kept texts apart -/

/-- Alone, every character but the mark is kept. -/
theorem IsKept.singleton {c : Char} (h : c ≠ mark) : IsKept [c] := by
  cases half : half? c with
  | none =>
    have same : Text.keepChar c = [c] := if_neg (by simp [h, half])
    exact same ▸ .keepChar c
  | some unit =>
    rw [half?] at half
    split at half
    next isHalf =>
      injection half with half
      subst half
      have range := (isHalf_iff _).1 isHalf
      refine ⟨[c.toNat - halfShift], List.forall_mem_singleton.2 (.inl isHalf), ?_⟩
      have back : c.toNat - halfShift + halfShift = c.toNat := by omega
      rw [List.flatMap_singleton, ofCode, if_pos isHalf, halfChar, back, Char.ofNat_toNat]
    next => cases half

/-- A kept text begins with a character that is no mark, or with a mark and the character that it stands before. -/
theorem IsKept.cons_cases {c : Char} {text : List Char} (h : IsKept (c :: text)) :
    c ≠ mark ∧ IsKept text ∨
      c = mark ∧ ∃ d more, text = d :: more ∧ Text.keepChar d = [mark, d] ∧ IsKept more := by
  obtain ⟨codes, all, eq⟩ := h
  cases codes with
  | nil => cases eq
  | cons code codes =>
    have rest : IsKept (codes.flatMap ofCode) := ⟨codes, fun o ho => all o (List.mem_cons_of_mem _ ho), rfl⟩
    rw [List.flatMap_cons] at eq
    cases half : isHalf code with
    | true =>
      have alone : ofCode code = [halfChar code] := if_pos half
      rw [alone, List.singleton_append] at eq
      obtain ⟨same, text⟩ := List.cons.inj eq
      exact .inl ⟨same ▸ halfChar_ne_mark half, text ▸ rest⟩
    | false =>
      have plain : ofCode code = Text.keepChar (Char.ofNat code) := if_neg (by simp [half])
      rw [plain] at eq
      by_cases marked : (decide (Char.ofNat code = mark) || (half? (Char.ofNat code)).isSome) = true
      · have pair : Text.keepChar (Char.ofNat code) = [mark, Char.ofNat code] := if_pos marked
        rw [pair, List.cons_append, List.singleton_append] at eq
        obtain ⟨same, text⟩ := List.cons.inj eq
        exact .inr ⟨same, _, _, text, pair, rest⟩
      · have alone : Text.keepChar (Char.ofNat code) = [Char.ofNat code] := if_neg marked
        rw [alone, List.singleton_append] at eq
        obtain ⟨same, text⟩ := List.cons.inj eq
        rw [Bool.or_eq_true, decide_eq_true_eq, not_or] at marked
        exact .inl ⟨same ▸ marked.1, text ▸ rest⟩

theorem ne_mark {c : Char} (h : c.toNat < 128) : c ≠ mark := by
  rintro rfl
  rw [toNat_mark] at h
  omega

/-- What follows a character of ASCII. -/
theorem IsKept.tail {c : Char} {text : List Char} (h : IsKept (c :: text)) (small : c.toNat < 128) : IsKept text := by
  rcases h.cons_cases with ⟨_, rest⟩ | ⟨rfl, _⟩
  · exact rest
  · exact absurd rfl (ne_mark small)

/-- No character of ASCII stands behind a mark. -/
theorem IsKept.not_marked {c : Char} {text : List Char} (small : c.toNat < 128) : ¬ IsKept (mark :: c :: text) := by
  intro h
  rcases h.cons_cases with ⟨other, _⟩ | ⟨_, d, more, same, pair, _⟩
  · exact other rfl
  · obtain ⟨rfl, rfl⟩ := List.cons.inj same
    rw [keepChar_of_lt (by omega)] at pair
    cases pair

/-- What follows characters of ASCII that satisfy a condition. -/
theorem IsKept.dropWhile {p : Char → Bool} (small : ∀ c, p c = true → c.toNat < 128) {text : List Char}
    (h : IsKept text) : IsKept (text.dropWhile p) := by
  induction text with
  | nil => exact h
  | cons c text ih =>
    by_cases hc : p c = true
    · rw [List.dropWhile_cons_of_pos hc]
      exact ih (h.tail (small c hc))
    · rw [List.dropWhile_cons_of_neg hc]
      exact h

/-- Line feeds in the place of other line ends leave a text kept. -/
theorem IsKept.lineFeeds {text : List Char} (h : IsKept text) : IsKept (Disk.lineFeeds text) := by
  -- a mark is left where it is, so its character may be met on its own
  have both : (IsKept text → IsKept (Disk.lineFeeds text)) ∧
      (IsKept (mark :: text) → IsKept (mark :: Disk.lineFeeds text)) := by
    clear h
    fun_induction Disk.lineFeeds text with
    | case1 => exact ⟨id, id⟩
    | case2 rest ih =>
      refine ⟨fun h => ?_, fun h => absurd h (IsKept.not_marked (by decide))⟩
      exact .cons (by decide) (ih.1 ((h.tail (by decide)).tail (by decide)))
    | case3 rest _ ih =>
      refine ⟨fun h => ?_, fun h => absurd h (IsKept.not_marked (by decide))⟩
      exact .cons (by decide) (ih.1 (h.tail (by decide)))
    | case4 c rest _ _ ih =>
      constructor
      · intro h
        rcases h.cons_cases with ⟨plain, rest⟩ | ⟨rfl, _⟩
        · exact (IsKept.singleton plain).append (ih.1 rest)
        · exact ih.2 h
      · intro h
        rcases h.cons_cases with ⟨other, _⟩ | ⟨_, d, more, same, pair, rest⟩
        · exact absurd rfl other
        · obtain ⟨rfl, rfl⟩ := List.cons.inj same
          have marked := IsKept.keepChar c
          rw [pair] at marked
          exact marked.append (ih.1 rest)
  exact both.1 h

end CodeSearch.Text

namespace CodeSearch.Json

open CodeSearch.Text

/-! ## Texts in quotes -/

theorem small_of_hexValue {c : Char} {n : Nat} (h : hexValue? c = some n) : c.toNat < 128 ∧ n < 16 := by
  have bounds {a b : Char} (inside : (decide (a ≤ c) && decide (c ≤ b)) = true) :
      a.toNat ≤ c.toNat ∧ c.toNat ≤ b.toNat := by
    rw [Bool.and_eq_true, decide_eq_true_eq, decide_eq_true_eq] at inside
    exact inside
  unfold hexValue? at h
  split at h
  next digit =>
    obtain ⟨low, high⟩ := bounds digit
    simp only [Char.reduceToNat, Option.some.injEq] at low high h
    omega
  next =>
    split at h
    next letter =>
      obtain ⟨low, high⟩ := bounds letter
      simp only [Char.reduceToNat, Option.some.injEq] at low high h
      omega
    next =>
      split at h
      next letter =>
        obtain ⟨low, high⟩ := bounds letter
        simp only [Char.reduceToNat, Option.some.injEq] at low high h
        omega
      next => cases h

/-- Four digits are characters of ASCII, and give a code unit. -/
theorem small_of_hex4 {a b c d : Char} {n : Nat} (h : hex4? a b c d = some n) :
    (∀ digit ∈ [a, b, c, d], digit.toNat < 128) ∧ n < 0x10000 := by
  simp only [hex4?, Option.bind_eq_bind, Option.bind_eq_some_iff] at h
  obtain ⟨_, ha, _, hb, _, hc, _, hd, same⟩ := h
  have ha := small_of_hexValue ha
  have hb := small_of_hexValue hb
  have hc := small_of_hexValue hc
  have hd := small_of_hexValue hd
  injection same with same
  refine ⟨?_, by omega⟩
  simp only [List.forall_mem_cons]
  exact ⟨ha.1, hb.1, hc.1, hd.1, List.forall_mem_nil _⟩

theorem isCode_unit {n : Nat} (h : n < 0x10000) : IsCode n := by
  by_cases half : isHalf n = true
  · exact .inl half
  · rw [isHalf_iff] at half
    refine .inr ?_
    unfold Nat.isValidChar
    omega

theorem isKept_ofCode {n : Nat} (h : IsCode n) : IsKept (ofCode n) :=
  ⟨[n], by simpa using h, by rw [List.flatMap_singleton]⟩

/-- A code unit in front of pieces whose text is kept, alone or as the first of a pair. -/
theorem isKept_join_unit {n : Nat} (h : n < 0x10000) {pieces : List Piece} (kept : IsKept (joinPieces pieces)) :
    IsKept (joinPieces (.unit n :: pieces)) := by
  have alone := (isKept_ofCode (isCode_unit h)).append kept
  cases pieces with
  | nil => exact alone
  | cons piece rest =>
    cases piece with
    | char c => exact alone
    | unit low =>
      rw [joinPieces]
      split
      next pair =>
        -- the second unit is no first one, and makes a half of its own
        rw [Bool.and_eq_true] at pair
        have lowRange : 0xdc00 ≤ low ∧ low ≤ 0xdfff := by simpa [isLowSurrogate] using pair.2
        have second : isHighSurrogate low = false := by simp [isHighSurrogate]; omega
        have half : isHalf low = true := by rw [isHalf_iff]; omega
        have split : joinPieces (.unit low :: rest) = halfChar low :: joinPieces rest := by
          have code : ofCode low = [halfChar low] := if_pos half
          have noPair (other : Nat) : (isHighSurrogate low && isLowSurrogate other) = false := by rw [second]; rfl
          change _ = [halfChar low] ++ joinPieces rest
          rw [← code]
          cases rest with
          | nil => rfl
          | cons next rest =>
            cases next with
            | char c => rfl
            | unit other => rw [joinPieces, noPair, if_neg (by simp)]
        rw [split] at kept
        rcases kept.cons_cases with ⟨_, rest⟩ | ⟨isMark, _⟩
        · exact (IsKept.keepChar _).append rest
        · exact absurd isMark (halfChar_ne_mark half)
      next => exact alone

theorem small_of_escaped {c d : Char} (h : escaped? c = some d) : c.toNat < 128 ∧ d.toNat < 128 := by
  unfold escaped? at h
  split at h <;> first
    | cases h; decide
    | cases h

theorem map_prepend_ok {piece : Piece} {answer : Except Failure (List Piece × List Char)} {pieces : List Piece}
    {rest : List Char} (h : answer.map (prependPiece piece) = .ok (pieces, rest)) :
    ∃ more, answer = .ok (more, rest) ∧ pieces = piece :: more := by
  cases answer with
  | error failure => cases h
  | ok pair =>
    injection h with h
    obtain ⟨rfl, rfl⟩ := Prod.mk.inj h
    exact ⟨pair.1, rfl, rfl⟩

/-- The pieces of a text in quotes make a kept text, and leave one. A mark in front of what is read is left to stand
before its character. -/
theorem isKept_readPieces {start text rest : List Char} {pieces : List Piece}
    (h : readPieces start text = .ok (pieces, rest)) :
    (IsKept text → IsKept (joinPieces pieces) ∧ IsKept rest) ∧
      (IsKept (mark :: text) → IsKept (mark :: joinPieces pieces) ∧ IsKept rest) := by
  fun_induction readPieces start text generalizing pieces rest
  all_goals try cases h
  case case2 =>
    exact ⟨fun kept => ⟨.nil, kept.tail (by decide)⟩, fun kept => absurd kept (IsKept.not_marked (by decide))⟩
  case case4 a b c d next more n digits ih =>
    obtain ⟨others, read, rfl⟩ := map_prepend_ok h
    obtain ⟨small, unit⟩ := small_of_hex4 digits
    simp only [List.forall_mem_cons] at small
    refine ⟨fun kept => ?_, fun kept => absurd kept (IsKept.not_marked (by decide))⟩
    have after := ((((((kept.tail (by decide)).tail (by decide)).tail small.1).tail small.2.1).tail
      small.2.2.1).tail small.2.2.2.1)
    obtain ⟨joined, rest⟩ := (ih read).1 after
    exact ⟨isKept_join_unit unit joined, rest⟩
  case case8 c more _ d escaped ih =>
    obtain ⟨others, read, rfl⟩ := map_prepend_ok h
    obtain ⟨small, small'⟩ := small_of_escaped escaped
    refine ⟨fun kept => ?_, fun kept => absurd kept (IsKept.not_marked (by decide))⟩
    obtain ⟨joined, rest⟩ := (ih read).1 ((kept.tail (by decide)).tail small)
    exact ⟨.cons (by omega) joined, rest⟩
  case case10 c more _ _ _ _ _ _ ih =>
    obtain ⟨others, read, rfl⟩ := map_prepend_ok h
    constructor
    · intro kept
      rcases kept.cons_cases with ⟨plain, after⟩ | ⟨rfl, _⟩
      · obtain ⟨joined, rest⟩ := (ih read).1 after
        exact ⟨(IsKept.singleton plain).append joined, rest⟩
      · exact (ih read).2 kept
    · intro kept
      rcases kept.cons_cases with ⟨other, _⟩ | ⟨_, d, after, same, pair, kept⟩
      · exact absurd rfl other
      · obtain ⟨rfl, rfl⟩ := List.cons.inj same
        obtain ⟨joined, rest⟩ := (ih read).1 kept
        have marked := IsKept.keepChar c
        rw [pair] at marked
        exact ⟨marked.append joined, rest⟩

theorem isKept_readString {start text rest : List Char} {s : String} (h : readString start text = .ok (s, rest))
    (kept : IsKept text) : IsKept s.toList ∧ IsKept rest := by
  rw [readString] at h
  cases read : readPieces start text with
  | error failure =>
    rw [read] at h
    cases h
  | ok answer =>
    rw [read] at h
    injection h with h
    obtain ⟨rfl, rfl⟩ := Prod.mk.inj h
    rw [String.toList_ofList]
    exact (isKept_readPieces read).1 kept

/-! ## What stands between texts -/

theorem small_of_isGap {c : Char} (h : isGap c = true) : c.toNat < 128 := by
  simp only [isGap, Bool.or_eq_true, beq_iff_eq] at h
  rcases h with ((rfl | rfl) | rfl) | rfl <;> decide

theorem isKept_skipGap {text : List Char} (kept : IsKept text) : IsKept (skipGap text) :=
  kept.dropWhile fun _ => small_of_isGap

theorem small_of_isDigit {c : Char} (h : isDigit c = true) : c.toNat < 128 := by
  rw [isDigit, Bool.and_eq_true, decide_eq_true_eq, decide_eq_true_eq] at h
  have high : c.toNat ≤ '9'.toNat := h.2
  exact Nat.lt_of_le_of_lt high (by decide)

theorem isKept_dropDigits {text : List Char} (kept : IsKept text) : IsKept (text.dropWhile isDigit) :=
  kept.dropWhile fun _ => small_of_isDigit

theorem isKept_readWhole {text digits rest : List Char} (h : readWhole? text = some (digits, rest))
    (kept : IsKept text) : IsKept rest := by
  unfold readWhole? at h
  split at h
  next more =>
    injection h with h
    obtain ⟨_, rfl⟩ := Prod.mk.inj h
    exact kept.tail (by decide)
  next c more _ =>
    split at h
    next digit =>
      injection h with h
      obtain ⟨_, rfl⟩ := Prod.mk.inj h
      exact isKept_dropDigits (kept.tail (small_of_isDigit digit))
    next => cases h
  next => cases h

theorem isKept_readFraction {text : List Char} (kept : IsKept text) : IsKept (readFraction text).2 := by
  unfold readFraction
  split
  next rest =>
    simp only []
    split
    next => exact kept
    next => exact isKept_dropDigits (kept.tail (by decide))
  next => exact kept

theorem isKept_readExponent {text : List Char} (kept : IsKept text) : IsKept (readExponent text).2 := by
  unfold readExponent
  split
  next c rest =>
    split
    next letter =>
      have small : c.toNat < 128 := by
        simp only [Bool.or_eq_true, beq_iff_eq] at letter
        rcases letter with rfl | rfl <;> decide
      have after := kept.tail small
      have body (negative : Bool) (body : List Char) (keptBody : IsKept body) :
          IsKept (if (body.takeWhile isDigit).isEmpty then ((none : Option Int), c :: rest)
            else (some (Decimal.signed negative (digitsValue (body.takeWhile isDigit))), body.dropWhile isDigit)).2 := by
        split
        next => exact kept
        next => exact isKept_dropDigits keptBody
      split
      next negative digits split =>
        split at split <;> obtain ⟨rfl, rfl⟩ := Prod.mk.inj split
        · exact body _ _ (after.tail (by decide))
        · exact body _ _ (after.tail (by decide))
        · exact body _ _ after
    next => exact kept
  next => exact kept

/-- A number has no texts, and leaves a kept text. -/
theorem textsKept_readNumber {text rest : List Char} {value : Json} (h : readNumber text = .ok (value, rest))
    (kept : IsKept text) : value.TextsKept ∧ IsKept rest := by
  unfold readNumber at h
  split at h
  next negative body sign =>
    have keptBody : IsKept body := by
      split at sign
      next =>
        obtain ⟨rfl, rfl⟩ := Prod.mk.inj sign
        exact kept.tail (by decide)
      next =>
        obtain ⟨rfl, rfl⟩ := Prod.mk.inj sign
        exact kept
    split at h
    next => cases h
    next whole afterWhole found =>
      have after := isKept_readExponent (isKept_readFraction (isKept_readWhole found keptBody))
      dsimp only at h
      split at h
      next =>
        split at h
        next => cases h
        next =>
          injection h with h
          obtain ⟨rfl, rfl⟩ := Prod.mk.inj h
          exact ⟨by simp [TextsKept], after⟩
      next =>
        injection h with h
        obtain ⟨rfl, rfl⟩ := Prod.mk.inj h
        exact ⟨by simp [TextsKept], after⟩

/-- A word stands for a value without texts, and leaves a kept text. -/
theorem textsKept_readWord {text rest : List Char} {value : Json} (h : readWord text = some (value, rest))
    (kept : IsKept text) : value.TextsKept ∧ IsKept rest := by
  have drop (word : List Char) {rest : List Char} (ascii : ∀ c ∈ word, c.toNat < 128) (kept : IsKept (word ++ rest)) :
      IsKept rest := by
    induction word with
    | nil => exact kept
    | cons c word ih =>
      exact ih (fun d hd => ascii d (List.mem_cons_of_mem _ hd)) (kept.tail (ascii c List.mem_cons_self))
  unfold readWord at h
  split at h
  case h_7 => cases h
  all_goals
    injection h with h
    obtain ⟨rfl, rfl⟩ := Prod.mk.inj h
    refine ⟨by simp [TextsKept], ?_⟩
  · exact drop ['n', 'u', 'l', 'l'] (by decide) kept
  · exact drop ['t', 'r', 'u', 'e'] (by decide) kept
  · exact drop ['f', 'a', 'l', 's', 'e'] (by decide) kept
  · exact drop ['N', 'a', 'N'] (by decide) kept
  · exact drop ['I', 'n', 'f', 'i', 'n', 'i', 't', 'y'] (by decide) kept
  · exact drop ['-', 'I', 'n', 'f', 'i', 'n', 'i', 't', 'y'] (by decide) kept

/-! ## Values -/

/-- What each of the readers of values gives and leaves of a kept text, if it is given so much fuel. -/
structure ReadsKept (fuel : Nat) : Prop where
  value {depth : Nat} {text rest : List Char} {value : Json} (kept : IsKept text)
    (h : readValue fuel depth text = .ok (value, rest)) : value.TextsKept ∧ IsKept rest
  fields {depth : Nat} {before : Fields} {text rest : List Char} {value : Json} (kept : IsKept text)
    (first : (Json.obj before).TextsKept) (h : readFields fuel depth before text = .ok (value, rest)) :
    value.TextsKept ∧ IsKept rest
  items {depth : Nat} {before : List Json} {text rest : List Char} {value : Json} (kept : IsKept text)
    (first : ∀ item ∈ before, item.TextsKept) (h : readItems fuel depth before text = .ok (value, rest)) :
    value.TextsKept ∧ IsKept rest

theorem ReadsKept.zero : ReadsKept 0 where
  value _ h := by cases h
  fields _ _ h := by cases h
  items _ _ h := by cases h

section Succ
variable {fuel : Nat} (ih : ReadsKept fuel) {depth : Nat} {text rest : List Char} {value : Json}
include ih

theorem textsKept_readValue (kept : IsKept text) (h : readValue (fuel + 1) depth text = .ok (value, rest)) :
    value.TextsKept ∧ IsKept rest := by
  rw [readValue.eq_def] at h
  simp only [] at h
  split at h
  next more =>
    simp only [bind, Except.bind] at h
    split at h
    next => cases h
    next answer read =>
      injection h with h
      obtain ⟨rfl, rfl⟩ := Prod.mk.inj h
      obtain ⟨text, rest⟩ := isKept_readString read (kept.tail (by decide))
      exact ⟨textsKept_str.2 text, rest⟩
  next more =>
    split at h
    next => cases h
    next =>
      have body := isKept_skipGap (kept.tail (by decide))
      split at h
      next after gap =>
        rw [gap] at body
        injection h with h
        obtain ⟨rfl, rfl⟩ := Prod.mk.inj h
        exact ⟨textsKept_obj.2 (by simp), body.tail (by decide)⟩
      next => exact ih.fields body (textsKept_obj.2 (by simp)) h
  next more =>
    split at h
    next => cases h
    next =>
      have body := isKept_skipGap (kept.tail (by decide))
      split at h
      next after gap =>
        rw [gap] at body
        injection h with h
        obtain ⟨rfl, rfl⟩ := Prod.mk.inj h
        exact ⟨textsKept_arr.2 (by simp), body.tail (by decide)⟩
      next => exact ih.items body (List.forall_mem_nil _) h
  next =>
    split at h
    next answer found =>
      injection h with h
      subst h
      exact textsKept_readWord found kept
    next => exact textsKept_readNumber h kept

theorem textsKept_readFields {before : Fields} (kept : IsKept text) (first : (Json.obj before).TextsKept)
    (h : readFields (fuel + 1) depth before text = .ok (value, rest)) : value.TextsKept ∧ IsKept rest := by
  rw [readFields.eq_def] at h
  simp only [] at h
  split at h
  next more =>
    simp only [bind, Except.bind] at h
    split at h
    next => cases h
    next answer name =>
      obtain ⟨nameKept, afterName⟩ := isKept_readString name (kept.tail (by decide))
      have body := isKept_skipGap afterName
      split at h
      next colon gap =>
        rw [gap] at body
        split at h
        next => cases h
        next answer read =>
          obtain ⟨valueKept, afterValue⟩ := ih.value (isKept_skipGap (body.tail (by decide))) read
          have fields := first.set nameKept valueKept
          have ending := isKept_skipGap afterValue
          split at h
          next after gap =>
            rw [gap] at ending
            injection h with h
            obtain ⟨rfl, rfl⟩ := Prod.mk.inj h
            exact ⟨fields, ending.tail (by decide)⟩
          next more gap =>
            rw [gap] at ending
            exact ih.fields (isKept_skipGap (ending.tail (by decide))) fields h
          next => cases h
      next => cases h
  next => cases h

theorem textsKept_readItems {before : List Json} (kept : IsKept text) (first : ∀ item ∈ before, item.TextsKept)
    (h : readItems (fuel + 1) depth before text = .ok (value, rest)) : value.TextsKept ∧ IsKept rest := by
  rw [readItems.eq_def] at h
  simp only [bind, Except.bind] at h
  split at h
  next => cases h
  next answer read =>
    obtain ⟨valueKept, afterValue⟩ := ih.value kept read
    have items := List.forall_mem_cons.2 ⟨valueKept, first⟩
    have ending := isKept_skipGap afterValue
    split at h
    next after gap =>
      rw [gap] at ending
      injection h with h
      obtain ⟨rfl, rfl⟩ := Prod.mk.inj h
      exact ⟨textsKept_arr.2 fun item hi => items item (List.mem_reverse.1 hi), ending.tail (by decide)⟩
    next more gap =>
      rw [gap] at ending
      exact ih.items (isKept_skipGap (ending.tail (by decide))) items h
    next => cases h

end Succ

theorem readsKept (fuel : Nat) : ReadsKept fuel := by
  induction fuel with
  | zero => exact .zero
  | succ fuel ih => exact {
      value := textsKept_readValue ih
      fields := textsKept_readFields ih
      items := textsKept_readItems ih }

/-- The texts in a value that is read from a kept text are kept. -/
theorem textsKept_parse {text : String} (kept : IsKept text.toList) {value : Json} (h : parse text = .ok value) :
    value.TextsKept := by
  have chars {text : List Char} (kept : IsKept text) (h : parseChars text = .ok value) : value.TextsKept := by
    rw [parseChars.eq_def] at h
    split at h
    next => cases h
    next =>
      simp only [bind, Except.bind] at h
      split at h
      next => cases h
      next answer read =>
        split at h
        next =>
          injection h with h
          subst h
          exact ((readsKept _).value (isKept_skipGap kept) read).1
        next => cases h
  rw [parse] at h
  cases read : parseChars text.toList with
  | error failure =>
    rw [read] at h
    cases h
  | ok other =>
    rw [read] at h
    injection h with h
    exact chars kept (h ▸ read)

end CodeSearch.Json

namespace CodeSearch.Disk

/-- The contents of all files are kept as texts are. -/
def KeepsTexts (d : Disk) : Prop := ∀ place content, d.nodeAt? place = some (.file content) → content.IsKept

variable {d : Disk} {path : Path}

theorem isKept_readText (kept : d.KeepsTexts) {text : String} (h : d.readText path = .ok text) :
    Text.IsKept text.toList := by
  simp only [readText, read, bind, Except.bind] at h
  split at h
  next => cases h
  next content found =>
    split at found
    next => cases found
    next place _ =>
      split at found
      next file =>
        injection found with found
        subst found
        split at h
        next text' =>
          injection h with h
          rw [← h, String.toList_ofList]
          exact Text.IsKept.lineFeeds (kept _ _ file)
        next => cases h
      next => cases found
      next => cases found

/-- The texts in a value that a file holds are kept, as its content is. -/
theorem textsKept_readStored (kept : d.KeepsTexts) {task : StorageTask} {value : Json}
    (h : d.readStored task path = .ok value) : value.TextsKept := by
  rw [readStored, readJson] at h
  cases read : d.readText path with
  | error fault =>
    rw [read] at h
    cases h
  | ok text =>
    rw [read] at h
    simp only [bind, Except.bind] at h
    cases parsed : Json.parse text with
    | error issue =>
      rw [parsed] at h
      cases h
    | ok other =>
      rw [parsed] at h
      injection h with h
      exact h ▸ Json.textsKept_parse (isKept_readText kept read) parsed

end CodeSearch.Disk
