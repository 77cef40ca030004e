import CodeSearch.Json.Printer
import CodeSearch.Proofs.Decimal.Shortest
/-!
# Numbers read as they are written

An integer and a finite double are read back from their texts (`readNumber_int`, `readNumber_float`), where
what follows the text cannot be taken for more of it.
-/

namespace CodeSearch.Json

open CodeSearch.Decimal

/-- What may follow a value inside a list or an object, or at the end of a text. -/
def Ended (rest : List Char) : Prop := ∀ c ∈ rest.head?, c = ',' ∨ c = ']' ∨ c = '}' ∨ c = '\n'

@[simp] theorem ended_nil : Ended [] := by simp [Ended]

@[simp] theorem ended_comma (rest : List Char) : Ended (',' :: rest) := by simp [Ended]

@[simp] theorem ended_bracket (rest : List Char) : Ended (']' :: rest) := by simp [Ended]

@[simp] theorem ended_brace (rest : List Char) : Ended ('}' :: rest) := by simp [Ended]

@[simp] theorem ended_line (rest : List Char) : Ended ('\n' :: rest) := by simp [Ended]

/-- The first character of a text is no digit. -/
def NoDigit (rest : List Char) : Prop := ∀ c ∈ rest.head?, isDigit c = false

theorem Ended.noDigit {rest : List Char} (h : Ended rest) : NoDigit rest := by
  intro c hc
  rcases h c hc with rfl | rfl | rfl | rfl <;> rfl

/-! ## The parts of a number -/

theorem takeWhile_digits {digits rest : List Char} (hd : ∀ c ∈ digits, isDigit c = true) (hr : NoDigit rest) :
    (digits ++ rest).takeWhile isDigit = digits ∧ (digits ++ rest).dropWhile isDigit = rest := by
  rw [List.takeWhile_append_of_pos hd, List.dropWhile_append_of_pos hd]
  cases rest with
  | nil => simp
  | cons c rest =>
    have := hr c rfl
    simp [this]

/-- Digits as they may stand before the point. -/
structure IsWhole (digits : List Char) : Prop where
  ne_nil : digits ≠ []
  all : ∀ c ∈ digits, isDigit c = true
  head : digits.head? = some '0' → digits = ['0']

theorem readWhole?_eq {digits rest : List Char} (h : IsWhole digits) (hr : NoDigit rest) :
    readWhole? (digits ++ rest) = some (digits, rest) := by
  cases digits with
  | nil => exact absurd rfl h.ne_nil
  | cons c digits =>
    by_cases zero : c = '0'
    · subst zero
      have := h.head rfl
      simp only [List.cons.injEq, true_and] at this
      subst this
      rfl
    · have hc := h.all c (by simp)
      obtain ⟨take, drop⟩ := takeWhile_digits (fun d hd => h.all d (List.mem_cons_of_mem _ hd)) hr
      rw [List.cons_append, readWhole?.eq_2 _ _ zero, if_pos hc, take, drop]

/-- A fraction with its point, if there is one. -/
def fractionText (fraction : List Char) : List Char := if fraction.isEmpty then [] else '.' :: fraction

/-- An exponent with its letter and its sign, if there is one. -/
def exponentText : Option (Bool × List Char) → List Char
  | none => []
  | some (negative, digits) => 'e' :: (if negative then '-' else '+') :: digits

/-- What an exponent counts for. -/
def exponentValue : Option (Bool × List Char) → Option Int
  | none => none
  | some (negative, digits) => some (signed negative (digitsValue digits))

theorem readFraction_eq {fraction rest : List Char} (hf : ∀ c ∈ fraction, isDigit c = true) (hr : NoDigit rest)
    (noPoint : rest.head? ≠ some '.') : readFraction (fractionText fraction ++ rest) = (fraction, rest) := by
  unfold fractionText
  cases fraction with
  | nil =>
    cases rest with
    | nil => rfl
    | cons c rest =>
      have : c ≠ '.' := fun e => noPoint (by rw [e]; rfl)
      simp [readFraction, this]
  | cons c fraction =>
    obtain ⟨take, drop⟩ := takeWhile_digits hf hr
    simp only [List.isEmpty_cons, Bool.false_eq_true, if_false, List.cons_append, readFraction]
    rw [← List.cons_append, take, drop]
    rfl

theorem readExponent_eq {exponent : Option (Bool × List Char)} {rest : List Char}
    (he : ∀ e ∈ exponent, e.2 ≠ [] ∧ ∀ c ∈ e.2, isDigit c = true) (hr : Ended rest) :
    readExponent (exponentText exponent ++ rest) = (exponentValue exponent, rest) := by
  cases exponent with
  | none =>
    cases rest with
    | nil => rfl
    | cons c rest => rcases hr c rfl with rfl | rfl | rfl | rfl <;> rfl
  | some e =>
    obtain ⟨negative, digits⟩ := e
    obtain ⟨ne, hd⟩ := he _ rfl
    obtain ⟨take, drop⟩ := takeWhile_digits hd hr.noDigit
    have empty : digits.isEmpty = false := by simpa using ne
    cases negative <;>
      simp [exponentText, exponentValue, readExponent, take, drop, empty]

/-! ## Numbers -/

/-- A minus sign, if there is one. -/
def signText (negative : Bool) : List Char := if negative then ['-'] else []

/-- A number begins with a digit. -/
theorem IsWhole.exists_cons {digits : List Char} (h : IsWhole digits) :
    ∃ c rest, digits = c :: rest ∧ isDigit c = true := by
  cases digits with
  | nil => exact absurd rfl h.ne_nil
  | cons c rest => exact ⟨c, rest, rfl, h.all c (by simp)⟩

/-- What the reader makes of a number cut into its parts. -/
theorem readNumber_parts (negative : Bool) (whole fraction : List Char) (exponent : Option (Bool × List Char))
    {rest : List Char} (hw : IsWhole whole) (hf : ∀ c ∈ fraction, isDigit c = true)
    (he : ∀ e ∈ exponent, e.2 ≠ [] ∧ ∀ c ∈ e.2, isDigit c = true) (hr : Ended rest) :
    readNumber (signText negative ++ (whole ++ (fractionText fraction ++ (exponentText exponent ++ rest))))
      = if fraction.isEmpty && (exponentValue exponent).isNone then
          if whole.length > integerDigitLimit then
            .error ⟨.longInteger whole.length,
              signText negative ++ (whole ++ (fractionText fraction ++ (exponentText exponent ++ rest)))⟩
          else .ok (.int (signed negative (digitsValue whole)), rest)
        else
          .ok (.float (ofDigits negative (digitsValue (whole ++ fraction))
            ((exponentValue exponent).getD 0 - fraction.length)), rest) := by
  have tail : NoDigit (exponentText exponent ++ rest) ∧ (exponentText exponent ++ rest).head? ≠ some '.' := by
    cases exponent with
    | none =>
      refine ⟨hr.noDigit, fun point => ?_⟩
      rcases hr '.' point with e | e | e | e <;> cases e
    | some e =>
      refine ⟨?_, by simp [exponentText]⟩
      intro c hc
      simp only [exponentText, List.cons_append, List.head?_cons, Option.mem_def, Option.some.injEq] at hc
      rw [← hc]
      rfl
  have middle : NoDigit (fractionText fraction ++ (exponentText exponent ++ rest)) := by
    unfold fractionText
    split
    · exact tail.1
    · intro c hc
      simp only [List.cons_append, List.head?_cons, Option.mem_def, Option.some.injEq] at hc
      rw [← hc]
      rfl
  unfold readNumber
  have rest_eq := readWhole?_eq hw middle
  cases negative with
  | true =>
    simp only [signText, if_true, List.cons_append, List.nil_append, rest_eq, readFraction_eq hf tail.1 tail.2,
      readExponent_eq he hr]
  | false =>
    obtain ⟨c, more, rfl, hc⟩ := hw.exists_cons
    have plain : c ≠ '-' := by
      rintro rfl
      cases hc
    simp only [List.cons_append] at rest_eq
    simp only [signText, Bool.false_eq_true, if_false, List.cons_append, List.nil_append, plain, List.cons.injEq,
      false_and, imp_false, not_false_eq_true, implies_true]
    simp only [rest_eq, readFraction_eq hf tail.1 tail.2, readExponent_eq he hr, List.cons_append]

theorem isWhole_digitText (n : Nat) : IsWhole (digitText n) := by
  refine ⟨digitText_ne_nil n, fun c hc => isDigit_of_mem_digitText hc, fun head => ?_⟩
  rcases Nat.eq_zero_or_pos n with rfl | pos
  · rfl
  · exact absurd head (digitText_head pos)

theorem toString_int (n : Int) : (toString n).toList = signText (decide (n < 0)) ++ digitText n.natAbs := by
  cases n with
  | ofNat n => rfl
  | negSucc n =>
    have : toString (Int.negSucc n) = "-" ++ toString (n + 1) := rfl
    rw [this, String.toList_append, decide_eq_true (Int.negSucc_lt_zero n)]
    rfl

/-- An integer with no more digits than are read is read as it is written. -/
theorem readNumber_int {n : Int} (hn : (digitText n.natAbs).length ≤ integerDigitLimit) {rest : List Char}
    (hr : Ended rest) : readNumber ((toString n).toList ++ rest) = .ok (.int n, rest) := by
  have := readNumber_parts (decide (n < 0)) _ [] none (isWhole_digitText n.natAbs) (by simp) (by simp) hr
  rw [toString_int, List.append_assoc]
  simp only [fractionText, List.isEmpty_nil, if_true, exponentText, List.nil_append, exponentValue,
    Option.isNone_none, Bool.and_self] at this
  rw [this, if_neg (by omega), digitsValue_digitText]
  congr 3
  unfold signed
  by_cases negative : n < 0
  · simp only [negative, decide_true, if_true]
    omega
  · simp only [negative, decide_false, Bool.false_eq_true, if_false]
    omega

/-! ## Doubles -/

theorem padZeros_spec (width n : Nat) :
    padZeros width (digitText n) ≠ [] ∧ (∀ c ∈ padZeros width (digitText n), isDigit c = true) ∧
      digitsValue (padZeros width (digitText n)) = n := by
  unfold padZeros
  refine ⟨by simp [digitText_ne_nil], ?_, ?_⟩
  · intro c hc
    rcases List.mem_append.1 hc with zero | digit
    · rw [List.eq_of_mem_replicate zero]
      rfl
    · exact isDigit_of_mem_digitText digit
  · rw [digitsValue_zeros_append, digitsValue_digitText]

/-- The parts of a number whose digits have the point after the first `point` of them. -/
theorem placePoint_parts {digits : List Char} (ne : digits ≠ []) (all : ∀ c ∈ digits, isDigit c = true)
    (head : digits.head? ≠ some '0') (point : Int) :
    ∃ whole fraction, placePoint digits point = whole ++ (fractionText fraction ++ exponentText none) ∧
      IsWhole whole ∧ (∀ c ∈ fraction, isDigit c = true) ∧ fraction ≠ [] ∧
      ((digitsValue (whole ++ fraction) = digitsValue digits ∧ -(fraction.length : Int) = point - digits.length) ∨
        (digits.length ≤ point ∧ fraction.length = 1 ∧
          digitsValue (whole ++ fraction) = digitsValue digits * 10 ^ ((point - digits.length).toNat + 1))) := by
  have zeros (k : Nat) : ∀ c ∈ List.replicate k '0', isDigit c = true := by
    intro c hc
    rw [List.eq_of_mem_replicate hc]
    rfl
  have pos : 0 < digits.length := List.length_pos_iff.2 ne
  unfold placePoint
  split
  next low =>
    -- the point stands before all digits, and zeros between
    refine ⟨['0'], List.replicate (-point).toNat '0' ++ digits, ?_, ⟨by simp, ?_, by simp⟩, ?_, by simp [ne],
      .inl ⟨?_, ?_⟩⟩
    · simp [fractionText, exponentText, ne]
    · exact zeros 1
    · intro c hc
      rcases List.mem_append.1 hc with h | h
      · exact zeros _ c h
      · exact all c h
    · rw [show ['0'] = List.replicate 1 '0' from rfl, digitsValue_zeros_append, digitsValue_zeros_append]
    · rw [List.length_append, List.length_replicate]
      omega
  next low =>
    split
    next high =>
      -- zeros fill up to the point, and there is one behind it
      refine ⟨digits ++ List.replicate (point.toNat - digits.length) '0', ['0'], ?_, ⟨by simp [ne], ?_, ?_⟩,
        zeros 1, by simp, .inr ⟨by omega, rfl, ?_⟩⟩
      · simp [fractionText, exponentText]
      · intro c hc
        rcases List.mem_append.1 hc with h | h
        · exact all c h
        · exact zeros _ c h
      · rw [List.head?_append_of_ne_nil _ ne]
        exact fun h => absurd h head
      · rw [show ['0'] = List.replicate 1 '0' from rfl, digitsValue_append_zeros, digitsValue_append_zeros,
          Nat.mul_assoc, ← pow_add]
        congr 2
        omega
    next high =>
      -- the point stands between the digits
      have short : point.toNat < digits.length := not_le.1 high
      have first : digits.take point.toNat ≠ [] := by
        rw [ne_eq, List.take_eq_nil_iff, not_or]
        exact ⟨by omega, ne⟩
      refine ⟨digits.take point.toNat, digits.drop point.toNat, ?_, ⟨first, ?_, ?_⟩, ?_, ?_, .inl ⟨?_, ?_⟩⟩
      · simp [fractionText, exponentText, short]
      · exact fun c hc => all c (List.mem_of_mem_take hc)
      · rw [List.head?_take]
        split
        · simp
        · exact fun h => absurd h head
      · exact fun c hc => all c (List.mem_of_mem_drop hc)
      · rw [ne_eq, List.drop_eq_nil_iff]
        omega
      · rw [List.take_append_drop]
      · rw [List.length_drop]
        omega

/-- The parts of a number whose digits have an exponent. -/
theorem withExponent_parts {digits : List Char} (ne : digits ≠ []) (all : ∀ c ∈ digits, isDigit c = true)
    (head : digits.head? ≠ some '0') (exponent : Int) :
    ∃ whole fraction e, withExponent digits exponent = whole ++ (fractionText fraction ++ exponentText (some e)) ∧
      IsWhole whole ∧ (∀ c ∈ fraction, isDigit c = true) ∧ (e.2 ≠ [] ∧ ∀ c ∈ e.2, isDigit c = true) ∧
      whole ++ fraction = digits ∧ exponentValue (some e) = some exponent ∧
      (fraction.length : Int) = digits.length - 1 := by
  obtain ⟨nePad, allPad, value⟩ := padZeros_spec 2 exponent.natAbs
  cases digits with
  | nil => exact absurd rfl ne
  | cons d fraction =>
    have first : d ≠ '0' := fun e => head (by rw [e]; rfl)
    refine ⟨[d], fraction, (decide (exponent < 0), padZeros 2 (digitText exponent.natAbs)), ?_, ⟨by simp, ?_, ?_⟩,
      fun c hc => all c (List.mem_cons_of_mem _ hc), ⟨nePad, allPad⟩, rfl, ?_, by simp⟩
    · cases fraction <;> simp [withExponent, fractionText, exponentText]
    · simpa using all d (by simp)
    · simp [first]
    · simp only [exponentValue, value, signed]
      by_cases negative : exponent < 0
      · simp only [negative, decide_true, if_true, Option.some.injEq]
        omega
      · simp only [negative, decide_false, Bool.false_eq_true, if_false, Option.some.injEq]
        omega

theorem text_finite {format : Decimal.Format} {x : Float} {b : Binary} (h : decode x = .finite b) :
    (Decimal.text format x).toList = signText b.negative ++
      (if b.mantissa = 0 then ['0', '.', '0']
      else
        let d := shortest b
        let (digits, zeros) := dropZeros (digitText d.digits)
        let point : Int := digits.length + zeros + d.exponent
        if format.positionalFrom < point && point ≤ format.positionalTo then placePoint digits point
        else withExponent digits (point - 1)) := by
  unfold Decimal.text
  rw [h]
  simp only [String.toList_ofList]
  cases b.negative <;> rfl

/-- A number with a fraction or an exponent is read as a double. -/
theorem readNumber_double (negative : Bool) (whole fraction : List Char) (exponent : Option (Bool × List Char))
    {rest : List Char} (hw : IsWhole whole) (hf : ∀ c ∈ fraction, isDigit c = true)
    (he : ∀ e ∈ exponent, e.2 ≠ [] ∧ ∀ c ∈ e.2, isDigit c = true) (hr : Ended rest)
    (double : fraction ≠ [] ∨ exponentValue exponent ≠ none) :
    readNumber (signText negative ++ (whole ++ (fractionText fraction ++ exponentText exponent)) ++ rest)
      = .ok (.float (ofDigits negative (digitsValue (whole ++ fraction))
          ((exponentValue exponent).getD 0 - fraction.length)), rest) := by
  have parts := readNumber_parts negative whole fraction exponent hw hf he hr
  rw [List.append_assoc, List.append_assoc, List.append_assoc, parts, if_neg]
  rcases double with ne | some
  · simp [ne]
  · simp [Option.isNone_iff_eq_none, some]

/-- A few digits with zeros after them are in reach. -/
theorem inReach_of_few {digits : Nat} (pos : 0 < digits) (few : digits < 10 ^ 17) : InReach digits (-1) := by
  have size := decimalSize_le pos (few.trans (by norm_num : 10 ^ 17 < 2 ^ 60))
  exact ⟨pos, by omega, by omega⟩

/-- The digits of a double other than zero, however they are set, are read as that double. -/
theorem readNumber_digits {b : Binary} (hb : b.Canonical) (hm : 0 < b.mantissa) {rest : List Char}
    (hr : Ended rest) {digits : List Char} {zeros : Nat}
    (hd : dropZeros (digitText (shortest b).digits) = (digits, zeros)) :
    readNumber (signText b.negative ++
        (let point : Int := digits.length + zeros + (shortest b).exponent
        if floatFormat.positionalFrom < point && point ≤ floatFormat.positionalTo then placePoint digits point
        else withExponent digits (point - 1)) ++ rest)
      = .ok (.float (encode b.negative b.mantissa b.exponent), rest) := by
  obtain ⟨_, _, eq, ne, head, all, _, pos, value⟩ := dropZeros_spec (shortest_reads hb hm).1.pos
  obtain ⟨rfl, rfl⟩ := Prod.mk.inj (hd.symm.trans eq)
  obtain ⟨reach, reads⟩ := ofDigits_shortest hb hm value b.negative
  rw [← reads]
  simp only
  split
  next positional =>
    have short : (digits.length + zeros + (shortest b).exponent : ℤ) ≤ 16 :=
      of_decide_eq_true (Bool.and_eq_true_iff.1 positional).2
    obtain ⟨whole, fraction, text, hw, hf, some, places⟩ :=
      placePoint_parts ne all head (digits.length + zeros + (shortest b).exponent)
    rw [text, readNumber_double b.negative whole fraction _ hw hf (by simp) hr (.inl some)]
    simp only [exponentValue, Option.getD_none, zero_sub]
    rcases places with ⟨same, shift⟩ | ⟨beyond, one, same⟩
    · rw [same, shift]
      congr 4
      omega
    · congr 3
      have power : (digitsValue (whole ++ fraction) : ℚ) * 10 ^ (-(fraction.length : ℤ))
          = digitsValue digits * 10 ^ ((shortest b).exponent + zeros) := by
        have shift : (shortest b).exponent + zeros
            = (((digits.length + zeros + (shortest b).exponent : ℤ) - digits.length).toNat : ℤ) := by omega
        rw [same, one, shift, zpow_natCast]
        push_cast
        rw [pow_succ]
        norm_num
        ring
      refine ofDigits_congr ?_ reach power b.negative
      rw [one]
      refine inReach_of_few (by rw [same]; positivity) ?_
      have few := digitsValue_lt all
      rw [same]
      calc digitsValue digits * 10 ^ (((digits.length + zeros + (shortest b).exponent : ℤ) - digits.length).toNat + 1)
          < 10 ^ digits.length
              * 10 ^ (((digits.length + zeros + (shortest b).exponent : ℤ) - digits.length).toNat + 1) := by gcongr
        _ ≤ 10 ^ 17 := by
          rw [← pow_add]
          exact Nat.pow_le_pow_right (by omega) (by omega)
  next =>
    obtain ⟨whole, fraction, e, text, hw, hf, he, same, exponent, length⟩ :=
      withExponent_parts ne all head (digits.length + zeros + (shortest b).exponent - 1)
    have each : ∀ e' ∈ some e, e'.2 ≠ [] ∧ ∀ c ∈ e'.2, isDigit c = true := by
      intro e' h
      rw [← Option.some.inj h]
      exact he
    rw [text, readNumber_double b.negative whole fraction _ hw hf each hr (.inr (by rw [exponent]; simp)), same, exponent]
    congr 4
    simp only [Option.getD_some]
    omega

theorem exists_finite {x : Float} (hx : isFinite x = true) : ∃ b, decode x = .finite b := by
  unfold isFinite at hx
  split at hx
  next b hb => exact ⟨b, hb⟩
  next => cases hx

/-- A finite double is read as it is written. -/
theorem readNumber_float {x : Float} (hx : isFinite x = true) {rest : List Char} (hr : Ended rest) :
    readNumber ((Decimal.text floatFormat x).toList ++ rest) = .ok (.float x, rest) := by
  obtain ⟨b, hb⟩ := exists_finite hx
  have canonical := (decode_cases hb).1
  rw [text_finite hb]
  split
  next zero =>
    have whole : IsWhole ['0'] := ⟨by simp, by simp [isDigit], by simp⟩
    have parts := readNumber_double b.negative _ _ none whole whole.all (by simp) hr (.inl whole.ne_nil)
    have least : b.exponent = leastExponent := canonical.normal.resolve_left (by omega)
    rw [← encode_decode hb, zero, least]
    exact parts
  next nonzero =>
    rw [← encode_decode hb]
    exact readNumber_digits canonical (Nat.pos_of_ne_zero nonzero) hr rfl

/-! ## The characters of numbers -/

/-- A text that is a number cut into its parts. -/
def IsNumber (text : List Char) : Prop :=
  ∃ negative whole fraction exponent,
    text = signText negative ++ (whole ++ (fractionText fraction ++ exponentText exponent)) ∧ IsWhole whole ∧
      (∀ c ∈ fraction, isDigit c = true) ∧ ∀ e ∈ exponent, e.2 ≠ [] ∧ ∀ c ∈ e.2, isDigit c = true

theorem isNumber_int (n : Int) : IsNumber (toString n).toList :=
  ⟨decide (n < 0), digitText n.natAbs, [], none, by rw [toString_int]; simp [fractionText, exponentText],
    isWhole_digitText _, by simp, by simp⟩

theorem isNumber_float {x : Float} (hx : isFinite x = true) : IsNumber (Decimal.text floatFormat x).toList := by
  obtain ⟨b, hb⟩ := exists_finite hx
  rw [text_finite hb]
  split
  next =>
    have whole : IsWhole ['0'] := ⟨by simp, by simp [isDigit], by simp⟩
    exact ⟨b.negative, ['0'], ['0'], none, rfl, whole, whole.all, by simp⟩
  next nonzero =>
    obtain ⟨digits, zeros, eq, ne, head, all, _⟩ :=
      dropZeros_spec (shortest_reads (decode_cases hb).1 (Nat.pos_of_ne_zero nonzero)).1.pos
    simp only [eq]
    split
    next =>
      obtain ⟨whole, fraction, text, hw, hf, _⟩ :=
        placePoint_parts ne all head (digits.length + zeros + (shortest b).exponent)
      exact ⟨b.negative, whole, fraction, none, by rw [text], hw, hf, by simp⟩
    next =>
      obtain ⟨whole, fraction, e, text, hw, hf, he, _⟩ :=
        withExponent_parts ne all head (digits.length + zeros + (shortest b).exponent - 1)
      refine ⟨b.negative, whole, fraction, some e, by rw [text], hw, hf, ?_⟩
      rintro e' ⟨⟩
      exact he

namespace IsNumber

variable {text : List Char}

/-- A number begins with a digit, or with a minus sign and a digit. -/
theorem start (h : IsNumber text) : ∃ negative c rest, text = signText negative ++ c :: rest ∧ isDigit c = true := by
  obtain ⟨negative, whole, fraction, exponent, rfl, hw, _⟩ := h
  obtain ⟨c, rest, rfl, hc⟩ := hw.exists_cons
  exact ⟨negative, c, rest ++ (fractionText fraction ++ exponentText exponent), rfl, hc⟩

theorem mem (h : IsNumber text) {c : Char} (hc : c ∈ text) :
    isDigit c = true ∨ c = '-' ∨ c = '+' ∨ c = '.' ∨ c = 'e' := by
  obtain ⟨negative, whole, fraction, exponent, rfl, hw, hf, he⟩ := h
  simp only [List.mem_append] at hc
  rcases hc with sign | inWhole | inFraction | inExponent
  · cases negative <;> simp [signText] at sign
    exact .inr (.inl sign)
  · exact .inl (hw.all c inWhole)
  · unfold fractionText at inFraction
    split at inFraction
    · cases inFraction
    · rcases List.mem_cons.1 inFraction with rfl | digit
      · simp
      · exact .inl (hf c digit)
  · cases exponent with
    | none => cases inExponent
    | some e =>
      simp only [exponentText, List.mem_cons] at inExponent
      rcases inExponent with rfl | sign | digit
      · simp
      · split at sign <;> simp [sign]
      · exact .inl ((he e rfl).2 c digit)

theorem ascii (h : IsNumber text) {c : Char} (hc : c ∈ text) : 32 < c.toNat ∧ c.toNat < 128 := by
  rcases h.mem hc with digit | rfl | rfl | rfl | rfl
  · simp only [isDigit, Bool.and_eq_true, decide_eq_true_eq] at digit
    have low : 48 ≤ c.toNat := digit.1
    have high : c.toNat ≤ 57 := digit.2
    omega
  all_goals decide

end IsNumber

end CodeSearch.Json
