import CodeSearch.Proofs.Json.RoundTrip
/-!
# Texts in characters of ASCII

A text can be written in ASCII alone: a character beyond the first plane as two code units, all others, and halves, as
one. It reads back (`readsBack_ascii`), unless the first half of a pair stands right before a second one; the two would
be read as the character of the pair.
-/

namespace CodeSearch.Json

open CodeSearch.Text

/-- Nowhere in a text does the first half of a pair stand right before a second one. -/
def Unpaired (s : String) : Prop :=
  (codes s.toList).IsChain fun high low => (isHighSurrogate high && isLowSurrogate low) = false

instance (s : String) : Decidable (Unpaired s) := inferInstanceAs (Decidable (List.IsChain _ _))

/-- What the reader takes a code for that is written in ASCII. -/
def piecesOf (code : Nat) : List Piece :=
  if code < 127 then [pieceOf (Char.ofNat code)]
  else if code < 0x10000 then [.unit code]
  else [.unit (0xd800 + (code - 0x10000) / 0x400), .unit (0xdc00 + (code - 0x10000) % 0x400)]

theorem lt_of_isCode {code : Nat} (h : IsCode code) : code < 0x110000 := by
  rcases h with half | valid
  · have range := (isHalf_iff code).1 half
    omega
  · unfold Nat.isValidChar at valid
    omega

theorem readPieces_escapeCode {code : Nat} (h : IsCode code) (start : List Char) (next : Char) (rest : List Char) :
    readPieces start (escapeCode code ++ next :: rest)
      = (readPieces start (next :: rest)).map fun answer => (piecesOf code ++ answer.1, answer.2) := by
  have bound := lt_of_isCode h
  rw [escapeCode, piecesOf]
  split
  next => exact readPieces_escapeChar start _ next rest
  next =>
    split
    next small => exact readPieces_unitEscape small start next rest
    next large =>
      have second := readPieces_unitEscape (n := 0xdc00 + (code - 0x10000) % 0x400) (by omega) start next rest
      obtain ⟨c, more, eq⟩ : ∃ c more, unitEscape (0xdc00 + (code - 0x10000) % 0x400) ++ next :: rest = c :: more :=
        ⟨_, _, rfl⟩
      rw [List.append_assoc, eq, readPieces_unitEscape (by omega) start c more, ← eq, second]
      cases readPieces start (next :: rest) <;> rfl

theorem readPieces_codes {codes : List Nat} (h : ∀ code ∈ codes, IsCode code) (start rest : List Char) :
    readPieces start (codes.flatMap escapeCode ++ '"' :: rest) = .ok (codes.flatMap piecesOf, rest) := by
  induction codes with
  | nil => simp [readPieces]
  | cons code codes ih =>
    obtain ⟨next, more, eq⟩ : ∃ next more, codes.flatMap escapeCode ++ '"' :: rest = next :: more := by
      cases shape : codes.flatMap escapeCode ++ '"' :: rest with
      | nil => simp at shape
      | cons next more => exact ⟨next, more, rfl⟩
    rw [List.flatMap_cons, List.append_assoc, eq, readPieces_escapeCode (h code List.mem_cons_self), ← eq,
      ih fun other ho => h other (List.mem_cons_of_mem _ ho)]
    rfl

/-- A code unit that makes no pair with what follows it stands for itself. -/
theorem joinPieces_unit {n : Nat} {pieces : List Piece}
    (apart : ∀ low, pieces.head? = some (.unit low) → (isHighSurrogate n && isLowSurrogate low) = false) :
    joinPieces (.unit n :: pieces) = ofCode n ++ joinPieces pieces := by
  cases pieces with
  | nil => rfl
  | cons piece pieces =>
    cases piece with
    | char c => rfl
    | unit low => rw [joinPieces, apart low rfl, if_neg Bool.false_ne_true]

/-- The pieces of codes begin with a second half only if the codes do. -/
theorem head_piecesOf {codes : List Nat} (h : ∀ code ∈ codes, IsCode code) {low : Nat}
    (first : (codes.flatMap piecesOf).head? = some (.unit low)) :
    codes.head? = some low ∨ isLowSurrogate low = false := by
  cases codes with
  | nil => cases first
  | cons code codes =>
    have bound := lt_of_isCode (h code List.mem_cons_self)
    rw [List.flatMap_cons, piecesOf] at first
    split at first
    next small =>
      rw [List.singleton_append, List.head?_cons, Option.some.injEq, pieceOf] at first
      split at first
      next control =>
        injection first with first
        rw [Bool.and_eq_true, decide_eq_true_eq] at control
        refine .inr ?_
        simp only [isLowSurrogate, Bool.and_eq_false_iff, decide_eq_false_iff_not]
        omega
      next => cases first
    next =>
      split at first
      next =>
        injection Option.some.inj first with first
        exact .inl (congrArg some first)
      next =>
        injection Option.some.inj first with first
        refine .inr ?_
        simp only [isLowSurrogate, Bool.and_eq_false_iff, decide_eq_false_iff_not]
        omega

theorem joinPieces_codes {codes : List Nat} (h : ∀ code ∈ codes, IsCode code)
    (apart : codes.IsChain fun high low => (isHighSurrogate high && isLowSurrogate low) = false) :
    joinPieces (codes.flatMap piecesOf) = codes.flatMap ofCode := by
  induction codes with
  | nil => rfl
  | cons code codes ih =>
    have others : ∀ other ∈ codes, IsCode other := fun other ho => h other (List.mem_cons_of_mem _ ho)
    have ih := ih others apart.tail
    have alone : joinPieces (.unit code :: codes.flatMap piecesOf)
        = ofCode code ++ joinPieces (codes.flatMap piecesOf) := by
      refine joinPieces_unit fun low first => ?_
      rcases head_piecesOf others first with next | noLow
      · cases codes with
        | nil => cases next
        | cons other codes =>
          obtain rfl := Option.some.inj next
          exact (List.isChain_cons_cons.1 apart).1
      · rw [noLow, Bool.and_false]
    rw [List.flatMap_cons, List.flatMap_cons, piecesOf]
    -- a code of ASCII is a character or one unit, another one below the pairs is one unit, and the rest are pairs
    split
    next small =>
      have toNat : (Char.ofNat code).toNat = code := toNat_ofNat (.inl (by omega))
      rw [List.singleton_append, pieceOf, toNat]
      split
      next => rw [alone, ih]
      next =>
        have one : ofCode code = [Char.ofNat code] := by
          rw [← toNat, ofCode_toNat, toNat, keepChar_of_lt (by omega)]
        rw [joinPieces, ih, one, List.singleton_append]
    next =>
      split
      next => rw [List.singleton_append, alone, ih]
      next large =>
        have bound := lt_of_isCode (h code List.mem_cons_self)
        have pair : (isHighSurrogate (0xd800 + (code - 0x10000) / 0x400)
            && isLowSurrogate (0xdc00 + (code - 0x10000) % 0x400)) = true := by
          simp only [isHighSurrogate, isLowSurrogate, Bool.and_eq_true, decide_eq_true_eq]
          omega
        have same : pairChar (0xd800 + (code - 0x10000) / 0x400) (0xdc00 + (code - 0x10000) % 0x400)
            = Char.ofNat code := by
          have whole : 0x10000 + (0xd800 + (code - 0x10000) / 0x400 - 0xd800) * 0x400
              + (0xdc00 + (code - 0x10000) % 0x400 - 0xdc00) = code := by omega
          rw [pairChar, whole]
        have noHalf : isHalf code = false := by
          rw [← Bool.not_eq_true, isHalf_iff]
          omega
        rw [List.cons_append, List.singleton_append, joinPieces, pair, if_pos rfl, same, ih, ofCode, noHalf,
          if_neg Bool.false_ne_true]

/-- In ASCII alone, a kept text without pairs of halves is read as it is written. -/
theorem readsBack_ascii {style : Style} (ascii : style.asciiOnly = true) {s : String} (kept : IsKept s.toList)
    (unpaired : Unpaired s) : ReadsBack style s := by
  intro start rest
  have all : ∀ code ∈ codes s.toList, IsCode code := kept.isCode_codes
  rw [quotedText, ascii, if_pos rfl, readString, readPieces_codes all]
  simp only [Except.map, joinPieces_codes all unpaired, kept.ofCodes_codes, String.ofList_toList]

/-- Two halves side by side are written like the character of the pair, and read as that character. -/
example : (readString [] (quotedText { asciiOnly := true } (ofCodes [0xd83d, 0xde00]).toList ++ ['"'])).toOption
    = some (ofCodes [0x1f600], []) := by decide +kernel

end CodeSearch.Json
