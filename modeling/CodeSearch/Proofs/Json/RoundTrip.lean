import CodeSearch.Proofs.Json.Data
import CodeSearch.Proofs.Json.Number
/-!
# Values are read as they are written

`parse_render_style`: the text of a value that texts can hold, nested no deeper than texts are read, reads back as that
value, on one line or on many, as long as its texts read back in that style (`ReadsBack`). On one line with all
characters as they are, all of them do (`parse_render`). Such a text holds no carriage return and is a kept text, so a
file that holds it can be read again (`isPlain_render`).
-/

namespace CodeSearch.Json

/-! ## Texts in quotes -/

/-- A control character that is written as a backslash and a letter. -/
def hasLetter (c : Char) : Bool := c == '\n' || c == '\r' || c == '\t' || c == '\x0c' || c == '\x08'

/-- What the reader takes a written character for. -/
def pieceOf (c : Char) : Piece := if c.toNat < 32 && !hasLetter c then .unit c.toNat else .char c

theorem hexValue?_hexDigit {n : Nat} (h : n < 16) : hexValue? (hexDigit n) = some n := by
  revert n
  decide

/-- Four digits of a code unit are read as they are written. -/
theorem hex4?_hexText {n : Nat} (h : n < 0x10000) :
    ∃ a b c d, hexText 4 n = [a, b, c, d] ∧ hex4? a b c d = some n := by
  refine ⟨_, _, _, _, rfl, ?_⟩
  have digit (k : Nat) : hexValue? (hexDigit (k % 16)) = some (k % 16) := hexValue?_hexDigit (Nat.mod_lt _ (by decide))
  simp only [hex4?, digit, Option.bind_eq_bind, Option.bind_some, Option.some.injEq]
  omega

/-- A code unit given by four digits, where something follows. -/
theorem readPieces_unitEscape {n : Nat} (h : n < 0x10000) (start : List Char) (next : Char) (rest : List Char) :
    readPieces start (unitEscape n ++ next :: rest)
      = (readPieces start (next :: rest)).map (prependPiece (.unit n)) := by
  obtain ⟨a, b, c, d, text, value⟩ := hex4?_hexText h
  rw [unitEscape, text]
  simp [readPieces, value]

theorem readPieces_plain {start : List Char} {c : Char} (quote : c ≠ '"') (slash : c ≠ '\\') (large : 32 ≤ c.toNat)
    (rest : List Char) :
    readPieces start (c :: rest) = (readPieces start rest).map (prependPiece (.char c)) := by
  rw [readPieces.eq_def]
  split
  next => contradiction
  next e => exact absurd (List.cons.inj e).1 quote
  next e => exact absurd (List.cons.inj e).1 slash
  next e => exact absurd (List.cons.inj e).1 slash
  next e => exact absurd (List.cons.inj e).1 slash
  next e => exact absurd (List.cons.inj e).1 slash
  next e =>
    obtain ⟨rfl, rfl⟩ := List.cons.inj e
    rw [if_neg (by omega)]

theorem readPieces_escapeChar (start : List Char) (c next : Char) (rest : List Char) :
    readPieces start (escapeChar c ++ next :: rest)
      = (readPieces start (next :: rest)).map (prependPiece (pieceOf c)) := by
  unfold escapeChar
  split
  iterate 7 rfl
  split
  next small =>
    have piece : pieceOf c = .unit c.toNat := by
      simp only [pieceOf, hasLetter]
      simp_all
    rw [piece]
    exact readPieces_unitEscape (by omega) _ _ _
  next large =>
    have piece : pieceOf c = .char c := by
      rw [pieceOf, if_neg (by simp [large])]
    rw [piece, List.singleton_append]
    exact readPieces_plain (by assumption) (by assumption) (by omega) _

theorem readPieces_text (start text rest : List Char) :
    readPieces start (text.flatMap escapeChar ++ '"' :: rest) = .ok (text.map pieceOf, rest) := by
  induction text with
  | nil => simp [readPieces]
  | cons c text ih =>
    obtain ⟨next, more, eq⟩ : ∃ next more, text.flatMap escapeChar ++ '"' :: rest = next :: more := by
      cases h : text.flatMap escapeChar ++ '"' :: rest with
      | nil => simp at h
      | cons next more => exact ⟨next, more, rfl⟩
    rw [List.flatMap_cons, List.append_assoc, eq, readPieces_escapeChar, ← eq, ih]
    rfl

theorem joinPieces_pieceOf (text : List Char) : joinPieces (text.map pieceOf) = text := by
  induction text with
  | nil => rfl
  | cons c text ih =>
    rw [List.map_cons, pieceOf]
    split
    next small =>
      simp only [Bool.and_eq_true, decide_eq_true_eq] at small
      have code : Text.ofCode c.toNat = [c] := by
        rw [Text.ofCode_toNat, Text.keepChar_of_lt (by omega)]
      have noPair : isHighSurrogate c.toNat = false := by
        simp only [isHighSurrogate, Bool.and_eq_false_iff, decide_eq_false_iff_not]
        omega
      cases hm : text.map pieceOf with
      | nil =>
        rw [hm] at ih
        simp [joinPieces, code, ← ih]
      | cons piece more =>
        rw [hm] at ih
        cases piece with
        | char d => simp [joinPieces, code, ← ih]
        | unit low => simp [joinPieces, noPair, code, ← ih]
    next => rw [joinPieces, ih]

/-- What is written of a text between its quotes. -/
def quotedText (style : Style) (text : List Char) : List Char :=
  if style.asciiOnly then (Text.codes text).flatMap escapeCode else text.flatMap escapeChar

theorem quote_append (style : Style) (text rest : List Char) :
    quote style.asciiOnly text ++ rest = '"' :: (quotedText style text ++ '"' :: rest) := by
  simp [quote, quotedText]

/-- A text is read as it is written in a style. -/
def ReadsBack (style : Style) (s : String) : Prop :=
  ∀ start rest, readString start (quotedText style s.toList ++ '"' :: rest) = .ok (s, rest)

/-- With all characters as they are, every text is read as it is written. -/
theorem readsBack_plain {style : Style} (plain : style.asciiOnly = false) (s : String) : ReadsBack style s := by
  intro start rest
  rw [quotedText, plain, if_neg Bool.false_ne_true, readString, readPieces_text]
  simp only [Except.map, joinPieces_pieceOf, String.ofList_toList]

/-! ## Values -/

/-- How a value begins: with no blank, and with no bracket that ends something. -/
def Starts (text : List Char) : Prop :=
  ∃ c rest, text = c :: rest ∧ 32 < c.toNat ∧ c.toNat < 128 ∧ c ≠ ']' ∧ c ≠ '}'

theorem IsNumber.starts {text : List Char} (h : IsNumber text) : Starts text := by
  obtain ⟨negative, c, rest, rfl, hc⟩ := h.start
  have code := h.ascii (c := c) (by simp)
  cases negative with
  | true => exact ⟨'-', c :: rest, rfl, by decide, by decide, by decide, by decide⟩
  | false =>
    refine ⟨c, rest, rfl, code.1, code.2, ?_, ?_⟩
    all_goals
      rintro rfl
      cases hc

theorem chars_starts {value : Json} (h : IsData value) (style : Style) (depth : Nat) :
    Starts (chars style depth value) := by
  cases value with
  | null => exact ⟨'n', _, rfl, by decide, by decide, by decide, by decide⟩
  | bool b => cases b <;> exact ⟨_, _, rfl, by decide, by decide, by decide, by decide⟩
  | int n =>
    rw [chars]
    exact (isNumber_int n).starts
  | float x =>
    rw [IsData] at h
    rw [chars]
    exact (isNumber_float h).starts
  | str s => exact ⟨'"', _, by rw [chars]; rfl, by decide, by decide, by decide, by decide⟩
  | arr items =>
    cases items with
    | nil => exact ⟨'[', _, by rw [chars], by decide, by decide, by decide, by decide⟩
    | cons item items => exact ⟨'[', _, by rw [chars], by decide, by decide, by decide, by decide⟩
  | obj fields =>
    cases fields with
    | nil => exact ⟨'{', _, by rw [chars], by decide, by decide, by decide, by decide⟩
    | cons field fields => exact ⟨'{', _, by rw [chars], by decide, by decide, by decide, by decide⟩

theorem Starts.skipGap {text : List Char} (h : Starts text) (rest : List Char) :
    skipGap (text ++ rest) = text ++ rest := by
  obtain ⟨c, more, rfl, low, _⟩ := h
  have gap : isGap c = false := by
    have ne (d : Char) (hd : d.toNat ≤ 32) : (c == d) = false := by
      rw [beq_eq_false_iff_ne]
      rintro rfl
      omega
    simp [isGap, ne ' ' (by decide), ne '\t' (by decide), ne '\n' (by decide), ne '\r' (by decide)]
  rw [Json.skipGap, List.cons_append, List.dropWhile_cons_of_neg (by simp [gap])]

/-- A number is no word and no text, list or object. -/
theorem readValue_number {text : List Char} (h : IsNumber text) (fuel depth : Nat) (rest : List Char) :
    readValue (fuel + 1) depth (text ++ rest) = readNumber (text ++ rest) := by
  obtain ⟨negative, c, more, rfl, hc⟩ := h.start
  have ne {d : Char} (hd : isDigit d = false) : c ≠ d := by
    rintro rfl
    rw [hc] at hd
    cases hd
  rw [readValue.eq_def]
  cases negative with
  | true => simp [signText, readWord, ne (d := 'I') rfl]
  | false =>
    simp [signText, readWord, ne (d := '"') rfl, ne (d := '{') rfl, ne (d := '[') rfl, ne (d := 'n') rfl,
      ne (d := 't') rfl, ne (d := 'f') rfl, ne (d := 'N') rfl, ne (d := 'I') rfl, ne (d := '-') rfl]

/-! ## Lists and objects as they are written -/

@[simp] theorem lineStart_plain (depth : Nat) : Style.lineStart {} depth = [] := rfl

@[simp] theorem separator_plain (depth : Nat) : Style.separator {} depth = [',', ' '] := rfl

/-- Where a line starts, only blanks stand before the item. -/
theorem skipGap_lineStart (style : Style) (depth : Nat) (text : List Char) :
    skipGap (style.lineStart depth ++ text) = skipGap text := by
  rw [Style.lineStart]
  cases style.indent with
  | none => rfl
  | some width =>
    rw [skipGap, List.dropWhile_append_of_pos]
    · rfl
    · intro c hc
      rcases List.mem_cons.1 hc with rfl | blank
      · rfl
      · rw [List.eq_of_mem_replicate blank]
        rfl

/-- A comma stands between two items, and after it there are only blanks. -/
theorem separator_eq (style : Style) (depth : Nat) :
    ∃ gap, style.separator depth = ',' :: gap ∧ ∀ text, skipGap (gap ++ text) = skipGap text := by
  cases spaced : style.indent with
  | none => exact ⟨[' '], by rw [Style.separator, spaced], fun _ => rfl⟩
  | some width =>
    exact ⟨style.lineStart depth, by rw [Style.separator, spaced], fun text => skipGap_lineStart style depth text⟩

/-- A line that starts, or an end in its place, may follow a value. -/
theorem ended_lineStart (style : Style) (depth : Nat) {text : List Char} (h : Ended text) :
    Ended (style.lineStart depth ++ text) := by
  rw [Style.lineStart]
  cases style.indent with
  | none => exact h
  | some width => simp

/-- What is written of a list from its first item on. -/
def listBody (style : Style) (depth : Nat) (item : Json) (items : List Json) : List Char :=
  chars style (depth + 1) item ++ (itemChars style (depth + 1) items ++ (style.lineStart depth ++ [']']))

/-- What is written of an object from its first name on. -/
def objectBody (style : Style) (depth : Nat) (name : String) (value : Json) (fields : Fields) : List Char :=
  quote style.asciiOnly name.toList ++ ':' :: ' ' :: (chars style (depth + 1) value
    ++ (fieldChars style (depth + 1) fields ++ (style.lineStart depth ++ ['}'])))

section Bodies
variable (style : Style) (depth : Nat)

theorem chars_arr (item : Json) (items : List Json) :
    chars style depth (.arr (item :: items))
      = '[' :: (style.lineStart (depth + 1) ++ listBody style depth item items) := by
  simp [chars, listBody]

theorem chars_obj (name : String) (value : Json) (fields : Fields) :
    chars style depth (.obj ((name, value) :: fields))
      = '{' :: (style.lineStart (depth + 1) ++ objectBody style depth name value fields) := by
  simp [chars, objectBody]

theorem itemChars_cons (item : Json) (items : List Json) :
    itemChars style (depth + 1) (item :: items) ++ (style.lineStart depth ++ [']'])
      = style.separator (depth + 1) ++ listBody style depth item items := by
  simp [itemChars, listBody]

theorem fieldChars_cons (name : String) (value : Json) (fields : Fields) :
    fieldChars style (depth + 1) ((name, value) :: fields) ++ (style.lineStart depth ++ ['}'])
      = style.separator (depth + 1) ++ objectBody style depth name value fields := by
  simp [fieldChars, objectBody]

theorem objectBody_append (name : String) (value : Json) (fields : Fields) (rest : List Char) :
    objectBody style depth name value fields ++ rest
      = '"' :: (quotedText style name.toList ++ '"' :: ':' :: ' ' :: (chars style (depth + 1) value
          ++ (fieldChars style (depth + 1) fields ++ (style.lineStart depth ++ ['}']) ++ rest))) := by
  simp [objectBody, quote, quotedText]

theorem skipGap_listBody {item : Json} (h : IsData item) (items : List Json) (rest : List Char) :
    skipGap (listBody style depth item items ++ rest) = listBody style depth item items ++ rest := by
  rw [listBody, List.append_assoc]
  exact (chars_starts h style (depth + 1)).skipGap _

theorem skipGap_objectBody (name : String) (value : Json) (fields : Fields) (rest : List Char) :
    skipGap (objectBody style depth name value fields ++ rest) = objectBody style depth name value fields ++ rest := by
  rw [objectBody_append]
  rfl

end Bodies

/-! ## Texts in a value -/

mutual

/-- All texts in a value, the names of fields among them, satisfy a condition. -/
def AllTexts (p : String → Prop) : Json → Prop
  | .str s => p s
  | .arr items => ItemsTexts p items
  | .obj fields => FieldsTexts p fields
  | _ => True

def ItemsTexts (p : String → Prop) : List Json → Prop
  | [] => True
  | item :: items => AllTexts p item ∧ ItemsTexts p items

def FieldsTexts (p : String → Prop) : List (String × Json) → Prop
  | [] => True
  | (name, value) :: fields => p name ∧ AllTexts p value ∧ FieldsTexts p fields

end

theorem itemsTexts_iff {p : String → Prop} {items : List Json} :
    ItemsTexts p items ↔ ∀ item ∈ items, AllTexts p item := by
  induction items with
  | nil => simp [ItemsTexts]
  | cons item items ih => simp [ItemsTexts, ih]

mutual

theorem allTexts_of {p : String → Prop} (h : ∀ s, p s) : ∀ value : Json, AllTexts p value
  | .null | .bool _ | .int _ | .float _ => by simp [AllTexts]
  | .str s => by rw [AllTexts]; exact h s
  | .arr items => by rw [AllTexts]; exact itemsTexts_of h items
  | .obj fields => by rw [AllTexts]; exact fieldsTexts_of h fields

theorem itemsTexts_of {p : String → Prop} (h : ∀ s, p s) : ∀ items : List Json, ItemsTexts p items
  | [] => trivial
  | item :: items => by
    rw [ItemsTexts]
    exact ⟨allTexts_of h item, itemsTexts_of h items⟩

theorem fieldsTexts_of {p : String → Prop} (h : ∀ s, p s) : ∀ fields : Fields, FieldsTexts p fields
  | [] => trivial
  | (name, value) :: fields => by
    rw [FieldsTexts]
    exact ⟨h name, allTexts_of h value, fieldsTexts_of h fields⟩

end

/-! ## Reading back

With enough fuel, values, lists and objects are read as they are written. The three readers call each other with
less fuel, so all three are shown by one induction on it. -/

section Readers
variable {style : Style} {fuel : Nat}

/-- Values are read as they are written with so much fuel. -/
def ValuesRead (style : Style) (fuel : Nat) : Prop :=
  ∀ {value : Json} {written depth : Nat} {rest : List Char}, IsData value → AllTexts (ReadsBack style) value →
    value.depth ≤ depth → (chars style written value).length ≤ fuel → Ended rest →
      readValue fuel depth (chars style written value ++ rest) = .ok (value, rest)

/-- Lists are read from their first item on. -/
def ItemsRead (style : Style) (fuel : Nat) : Prop :=
  ∀ {item : Json} {items before : List Json} {written depth : Nat} {rest : List Char}, IsData item →
    ItemsData items → AllTexts (ReadsBack style) item → ItemsTexts (ReadsBack style) items → item.depth ≤ depth →
    itemsDepth items ≤ depth → (listBody style written item items).length ≤ fuel →
      readItems fuel depth before (listBody style written item items ++ rest)
        = .ok (.arr (before.reverse ++ item :: items), rest)

/-- Objects are read from their first field on. -/
def FieldsRead (style : Style) (fuel : Nat) : Prop :=
  ∀ {name : String} {value : Json} {fields before : Fields} {written depth : Nat} {rest : List Char},
    IsData value → FieldsData fields → ReadsBack style name → AllTexts (ReadsBack style) value →
    FieldsTexts (ReadsBack style) fields → ((before ++ (name, value) :: fields).map Prod.fst).Nodup →
    value.depth ≤ depth → fieldsDepth fields ≤ depth →
    (objectBody style written name value fields).length ≤ fuel →
      readFields fuel depth before (objectBody style written name value fields ++ rest)
        = .ok (.obj (before ++ (name, value) :: fields), rest)

theorem valuesRead_zero : ValuesRead style 0 := by
  intro value written depth rest data _ _ long _
  obtain ⟨c, more, start, _⟩ := chars_starts data style written
  rw [start] at long
  cases long

theorem valuesRead_succ (hi : ItemsRead style fuel) (hf : FieldsRead style fuel) : ValuesRead style (fuel + 1) := by
  intro value written depth rest data texts deep long ended
  cases value with
  | null => simp [chars, readValue, readWord]
  | bool b => cases b <;> simp [chars, readValue, readWord]
  | int n =>
    rw [IsData] at data
    rw [chars, readValue_number (isNumber_int n)]
    exact readNumber_int data ended
  | float x =>
    rw [IsData] at data
    rw [chars, readValue_number (isNumber_float data)]
    exact readNumber_float data ended
  | str s =>
    rw [AllTexts] at texts
    rw [chars, quote_append, readValue]
    simp only [texts _ _]
    rfl
  | arr items =>
    have positive : depth ≠ 0 := by
      rw [Json.depth] at deep
      omega
    cases items with
    | nil => simp [chars, readValue, positive, skipGap, isGap]
    | cons item items =>
      rw [IsData, ItemsData] at data
      rw [AllTexts, ItemsTexts] at texts
      rw [Json.depth, itemsDepth] at deep
      rw [chars_arr, List.length_cons, List.length_append] at long
      have read : readItems fuel (depth - 1) [] (listBody style written item items ++ rest)
          = .ok (.arr (item :: items), rest) :=
        hi data.1 data.2 texts.1 texts.2 (by omega) (by omega) (by omega)
      obtain ⟨d, others, first, _, _, noBracket, _⟩ := chars_starts data.1 style (written + 1)
      rw [chars_arr, List.cons_append, List.append_assoc, readValue]
      simp only [positive, if_false, skipGap_lineStart, skipGap_listBody _ _ data.1]
      -- a value begins with no bracket that closes the list
      split
      next e =>
        rw [listBody, first, List.append_assoc, List.cons_append] at e
        exact absurd (List.cons.inj e).1 noBracket
      next => exact read
  | obj fields =>
    have positive : depth ≠ 0 := by
      rw [Json.depth] at deep
      omega
    cases fields with
    | nil => simp [chars, readValue, positive, skipGap, isGap]
    | cons field fields =>
      obtain ⟨name, value⟩ := field
      rw [IsData, FieldsData] at data
      obtain ⟨names, _, valueData, fieldsData⟩ := data
      rw [AllTexts, FieldsTexts] at texts
      rw [Json.depth, fieldsDepth] at deep
      rw [chars_obj, List.length_cons, List.length_append] at long
      have read : readFields fuel (depth - 1) [] (objectBody style written name value fields ++ rest)
          = .ok (.obj ((name, value) :: fields), rest) :=
        hf valueData fieldsData texts.1 texts.2.1 texts.2.2 names (by omega) (by omega) (by omega)
      rw [chars_obj, List.cons_append, List.append_assoc, readValue]
      simp only [positive, if_false, skipGap_lineStart, skipGap_objectBody]
      split
      next e =>
        rw [objectBody_append] at e
        exact absurd (List.cons.inj e).1 (by decide)
      next => exact read

theorem itemsRead_succ (hv : ValuesRead style fuel) (hi : ItemsRead style fuel) : ItemsRead style (fuel + 1) := by
  intro item items before written depth rest itemData itemsData itemTexts itemsTexts deep deepRest long
  have split : (chars style (written + 1) item).length
      + (itemChars style (written + 1) items ++ (style.lineStart written ++ [']'])).length ≤ fuel + 1 := by
    rwa [listBody, List.length_append] at long
  have positive : 0 < (itemChars style (written + 1) items ++ (style.lineStart written ++ [']'])).length := by simp
  have close : skipGap (style.lineStart written ++ [']'] ++ rest) = ']' :: rest := by
    rw [List.append_assoc, skipGap_lineStart]
    rfl
  cases items with
  | nil =>
    have ended : Ended (style.lineStart written ++ [']'] ++ rest) := by
      rw [List.append_assoc]
      exact ended_lineStart style written (ended_bracket rest)
    rw [readItems, listBody, List.append_assoc, itemChars, List.nil_append,
      hv itemData itemTexts deep (by omega) ended]
    simp only [bind, Except.bind, close, List.reverse_cons]
  | cons next more =>
    rw [ItemsData] at itemsData
    rw [ItemsTexts] at itemsTexts
    rw [itemsDepth] at deepRest
    obtain ⟨gap, separator, blank⟩ := separator_eq style (written + 1)
    rw [itemChars_cons, separator, List.length_append, List.length_cons] at split
    have others : readItems fuel depth (item :: before) (listBody style written next more ++ rest)
        = .ok (.arr ((item :: before).reverse ++ next :: more), rest) :=
      hi itemsData.1 itemsData.2 itemsTexts.1 itemsTexts.2 (by omega) (by omega) (by omega)
    have comma (text : List Char) : skipGap (',' :: text) = ',' :: text := rfl
    rw [readItems, listBody, List.append_assoc, itemChars_cons, separator, List.cons_append, List.cons_append,
      List.append_assoc, hv itemData itemTexts deep (by omega) (ended_comma _)]
    simp only [bind, Except.bind, comma, blank, skipGap_listBody _ _ itemsData.1, others, List.reverse_cons,
      List.append_assoc, List.cons_append, List.nil_append]

theorem fieldsRead_succ (hv : ValuesRead style fuel) (hf : FieldsRead style fuel) : FieldsRead style (fuel + 1) := by
  intro name value fields before written depth rest valueData fieldsData nameTexts valueTexts fieldsTexts names deep
    deepRest long
  have split : (chars style (written + 1) value).length
      + (fieldChars style (written + 1) fields ++ (style.lineStart written ++ ['}'])).length < fuel + 1 := by
    rw [objectBody, List.length_append, List.length_cons, List.length_cons, List.length_append] at long
    omega
  have fresh : name ∉ before.map Prod.fst := by
    rw [List.map_append, List.map_cons, List.nodup_append] at names
    exact fun mem => names.2.2 name mem name List.mem_cons_self rfl
  have colon (text : List Char) : skipGap (':' :: text) = ':' :: text := rfl
  have starts (text : List Char) : skipGap (' ' :: (chars style (written + 1) value ++ text))
      = chars style (written + 1) value ++ text := (chars_starts valueData style (written + 1)).skipGap text
  have close : skipGap (style.lineStart written ++ ['}'] ++ rest) = '}' :: rest := by
    rw [List.append_assoc, skipGap_lineStart]
    rfl
  rw [objectBody_append, readFields]
  simp only [nameTexts _ _, bind, Except.bind, colon, starts]
  cases fields with
  | nil =>
    have ended : Ended (style.lineStart written ++ ['}'] ++ rest) := by
      rw [List.append_assoc]
      exact ended_lineStart style written (ended_brace rest)
    rw [fieldChars, List.nil_append, hv valueData valueTexts deep (by omega) ended]
    simp only [close, set_of_not_mem fresh]
  | cons next more =>
    obtain ⟨nextName, nextValue⟩ := next
    rw [FieldsData] at fieldsData
    rw [FieldsTexts] at fieldsTexts
    rw [fieldsDepth] at deepRest
    obtain ⟨gap, separator, blank⟩ := separator_eq style (written + 1)
    rw [fieldChars_cons, separator, List.length_append, List.length_cons] at split
    have others : readFields fuel depth (before ++ [(name, value)])
        (objectBody style written nextName nextValue more ++ rest)
        = .ok (.obj (before ++ [(name, value)] ++ (nextName, nextValue) :: more), rest) :=
      hf fieldsData.2.1 fieldsData.2.2 fieldsTexts.1 fieldsTexts.2.1 fieldsTexts.2.2 (by simpa using names) (by omega)
        (by omega) (by omega)
    have comma (text : List Char) : skipGap (',' :: text) = ',' :: text := rfl
    rw [fieldChars_cons, separator, List.cons_append, List.cons_append, List.append_assoc,
      hv valueData valueTexts deep (by omega) (ended_comma _)]
    simp only [set_of_not_mem fresh, comma, blank, skipGap_objectBody, others, List.append_assoc, List.cons_append,
      List.nil_append]

theorem all_read (style : Style) (fuel : Nat) :
    ValuesRead style fuel ∧ ItemsRead style fuel ∧ FieldsRead style fuel := by
  induction fuel with
  | zero =>
    refine ⟨valuesRead_zero, ?_, ?_⟩
    · intro item items before written depth rest _ _ _ _ _ _ long
      simp [listBody] at long
    · intro name value fields before written depth rest _ _ _ _ _ _ _ _ long
      simp [objectBody] at long
  | succ fuel ih => exact ⟨valuesRead_succ ih.2.1 ih.2.2, itemsRead_succ ih.1 ih.2.1, fieldsRead_succ ih.1 ih.2.2⟩

end Readers

/-- The text of a value that texts can hold reads back as the value, if it is nested no deeper than texts are read and
its texts read back in the style. -/
theorem parse_render_style {style : Style} {value : Json} (data : IsData value)
    (texts : AllTexts (ReadsBack style) value) (deep : value.depth ≤ nestingLimit) :
    parse (render style value) = .ok value := by
  have read : readValue ((chars style 0 value).length + 1) nestingLimit (chars style 0 value ++ []) = .ok (value, []) :=
    (all_read style _).1 data texts deep (Nat.le_succ _) ended_nil
  have starts := (chars_starts data style 0).skipGap []
  obtain ⟨c, more, first, _, small, _⟩ := chars_starts data style 0
  rw [List.append_nil] at read starts
  have noMark : ∀ rest, chars style 0 value = '\ufeff' :: rest → False := by
    intro rest eq
    rw [first] at eq
    rw [(List.cons.inj eq).1] at small
    exact absurd small (by decide)
  rw [parse, render, String.toList_ofList, parseChars.eq_def]
  split
  next rest eq => exact (noMark rest eq).elim
  next =>
    rw [starts, read]
    rfl

/-- With all characters as they are, and on one line, the text of a value that texts can hold reads back as the value,
if it is nested no deeper than texts are read. -/
theorem parse_render {value : Json} (data : IsData value) (deep : value.depth ≤ nestingLimit) :
    parse (render {} value) = .ok value :=
  parse_render_style data (allTexts_of (readsBack_plain rfl) value) deep

/-! ## Texts that files can hold -/

/-- A kept text without carriage returns, which a file gives back as it is. -/
def IsPlain (text : List Char) : Prop := Text.IsKept text ∧ '\r' ∉ text

namespace IsPlain

theorem append {a b : List Char} (ha : IsPlain a) (hb : IsPlain b) : IsPlain (a ++ b) := by
  refine ⟨ha.1.append hb.1, ?_⟩
  rw [List.mem_append, not_or]
  exact ⟨ha.2, hb.2⟩

theorem of_printed {text : List Char} (h : ∀ c ∈ text, 32 ≤ c.toNat ∧ c.toNat < 128) : IsPlain text := by
  refine ⟨Text.IsKept.of_ascii fun c hc => (h c hc).2, fun hc => ?_⟩
  exact absurd (h _ hc).1 (by decide)

theorem of_number {text : List Char} (h : IsNumber text) : IsPlain text :=
  of_printed fun _ hc => ⟨(h.ascii hc).1.le, (h.ascii hc).2⟩

end IsPlain

theorem printed_hexDigit : ∀ n < 16, 32 ≤ (hexDigit n).toNat ∧ (hexDigit n).toNat < 128 := by decide

theorem printed_hexText (width n : Nat) : ∀ d ∈ hexText width n, 32 ≤ d.toNat ∧ d.toNat < 128 := by
  induction width generalizing n with
  | zero => exact List.forall_mem_nil _
  | succ width ih =>
    intro d hd
    rw [hexText] at hd
    rcases List.mem_append.1 hd with before | last
    · exact ih (n / 16) d before
    · rw [List.mem_singleton.1 last]
      exact printed_hexDigit _ (Nat.mod_lt n (by decide))

theorem printed_unitEscape (n : Nat) : ∀ d ∈ unitEscape n, 32 ≤ d.toNat ∧ d.toNat < 128 := by
  rw [unitEscape, List.forall_mem_cons, List.forall_mem_cons]
  exact ⟨by decide, by decide, printed_hexText 4 n⟩

theorem escapeChar_noReturn (c : Char) : '\r' ∉ escapeChar c := by
  unfold escapeChar
  split
  all_goals try decide
  split
  next => exact fun hc => absurd (printed_unitEscape _ _ hc).1 (by decide)
  next notReturn _ _ _ _ =>
    rw [List.mem_singleton]
    exact fun e => notReturn e.symm

theorem escapeChar_large {c : Char} (h : 128 ≤ c.toNat) : escapeChar c = [c] := by
  unfold escapeChar
  split
  iterate 7 exact absurd h (by decide)
  rw [if_neg (by omega)]

theorem escapeChar_small {c : Char} (h : c.toNat < 128) : ∀ d ∈ escapeChar c, d.toNat < 128 := by
  unfold escapeChar
  split
  iterate 7 decide
  split
  next => exact fun d hd => (printed_unitEscape _ d hd).2
  next =>
    intro d hd
    rwa [List.mem_singleton.1 hd]

theorem isKept_escape_ofCode {code : Nat} (h : Text.IsCode code) :
    Text.IsKept ((Text.ofCode code).flatMap escapeChar) := by
  have large {c : Char} (hc : 128 ≤ c.toNat) (kept : Text.IsKept (Text.keepChar c)) :
      Text.IsKept ((Text.keepChar c).flatMap escapeChar) := by
    have same : (Text.keepChar c).flatMap escapeChar = Text.keepChar c := by
      unfold Text.keepChar
      split <;> simp [escapeChar_large hc, escapeChar_large (c := Text.mark) (by decide)]
    rwa [same]
  by_cases half : Text.isHalf code = true
  · have toNat := Text.toNat_halfChar half
    refine ⟨[code], by simpa using h, ?_⟩
    rw [Text.ofCode, if_pos half, List.flatMap_singleton, List.flatMap_singleton, Text.ofCode, if_pos half,
      escapeChar_large (by rw [toNat, Text.halfShift]; omega)]
  · rw [Text.ofCode, if_neg half]
    rcases Nat.lt_or_ge (Char.ofNat code).toNat 128 with small | big
    · rw [Text.keepChar_of_lt (by omega), List.flatMap_singleton]
      exact .of_ascii (escapeChar_small small)
    · exact large big (.keepChar _)

theorem isPlain_escape {text : List Char} (h : Text.IsKept text) : IsPlain (text.flatMap escapeChar) := by
  constructor
  · obtain ⟨codes, all, rfl⟩ := h
    rw [List.flatMap_assoc, List.flatMap_def]
    refine .flatten fun part hp => ?_
    obtain ⟨code, mem, rfl⟩ := List.mem_map.1 hp
    exact isKept_escape_ofCode (all code mem)
  · rw [List.mem_flatMap]
    rintro ⟨c, _, hc⟩
    exact escapeChar_noReturn c hc

theorem isPlain_quote {text : List Char} (h : Text.IsKept text) : IsPlain (quote false text) := by
  have mark : IsPlain ['"'] := .of_printed (by decide)
  have := mark.append ((isPlain_escape h).append mark)
  rwa [quote]

mutual

theorem isPlain_chars : ∀ {value : Json} (depth : Nat), IsData value → IsPlain (chars {} depth value)
  | .null, _, _ => by rw [chars]; exact .of_printed (by decide)
  | .bool true, _, _ => by rw [chars]; exact .of_printed (by decide)
  | .bool false, _, _ => by rw [chars]; exact .of_printed (by decide)
  | .int n, _, _ => by rw [chars]; exact .of_number (isNumber_int n)
  | .float x, _, h => by
    rw [IsData] at h
    rw [chars]
    exact .of_number (isNumber_float h)
  | .str s, _, h => by
    rw [chars]
    exact isPlain_quote h
  | .arr [], _, _ => by rw [chars]; exact .of_printed (by decide)
  | .arr (item :: items), depth, h => by
    rw [IsData, ItemsData] at h
    rw [chars_arr, lineStart_plain, List.nil_append, listBody, lineStart_plain, List.nil_append,
      ← List.singleton_append]
    exact (IsPlain.of_printed (by decide)).append
      ((isPlain_chars _ h.1).append ((isPlain_itemChars _ h.2).append (.of_printed (by decide))))
  | .obj [], _, _ => by rw [chars]; exact .of_printed (by decide)
  | .obj ((name, value) :: fields), depth, h => by
    rw [IsData, FieldsData] at h
    have open_ : IsPlain ['{'] := .of_printed (by decide)
    have colon : IsPlain [':', ' '] := .of_printed (by decide)
    have close : IsPlain ['}'] := .of_printed (by decide)
    have := open_.append ((isPlain_quote h.2.1).append (colon.append
      ((isPlain_chars (depth + 1) h.2.2.1).append ((isPlain_fieldChars (depth + 1) h.2.2.2).append close))))
    rw [chars_obj, lineStart_plain, List.nil_append, objectBody, lineStart_plain, List.nil_append]
    simpa using this

theorem isPlain_itemChars : ∀ {items : List Json} (depth : Nat), ItemsData items → IsPlain (itemChars {} depth items)
  | [], _, _ => by rw [itemChars]; exact .of_printed (by decide)
  | item :: items, depth, h => by
    rw [ItemsData] at h
    have comma : IsPlain [',', ' '] := .of_printed (by decide)
    have := comma.append ((isPlain_chars depth h.1).append (isPlain_itemChars depth h.2))
    rw [itemChars]
    simpa using this

theorem isPlain_fieldChars : ∀ {fields : Fields} (depth : Nat), FieldsData fields →
    IsPlain (fieldChars {} depth fields)
  | [], _, _ => by rw [fieldChars]; exact .of_printed (by decide)
  | (name, value) :: fields, depth, h => by
    rw [FieldsData] at h
    have comma : IsPlain [',', ' '] := .of_printed (by decide)
    have colon : IsPlain [':', ' '] := .of_printed (by decide)
    have := comma.append ((isPlain_quote h.1).append (colon.append
      ((isPlain_chars depth h.2.1).append (isPlain_fieldChars depth h.2.2))))
    rw [fieldChars]
    simpa using this

end

theorem isPlain_render {value : Json} (h : IsData value) : IsPlain (render {} value).toList := by
  rw [render, String.toList_ofList]
  exact isPlain_chars 0 h

end CodeSearch.Json
