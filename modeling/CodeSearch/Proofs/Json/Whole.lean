import CodeSearch.Proofs.Json.RoundTrip
/-!
# Values that files can hold

A file has no form for a half of a pair. A value none of whose texts and names holds a half (`Json.isWhole`) is written
as a text without halves (`isWhole_render`), and so it has a form in a file (`Json.HasForm`).
-/

namespace CodeSearch.Text

/-- A kept text without halves. -/
def IsClear (text : List Char) : Prop := IsKept text ∧ isWhole (String.ofList text) = true

namespace IsClear

theorem append {a b : List Char} (ha : IsClear a) (hb : IsClear b) : IsClear (a ++ b) :=
  ⟨ha.1.append hb.1, by rw [isWhole_append ha.1, ha.2, hb.2]; rfl⟩

theorem nil : IsClear [] := ⟨.nil, rfl⟩

theorem flatten {texts : List (List Char)} (h : ∀ text ∈ texts, IsClear text) : IsClear texts.flatten := by
  induction texts with
  | nil => exact nil
  | cons text rest ih =>
    exact (h text List.mem_cons_self).append (ih fun t ht => h t (List.mem_cons_of_mem _ ht))

theorem keepChar (c : Char) : IsClear (keepChar c) := by
  refine ⟨.keepChar c, ?_⟩
  have codes := codes_ofCode (isCode_toNat c) []
  rw [ofCode_toNat, List.append_nil] at codes
  rw [isWhole, String.toList_ofList, codes]
  simp [Text.codes, not_isHalf_toNat]

theorem of_ascii {text : List Char} (h : ∀ c ∈ text, c.toNat < 128) : IsClear text := by
  induction text with
  | nil => exact nil
  | cons c rest ih =>
    have small := h c List.mem_cons_self
    have := (keepChar c).append (ih fun d hd => h d (List.mem_cons_of_mem _ hd))
    rwa [Text.keepChar_of_lt (by omega), List.singleton_append] at this

end IsClear

/-- A kept text without halves is made of characters. -/
theorem IsKept.eq_flatMap {text : List Char} (h : IsKept text) (whole : isWhole (String.ofList text) = true) :
    ∃ chars : List Char, text = chars.flatMap Text.keepChar := by
  obtain ⟨codes', all, rfl⟩ := h
  have codes : codes (codes'.flatMap ofCode) = codes' := by
    have := codes_flatMap all []
    rwa [List.append_nil, show codes [] = [] from rfl, List.append_nil] at this
  rw [isWhole, String.toList_ofList, codes] at whole
  refine ⟨codes'.map Char.ofNat, ?_⟩
  rw [List.flatMap_map]
  refine List.flatMap_congr fun code hc => ?_
  have full := List.all_eq_true.1 whole code hc
  rw [ofCode, if_neg (by simpa using full)]

end CodeSearch.Text

namespace CodeSearch.Json

open CodeSearch.Text

mutual

/-- No text in a value and no name holds a half. -/
def isWhole : Json → Bool
  | .str s => Text.isWhole s
  | .arr items => itemsWhole items
  | .obj fields => fieldsWhole fields
  | _ => true

def itemsWhole : List Json → Bool
  | [] => true
  | item :: items => isWhole item && itemsWhole items

def fieldsWhole : List (String × Json) → Bool
  | [] => true
  | (name, value) :: fields => Text.isWhole name && isWhole value && fieldsWhole fields

end

theorem isWhole_arr {items : List Json} : (Json.arr items).isWhole = true ↔ ∀ item ∈ items, item.isWhole = true := by
  rw [isWhole]
  induction items with
  | nil => simp [itemsWhole]
  | cons item items ih => simp [itemsWhole, ih]

theorem isClear_escape {s : String} (h : IsKept s.toList) (whole : Text.isWhole s = true) :
    IsClear (s.toList.flatMap escapeChar) := by
  rw [← String.ofList_toList (s := s)] at whole
  obtain ⟨chars, text⟩ := h.eq_flatMap whole
  rw [text, List.flatMap_assoc, List.flatMap_def]
  refine .flatten fun part hp => ?_
  obtain ⟨c, _, rfl⟩ := List.mem_map.1 hp
  rcases Nat.lt_or_ge c.toNat 128 with small | large
  · rw [keepChar_of_lt (by omega), List.flatMap_singleton]
    exact .of_ascii (escapeChar_small small)
  · have same : (keepChar c).flatMap escapeChar = keepChar c := by
      unfold Text.keepChar
      split <;> simp [escapeChar_large large, escapeChar_large (c := mark) (by decide)]
    rw [same]
    exact .keepChar c

theorem isClear_quote {s : String} (h : IsKept s.toList) (whole : Text.isWhole s = true) :
    IsClear (quote false s.toList) := by
  have mark : IsClear ['"'] := .of_ascii (by decide)
  have := mark.append ((isClear_escape h whole).append mark)
  rwa [quote]

theorem isClear_number {text : List Char} (h : IsNumber text) : IsClear text := .of_ascii fun _ hc => (h.ascii hc).2

theorem isClear_float (x : Float) : IsClear (Decimal.text floatFormat x).toList := by
  cases reading : Decimal.decode x with
  | finite b =>
    have finite : isFinite x = true := by rw [isFinite, reading]
    exact isClear_number (isNumber_float finite)
  | nan =>
    rw [Decimal.text, reading]
    exact .of_ascii (by decide)
  | infinite negative =>
    rw [Decimal.text, reading]
    cases negative <;> exact .of_ascii (by decide)

mutual

theorem isClear_chars : ∀ {value : Json} (depth : Nat), TextsKept value → isWhole value = true →
    IsClear (chars {} depth value)
  | .null, _, _, _ => by rw [chars]; exact .of_ascii (by decide)
  | .bool true, _, _, _ => by rw [chars]; exact .of_ascii (by decide)
  | .bool false, _, _, _ => by rw [chars]; exact .of_ascii (by decide)
  | .int n, _, _, _ => by rw [chars]; exact isClear_number (isNumber_int n)
  | .float x, _, _, _ => by rw [chars]; exact isClear_float x
  | .str s, _, h, whole => by
    rw [chars]
    exact isClear_quote h whole
  | .arr [], _, _, _ => by rw [chars]; exact .of_ascii (by decide)
  | .arr (item :: items), depth, h, whole => by
    rw [TextsKept, ItemsKept] at h
    rw [isWhole, itemsWhole, Bool.and_eq_true] at whole
    rw [chars_arr, lineStart_plain, List.nil_append, listBody, lineStart_plain, List.nil_append,
      ← List.singleton_append]
    exact (IsClear.of_ascii (by decide)).append ((isClear_chars _ h.1 whole.1).append
      ((isClear_itemChars _ h.2 whole.2).append (.of_ascii (by decide))))
  | .obj [], _, _, _ => by rw [chars]; exact .of_ascii (by decide)
  | .obj ((name, value) :: fields), depth, h, whole => by
    rw [TextsKept, FieldsKept] at h
    rw [isWhole, fieldsWhole, Bool.and_eq_true, Bool.and_eq_true] at whole
    have open_ : IsClear ['\x7b'] := .of_ascii (by decide)
    have colon : IsClear [':', ' '] := .of_ascii (by decide)
    have close : IsClear ['\x7d'] := .of_ascii (by decide)
    have := open_.append ((isClear_quote h.1 whole.1.1).append (colon.append
      ((isClear_chars (depth + 1) h.2.1 whole.1.2).append
        ((isClear_fieldChars (depth + 1) h.2.2 whole.2).append close))))
    rw [chars_obj, lineStart_plain, List.nil_append, objectBody, lineStart_plain, List.nil_append]
    simpa using this

theorem isClear_itemChars : ∀ {items : List Json} (depth : Nat), ItemsKept items → itemsWhole items = true →
    IsClear (itemChars {} depth items)
  | [], _, _, _ => by rw [itemChars]; exact .nil
  | item :: items, depth, h, whole => by
    rw [ItemsKept] at h
    rw [itemsWhole, Bool.and_eq_true] at whole
    have comma : IsClear [',', ' '] := .of_ascii (by decide)
    have := comma.append ((isClear_chars depth h.1 whole.1).append (isClear_itemChars depth h.2 whole.2))
    rw [itemChars]
    simpa using this

theorem isClear_fieldChars : ∀ {fields : Fields} (depth : Nat), FieldsKept fields → fieldsWhole fields = true →
    IsClear (fieldChars {} depth fields)
  | [], _, _, _ => by rw [fieldChars]; exact .nil
  | (name, value) :: fields, depth, h, whole => by
    rw [FieldsKept] at h
    rw [fieldsWhole, Bool.and_eq_true, Bool.and_eq_true] at whole
    have comma : IsClear [',', ' '] := .of_ascii (by decide)
    have colon : IsClear [':', ' '] := .of_ascii (by decide)
    have := comma.append ((isClear_quote h.1 whole.1.1).append (colon.append
      ((isClear_chars depth h.2.1 whole.1.2).append (isClear_fieldChars depth h.2.2 whole.2))))
    rw [fieldChars]
    simpa using this

end

/-- The text of a value without halves has none either. -/
theorem isWhole_render {value : Json} (kept : TextsKept value) (whole : isWhole value = true) :
    Text.isWhole (render {} value) = true := (isClear_chars 0 kept whole).2

/-! ## Values with a form -/

/-- A value that has a form in a file: its texts are kept, and none holds a half. -/
structure HasForm (value : Json) : Prop where
  kept : TextsKept value
  whole : value.isWhole = true

theorem hasForm_int (n : Int) : HasForm (.int n) := ⟨by simp [TextsKept], by simp [isWhole]⟩

theorem hasForm_str {s : String} : HasForm (.str s) ↔ IsClear s.toList := by
  rw [IsClear, String.ofList_toList]
  exact ⟨fun h => ⟨h.kept, h.whole⟩, fun h => ⟨h.1, h.2⟩⟩

theorem hasForm_arr {items : List Json} : HasForm (.arr items) ↔ ∀ item ∈ items, HasForm item := by
  constructor
  · exact fun h item hi => ⟨textsKept_arr.1 h.kept item hi, isWhole_arr.1 h.whole item hi⟩
  · exact fun h => ⟨textsKept_arr.2 fun item hi => (h item hi).kept, isWhole_arr.2 fun item hi => (h item hi).whole⟩

theorem isWhole_obj {fields : Fields} : (Json.obj fields).isWhole = true ↔
    ∀ field ∈ fields, Text.isWhole field.1 = true ∧ field.2.isWhole = true := by
  rw [isWhole]
  induction fields with
  | nil => simp [fieldsWhole]
  | cons field fields ih => simp [fieldsWhole, ih, and_assoc]

theorem hasForm_obj {fields : Fields} : HasForm (.obj fields) ↔
    ∀ field ∈ fields, IsClear field.1.toList ∧ HasForm field.2 := by
  constructor
  · intro h field hf
    obtain ⟨name, kept⟩ := textsKept_obj.1 h.kept field hf
    obtain ⟨nameWhole, whole⟩ := isWhole_obj.1 h.whole field hf
    exact ⟨⟨name, by rwa [String.ofList_toList]⟩, kept, whole⟩
  · intro h
    refine ⟨textsKept_obj.2 fun field hf => ⟨(h field hf).1.1, (h field hf).2.kept⟩,
      isWhole_obj.2 fun field hf => ⟨?_, (h field hf).2.whole⟩⟩
    have whole := (h field hf).1.2
    rwa [String.ofList_toList] at whole

end CodeSearch.Json
