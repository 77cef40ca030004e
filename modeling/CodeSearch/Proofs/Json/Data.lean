import CodeSearch.Json.Value
import CodeSearch.Proofs.Text.Codes
/-!
# Values that texts can hold

`Json.IsData` tells the values that a text in the data format can hold: integers that are not too long to be
read, doubles that are numbers, kept texts, and objects in which every name stands once. `Json.TextsKept` only tells that
the texts in a value are kept.
-/

namespace CodeSearch.Json

mutual

/-- A value as it can be read from a text of standard spelling. -/
def IsData : Json → Prop
  | .null => True
  | .bool _ => True
  | .int n => (toString n.natAbs).toList.length ≤ Decimal.integerDigitLimit
  | .float x => isFinite x = true
  | .str s => Text.IsKept s.toList
  | .arr items => ItemsData items
  | .obj fields => (fields.map Prod.fst).Nodup ∧ FieldsData fields

def ItemsData : List Json → Prop
  | [] => True
  | item :: items => IsData item ∧ ItemsData items

def FieldsData : List (String × Json) → Prop
  | [] => True
  | (name, value) :: fields => Text.IsKept name.toList ∧ IsData value ∧ FieldsData fields

end

theorem itemsData_iff (items : List Json) : ItemsData items ↔ ∀ item ∈ items, IsData item := by
  induction items with
  | nil => simp [ItemsData]
  | cons item items ih => simp [ItemsData, ih]

theorem fieldsData_iff (fields : Fields) :
    FieldsData fields ↔ ∀ field ∈ fields, Text.IsKept field.1.toList ∧ IsData field.2 := by
  induction fields with
  | nil => simp [FieldsData]
  | cons field fields ih => simp [FieldsData, ih, and_assoc]

@[simp] theorem isData_null : IsData .null := by simp [IsData]

@[simp] theorem isData_bool (b : Bool) : IsData (.bool b) := by simp [IsData]

theorem isData_str {s : String} : IsData (.str s) ↔ Text.IsKept s.toList := by simp [IsData]

theorem isData_arr {items : List Json} : IsData (.arr items) ↔ ∀ item ∈ items, IsData item := by
  simp [IsData, itemsData_iff]

theorem isData_obj {fields : Fields} : IsData (.obj fields) ↔
    (fields.map Prod.fst).Nodup ∧ ∀ field ∈ fields, Text.IsKept field.1.toList ∧ IsData field.2 := by
  simp [IsData, fieldsData_iff]

/-! ## Kept texts in a value -/

mutual

/-- All texts in a value are kept, the names of fields among them. -/
def TextsKept : Json → Prop
  | .str s => Text.IsKept s.toList
  | .arr items => ItemsKept items
  | .obj fields => FieldsKept fields
  | _ => True

def ItemsKept : List Json → Prop
  | [] => True
  | item :: items => TextsKept item ∧ ItemsKept items

def FieldsKept : List (String × Json) → Prop
  | [] => True
  | (name, value) :: fields => Text.IsKept name.toList ∧ TextsKept value ∧ FieldsKept fields

end

theorem itemsKept_iff (items : List Json) : ItemsKept items ↔ ∀ item ∈ items, TextsKept item := by
  induction items with
  | nil => simp [ItemsKept]
  | cons item items ih => simp [ItemsKept, ih]

theorem fieldsKept_iff (fields : Fields) :
    FieldsKept fields ↔ ∀ field ∈ fields, Text.IsKept field.1.toList ∧ TextsKept field.2 := by
  induction fields with
  | nil => simp [FieldsKept]
  | cons field fields ih => simp [FieldsKept, ih, and_assoc]

theorem textsKept_str {s : String} : TextsKept (.str s) ↔ Text.IsKept s.toList := by simp [TextsKept]

theorem textsKept_arr {items : List Json} : TextsKept (.arr items) ↔ ∀ item ∈ items, TextsKept item := by
  simp [TextsKept, itemsKept_iff]

theorem textsKept_obj {fields : Fields} :
    TextsKept (.obj fields) ↔ ∀ field ∈ fields, Text.IsKept field.1.toList ∧ TextsKept field.2 := by
  simp [TextsKept, fieldsKept_iff]

mutual

theorem IsData.textsKept : ∀ {value : Json}, IsData value → TextsKept value
  | .null, _ => by simp [TextsKept]
  | .bool _, _ => by simp [TextsKept]
  | .int _, _ => by simp [TextsKept]
  | .float _, _ => by simp [TextsKept]
  | .str _, h => textsKept_str.2 (isData_str.1 h)
  | .arr items, h => by
    rw [IsData] at h
    rw [TextsKept]
    exact ItemsData.itemsKept h
  | .obj fields, h => by
    rw [IsData] at h
    rw [TextsKept]
    exact FieldsData.fieldsKept h.2

theorem ItemsData.itemsKept : ∀ {items : List Json}, ItemsData items → ItemsKept items
  | [], _ => trivial
  | item :: items, h => by
    rw [ItemsData] at h
    rw [ItemsKept]
    exact ⟨IsData.textsKept h.1, ItemsData.itemsKept h.2⟩

theorem FieldsData.fieldsKept : ∀ {fields : Fields}, FieldsData fields → FieldsKept fields
  | [], _ => trivial
  | (name, value) :: fields, h => by
    rw [FieldsData] at h
    rw [FieldsKept]
    exact ⟨h.1, IsData.textsKept h.2.1, FieldsData.fieldsKept h.2.2⟩

end

/-! ## Looking fields up -/

theorem mem_of_get? {fields : Fields} {name : String} {value : Json} (h : fields.get? name = some value) :
    (name, value) ∈ fields := by
  induction fields with
  | nil => cases h
  | cons field fields ih =>
    obtain ⟨key, old⟩ := field
    simp only [Fields.get?, List.lookup_cons] at h
    split at h
    next same =>
      rw [beq_iff_eq.1 same, Option.some.inj h]
      exact List.mem_cons_self
    next => exact List.mem_cons_of_mem _ (ih h)

theorem IsData.get? {fields : Fields} (h : IsData (.obj fields)) {name : String} {value : Json}
    (found : fields.get? name = some value) : IsData value :=
  ((isData_obj.1 h).2 _ (mem_of_get? found)).2

theorem TextsKept.get? {fields : Fields} (h : TextsKept (.obj fields)) {name : String} {value : Json}
    (found : fields.get? name = some value) : TextsKept value := (textsKept_obj.1 h _ (mem_of_get? found)).2

/-- Setting a field of a new name adds it at the end. -/
theorem set_of_not_mem {fields : Fields} {name : String} (h : name ∉ fields.map Prod.fst) (value : Json) :
    fields.set name value = fields ++ [(name, value)] := by
  induction fields with
  | nil => rfl
  | cons field fields ih =>
    simp only [List.map_cons, List.mem_cons, not_or] at h
    rw [Fields.set, if_neg (Ne.symm h.1), ih h.2, List.cons_append]

/-! ## Doubles that are numbers -/

mutual

theorem finite_of_isData : ∀ {value : Json}, IsData value → value.finite = value
  | .null, _ => rfl
  | .bool _, _ => rfl
  | .int _, _ => rfl
  | .str _, _ => rfl
  | .float x, h => by
    rw [IsData] at h
    rw [finite, if_pos h]
  | .arr items, h => by
    rw [IsData] at h
    rw [finite, finiteItems_of_isData h]
  | .obj fields, h => by
    rw [IsData] at h
    rw [finite, finiteFields_of_isData h.2]

theorem finiteItems_of_isData : ∀ {items : List Json}, ItemsData items → finiteItems items = items
  | [], _ => rfl
  | item :: items, h => by
    rw [ItemsData] at h
    rw [finiteItems, finite_of_isData h.1, finiteItems_of_isData h.2]

theorem finiteFields_of_isData : ∀ {fields : Fields}, FieldsData fields → finiteFields fields = fields
  | [], _ => rfl
  | (name, value) :: fields, h => by
    rw [FieldsData] at h
    rw [finiteFields, finite_of_isData h.2.1, finiteFields_of_isData h.2.2]

end

theorem itemsDepth_le {items : List Json} {bound : Nat} (h : ∀ item ∈ items, item.depth ≤ bound) :
    itemsDepth items ≤ bound := by
  induction items with
  | nil => exact Nat.zero_le _
  | cons item items ih =>
    rw [itemsDepth]
    exact Nat.max_le.2 ⟨h item List.mem_cons_self, ih fun other ho => h other (List.mem_cons_of_mem _ ho)⟩

end CodeSearch.Json
