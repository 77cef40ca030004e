import CodeSearch.Json.Access
import CodeSearch.Proofs.Json.Data
/-!
# Taking data apart

What is taken out of a value that texts can hold is again such a value: its elements (`isData_elements`) and the
fields of the record that it makes (`isData_toRecord`).
-/

namespace CodeSearch.Json

/-- Setting a field keeps every name once. -/
theorem map_fst_set (fields : Fields) (name : String) (value : Json) :
    (fields.set name value).map Prod.fst
      = if name ∈ fields.map Prod.fst then fields.map Prod.fst else fields.map Prod.fst ++ [name] := by
  induction fields with
  | nil => rfl
  | cons field fields ih =>
    obtain ⟨key, old⟩ := field
    rw [Fields.set]
    by_cases same : key = name
    · simp [same]
    · rw [if_neg same, List.map_cons, ih, List.map_cons]
      by_cases there : name ∈ fields.map Prod.fst
      · rw [if_pos there, if_pos (List.mem_cons_of_mem _ there)]
      · rw [if_neg there, if_neg (by rw [List.mem_cons, not_or]; exact ⟨Ne.symm same, there⟩)]
        rfl

theorem mem_set {fields : Fields} {name : String} {value : Json} {field : String × Json}
    (h : field ∈ fields.set name value) : field ∈ fields ∨ field = (name, value) := by
  induction fields with
  | nil => exact .inr (List.mem_singleton.1 h)
  | cons first fields ih =>
    obtain ⟨key, old⟩ := first
    rw [Fields.set] at h
    split at h
    · rcases List.mem_cons.1 h with new | more
      · exact .inr new
      · exact .inl (List.mem_cons_of_mem _ more)
    · rcases List.mem_cons.1 h with same | more
      · exact .inl (same ▸ List.mem_cons_self)
      · exact (ih more).imp_left (List.mem_cons_of_mem _)

/-- Setting a field leaves the others. -/
theorem get?_set_of_ne {fields : Fields} {name other : String} (differ : other ≠ name) (value : Json) :
    (fields.set name value).get? other = fields.get? other := by
  have no : (other == name) = false := by simpa using differ
  induction fields with
  | nil => simp only [Fields.set, Fields.get?, List.lookup_cons, no]
  | cons field fields ih =>
    obtain ⟨key, old⟩ := field
    rw [Fields.set]
    by_cases same : key = name
    · rw [if_pos same, same]
      simp only [Fields.get?, List.lookup_cons, no]
    · rw [if_neg same]
      unfold Fields.get? at ih ⊢
      rw [List.lookup_cons, List.lookup_cons, ih]

theorem IsData.set {fields : Fields} (h : IsData (.obj fields)) {name : String} {value : Json}
    (kept : Text.IsKept name.toList) (data : IsData value) : IsData (.obj (fields.set name value)) := by
  rw [isData_obj] at h ⊢
  constructor
  · rw [map_fst_set]
    split
    next => exact h.1
    next fresh =>
      rw [List.nodup_append]
      refine ⟨h.1, by simp, ?_⟩
      intro a ha b hb e
      rw [List.mem_singleton.1 hb] at e
      exact fresh (e ▸ ha)
  · intro field hf
    rcases mem_set hf with old | rfl
    · exact h.2 field old
    · exact ⟨kept, data⟩

theorem TextsKept.set {fields : Fields} (h : TextsKept (.obj fields)) {name : String} {value : Json}
    (kept : Text.IsKept name.toList) (hv : TextsKept value) : TextsKept (.obj (fields.set name value)) := by
  rw [textsKept_obj] at h ⊢
  intro field hf
  rcases mem_set hf with old | rfl
  · exact h field old
  · exact ⟨kept, hv⟩

theorem isKept_ofCodes {code : Nat} (h : Text.IsCode code) : Text.IsKept (Text.ofCodes [code]).toList :=
  ⟨[code], by simpa using h, by rw [Text.ofCodes, String.toList_ofList]⟩

theorem isData_elements {value : Json} (h : IsData value) {items : List Json} (taken : value.elements = .ok items) :
    ∀ item ∈ items, IsData item := by
  cases value with
  | arr others =>
    injection taken with taken
    rw [← taken]
    exact isData_arr.1 h
  | str s =>
    injection taken with taken
    obtain ⟨codes, all, text⟩ := isData_str.1 h
    have made := Text.codes_flatMap all []
    rw [List.append_nil, ← text] at made
    rw [← taken, made, Text.codes, List.append_nil]
    intro item hi
    obtain ⟨code, mem, rfl⟩ := List.mem_map.1 hi
    exact isData_str.2 (isKept_ofCodes (all code mem))
  | obj fields =>
    injection taken with taken
    rw [← taken]
    intro item hi
    obtain ⟨field, mem, rfl⟩ := List.mem_map.1 hi
    exact isData_str.2 ((isData_obj.1 h).2 field mem).1
  | _ => cases taken

theorem isData_setPairs {pairs : List Json} (h : ∀ pair ∈ pairs, IsData pair) {before fields : Fields}
    (first : IsData (.obj before)) (made : setPairs before pairs = .ok fields) : IsData (.obj fields) := by
  induction pairs generalizing before with
  | nil =>
    injection made with made
    rw [← made]
    exact first
  | cons pair pairs ih =>
    have others := fun p hp => h p (List.mem_cons_of_mem _ hp)
    rw [setPairs] at made
    cases taken : pair.elements with
    | error fault =>
      rw [taken] at made
      cases made
    | ok items =>
      rw [taken] at made
      have all := isData_elements (h pair List.mem_cons_self) taken
      simp only [bind, Except.bind] at made
      split at made
      next name value =>
        have valueData := all value (by simp)
        have nameData := all name (by simp)
        split at made
        · cases made
        · split at made
          next s => exact ih others (first.set (isData_str.1 nameData) valueData) made
          next => exact ih others first made
      next => cases made

theorem isData_toRecord {value : Json} (h : IsData value) {fields : Fields} (made : value.toRecord = .ok fields) :
    IsData (.obj fields) := by
  have pairs (made : (do setPairs [] (← value.elements)) = Except.ok fields) : IsData (.obj fields) := by
    cases taken : value.elements with
    | error fault =>
      rw [taken] at made
      cases made
    | ok items =>
      rw [taken] at made
      exact isData_setPairs (isData_elements h taken) (isData_obj.2 (by simp)) made
  cases value with
  | obj others =>
    injection made with made
    rw [← made]
    exact h
  | _ => exact pairs made

end CodeSearch.Json
