import CodeSearch.Proofs.Action
import CodeSearch.Proofs.Json.Access
/-!
# How deeply values are nested

Taking a value apart and making a record of it goes no deeper than the value is nested (`fieldsDepth_toRecord`), and
neither does putting null in the place of numbers that are not finite (`depth_finite`), which is done once and for all
(`finite_finite`).
-/

namespace CodeSearch.Json

mutual

theorem depth_finite : ∀ value : Json, value.finite.depth = value.depth
  | .null | .bool _ | .int _ | .str _ => rfl
  | .float x => by
    rw [finite]
    split <;> rfl
  | .arr items => by rw [finite, depth, depth, itemsDepth_finite items]
  | .obj fields => by rw [finite, depth, depth, fieldsDepth_finite fields]

theorem itemsDepth_finite : ∀ items : List Json, itemsDepth (finiteItems items) = itemsDepth items
  | [] => rfl
  | item :: items => by rw [finiteItems, itemsDepth, itemsDepth, depth_finite item, itemsDepth_finite items]

theorem fieldsDepth_finite : ∀ fields : Fields, fieldsDepth (finiteFields fields) = fieldsDepth fields
  | [] => rfl
  | (name, value) :: fields => by
    rw [finiteFields, fieldsDepth, fieldsDepth, depth_finite value, fieldsDepth_finite fields]

end

mutual

theorem finite_finite : ∀ value : Json, value.finite.finite = value.finite
  | .null | .bool _ | .int _ | .str _ => rfl
  | .float x => by
    rw [finite]
    split
    next finite => rw [Json.finite, if_pos finite]
    next => rfl
  | .arr items => by rw [finite, finite, finiteItems_finiteItems items]
  | .obj fields => by rw [finite, finite, finiteFields_finiteFields fields]

theorem finiteItems_finiteItems : ∀ items : List Json, finiteItems (finiteItems items) = finiteItems items
  | [] => rfl
  | item :: items => by rw [finiteItems, finiteItems, finite_finite item, finiteItems_finiteItems items]

theorem finiteFields_finiteFields : ∀ fields : Fields, finiteFields (finiteFields fields) = finiteFields fields
  | [] => rfl
  | (name, value) :: fields => by
    rw [finiteFields, finiteFields, finite_finite value, finiteFields_finiteFields fields]

end

theorem fieldsDepth_le {fields : Fields} {bound : Nat} :
    fieldsDepth fields ≤ bound ↔ ∀ field ∈ fields, field.2.depth ≤ bound := by
  induction fields with
  | nil => simp [fieldsDepth]
  | cons field fields ih => simp [fieldsDepth, ih]

theorem le_itemsDepth {items : List Json} {item : Json} (h : item ∈ items) : item.depth ≤ itemsDepth items := by
  induction items with
  | nil => cases h
  | cons first items ih =>
    rw [itemsDepth]
    rcases List.mem_cons.1 h with rfl | later
    · exact Nat.le_max_left _ _
    · exact Nat.le_trans (ih later) (Nat.le_max_right _ _)

theorem depth_pos (value : Json) : 0 < value.depth := by
  cases value <;> simp [depth]

theorem fieldsDepth_set {fields : Fields} {bound : Nat} (h : fieldsDepth fields ≤ bound) (name : String) {value : Json}
    (small : value.depth ≤ bound) : fieldsDepth (fields.set name value) ≤ bound := by
  rw [fieldsDepth_le] at h ⊢
  intro field hf
  rcases mem_set hf with old | rfl
  · exact h field old
  · exact small

theorem depth_elements {value : Json} {items : List Json} (taken : value.elements = .ok items) :
    ∀ item ∈ items, item.depth ≤ value.depth := by
  cases value with
  | arr others =>
    injection taken with taken
    subst taken
    exact fun item hi => Nat.le_succ_of_le (le_itemsDepth hi)
  | str s =>
    injection taken with taken
    subst taken
    intro item hi
    obtain ⟨code, _, rfl⟩ := List.mem_map.1 hi
    exact Nat.le_refl 1
  | obj fields =>
    injection taken with taken
    subst taken
    intro item hi
    obtain ⟨field, _, rfl⟩ := List.mem_map.1 hi
    exact depth_pos _
  | _ => cases taken

theorem fieldsDepth_setPairs {bound : Nat} {pairs : List Json} (h : ∀ pair ∈ pairs, pair.depth ≤ bound)
    {before fields : Fields} (first : fieldsDepth before ≤ bound) (made : setPairs before pairs = .ok fields) :
    fieldsDepth fields ≤ bound := by
  induction pairs generalizing before with
  | nil =>
    injection made with made
    exact made ▸ first
  | cons pair pairs ih =>
    have others := fun p hp => h p (List.mem_cons_of_mem _ hp)
    rw [setPairs] at made
    obtain ⟨items, taken, made⟩ := exists_of_bind_ok made
    simp only [bind, Except.bind] at made
    split at made
    next name value =>
      have small : value.depth ≤ bound :=
        Nat.le_trans (depth_elements taken value (by simp)) (h pair List.mem_cons_self)
      split at made
      · cases made
      · split at made
        next => exact ih others (fieldsDepth_set first _ small) made
        next => exact ih others first made
    next => cases made

theorem fieldsDepth_toRecord {value : Json} {fields : Fields} (made : value.toRecord = .ok fields) :
    fieldsDepth fields ≤ value.depth := by
  have pairs (made : (do setPairs [] (← value.elements)) = Except.ok fields) : fieldsDepth fields ≤ value.depth := by
    obtain ⟨items, taken, made⟩ := exists_of_bind_ok made
    exact fieldsDepth_setPairs (depth_elements taken) (Nat.zero_le _) made
  cases value with
  | obj others =>
    injection made with made
    rw [made, depth]
    exact Nat.le_succ _
  | _ => exact pairs made

end CodeSearch.Json
