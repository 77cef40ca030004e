import CodeSearch.Proofs.Chunk.Accepted
import CodeSearch.Proofs.Chunk.Checks
import CodeSearch.Proofs.Json.Depth
/-!
# Chunks that a store takes, read again

In a chunk that a store takes all fields but the id and the content may have been set without a check, and then its record
need not make a chunk again. If it makes one, that has the id and the content of the chunk (`reread?_storable`). Where
nothing was set without a check and the lines are in order, it makes the chunk itself, with null in the place of numbers
that are not finite (`reread?_of_finite`).
-/

namespace CodeSearch.Chunk

open Record

variable {c c' : Chunk}

/-! ## The record of a chunk -/

/-- A field that is of its kind stands in the record as it is. -/
theorem get?_record {name : String} (h : c.unchecked.get? name = none) : c.record.get? name = c.typedRecord.get? name := by
  rw [record]
  generalize c.typedRecord = fields
  generalize c.unchecked = others at h
  induction others generalizing fields with
  | nil => rfl
  | cons field others ih =>
    obtain ⟨other, value⟩ := field
    rw [Json.Fields.get?, List.lookup_eq_none_iff] at h
    have differ : name ≠ other := by simpa using h (other, value) List.mem_cons_self
    have later : Json.Fields.get? others name = none :=
      List.lookup_eq_none_iff.2 fun field hf => h field (List.mem_cons_of_mem _ hf)
    rw [List.foldl_cons, ih _ later, Json.get?_set_of_ne differ]

/-- The chunk that the record of a chunk makes, if it makes one. -/
def reread? (c : Chunk) : Option Chunk := (ofJson c.json).toOption

theorem reread?_eq_some : c.reread? = some c' ↔ ofJson c.json = .ok c' := by
  rw [reread?]
  cases ofJson c.json <;> simp [Except.toOption]

/-- A chunk that is read again is stored under the same id with the same content. -/
theorem reread?_storable (h : c.IsStorable) (again : c.reread? = some c') :
    c'.id = c.id ∧ c'.content = c.content ∧ c'.IsStorable := by
  rw [reread?_eq_some, json, ofJson_obj] at again
  obtain ⟨id, content, _, _, _, _, _, _, _, _, _, _, _, _, checked⟩ := read_good (read_of_ofRecord again)
  have there {name reason s t : String} (differ : name ≠ "kind") (typed : c.unchecked.get? name = none)
      (value : c.typedRecord.get? name = some (.str t))
      (read : required name (notBlank reason) (nameKind c.record) = .good s) : s = t ∧ Text.allBlank s = false := by
    obtain ⟨found, at', text⟩ := required_good read
    obtain ⟨rfl, filled⟩ := notBlank_good text
    rw [get?_nameKind differ, get?_record typed, value] at at'
    injection at' with same
    injection same with same
    exact ⟨same.symm, filled⟩
  obtain ⟨sameId, idFilled⟩ := there (by decide) h.id_text rfl id
  obtain ⟨sameContent, contentFilled⟩ := there (by decide) h.content_text rfl content
  have none (name : String) : c'.unchecked.get? name = none := by
    rw [checked]
    rfl
  exact ⟨sameId, sameContent, none _, none _, idFilled, contentFilled⟩

/-! ## Numbers that are not finite -/

/-- The chunk with null in the place of numbers that are not finite in its data. -/
def finite (c : Chunk) : Chunk := { c with extraMetadata := Json.finiteFields c.extraMetadata }

theorem json_finite (c : Chunk) : c.finite.json = c.json := by
  have typed : c.finite.typedRecord = c.typedRecord := by
    simp only [typedRecord, finite, Json.finiteFields_finiteFields]
  rw [json, json, record, record, typed]
  rfl

theorem finite_of_wellRead (h : c.WellRead) : c.finite = c := by
  have extra : Json.finiteFields c.extraMetadata = c.extraMetadata :=
    Json.finiteFields_of_isData (by have := h.extraMetadata; rw [Json.IsData] at this; exact this.2)
  rw [finite, extra]

/-- Where all fields are of their kinds and the lines are in order, the chunk is made again, but for such numbers. -/
theorem reread?_of_finite (h : c.finite.WellRead) (order : c.InOrder) : c.reread? = some c.finite := by
  rw [reread?_eq_some, ← json_finite]
  exact ofJson_json h order

/-! ## Depth -/

theorem depth_uncheckedJson (name : String) (value : Json) : (uncheckedJson name value).depth ≤ value.depth + 1 := by
  have other : (if mappingNames.contains name then
      (value.toRecord.toOption.map fun fields => .obj (Json.finiteFields fields)).getD .null
      else value.finite).depth ≤ value.depth + 1 := by
    split
    · cases made : value.toRecord with
      | error fault => exact Nat.le_add_left _ _
      | ok fields =>
        change (Json.obj (Json.finiteFields fields)).depth ≤ _
        rw [Json.depth, Json.fieldsDepth_finite]
        exact Nat.succ_le_succ (Json.fieldsDepth_toRecord made)
    · rw [Json.depth_finite]
      exact Nat.le_succ _
  cases value with
  | bool b =>
    rw [uncheckedJson]
    split <;> exact Nat.le_add_left _ _
  | _ => exact other

theorem fieldsDepth_record (h : c.IsShallow) (beside : Json.fieldsDepth c.unchecked ≤ metadataDepth) :
    Json.fieldsDepth c.record ≤ metadataDepth + 1 := by
  have typed := fieldsDepth_typedRecord h
  rw [record]
  generalize c.typedRecord = fields at typed
  generalize c.unchecked = others at beside
  induction others generalizing fields with
  | nil => exact typed
  | cons field others ih =>
    obtain ⟨name, value⟩ := field
    rw [Json.fieldsDepth, Nat.max_le] at beside
    have small := Nat.le_trans (depth_uncheckedJson name value) (Nat.succ_le_succ beside.1)
    exact ih _ (Json.fieldsDepth_set typed name small) beside.2

/-- A stored record is nested hardly deeper than what is in it. -/
theorem depth_stored {record : Json} (h : c.stored = .ok record) : record = c.json ∧ c.json.depth ≤ metadataDepth + 2 := by
  rw [stored] at h
  split at h
  next => cases h
  next =>
    split at h
    next shallow =>
      injection h with h
      simp only [Bool.and_eq_true, decide_eq_true_eq] at shallow
      exact ⟨h.symm, Nat.succ_le_succ (fieldsDepth_record shallow.1 shallow.2)⟩
    next => cases h

end CodeSearch.Chunk
