import CodeSearch.Proofs.Action
import CodeSearch.Vector.Index
/-!
# The width of vectors

Vectors that are to be inserted are compared with the width of the index or, as long as it has none, with that of the
first of them (`expectedWidth`). They pass if all have this width (`checkWidths_of_hasWidth`). If one has not, the first
such is told, wherever it stands (`checkWidths_error`).
-/

namespace CodeSearch

theorem Json.same_int_iff {n : Int} {value : Json} : (Json.int n).same value = true ↔ value.whole = .int n := by
  have leaf : (Json.int n).same value = sameLeaf (.int n) value := by cases value <;> simp only [same]
  have number : (Json.int n).whole = .int n := rfl
  rw [leaf, sameLeaf, number]
  cases value.whole <;> simp [eq_comm]

/-- A value stands for one number at most. -/
theorem Json.same_int_inj {m n : Int} {value : Json} (hm : (Json.int m).same value = true)
    (hn : (Json.int n).same value = true) : m = n := by
  have equal := (same_int_iff.1 hm).symm.trans (same_int_iff.1 hn)
  injection equal

theorem Json.same_int_self (n : Int) : (Json.int n).same (.int n) = true := same_int_iff.2 rfl

namespace VectorIndex

variable {α : Type}

/-- The width that vectors are compared with: the one that is known or, if none is, that of the first of them. -/
def expectedWidth (dimension : Json) : List (List α) → Json
  | [] => dimension
  | vector :: _ => if dimension.isNull then .int vector.length else dimension

/-- A vector has a width. -/
def HasWidth (width : Json) (vector : List α) : Prop := (Json.int vector.length).same width = true

instance (width : Json) (vector : List α) : Decidable (HasWidth width vector) := inferInstanceAs (Decidable (_ = true))

theorem HasWidth.length_eq {width : Json} {a b : List α} (ha : HasWidth width a) (hb : HasWidth width b) :
    a.length = b.length := Int.ofNat_inj.1 (Json.same_int_inj ha hb)

/-- Where a vector has the width, one is known. -/
theorem HasWidth.known {width : Json} {vector : List α} (h : HasWidth width vector) : width.isNull = false := by
  cases width with
  | null => exact absurd (Json.same_int_iff.1 h) nofun
  | _ => rfl

theorem expectedWidth_of_known {dimension : Json} (known : dimension.isNull = false) (vectors : List (List α)) :
    expectedWidth dimension vectors = dimension := by
  cases vectors with
  | nil => rfl
  | cons vector vectors => rw [expectedWidth, known, if_neg Bool.false_ne_true]

/-- Where no width is known the first vector has the one that is expected. -/
theorem expectedWidth_cons (dimension : Json) (vector : List α) (vectors : List (List α)) :
    (expectedWidth dimension (vector :: vectors)).isNull = false := by
  rw [expectedWidth]
  cases known : dimension.isNull with
  | true => rfl
  | false => exact known

/-- Vectors of one length have the width that is expected, if no other one is known. -/
theorem widths_expected {width : Nat} {dimension : Json}
    (known : dimension = .null ∨ (Json.int width).same dimension = true) {vectors : List (List α)}
    (wide : ∀ vector ∈ vectors, vector.length = width) :
    (expectedWidth dimension vectors = .null ∨ (Json.int width).same (expectedWidth dimension vectors) = true) ∧
      ∀ vector ∈ vectors, HasWidth (expectedWidth dimension vectors) vector := by
  cases vectors with
  | nil => exact ⟨known, List.forall_mem_nil _⟩
  | cons first vectors =>
    have expected : (Json.int width).same (expectedWidth dimension (first :: vectors)) = true := by
      rw [expectedWidth]
      split
      next => rw [wide first List.mem_cons_self, Json.same_int_self]
      next other =>
        refine known.resolve_left ?_
        rintro rfl
        exact other rfl
    exact ⟨.inr expected, fun vector hv => by rw [HasWidth, wide vector hv, expected]⟩

section Check
variable {dimension : Json} {c : Chunk} {chunks : List Chunk}

theorem checkWidths_cons (filled : c.checkFilled = .ok ()) (vector : List α) (vectors : List (List α))
    (rest : List (Chunk × Tensor α)) :
    checkWidths dimension ((c, .ofList vector) :: rest)
      = if HasWidth (expectedWidth dimension (vector :: vectors)) vector then
          checkWidths (expectedWidth dimension (vector :: vectors)) rest
        else .error (.dimensionMismatch (expectedWidth dimension (vector :: vectors)) (.int vector.length)) := by
  have length : (Tensor.ofList vector).length = .ok vector.length := by
    rw [Tensor.ofList, Tensor.length, List.length_map]
  rw [checkWidths, filled, length]
  cases dimension with
  | null =>
    have first : expectedWidth .null (vector :: vectors) = .int vector.length := rfl
    have wide : HasWidth (.int vector.length) vector := Json.same_int_self _
    rw [first, if_pos wide]
    rfl
  | _ => rfl

theorem checkWidths_of_hasWidth (filled : ∀ c ∈ chunks, c.checkFilled = .ok ()) {vectors : List (List α)}
    (wide : ∀ vector ∈ vectors, HasWidth (expectedWidth dimension vectors) vector)
    (count : chunks.length = vectors.length) :
    checkWidths dimension (chunks.zip (vectors.map Tensor.ofList)) = .ok (expectedWidth dimension vectors) := by
  induction chunks generalizing vectors dimension with
  | nil =>
    obtain rfl := List.length_eq_zero_iff.1 count.symm
    rfl
  | cons c chunks ih =>
    cases vectors with
    | nil => cases count
    | cons vector vectors =>
      have later := expectedWidth_of_known (expectedWidth_cons dimension vector vectors) vectors
      rw [List.map_cons, List.zip_cons_cons, checkWidths_cons (filled c List.mem_cons_self) vector vectors,
        if_pos (wide vector List.mem_cons_self), ih (fun o ho => filled o (List.mem_cons_of_mem _ ho)), later]
      · rw [later]
        exact fun v hv => wide v (List.mem_cons_of_mem _ hv)
      · exact Nat.succ.inj count

theorem checkWidths_error (filled : ∀ c ∈ chunks, c.checkFilled = .ok ()) {vectors : List (List α)}
    (count : chunks.length = vectors.length) {misfit : List α} (there : misfit ∈ vectors)
    (other : ¬ HasWidth (expectedWidth dimension vectors) misfit) :
    ∃ vector ∈ vectors, ¬ HasWidth (expectedWidth dimension vectors) vector ∧
      checkWidths dimension (chunks.zip (vectors.map Tensor.ofList))
        = .error (.dimensionMismatch (expectedWidth dimension vectors) (.int vector.length)) := by
  induction chunks generalizing vectors dimension with
  | nil =>
    obtain rfl := List.length_eq_zero_iff.1 count.symm
    cases there
  | cons c chunks ih =>
    cases vectors with
    | nil => cases count
    | cons vector vectors =>
      rw [List.map_cons, List.zip_cons_cons, checkWidths_cons (filled c List.mem_cons_self) vector vectors]
      split
      next wide =>
        have later := expectedWidth_of_known (expectedWidth_cons dimension vector vectors) vectors
        have behind : misfit ∈ vectors := (List.mem_cons.1 there).resolve_left fun same => other (same ▸ wide)
        obtain ⟨v, hv, narrow, failed⟩ := ih (fun o ho => filled o (List.mem_cons_of_mem _ ho)) (Nat.succ.inj count)
          behind (later.symm ▸ other)
        rw [later] at narrow failed
        exact ⟨v, List.mem_cons_of_mem _ hv, narrow, failed⟩
      next narrow => exact ⟨vector, List.mem_cons_self, narrow, rfl⟩

/-- Chunks and vectors that pass are filled and have the width that is then known. -/
theorem hasWidth_of_checkWidths {vectors : List (List α)} {dimension' : Json}
    (count : chunks.length = vectors.length)
    (checked : checkWidths dimension (chunks.zip (vectors.map Tensor.ofList)) = .ok dimension') :
    dimension' = expectedWidth dimension vectors ∧ (∀ c ∈ chunks, c.checkFilled = .ok ()) ∧
      ∀ vector ∈ vectors, HasWidth dimension' vector := by
  induction chunks generalizing vectors dimension with
  | nil =>
    obtain rfl := List.length_eq_zero_iff.1 count.symm
    injection checked with checked
    exact ⟨checked.symm, List.forall_mem_nil _, List.forall_mem_nil _⟩
  | cons c chunks ih =>
    cases vectors with
    | nil => cases count
    | cons vector vectors =>
      rw [List.map_cons, List.zip_cons_cons] at checked
      have filled : c.checkFilled = .ok () := by
        rw [checkWidths] at checked
        obtain ⟨_, filled, _⟩ := exists_of_bind_ok checked
        exact filled
      rw [checkWidths_cons filled vector vectors] at checked
      split at checked
      next wide =>
        obtain ⟨same, rest, others⟩ := ih (Nat.succ.inj count) checked
        rw [expectedWidth_of_known (expectedWidth_cons dimension vector vectors)] at same
        exact ⟨same, List.forall_mem_cons.2 ⟨filled, rest⟩, List.forall_mem_cons.2 ⟨same ▸ wide, others⟩⟩
      next => cases checked

end Check

end VectorIndex

end CodeSearch
