import CodeSearch.Query.Basic
import Mathlib.Tactic
/-!
# Lists without repetitions

`firsts` keeps each item once, at its first place: it keeps what is there (`mem_firsts`), what it gives has no
repetitions (`firsts_nodup`), and a list without repetitions stays as it is (`firsts_of_nodup`). Of two lists one behind
the other the second gives what the first has not (`firsts_append`).
-/

namespace CodeSearch

variable {α : Type} [BEq α] [LawfulBEq α]

theorem mem_firsts {a : α} {items : List α} : a ∈ firsts items ↔ a ∈ items := by
  induction items with
  | nil => simp [firsts]
  | cons b rest ih =>
    rw [firsts, List.mem_cons, List.mem_cons, List.mem_filter, ih]
    by_cases same : a = b
    · simp [same]
    · simp [same]

theorem firsts_nodup (items : List α) : (firsts items).Nodup := by
  induction items with
  | nil => simp [firsts]
  | cons b rest ih =>
    rw [firsts, List.nodup_cons]
    exact ⟨by simp, ih.filter _⟩

theorem firsts_of_nodup {items : List α} (h : items.Nodup) : firsts items = items := by
  induction items with
  | nil => rfl
  | cons b rest ih =>
    rw [List.nodup_cons] at h
    rw [firsts, ih h.2, List.filter_eq_self.2]
    intro a ha
    have : a ≠ b := by
      rintro rfl
      exact h.1 ha
    simpa using this

/-- Items come in the order of their first places. -/
theorem firsts_pairwise_idxOf (items : List α) : (firsts items).Pairwise fun a b => items.idxOf a < items.idxOf b := by
  induction items with
  | nil => exact .nil
  | cons first items ih =>
    have apart {a : α} (h : a ∈ (firsts items).filter fun b => !(b == first)) : a ≠ first := by
      simpa using (List.mem_filter.1 h).2
    rw [firsts, List.pairwise_cons]
    refine ⟨fun a ha => ?_, (ih.filter _).imp_of_mem fun {a b} ha hb before => ?_⟩
    · rw [List.idxOf_cons_self, List.idxOf_cons_ne _ (apart ha).symm]
      omega
    · rw [List.idxOf_cons_ne _ (apart ha).symm, List.idxOf_cons_ne _ (apart hb).symm]
      omega

/-- Taking repetitions out twice is taking them out once. -/
theorem firsts_firsts (items : List α) : firsts (firsts items) = firsts items := firsts_of_nodup (firsts_nodup items)

theorem firsts_append (a b : List α) :
    firsts (a ++ b) = firsts a ++ (firsts b).filter fun item => !a.contains item := by
  induction a with
  | nil => simp [firsts]
  | cons first a ih =>
    rw [List.cons_append, firsts, ih, List.filter_append, List.filter_filter, firsts, List.cons_append]
    congr 2
    refine List.filter_congr fun item _ => ?_
    by_cases same : item = first <;> simp [same]

/-- Repetitions may be taken out of two lists before they are put together. -/
theorem firsts_append_firsts (a b : List α) : firsts (firsts a ++ firsts b) = firsts (a ++ b) := by
  rw [firsts_append, firsts_append, firsts_firsts, firsts_firsts]
  congr 1
  refine List.filter_congr fun item _ => ?_
  rw [Bool.eq_iff_iff]
  simp [mem_firsts]

end CodeSearch
