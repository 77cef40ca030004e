import CodeSearch.Scalar
import Mathlib.Analysis.Real.Sqrt
import Mathlib.Analysis.SpecialFunctions.Log.Basic
import Mathlib.Tactic
/-!
# Scores as real numbers

The reals are numbers that scores can be made of, and every one of them is a number. So what is sorted by real scores
has all its items (`perm_sortDescending`) in descending order (`pairwise_sortDescending`).
-/

namespace CodeSearch

/-- The nearest integer, a half going to the even neighbour. -/
noncomputable def nearestEven (x : ℝ) : ℤ :=
  if Int.fract x < 1 / 2 ∨ Int.fract x = 1 / 2 ∧ Even ⌊x⌋ then ⌊x⌋ else ⌊x⌋ + 1

/-- The number rounded to nine places. -/
noncomputable def roundedTo9 (x : ℝ) : ℝ := nearestEven (x * 10 ^ 9) / 10 ^ 9

open Classical in
noncomputable instance : Scalar ℝ where
  ofInt n := n
  log := Real.log
  sqrt := Real.sqrt
  less a b := decide (a < b)
  same a b := decide (a = b)
  ceiling9 x := .ok ⌈roundedTo9 x⌉
  floor9 x := .ok ⌊roundedTo9 x⌋

/-- Division of reals, and not the one of scores made of them. A module that writes quotients makes this instance its
own. -/
@[reducible] noncomputable def divReal : Div ℝ := Real.instDivInvMonoid.toDiv

theorem nearestEven_nonneg {x : ℝ} (h : 0 ≤ x) : 0 ≤ nearestEven x := by
  have floor : 0 ≤ ⌊x⌋ := Int.floor_nonneg.2 h
  unfold nearestEven
  split <;> omega

theorem roundedTo9_nonneg {x : ℝ} (h : 0 ≤ x) : 0 ≤ roundedTo9 x := by
  have rounded : (0 : ℝ) ≤ nearestEven (x * 10 ^ 9) := Int.cast_nonneg (nearestEven_nonneg (by positivity))
  exact div_nonneg rounded (by positivity)

namespace Scalar

@[simp] theorem less_iff {a b : ℝ} : less a b = true ↔ a < b := decide_eq_true_iff

@[simp] theorem same_iff {a b : ℝ} : same a b = true ↔ a = b := decide_eq_true_iff

@[simp] theorem zero_real : (zero : ℝ) = 0 := Int.cast_zero

@[simp] theorem one_real : (one : ℝ) = 1 := Int.cast_one

theorem isNumber_real (x : ℝ) : isNumber x = true := same_iff.2 rfl

section Sorting
variable {β : Type} (key : β → ℝ) (items : List β)

theorem sortDescending_real : sortDescending key items = items.mergeSort fun a b => !less (key a) (key b) := by
  have all : items.all (fun item => isNumber (key item)) = true := List.all_eq_true.2 fun item _ => isNumber_real _
  rw [sortDescending, if_pos all]

theorem perm_sortDescending : (sortDescending key items).Perm items := by
  rw [sortDescending_real]
  exact List.mergeSort_perm items _

theorem not_less_iff (a b : β) : (!less (key a) (key b)) = true ↔ key b ≤ key a := by
  rw [Bool.not_eq_true', ← Bool.not_eq_true, less_iff, not_lt]

theorem not_less_trans (a b c : β) (h : (!less (key a) (key b)) = true) (h' : (!less (key b) (key c)) = true) :
    (!less (key a) (key c)) = true := by
  rw [not_less_iff] at *
  exact h'.trans h

theorem not_less_total (a b : β) : ((!less (key a) (key b)) || !less (key b) (key a)) = true := by
  rw [Bool.or_eq_true, not_less_iff, not_less_iff]
  exact le_total _ _

theorem pairwise_sortDescending : (sortDescending key items).Pairwise fun a b => key b ≤ key a := by
  rw [sortDescending_real]
  exact (List.pairwise_mergeSort (not_less_trans key) (not_less_total key) items).imp fun {a b} =>
    (not_less_iff key a b).1

theorem sortDescending_nil : sortDescending key [] = [] := by
  rw [sortDescending_real, List.mergeSort_nil]

/-- What is made of items can be sorted as the items are. -/
theorem sortDescending_map {γ : Type} (f : γ → β) (items : List γ) :
    sortDescending key (items.map f) = (sortDescending (fun item => key (f item)) items).map f := by
  rw [sortDescending_real, sortDescending_real]
  refine (List.map_mergeSort ?_).symm
  exact fun _ _ _ _ => rfl

/-- Items of one key stay in their order. -/
theorem filter_sortDescending (score : ℝ) :
    (sortDescending key items).filter (fun item => same (key item) score)
      = items.filter fun item => same (key item) score := by
  have equal : (items.filter fun item => same (key item) score).Pairwise fun a b =>
      (!less (key a) (key b)) = true := by
    refine List.pairwise_of_forall_mem_list fun a ha b hb => ?_
    rw [not_less_iff, same_iff.1 (List.mem_filter.1 ha).2, same_iff.1 (List.mem_filter.1 hb).2]
  have kept := List.sublist_mergeSort (not_less_trans key) (not_less_total key) equal List.filter_sublist
  rw [← sortDescending_real] at kept
  have filtered := kept.filter fun item => same (key item) score
  rw [List.filter_filter] at filtered
  simp only [Bool.and_self] at filtered
  exact (filtered.eq_of_length ((perm_sortDescending key items).filter _).length_eq.symm).symm

end Sorting

end Scalar

/-! ## Some items of a list -/

theorem sublist_upTo {β : Type} (count : ℤ) (items : List β) : (upTo count items).Sublist items := by
  unfold upTo
  split <;> exact List.take_sublist _ _

theorem mem_of_mem_upTo {β : Type} {count : ℤ} {items : List β} {item : β} (h : item ∈ upTo count items) :
    item ∈ items := (sublist_upTo count items).subset h

/-- What is made of some items keeps their labels in order. -/
theorem filterMap_sublist {β γ δ : Type} {f : β → Option γ} {label : γ → δ} {key : β → δ}
    (same : ∀ item made, f item = some made → label made = key item) (items : List β) :
    ((items.filterMap f).map label).Sublist (items.map key) := by
  induction items with
  | nil => exact .slnil
  | cons item items ih =>
    rw [List.filterMap_cons, List.map_cons]
    cases first : f item with
    | none => exact ih.cons _
    | some made =>
      rw [List.map_cons, same item made first]
      exact ih.cons_cons _

theorem map_subperm {β γ : Type} {items others : List β} (h : items.Subperm others) (f : β → γ) :
    (items.map f).Subperm (others.map f) := by
  obtain ⟨between, perm, sublist⟩ := h
  exact ⟨between.map f, perm.map f, sublist.map f⟩

theorem nodup_of_subperm {β : Type} {items others : List β} (h : items.Subperm others) (once : others.Nodup) :
    items.Nodup := by
  obtain ⟨_, perm, sublist⟩ := h
  exact perm.nodup_iff.1 (once.sublist sublist)

theorem upTo_map {β γ : Type} (count : ℤ) (f : β → γ) (items : List β) :
    upTo count (items.map f) = (upTo count items).map f := by
  unfold upTo
  split <;> simp

theorem upTo_natCast {β : Type} (count : ℕ) (items : List β) : upTo count items = items.take count := by
  rw [upTo, if_pos (Int.natCast_nonneg count), Int.toNat_natCast]

/-- A larger number takes further items. -/
theorem upTo_isPrefix {β : Type} {few many : ℤ} (positive : 0 ≤ few) (le : few ≤ many) (items : List β) :
    upTo few items <+: upTo many items := by
  rw [upTo, upTo, if_pos positive, if_pos (positive.trans le)]
  exact List.take_prefix_take_left (by omega)

end CodeSearch
