import CodeSearch.Proofs.Scalar
/-!
# Rankings

Items in descending order of a number, those of one number in the order in which they came (`IsRanking`). There is one
such order only (`IsRanking.unique`), and sorting gives it (`isRanking_sortDescending`). So it makes no difference
whether items are picked before they are sorted or afterwards (`IsRanking.filter`).
-/

namespace CodeSearch

variable {β γ : Type}

/-- Items in descending order of a number, those of one number in the order in which they came. -/
structure IsRanking (key : β → ℝ) (items ranked : List β) : Prop where
  perm : ranked.Perm items
  descending : ranked.Pairwise fun a b => key b ≤ key a
  ties : ∀ number, ranked.filter (fun item => Scalar.same (key item) number)
    = items.filter fun item => Scalar.same (key item) number

theorem isRanking_sortDescending (key : β → ℝ) (items : List β) :
    IsRanking key items (Scalar.sortDescending key items) :=
  ⟨Scalar.perm_sortDescending key items, Scalar.pairwise_sortDescending key items, Scalar.filter_sortDescending key items⟩

namespace IsRanking

variable {key : β → ℝ} {items ranked : List β}

theorem of_pairwise (descending : items.Pairwise fun a b => key b ≤ key a) : IsRanking key items items :=
  ⟨.refl _, descending, fun _ => rfl⟩

/-- Two lists in descending order that agree on the items of each number are the same. -/
theorem eq_of_ties {xs ys : List β} (descending : xs.Pairwise fun a b => key b ≤ key a)
    (descending' : ys.Pairwise fun a b => key b ≤ key a)
    (ties : ∀ number, xs.filter (fun item => Scalar.same (key item) number)
      = ys.filter fun item => Scalar.same (key item) number) : xs = ys := by
  induction xs generalizing ys with
  | nil =>
    refine (List.eq_nil_iff_forall_not_mem.2 fun y hy => ?_).symm
    have kept : y ∈ ys.filter fun item => Scalar.same (key item) (key y) :=
      List.mem_filter.2 ⟨hy, Scalar.same_iff.2 rfl⟩
    rw [← ties] at kept
    cases kept
  | cons x xs ih =>
    have mem_iff (item : β) : item ∈ x :: xs ↔ item ∈ ys := by
      have kept := congrArg (item ∈ ·) (ties (key item))
      simpa [List.mem_filter] using kept
    cases ys with
    | nil => exact absurd ((mem_iff x).1 List.mem_cons_self) List.not_mem_nil
    | cons y ys =>
      obtain ⟨above, rest⟩ := List.pairwise_cons.1 descending
      obtain ⟨above', rest'⟩ := List.pairwise_cons.1 descending'
      -- each list begins with a greatest item, and so both begin with one of the same number
      have top : key x = key y := by
        refine le_antisymm ?_ ?_
        · rcases List.mem_cons.1 ((mem_iff x).1 List.mem_cons_self) with rfl | later
          · exact le_rfl
          · exact above' x later
        · rcases List.mem_cons.1 ((mem_iff y).2 List.mem_cons_self) with rfl | later
          · exact le_rfl
          · exact above y later
      have first := ties (key x)
      simp only [List.filter_cons, Scalar.same_iff.2 (rfl : key x = key x), Scalar.same_iff.2 top.symm, if_true,
        List.cons.injEq] at first
      obtain ⟨rfl, _⟩ := first
      rw [ih rest rest' fun number => ?_]
      have same := ties number
      rw [List.filter_cons, List.filter_cons] at same
      split at same
      · exact List.cons.inj same |>.2
      · exact same

/-- A list has one ranking only. -/
theorem unique {other : List β} (h : IsRanking key items ranked) (h' : IsRanking key items other) : ranked = other :=
  eq_of_ties h.descending h'.descending fun number => (h.ties number).trans (h'.ties number).symm

/-- What is picked of a ranking is the ranking of what is picked. -/
theorem filter (h : IsRanking key items ranked) (keep : β → Bool) :
    IsRanking key (items.filter keep) (ranked.filter keep) := by
  refine ⟨h.perm.filter keep, h.descending.sublist List.filter_sublist, fun number => ?_⟩
  rw [List.filter_comm, h.ties, List.filter_comm]

/-- Of a ranking, the items that come before the first that falls short of a number are those that do not. -/
theorem takeWhile_eq_filter (h : IsRanking key items ranked) (least : ℝ) :
    (ranked.takeWhile fun item => !Scalar.less (key item) least)
      = ranked.filter fun item => !Scalar.less (key item) least := by
  have descending := h.descending
  clear h
  induction ranked with
  | nil => rfl
  | cons a ranked ih =>
    obtain ⟨above, rest⟩ := List.pairwise_cons.1 descending
    rw [List.takeWhile_cons, List.filter_cons]
    split
    next => rw [ih rest]
    next short =>
      refine (List.filter_eq_nil_iff.2 fun b hb => ?_).symm
      have short : key a < least := by simpa [Scalar.less_iff] using short
      simpa [Scalar.less_iff] using (above b hb).trans_lt short

theorem mem_iff (h : IsRanking key items ranked) {item : β} : item ∈ ranked ↔ item ∈ items := h.perm.mem_iff

end IsRanking

end CodeSearch
