import CodeSearch.Decimal.Shortest
import CodeSearch.Json.Parser
import Mathlib.Tactic
/-!
# Decimal digits

The digits of a natural number read back as that number, and begin with a zero only for zero
(`digitsValue_digitText`, `digitText_head`). `dropZeros` splits off the zeros at the end of them, and the
value of what is left tells how many (`dropZeros_spec`).
-/

namespace CodeSearch.Decimal

open CodeSearch.Json (isDigit)

/-! ## Digits and values -/

theorem digitText_eq (n : Nat) : digitText n = Nat.toDigits 10 n := by
  rw [digitText, Nat.toString_eq_ofList_toDigits, String.toList_ofList]

theorem digitText_ne_nil (n : Nat) : digitText n ≠ [] := by
  rw [digitText_eq]
  exact Nat.toDigits_ne_nil

theorem length_digitText_pos (n : Nat) : 0 < (digitText n).length := by
  rw [digitText_eq]
  exact Nat.length_toDigits_pos

theorem length_digitText_le {n k : Nat} (hk : 0 < k) : (digitText n).length ≤ k ↔ n < 10 ^ k := by
  rw [digitText_eq]
  exact Nat.length_toDigits_le_iff (by omega) hk

theorem lt_pow_length (n : Nat) : n < 10 ^ (digitText n).length :=
  (length_digitText_le (length_digitText_pos n)).1 le_rfl

theorem pow_length_le {n : Nat} (hn : 0 < n) : 10 ^ ((digitText n).length - 1) ≤ n := by
  by_contra lt
  have pos := length_digitText_pos n
  rcases Nat.eq_zero_or_pos ((digitText n).length - 1) with zero | positive
  · rw [zero] at lt
    omega
  · have := (length_digitText_le positive).2 (not_le.1 lt)
    omega

theorem isDigit_iff (c : Char) : isDigit c = true ↔ c.isDigit = true := by
  simp only [isDigit, Bool.and_eq_true, decide_eq_true_eq, Char.isDigit, ge_iff_le]
  rfl

theorem isDigit_of_mem_digitText {n : Nat} {c : Char} (h : c ∈ digitText n) : isDigit c = true := by
  rw [digitText_eq] at h
  exact (isDigit_iff c).2 (Nat.isDigit_of_mem_toDigits (by omega) (by omega) h)

theorem digitsValue_eq (digits : List Char) : Json.digitsValue digits = Nat.ofDigitChars 10 digits 0 := rfl

theorem digitsValue_digitText (n : Nat) : Json.digitsValue (digitText n) = n := by
  rw [digitsValue_eq, digitText_eq]
  exact Nat.ofDigitChars_ten_toDigits

theorem digitsValue_append (a b : List Char) :
    Json.digitsValue (a ++ b) = Json.digitsValue a * 10 ^ b.length + Json.digitsValue b := by
  simp only [digitsValue_eq, Nat.ofDigitChars_append]
  rw [Nat.ofDigitChars_eq_ofDigitChars_zero, Nat.mul_comm]

@[simp] theorem digitsValue_zeros (k : Nat) : Json.digitsValue (List.replicate k '0') = 0 := by
  rw [digitsValue_eq, Nat.ofDigitChars_replicate_zero, Nat.mul_zero]

theorem digitsValue_append_zeros (a : List Char) (k : Nat) :
    Json.digitsValue (a ++ List.replicate k '0') = Json.digitsValue a * 10 ^ k := by
  rw [digitsValue_append, digitsValue_zeros, List.length_replicate, Nat.add_zero]

theorem digitsValue_zeros_append (k : Nat) (a : List Char) :
    Json.digitsValue (List.replicate k '0' ++ a) = Json.digitsValue a := by
  rw [digitsValue_append, digitsValue_zeros, Nat.zero_mul, Nat.zero_add]

theorem digitsValue_lt {digits : List Char} (h : ∀ c ∈ digits, isDigit c = true) :
    Json.digitsValue digits < 10 ^ digits.length := by
  induction digits using List.reverseRecOn with
  | nil => decide
  | append_singleton digits c ih =>
    have digit := h c (by simp)
    simp only [isDigit, Bool.and_eq_true, decide_eq_true_eq] at digit
    have low : 48 ≤ c.toNat := digit.1
    have high : c.toNat ≤ 57 := digit.2
    have rest := ih fun d hd => h d (List.mem_append_left _ hd)
    rw [digitsValue_append, List.length_append, List.length_singleton, pow_one, pow_succ]
    simp only [Json.digitsValue, List.foldl_cons, List.foldl_nil]
    simp only [Json.digitsValue] at rest
    omega

/-- Only the digits of zero begin with a zero. -/
theorem digitText_head {n : Nat} (hn : 0 < n) : (digitText n).head? ≠ some '0' := by
  induction n using Nat.strong_induction_on with
  | _ n ih =>
    rcases Nat.lt_or_ge n 10 with small | large
    · rw [digitText_eq, Nat.toDigits_of_lt_base small, List.head?_cons, ne_eq, Option.some.injEq,
        Nat.digitChar_eq_zero]
      exact hn.ne'
    · have shorter := ih (n / 10) (by omega) (by omega)
      rw [digitText_eq] at shorter ⊢
      rwa [Nat.toDigits_of_base_le (by omega) large, List.head?_append_of_ne_nil _ Nat.toDigits_ne_nil]

/-! ## Zeros at the end -/

theorem dropZeros_append (digits : List Char) :
    (dropZeros digits).1 ++ List.replicate (dropZeros digits).2 '0' = digits := by
  unfold dropZeros
  simp only
  have tail : digits.reverse.takeWhile (· == '0')
      = List.replicate (digits.reverse.takeWhile (· == '0')).length '0' := by
    apply List.eq_replicate_of_mem
    intro c hc
    exact beq_iff_eq.1 (List.all_eq_true.1 List.all_takeWhile c hc)
  have split := congrArg List.reverse (List.takeWhile_append_dropWhile (p := (· == '0')) (l := digits.reverse))
  rw [List.reverse_append, List.reverse_reverse] at split
  have length : digits.length - (digits.reverse.dropWhile (· == '0')).reverse.length
      = (digits.reverse.takeWhile (· == '0')).length := by
    have := congrArg List.length split
    simp only [List.length_append, List.length_reverse] at this ⊢
    omega
  rw [length]
  conv_rhs => rw [← split, tail, List.reverse_replicate]

/-- The digits of a positive number without the zeros at their end. -/
theorem dropZeros_spec {n : Nat} (hn : 0 < n) :
    ∃ digits zeros, dropZeros (digitText n) = (digits, zeros) ∧ digits ≠ [] ∧ digits.head? ≠ some '0' ∧
      (∀ c ∈ digits, isDigit c = true) ∧ digits.length + zeros = (digitText n).length ∧
      0 < Json.digitsValue digits ∧ Json.digitsValue digits * 10 ^ zeros = n := by
  have whole := dropZeros_append (digitText n)
  obtain ⟨digits, zeros, eq⟩ : ∃ digits zeros, dropZeros (digitText n) = (digits, zeros) := ⟨_, _, rfl⟩
  refine ⟨digits, zeros, eq, ?_⟩
  rw [eq] at whole
  have value : Json.digitsValue digits * 10 ^ zeros = n := by
    rw [← digitsValue_append_zeros, whole, digitsValue_digitText]
  have pos : 0 < Json.digitsValue digits := by
    refine Nat.pos_of_ne_zero fun zero => ?_
    rw [zero, Nat.zero_mul] at value
    omega
  have ne : digits ≠ [] := by
    rintro rfl
    exact absurd pos (by decide)
  refine ⟨ne, ?_, ?_, ?_, pos, value⟩
  · have head := digitText_head hn
    rwa [← whole, List.head?_append_of_ne_nil _ ne] at head
  · intro c hc
    refine isDigit_of_mem_digitText (n := n) ?_
    rw [← whole]
    exact List.mem_append_left _ hc
  · rw [← whole, List.length_append, List.length_replicate]

end CodeSearch.Decimal
