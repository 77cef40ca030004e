import CodeSearch.Proofs.Decimal.Bits
/-!
# Rounding to the nearest double

`nearest` depends on the quotient alone (`nearest_congr`), and gives a double back from every quotient that
is its exact value (`nearest_exact`). Both follow from the exponent of the unit in the last place, which the
quotient determines (`ulpExponent_eq`).
-/

namespace CodeSearch.Decimal


/-! ## Quotients of natural numbers -/

theorem roundDiv_mul (num den : Nat) {c : Nat} (hc : 0 < c) : roundDiv (num * c) (den * c) = roundDiv num den := by
  unfold roundDiv
  rw [Nat.mul_div_mul_right _ _ hc, Nat.mul_mod_mul_right]
  have above : 2 * (num % den * c) > den * c ↔ 2 * (num % den) > den := by
    rw [← Nat.mul_assoc]
    exact Nat.mul_lt_mul_right hc
  have level : 2 * (num % den * c) = den * c ↔ 2 * (num % den) = den := by
    rw [← Nat.mul_assoc]
    exact Nat.mul_left_inj hc.ne'
  simp only [above, beq_iff_eq, level, Bool.or_eq_true, decide_eq_true_eq, Bool.and_eq_true]

theorem roundDiv_exact (n : Nat) {den : Nat} (hd : 0 < den) : roundDiv (n * den) den = n := by
  unfold roundDiv
  simp only [Nat.mul_mod_left, Nat.mul_div_cancel _ hd]
  rw [if_neg]
  simp only [Nat.mul_zero, Bool.or_eq_true, decide_eq_true_eq, Bool.and_eq_true, beq_iff_eq]
  omega

/-! ## The unit in the last place -/

/-- A quotient has a mantissa of fifty-three bits at an exponent. -/
def FitsAt (q : ℚ) (e : ℤ) : Prop := 2 ^ 52 * 2 ^ e ≤ q ∧ q < 2 ^ 53 * 2 ^ e

theorem FitsAt.unique {q : ℚ} {e e' : ℤ} (h : FitsAt q e) (h' : FitsAt q e') : e = e' := by
  have below {e e' : ℤ} (h : FitsAt q e) (h' : FitsAt q e') : e ≤ e' := by
    have lt : (2 : ℚ) ^ (52 + e) < 2 ^ (53 + e') := by
      rw [zpow_add₀ two_ne_zero, zpow_add₀ two_ne_zero]
      exact lt_of_le_of_lt h.1 h'.2
    have := (zpow_lt_zpow_iff_right₀ (one_lt_two)).1 lt
    omega
  exact le_antisymm (below h h') (below h' h)

/-- Where a quotient is divided by a power, the power goes below the bar. -/
theorem div_zpow_of_nonneg (num den base : ℚ) {e : ℤ} (h : 0 ≤ e) :
    num / (den * base ^ e.toNat) = num / den / base ^ e := by
  rw [← zpow_natCast, Int.toNat_of_nonneg h, div_div]

/-- If its exponent is negative, the inverse goes above it. -/
theorem div_zpow_of_neg (num den base : ℚ) {e : ℤ} (h : e < 0) :
    num * base ^ (-e).toNat / den = num / den / base ^ e := by
  rw [← zpow_natCast, Int.toNat_of_nonneg (by omega), zpow_neg, div_div, mul_comm den, ← div_div, div_eq_mul_inv num]

/-- `scaleBy` divides by a power of two. -/
theorem scaleBy_ratio (e : ℤ) (num : Nat) {den : Nat} (hd : 0 < den) :
    0 < (scaleBy e num den).2 ∧ ((scaleBy e num den).1 : ℚ) / (scaleBy e num den).2 = num / den / 2 ^ e := by
  unfold scaleBy
  split
  next h =>
    refine ⟨by positivity, ?_⟩
    push_cast
    exact div_zpow_of_nonneg _ _ _ h
  next h =>
    refine ⟨hd, ?_⟩
    push_cast
    exact div_zpow_of_neg _ _ _ (not_le.1 h)

theorem log2_bounds {n : Nat} (h : 0 < n) : (2 : ℚ) ^ (n.log2 : ℤ) ≤ n ∧ (n : ℚ) < 2 ^ ((n.log2 : ℤ) + 1) := by
  constructor
  · rw [zpow_natCast]
    exact_mod_cast Nat.log2_self_le h.ne'
  · rw [← Nat.cast_succ, zpow_natCast]
    exact_mod_cast Nat.lt_log2_self

/-- The quotient of two positive numbers lies within a factor of four, as their lengths say. -/
theorem quotient_bounds {num den : Nat} (hn : 0 < num) (hd : 0 < den) :
    2 ^ 52 * 2 ^ ((num.log2 : ℤ) - den.log2 - 53) < (num / den : ℚ) ∧
      (num / den : ℚ) < 2 ^ 54 * 2 ^ ((num.log2 : ℤ) - den.log2 - 53) := by
  obtain ⟨numLow, numHigh⟩ := log2_bounds hn
  obtain ⟨denLow, denHigh⟩ := log2_bounds hd
  have hd' : (0 : ℚ) < den := by exact_mod_cast hd
  have power (k : ℕ) : (2 : ℚ) ^ k * 2 ^ ((num.log2 : ℤ) - den.log2 - 53)
      = 2 ^ ((k : ℤ) - 53 + num.log2) / 2 ^ (den.log2 : ℤ) := by
    rw [← zpow_natCast, ← zpow_add₀ two_ne_zero, ← zpow_sub₀ two_ne_zero]
    congr 1
    ring
  constructor
  · rw [power, lt_div_iff₀ hd', div_mul_eq_mul_div, div_lt_iff₀ (by positivity)]
    calc (2 : ℚ) ^ ((52 : ℕ) - 53 + num.log2 : ℤ) * den
        < 2 ^ ((52 : ℕ) - 53 + num.log2 : ℤ) * 2 ^ ((den.log2 : ℤ) + 1) := by gcongr
      _ = 2 ^ (num.log2 : ℤ) * 2 ^ (den.log2 : ℤ) := by
          rw [← zpow_add₀ two_ne_zero, ← zpow_add₀ two_ne_zero]
          congr 1
          push_cast
          ring
      _ ≤ num * 2 ^ (den.log2 : ℤ) := by gcongr
  · rw [power, div_lt_iff₀ hd', div_mul_eq_mul_div, lt_div_iff₀ (by positivity)]
    calc (num : ℚ) * 2 ^ (den.log2 : ℤ) < 2 ^ ((num.log2 : ℤ) + 1) * 2 ^ (den.log2 : ℤ) := by gcongr
      _ = 2 ^ ((54 : ℕ) - 53 + num.log2 : ℤ) * 2 ^ (den.log2 : ℤ) := by
          congr 2
          push_cast
          ring
      _ ≤ 2 ^ ((54 : ℕ) - 53 + num.log2 : ℤ) * den := by gcongr

theorem ulpExponent_spec {num den : Nat} (hn : 0 < num) (hd : 0 < den) :
    ∃ e, FitsAt (num / den) e ∧ ulpExponent num den = max e leastExponent := by
  refine ⟨_, ?_, rfl⟩
  obtain ⟨low, high⟩ := quotient_bounds hn hd
  obtain ⟨hd', ratio⟩ := scaleBy_ratio ((num.log2 : ℤ) - den.log2 - 53) num hd
  generalize scaleBy ((num.log2 : ℤ) - den.log2 - 53) num den = scaled at ratio hd'
  have hpos : (0 : ℚ) < 2 ^ ((num.log2 : ℤ) - den.log2 - 53) := by positivity
  have small : scaled.1 / scaled.2 < 2 ^ 53 ↔
      (num / den : ℚ) < 2 ^ 53 * 2 ^ ((num.log2 : ℤ) - den.log2 - 53) := by
    rw [Nat.div_lt_iff_lt_mul hd', ← div_lt_iff₀ hpos, ← ratio, div_lt_iff₀ (by exact_mod_cast hd')]
    exact_mod_cast Iff.rfl
  split
  next h => exact ⟨low.le, small.1 h⟩
  next h =>
    have ge := not_lt.1 fun lt => h (small.2 lt)
    rw [FitsAt, zpow_add₀ two_ne_zero]
    constructor <;> linarith

/-- The unit in the last place depends on the quotient alone. -/
theorem ulpExponent_eq {num den : Nat} (hn : 0 < num) (hd : 0 < den) {e : ℤ} (h : FitsAt (num / den) e) :
    ulpExponent num den = max e leastExponent := by
  obtain ⟨e', fits, eq⟩ := ulpExponent_spec hn hd
  rw [eq, h.unique fits]

/-! ## The nearest double -/

theorem scaleBy_mul (e : ℤ) (num den c : Nat) :
    scaleBy e (num * c) (den * c) = ((scaleBy e num den).1 * c, (scaleBy e num den).2 * c) := by
  unfold scaleBy
  split <;> simp only [Prod.mk.injEq, and_true, true_and] <;> ring

theorem nearest_mul (negative : Bool) (num : Nat) {den c : Nat} (hd : 0 < den) (hc : 0 < c) :
    nearest negative (num * c) (den * c) = nearest negative num den := by
  by_cases hn : num = 0
  · simp [nearest, hn]
  · have hn' : 0 < num := Nat.pos_of_ne_zero hn
    obtain ⟨e, fits, eq⟩ := ulpExponent_spec hn' hd
    have eq' : ulpExponent (num * c) (den * c) = max e leastExponent := by
      apply ulpExponent_eq (by positivity) (by positivity)
      push_cast
      rw [mul_div_mul_right _ _ (by exact_mod_cast hc.ne')]
      exact fits
    simp only [nearest, hn, Nat.mul_eq_zero, hc.ne', or_self, if_false, eq, eq', scaleBy_mul, roundDiv_mul _ _ hc]

/-- The nearest double depends on the quotient alone. -/
theorem nearest_congr (negative : Bool) {num den num' den' : Nat} (hd : 0 < den) (hd' : 0 < den')
    (h : num * den' = num' * den) : nearest negative num den = nearest negative num' den' := by
  rw [← nearest_mul negative num hd hd', h, ← nearest_mul negative num' hd' hd, Nat.mul_comm den den']

/-- A double is the one nearest to itself. -/
theorem nearest_exact {b : Binary} (hb : b.Canonical) (negative : Bool) {num den : Nat} (hd : 0 < den)
    (hm : 0 < b.mantissa) (h : (num / den : ℚ) = b.mantissa * 2 ^ b.exponent) :
    nearest negative num den = encode negative b.mantissa b.exponent := by
  have hd' : (0 : ℚ) < den := by exact_mod_cast hd
  have hn : num ≠ 0 := by
    intro zero
    rw [zero, Nat.cast_zero, zero_div] at h
    have : (0 : ℚ) < b.mantissa * 2 ^ b.exponent := by positivity
    linarith
  have exponent : ulpExponent num den = b.exponent := by
    obtain ⟨e, fits, eq⟩ := ulpExponent_spec (Nat.pos_of_ne_zero hn) hd
    rw [eq]
    have high : (b.mantissa : ℚ) < 2 ^ 53 := by exact_mod_cast hb.mantissa_lt
    by_cases normal : 2 ^ 52 ≤ b.mantissa
    · have low : (2 : ℚ) ^ 52 ≤ b.mantissa := by exact_mod_cast normal
      have : FitsAt (num / den) b.exponent := by
        rw [h]
        constructor <;> gcongr
      rw [fits.unique this, max_eq_left hb.exponent_ge]
    · have least := hb.normal.resolve_left normal
      have below : (b.mantissa : ℚ) < 2 ^ 52 := by exact_mod_cast not_le.1 normal
      have : (2 : ℚ) ^ 52 * 2 ^ e < 2 ^ 52 * 2 ^ b.exponent := by
        refine lt_of_le_of_lt fits.1 ?_
        rw [h]
        gcongr
      have lt := (zpow_lt_zpow_iff_right₀ one_lt_two).1 (lt_of_mul_lt_mul_left this (by positivity))
      rw [least] at lt ⊢
      exact max_eq_right lt.le
  obtain ⟨hd', ratio⟩ := scaleBy_ratio b.exponent num hd
  simp only [nearest, hn, if_false, exponent]
  generalize scaleBy b.exponent num den = scaled at ratio hd'
  have value : scaled.1 = b.mantissa * scaled.2 := by
    rw [h, mul_div_cancel_right₀ _ (by positivity), div_eq_iff (by positivity)] at ratio
    exact_mod_cast ratio
  rw [value, roundDiv_exact _ hd']

end CodeSearch.Decimal
