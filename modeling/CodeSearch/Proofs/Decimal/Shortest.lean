import CodeSearch.Proofs.Decimal.Digits
import CodeSearch.Proofs.Decimal.Rounding
/-!
# The fewest digits of a double

The digits that `shortest` chooses read back as the double they were made from, and so do the same digits with
zeros moved between them and the exponent (`ofDigits_shortest`). Either the digits were found by trying how they
read, or they are all digits of the double, which is then the one nearest to itself.
-/

namespace CodeSearch.Decimal

/-! ## Reading digits -/

theorem decimalSize_le {n k : Nat} (hn : 0 < n) (h : n < 2 ^ k) : decimalSize n ≤ k * 30103 / 100000 + 1 := by
  have := (Nat.log2_lt hn.ne').2 h
  unfold decimalSize
  omega

theorem le_decimalSize {n k : Nat} (h : 2 ^ k ≤ n) : k * 30103 / 100000 + 1 ≤ decimalSize n := by
  have hn : n ≠ 0 := by
    rintro rfl
    exact absurd h (by simp)
  have := (Nat.le_log2 hn).2 h
  unfold decimalSize
  omega

/-- Digits whose value is far from the bounds beyond which it is infinite or zero without a look. -/
structure InReach (digits : Nat) (exponent : Int) : Prop where
  pos : 0 < digits
  low : -800 ≤ decimalSize digits + exponent
  high : decimalSize digits + exponent ≤ 800

theorem ofDigits_eq {digits : Nat} {exponent : Int} (h : InReach digits exponent) (negative : Bool) :
    ofDigits negative digits exponent
      = nearest negative (digits * 10 ^ exponent.toNat) (10 ^ (-exponent).toNat) := by
  have low := h.low
  have high := h.high
  unfold ofDigits
  simp only [h.pos.ne', if_false]
  rw [if_neg (by omega), if_neg (by omega)]
  split
  next => rw [show (-exponent).toNat = 0 by omega, pow_zero]
  next => rw [show exponent.toNat = 0 by omega, pow_zero, Nat.mul_one]

theorem digits_ratio (digits : Nat) (exponent : Int) :
    ((digits * 10 ^ exponent.toNat : Nat) : ℚ) / (10 ^ (-exponent).toNat : Nat) = digits * 10 ^ exponent := by
  push_cast
  rw [← zpow_natCast, ← zpow_natCast, mul_div_assoc, ← zpow_sub₀ (by norm_num : (10 : ℚ) ≠ 0)]
  congr 2
  omega

/-- Digits of one value read as one double. -/
theorem ofDigits_congr {digits digits' : Nat} {exponent exponent' : Int} (h : InReach digits exponent)
    (h' : InReach digits' exponent') (same : (digits : ℚ) * 10 ^ exponent = digits' * 10 ^ exponent')
    (negative : Bool) : ofDigits negative digits exponent = ofDigits negative digits' exponent' := by
  rw [ofDigits_eq h, ofDigits_eq h']
  apply nearest_congr negative (by positivity) (by positivity)
  have : ((digits * 10 ^ exponent.toNat : Nat) : ℚ) / (10 ^ (-exponent).toNat : Nat)
      = (digits' * 10 ^ exponent'.toNat : Nat) / (10 ^ (-exponent').toNat : Nat) := by
    rw [digits_ratio, digits_ratio, same]
  rw [div_eq_div_iff (by positivity) (by positivity)] at this
  exact_mod_cast this

/-- The sign has no part in how digits read. -/
theorem ofDigits_sign {digits : Nat} {exponent : Int} {b : Binary} (h : InReach digits exponent)
    (reads : ofDigits false digits exponent = encode false b.mantissa b.exponent) (negative : Bool) :
    ofDigits negative digits exponent = encode negative b.mantissa b.exponent := by
  have positive : digits * 10 ^ exponent.toNat ≠ 0 := by
    have := h.pos
    positivity
  rw [ofDigits_eq h] at reads ⊢
  simp only [nearest, positive, if_false] at reads ⊢
  exact encode_congr (magnitudeBits_of_encode reads)

/-! ## The digits of a double -/

theorem magnitudeBits_pos {b : Binary} (hb : b.Canonical) (hm : 0 < b.mantissa) :
    0 < magnitudeBits b.mantissa b.exponent := by
  have ge := hb.exponent_ge
  unfold leastExponent at ge
  unfold magnitudeBits
  rw [lt_min_iff]
  split <;> omega

/-- The fields of bits that are put together from them. -/
theorem fields_of_bits (negative : Bool) (field fraction : Nat) (hf : field < 2047) (hm : fraction < 2 ^ 52) :
    let bits := signBit negative + (field * 2 ^ 52 + fraction)
    (bits / 2 ^ 63 == 1) = negative ∧ bits / 2 ^ 52 % 2 ^ 11 = field ∧ bits % 2 ^ 52 = fraction := by
  have sign : signBit negative = (if negative then 1 else 0) * 2 ^ 63 := by cases negative <;> rfl
  simp only [sign]
  refine ⟨?_, ?_, ?_⟩
  · cases negative
    · rw [beq_eq_false_iff_ne]
      simp only [Bool.false_eq_true, if_false]
      omega
    · rw [beq_iff_eq]
      simp only [if_true]
      omega
  · omega
  · omega

theorem decode_encode {b : Binary} (hb : b.Canonical) :
    decode (encode b.negative b.mantissa b.exponent) = .finite b := by
  have lt := hb.mantissa_lt
  have normal := hb.normal
  have ge := hb.exponent_ge
  have le := hb.exponent_le
  simp only [leastExponent] at normal ge
  unfold decode
  simp only [toBits_encode]
  rcases Nat.lt_or_ge b.mantissa (2 ^ 52) with small | large
  · have least := normal.resolve_left (not_le.2 small)
    have magnitude : magnitudeBits b.mantissa b.exponent = 0 * 2 ^ 52 + b.mantissa := by
      rw [magnitudeBits, if_pos small, Nat.min_eq_left (by omega), Nat.zero_mul, Nat.zero_add]
    obtain ⟨sign, field, fraction⟩ := fields_of_bits b.negative 0 b.mantissa (by omega) small
    rw [magnitude, sign, field, fraction, if_neg (by omega), if_pos rfl]
    rw [leastExponent, ← least]
  · have magnitude : magnitudeBits b.mantissa b.exponent
        = (b.exponent + 1075).toNat * 2 ^ 52 + (b.mantissa - 2 ^ 52) := by
      rw [magnitudeBits, if_neg (not_lt.2 large), Nat.min_eq_left (by omega)]
    obtain ⟨sign, field, fraction⟩ :=
      fields_of_bits b.negative (b.exponent + 1075).toNat (b.mantissa - 2 ^ 52) (by omega) (by omega)
    rw [magnitude, sign, field, fraction, if_neg (by omega), if_neg (by omega)]
    have mantissa : 2 ^ 52 + (b.mantissa - 2 ^ 52) = b.mantissa := by omega
    have exponent : ((b.exponent + 1075).toNat : Int) - 1075 = b.exponent := by omega
    rw [mantissa, exponent]

/-! ## Sizes of digits -/

theorem two_pow_le_ten_pow (k : Nat) : 2 ^ (3 * k) ≤ 10 ^ k := by
  rw [pow_mul]
  exact Nat.pow_le_pow_left (by omega) k

/-- Three bits make less than a digit. -/
theorem lt_ten_pow {n bits k : Nat} (h : n < 2 ^ bits) (hb : bits ≤ 3 * k) : n < 10 ^ k :=
  h.trans_le ((Nat.pow_le_pow_right two_pos hb).trans (two_pow_le_ten_pow k))

theorem length_digitText_of_bits {n bits k : Nat} (h : n < 2 ^ bits) (hb : bits ≤ 3 * k) (hk : 0 < k) :
    (digitText n).length ≤ k :=
  (length_digitText_le hk).2 (lt_ten_pow h hb)

theorem lt_magnitude {ratio : Nat × Nat} (h1 : 0 < ratio.1) (h2 : 0 < ratio.2) :
    (ratio.1 / ratio.2 : ℚ) < 10 ^ magnitude ratio := by
  have h2' : (0 : ℚ) < ratio.2 := by exact_mod_cast h2
  unfold magnitude
  split
  next =>
    rw [div_lt_iff₀ h2', zpow_natCast]
    exact_mod_cast (Nat.div_lt_iff_lt_mul h2).1 (lt_pow_length (ratio.1 / ratio.2))
  next lt =>
    have pos : 0 < (ratio.2 - 1) / ratio.1 := Nat.div_pos (by omega) h1
    have low := pow_length_le pos
    have length := length_digitText_pos ((ratio.2 - 1) / ratio.1)
    have below : ratio.1 * 10 ^ ((digitText ((ratio.2 - 1) / ratio.1)).length - 1) < ratio.2 := by
      have := (Nat.le_div_iff_mul_le h1).1 low
      rw [Nat.mul_comm]
      omega
    rw [div_lt_iff₀ h2', show (1 : ℤ) - (digitText ((ratio.2 - 1) / ratio.1)).length
      = -(((digitText ((ratio.2 - 1) / ratio.1)).length - 1 : ℕ) : ℤ) by omega, zpow_neg, zpow_natCast,
      inv_mul_eq_div, lt_div_iff₀ (by positivity)]
    exact_mod_cast below

theorem magnitude_le {ratio : Nat × Nat} {bits k : Nat} (h : ratio.1 < 2 ^ bits) (hb : bits ≤ 3 * k)
    (hk : 0 < k) : magnitude ratio ≤ k := by
  unfold magnitude
  split
  next =>
    have := length_digitText_of_bits ((Nat.div_le_self ratio.1 ratio.2).trans_lt h) hb hk
    omega
  next => omega

theorem le_magnitude {ratio : Nat × Nat} {bits k : Nat} (h : ratio.2 ≤ 2 ^ bits) (hb : bits ≤ 3 * k)
    (hk : 0 < k) : 1 - (k : Int) ≤ magnitude ratio := by
  unfold magnitude
  split
  next => omega
  next =>
    have small : (ratio.2 - 1) / ratio.1 < 2 ^ bits := (Nat.div_le_self _ _).trans_lt (by omega)
    have := length_digitText_of_bits small hb hk
    omega

theorem inUnits_ratio (exponent : Int) {ratio : Nat × Nat} (h2 : 0 < ratio.2) :
    0 < (inUnits exponent ratio).2 ∧
      ((inUnits exponent ratio).1 / (inUnits exponent ratio).2 : ℚ) = ratio.1 / ratio.2 / 10 ^ exponent := by
  unfold inUnits
  split
  next h =>
    refine ⟨by positivity, ?_⟩
    push_cast
    exact div_zpow_of_nonneg _ _ _ h
  next h =>
    refine ⟨h2, ?_⟩
    push_cast
    exact div_zpow_of_neg _ _ _ (not_le.1 h)

theorem roundDiv_le (num den : Nat) : roundDiv num den ≤ num / den + 1 := by
  unfold roundDiv
  simp only
  split <;> omega

/-- The digits on a grid of so many significant ones are as many at most. -/
theorem neighbours_bounds {count : Nat} {ratio : Nat × Nat} {d : Digits} (h1 : 0 < ratio.1) (h2 : 0 < ratio.2)
    (hd : d ∈ neighbours count ratio) : d.digits ≤ 10 ^ count ∧ d.exponent = magnitude ratio - count := by
  obtain ⟨pos, value⟩ := inUnits_ratio (magnitude ratio - count) h2
  have low : (inUnits (magnitude ratio - count) ratio).1 / (inUnits (magnitude ratio - count) ratio).2
      < 10 ^ count := by
    rw [Nat.div_lt_iff_lt_mul pos]
    have below : ((inUnits (magnitude ratio - count) ratio).1 : ℚ) / (inUnits (magnitude ratio - count) ratio).2
        < 10 ^ (count : ℤ) := by
      rw [value, div_lt_iff₀ (by positivity), ← zpow_add₀ (by norm_num), add_sub_cancel]
      exact lt_magnitude h1 h2
    rw [div_lt_iff₀ (by exact_mod_cast pos), zpow_natCast] at below
    exact_mod_cast below
  have near := roundDiv_le (inUnits (magnitude ratio - count) ratio).1 (inUnits (magnitude ratio - count) ratio).2
  simp only [neighbours, List.mem_cons, List.not_mem_nil, or_false] at hd
  rcases hd with rfl | rfl
  · exact ⟨by simp only; omega, rfl⟩
  · refine ⟨?_, rfl⟩
    simp only
    split <;> omega

/-! ## Digits that stay in reach -/

/-- Digits that stay in reach when zeros are moved between them and the exponent. -/
structure Digits.Modest (d : Digits) : Prop where
  pos : 0 < d.digits
  length_le : (digitText d.digits).length ≤ 1100
  low : -450 ≤ decimalSize d.digits + d.exponent
  high : decimalSize d.digits + d.exponent ≤ 400

theorem Digits.Modest.inReach {d : Digits} (h : d.Modest) : InReach d.digits d.exponent :=
  ⟨h.pos, by have := h.low; omega, by have := h.high; omega⟩

/-- Zeros at the end change the size by about their number. -/
theorem decimalSize_zeros {n : Nat} (hn : 0 < n) (zeros : Nat) :
    decimalSize n + zeros ≤ decimalSize (n * 10 ^ zeros) + (zeros / 4 + 1) ∧
      decimalSize (n * 10 ^ zeros) ≤ decimalSize n + zeros + (zeros / 4 + 1) := by
  have low : n.log2 + 3 * zeros ≤ (n * 10 ^ zeros).log2 := by
    rw [Nat.le_log2 (by positivity), pow_add]
    exact Nat.mul_le_mul (Nat.log2_self_le hn.ne') (two_pow_le_ten_pow zeros)
  have high : (n * 10 ^ zeros).log2 < n.log2 + 1 + 4 * zeros := by
    rw [Nat.log2_lt (by positivity), pow_add, pow_mul]
    exact Nat.mul_lt_mul_of_lt_of_le Nat.lt_log2_self (Nat.pow_le_pow_left (by omega) zeros) (by positivity)
  unfold decimalSize
  omega

theorem Digits.Modest.dropped {d : Digits} (h : d.Modest) {digits zeros : Nat} (hd : digits * 10 ^ zeros = d.digits) :
    InReach digits (d.exponent + zeros) := by
  have pos : 0 < digits := by
    refine Nat.pos_of_ne_zero fun zero => ?_
    rw [zero, Nat.zero_mul] at hd
    exact absurd h.pos (by omega)
  have zeros_lt : zeros < (digitText d.digits).length := by
    have le : 10 ^ zeros ≤ d.digits := by
      rw [← hd]
      exact Nat.le_mul_of_pos_left _ pos
    exact (Nat.pow_lt_pow_iff_right Nat.one_lt_ofNat).1 (le.trans_lt (lt_pow_length _))
  have length_le := h.length_le
  obtain ⟨up, down⟩ := decimalSize_zeros pos zeros
  rw [hd] at up down
  have low := h.low
  have high := h.high
  exact ⟨pos, by omega, by omega⟩

/-! ## The fewest digits -/

theorem ratio_pos {b : Binary} (hm : 0 < b.mantissa) : 0 < b.ratio.1 ∧ 0 < b.ratio.2 := by
  unfold Binary.ratio
  split
  · exact ⟨by positivity, by simp⟩
  · exact ⟨hm, by positivity⟩

theorem mantissa_mul_lt {m : Nat} (hm : m < 2 ^ 53) (k : Nat) : m * 2 ^ k < 2 ^ (53 + k) := by
  rw [pow_add]
  exact Nat.mul_lt_mul_of_pos_right hm (by positivity)

theorem ratio_bounds {b : Binary} (hb : b.Canonical) :
    b.ratio.1 < 2 ^ (53 + b.exponent.toNat) ∧ b.ratio.2 ≤ 2 ^ (-b.exponent).toNat := by
  have lt := hb.mantissa_lt
  unfold Binary.ratio
  split
  next => exact ⟨mantissa_mul_lt lt _, Nat.one_le_two_pow⟩
  next => exact ⟨lt.trans_le (Nat.pow_le_pow_right two_pos (by omega)), le_rfl⟩

/-- Digits that were found on a grid. -/
theorem modest_of_mem_neighbours {b : Binary} (hb : b.Canonical) (hm : 0 < b.mantissa) {count : Nat}
    (hc : count ≤ 17) {d : Digits} (hd : d ∈ neighbours count b.ratio) (pos : 0 < d.digits) : d.Modest := by
  obtain ⟨h1, h2⟩ := ratio_pos hm
  obtain ⟨lt, le⟩ := ratio_bounds hb
  obtain ⟨bound, exponent⟩ := neighbours_bounds h1 h2 hd
  have exponent_le := hb.exponent_le
  have exponent_ge := hb.exponent_ge
  simp only [leastExponent] at exponent_ge
  have up := magnitude_le (k := 342) lt (by omega) (by omega)
  have down := le_magnitude (k := 358) le (by omega) (by omega)
  have small : d.digits ≤ 10 ^ 17 := bound.trans (Nat.pow_le_pow_right (by omega) hc)
  have size := decimalSize_le pos (small.trans_lt (by norm_num : 10 ^ 17 < 2 ^ 60))
  have length := (length_digitText_le (n := d.digits) (k := 18) (by omega)).2 (small.trans_lt (by norm_num))
  exact ⟨pos, by omega, by omega, by omega⟩

theorem exactDigits_value (b : Binary) :
    ((exactDigits b).digits : ℚ) * 10 ^ (exactDigits b).exponent = b.mantissa * 2 ^ b.exponent := by
  unfold exactDigits
  split
  next h =>
    push_cast
    rw [mul_one, ← zpow_natCast, Int.toNat_of_nonneg h]
  next h =>
    push_cast
    rw [← zpow_natCast, Int.toNat_of_nonneg (by omega), mul_assoc, zpow_neg, show (10 : ℚ) = 5 * 2 by norm_num,
      mul_zpow, inv_mul_cancel_left₀ (by positivity)]

theorem modest_exactDigits {b : Binary} (hb : b.Canonical) (hm : 0 < b.mantissa) : (exactDigits b).Modest := by
  have lt := hb.mantissa_lt
  have ge := hb.exponent_ge
  have le := hb.exponent_le
  simp only [leastExponent] at ge
  unfold exactDigits
  split
  next h =>
    have small := mantissa_mul_lt lt b.exponent.toNat
    have size := decimalSize_le (by positivity) small
    have length := length_digitText_of_bits (k := 1100) small (by omega) (by omega)
    exact ⟨by simp only; positivity, length, by simp only; omega, by simp only; omega⟩
  next h =>
    have small : b.mantissa * 5 ^ (-b.exponent).toNat < 2 ^ (53 + 3 * (-b.exponent).toNat) := by
      rw [pow_add, pow_mul]
      exact Nat.mul_lt_mul_of_lt_of_le lt (Nat.pow_le_pow_left (by omega) _) (by positivity)
    have large : 2 ^ (2 * (-b.exponent).toNat) ≤ b.mantissa * 5 ^ (-b.exponent).toNat := by
      rw [pow_mul]
      exact (Nat.pow_le_pow_left (by omega) _).trans (Nat.le_mul_of_pos_left _ hm)
    have up := decimalSize_le (by positivity) small
    have down := le_decimalSize large
    have length := length_digitText_of_bits (k := 1100) small (by omega) (by omega)
    exact ⟨by simp only; positivity, length, by simp only; omega, by simp only; omega⟩

/-- The fewest digits of a double read back as that double. -/
theorem shortest_reads {b : Binary} (hb : b.Canonical) (hm : 0 < b.mantissa) :
    (shortest b).Modest ∧
      ofDigits false (shortest b).digits (shortest b).exponent = encode false b.mantissa b.exponent := by
  unfold shortest
  simp only
  split
  next d found =>
    have same : ofDigits false d.digits d.exponent = encode false b.mantissa b.exponent := by
      have decoded := decode_encode (b := ⟨false, b.mantissa, b.exponent⟩)
        ⟨hb.mantissa_lt, hb.normal, hb.exponent_ge, hb.exponent_le⟩
      have compared := List.find?_some found
      exact eq_of_beq compared decoded hm.ne'
    have pos : 0 < d.digits := by
      refine Nat.pos_of_ne_zero fun zero => ?_
      rw [ofDigits, if_pos zero] at same
      have positive := magnitudeBits_pos hb hm
      rw [← magnitudeBits_of_encode same] at positive
      exact absurd positive (by decide)
    obtain ⟨n, mem, near⟩ := List.mem_flatMap.1 (List.mem_of_find?_eq_some found)
    have := List.mem_range.1 mem
    exact ⟨modest_of_mem_neighbours hb hm (by omega) near pos, same⟩
  next =>
    have modest := modest_exactDigits hb hm
    refine ⟨modest, ?_⟩
    rw [ofDigits_eq modest.inReach]
    apply nearest_exact hb false (by positivity) hm
    rw [digits_ratio, exactDigits_value]

/-- The digits of a double, with zeros at their end counted in the exponent, read back as that double. -/
theorem ofDigits_shortest {b : Binary} (hb : b.Canonical) (hm : 0 < b.mantissa) {digits zeros : Nat}
    (hd : digits * 10 ^ zeros = (shortest b).digits) (negative : Bool) :
    InReach digits ((shortest b).exponent + zeros) ∧
      ofDigits negative digits ((shortest b).exponent + zeros) = encode negative b.mantissa b.exponent := by
  obtain ⟨modest, reads⟩ := shortest_reads hb hm
  have reach := modest.dropped hd
  refine ⟨reach, ?_⟩
  rw [← ofDigits_sign modest.inReach reads negative]
  apply ofDigits_congr reach modest.inReach
  rw [← hd, zpow_add₀ (by norm_num), zpow_natCast]
  push_cast
  ring

end CodeSearch.Decimal
