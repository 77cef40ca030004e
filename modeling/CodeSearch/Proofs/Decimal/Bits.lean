import CodeSearch.Decimal.Binary
import Mathlib
/-!
# The bits of doubles

A double that is a number is told by its bits, and the bits by sign, exponent and fraction:
`toBits_ofBits` says that bits of a number come back from the double made of them, and
`encode_decode` that a finite double comes back from what `decode` says of it. Two finite doubles
other than zero that compare as equal are the same (`eq_of_beq`).
-/

namespace CodeSearch.Decimal

open Float.Model Float.Model.UnpackedFloat

/-! ## Doubles and bits -/

theorem toNat_unpackExponent (b : BitVec 64) :
    (@unpackExponent Format.binary64 b).toNat = b.toNat / 2 ^ 52 % 2 ^ 11 := by
  simp [unpackExponent, Nat.shiftRight_eq_div_pow]

theorem toNat_unpackMantissa (b : BitVec 64) : (@unpackMantissa Format.binary64 b).toNat = b.toNat % 2 ^ 52 := by
  simp [unpackMantissa]

/-- Bits that are not those of a NaN come back from the double made of them. -/
theorem toBits_ofBits (bits : UInt64)
    (h : bits.toNat / 2 ^ 52 % 2 ^ 11 = 2047 → bits.toNat % 2 ^ 52 = 0) : (Float.ofBits bits).toBits = bits := by
  have valid : Format.binary64.Valid bits.toBitVec := by
    refine ⟨fun exponent mantissa => absurd ?_ mantissa⟩
    refine BitVec.eq_of_toNat_eq ((toNat_unpackMantissa bits.toBitVec).trans (h ?_))
    exact (toNat_unpackExponent bits.toBitVec).symm.trans (congrArg BitVec.toNat exponent)
  exact UInt64.toBitVec_inj.1 (pack_unpack_of_valid valid)

/-- The sign bit of a double. -/
def signBit (negative : Bool) : Nat := if negative then 2 ^ 63 else 0

/-- The bits of a double without its sign. -/
def magnitudeBits (mantissa : Nat) (exponent : Int) : Nat :=
  min (if mantissa < 2 ^ 52 then mantissa else (exponent + 1075).toNat * 2 ^ 52 + (mantissa - 2 ^ 52))
    (2047 * 2 ^ 52)

theorem encode_eq (negative : Bool) (mantissa : Nat) (exponent : Int) :
    encode negative mantissa exponent
      = Float.ofBits (UInt64.ofNat (signBit negative + magnitudeBits mantissa exponent)) := rfl

theorem magnitudeBits_le (mantissa : Nat) (exponent : Int) : magnitudeBits mantissa exponent ≤ 2047 * 2 ^ 52 :=
  Nat.min_le_right _ _

theorem toBits_encode (negative : Bool) (mantissa : Nat) (exponent : Int) :
    (encode negative mantissa exponent).toBits.toNat = signBit negative + magnitudeBits mantissa exponent := by
  have bound := magnitudeBits_le mantissa exponent
  have small : signBit negative + magnitudeBits mantissa exponent < 2 ^ 64 := by
    cases negative <;> simp only [signBit, if_true, Bool.false_eq_true, if_false] <;> omega
  have nat : (UInt64.ofNat (signBit negative + magnitudeBits mantissa exponent)).toNat
      = signBit negative + magnitudeBits mantissa exponent := by
    rw [UInt64.toNat_ofNat']
    exact Nat.mod_eq_of_lt small
  rw [encode_eq, toBits_ofBits, nat]
  rw [nat]
  cases negative <;> simp only [signBit, if_true, Bool.false_eq_true, if_false] <;> omega

/-- The sign and the other bits tell a double apart from others. -/
theorem magnitudeBits_of_encode {negative : Bool} {m m' : Nat} {e e' : Int}
    (h : encode negative m e = encode negative m' e') : magnitudeBits m e = magnitudeBits m' e' := by
  have bits := congrArg (fun x => x.toBits.toNat) h
  simp only [toBits_encode] at bits
  omega

theorem encode_congr {negative : Bool} {m m' : Nat} {e e' : Int} (h : magnitudeBits m e = magnitudeBits m' e') :
    encode negative m e = encode negative m' e' := by
  rw [encode_eq, encode_eq, h]

/-! ## Finite doubles -/

/-- What `decode` gives: a mantissa of fifty-three bits, or of fewer at the least exponent. -/
structure Binary.Canonical (b : Binary) : Prop where
  mantissa_lt : b.mantissa < 2 ^ 53
  normal : 2 ^ 52 ≤ b.mantissa ∨ b.exponent = leastExponent
  exponent_ge : leastExponent ≤ b.exponent
  exponent_le : b.exponent ≤ 971

theorem decode_cases {x : Float} {b : Binary} (h : decode x = .finite b) :
    b.Canonical ∧ x.toBits.toNat = signBit b.negative + magnitudeBits b.mantissa b.exponent := by
  have bound := x.toBits.toNat_lt
  unfold decode at h
  simp only at h
  generalize x.toBits.toNat = bits at h bound
  have sign : signBit (bits / 2 ^ 63 == 1) + bits % 2 ^ 63 = bits := by
    by_cases top : bits / 2 ^ 63 = 1
    · simp only [signBit, top, beq_self_eq_true, if_true]
      omega
    · simp only [signBit, beq_iff_eq, top, if_false]
      omega
  have rest : bits % 2 ^ 63 = bits / 2 ^ 52 % 2 ^ 11 * 2 ^ 52 + bits % 2 ^ 52 := by omega
  split at h
  next =>
    split at h <;> cases h
  next notTop =>
    have field : bits / 2 ^ 52 % 2 ^ 11 < 2047 := by omega
    have fraction : bits % 2 ^ 52 < 2 ^ 52 := Nat.mod_lt _ (by positivity)
    split at h
    next zero =>
      cases h
      refine ⟨⟨by simp only; omega, .inr rfl, le_refl _, by simp only [leastExponent]; omega⟩, ?_⟩
      simp only [magnitudeBits]
      rw [if_pos fraction, Nat.min_eq_left (by omega)]
      omega
    next =>
      cases h
      refine ⟨⟨by simp only; omega, .inl (by simp only; omega), by simp only [leastExponent]; omega,
        by simp only; omega⟩, ?_⟩
      simp only [magnitudeBits]
      rw [if_neg (by omega), Nat.min_eq_left (by omega)]
      omega

/-- A finite double comes back from what `decode` says of it. -/
theorem encode_decode {x : Float} {b : Binary} (h : decode x = .finite b) :
    encode b.negative b.mantissa b.exponent = x := by
  apply Float.toBits_inj.1
  apply UInt64.toNat_inj.1
  rw [toBits_encode, (decode_cases h).2]

/-! ## Comparison -/

/-- A double that compares as equal to a finite one other than zero is that one. -/
theorem eq_of_beq {x y : Float} {b : Binary} (h : (x == y) = true) (hy : decode y = .finite b)
    (hb : b.mantissa ≠ 0) : x = y := by
  have zero : decode 0 = .finite ⟨false, 0, leastExponent⟩ := rfl
  have negativeZero : decode (-0) = .finite ⟨true, 0, leastExponent⟩ := rfl
  rcases (Float.beq_iff_ne_nan_and_eq.1 h).2.2 with same | ⟨_, rfl⟩ | ⟨_, rfl⟩
  · exact same
  · rw [negativeZero] at hy
    cases hy
    exact absurd rfl hb
  · rw [zero] at hy
    cases hy
    exact absurd rfl hb

end CodeSearch.Decimal
