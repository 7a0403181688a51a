import Mathlib
import Switchboard.Decimal.Binary

namespace Switchboard.Decimal.Binary
open Float.Model
open Float.Model.UnpackedFloat (unpackMantissa unpackExponent unpackSign)

-- the fraction that a floating-point number stands for, told by its sign, mantissa and exponent
def ofUnpacked? : UnpackedFloat → Option Binary
  | .finite sign mantissa exponent _ => some ⟨sign matches .negative, mantissa, exponent⟩
  | .zero sign => some ⟨sign matches .negative, 0, -1074⟩
  | _ => none

section
variable (v : BitVec Format.binary64.numBits)

theorem unpackMantissa_toNat : (unpackMantissa v).toNat = v.toNat % twoTo 52 := by
  simp [unpackMantissa, BitVec.extractLsb_toNat, twoTo]

theorem unpackExponent_toNat : (unpackExponent v).toNat = v.toNat / twoTo 52 % twoTo 11 := by
  simp [unpackExponent, BitVec.extractLsb_toNat, twoTo, Nat.shiftRight_eq_div_pow]

theorem unpackSign_toNat : (unpackSign v).toNat = v.toNat / twoTo 63 := by
  have bound : v.toNat < 2 ^ 64 := v.isLt
  simp [unpackSign, BitVec.extractLsb_toNat, twoTo, Nat.shiftRight_eq_div_pow]
  omega

theorem ofBitVec_negative (b : BitVec 1) :
    (UnpackedFloat.Sign.ofBitVec b matches .negative) = decide (b.toNat ≠ 0) := by
  revert b
  decide

theorem unpackSign_negative :
    (UnpackedFloat.Sign.ofBitVec (unpackSign v) matches .negative) = decide (twoTo 63 ≤ v.toNat) := by
  have positive : 0 < twoTo 63 := by decide
  rw [ofBitVec_negative, unpackSign_toNat, decide_eq_decide, ← Nat.pos_iff_ne_zero, Nat.div_pos_iff]
  simp [positive]

-- the bit in front of the mantissa of a number that is not subnormal
theorem hidden_toNat : (1#1 ++ unpackMantissa v).toNat = (unpackMantissa v).toNat + twoTo 52 := by
  rw [BitVec.toNat_append, ← Nat.shiftLeft_add_eq_or_of_lt (unpackMantissa v).isLt]
  exact Nat.add_comm _ _

end

theorem ofFloat?_unpacked (x : Float) : ofFloat? x = ofUnpacked? x.toModel.unpack := by
  obtain ⟨v, bits⟩ : ∃ v : BitVec Format.binary64.numBits, x.toModel.toBits.toBitVec = v := ⟨_, rfl⟩
  have number : x.toBits.toNat = v.toNat := congrArg BitVec.toNat bits
  have sign := unpackSign_negative v
  have ones : unpackExponent v = -1#_ ↔ (unpackExponent v).toNat = 2047 := BitVec.toNat_inj.symm
  have zeros : unpackExponent v = 0#_ ↔ (unpackExponent v).toNat = 0 := BitVec.toNat_inj.symm
  have bias : Format.binary64.exponentBias = 1023 := rfl
  unfold ofFloat? Float.Model.unpack UnpackedFloat.unpack
  rw [number, bits]
  dsimp only
  rw [← unpackMantissa_toNat, ← unpackExponent_toNat]
  simp only [ones, zeros]
  split
  · split <;> rfl
  · split
    · next subnormal =>
      split
      · next zero => simp [ofUnpacked?, sign, zero]
      · simp [ofUnpacked?, sign, subnormal, bias]
    · simp only [ofUnpacked?, sign, hidden_toNat v, bias]
      rfl

theorem finite_equal {x : Float} {b : Binary} (finite : ofFloat? x = some b) : (x == x) = true := by
  rw [ofFloat?_unpacked] at finite
  show (x.toModel.unpack.compare x.toModel.unpack == some .eq) = true
  cases number : x.toModel.unpack with
  | infinity | notANumber => simp [number, ofUnpacked?] at finite
  | zero sign => cases sign <;> rfl
  | finite sign mantissa exponent positive =>
    cases sign <;> simp [UnpackedFloat.compare]

def value (b : Binary) : ℚ := b.signed b.mantissa * 2 ^ b.exponent

theorem signed_mul (b : Binary) (m k : Nat) : b.signed (m * k) = b.signed m * k := by
  unfold signed
  split <;> simp

theorem signed_natAbs (b : Binary) (m : Nat) : (b.signed m).natAbs = m := by
  unfold signed
  split <;> simp

theorem toInt?_eq_some_iff {b : Binary} {n : Int} : b.toInt? = some n ↔ b.value = n := by
  unfold toInt? value
  generalize b.mantissa = mantissa
  cases b.exponent with
  | ofNat e =>
    simp only [signed_mul, Option.some.injEq, Int.ofNat_eq_natCast, zpow_natCast]
    rw [← Int.cast_inj (α := ℚ)]
    simp [twoTo]
  | negSucc e =>
    dsimp only
    have positive : (twoTo (e + 1) : ℚ) ≠ 0 := by simp [twoTo]
    have power : (2 : ℚ) ^ Int.negSucc e = (twoTo (e + 1) : ℚ)⁻¹ := by
      rw [zpow_negSucc]
      simp [twoTo]
    have scaled : (b.signed mantissa : ℚ) * (twoTo (e + 1) : ℚ)⁻¹ = n ↔
        b.signed mantissa = n * (twoTo (e + 1) : Int) := by
      rw [← div_eq_mul_inv, div_eq_iff positive]
      exact_mod_cast Iff.rfl
    rw [power, scaled]
    have nonzero : (twoTo (e + 1) : Int) ≠ 0 := by exact_mod_cast positive
    split
    · next divides =>
      have whole : b.signed mantissa = b.signed (mantissa / twoTo (e + 1)) * (twoTo (e + 1) : Int) := by
        rw [← signed_mul, Nat.div_mul_cancel (Nat.dvd_of_mod_eq_zero divides)]
      rw [whole, Option.some.injEq]
      exact (mul_left_inj' nonzero).symm
    · next remains =>
      refine iff_of_false (by simp) ?_
      intro whole
      have divides : twoTo (e + 1) ∣ mantissa := by
        have := congrArg Int.natAbs whole
        rw [signed_natAbs, Int.natAbs_mul, Int.natAbs_natCast] at this
        exact this ▸ Nat.dvd_mul_left _ _
      exact remains (Nat.mod_eq_zero_of_dvd divides)

theorem toInt?_eq_none_iff {b : Binary} : b.toInt? = none ↔ ∀ n : Int, b.value ≠ n := by
  rw [Option.eq_none_iff_forall_ne_some]
  exact forall_congr' fun n => not_congr toInt?_eq_some_iff

-- The mantissa has its full length, or the exponent is the least.
structure Normal (b : Binary) : Prop where
  mantissa : b.mantissa < 2 ^ 53
  exponent : -1074 ≤ b.exponent
  full : -1074 < b.exponent → 2 ^ 52 ≤ b.mantissa

-- the bits that a fraction is read off
def bits (b : Binary) : Nat :=
  (if b.negative then 2 ^ 63 else 0) +
    if b.mantissa < 2 ^ 52 then b.mantissa else (b.exponent + 1074).toNat * 2 ^ 52 + b.mantissa

theorem ofFloat?_normal {x : Float} {b : Binary} (finite : ofFloat? x = some b) :
    b.Normal ∧ x.toBits.toNat = b.bits := by
  have bound : x.toBits.toNat < 2 ^ 64 := x.toBits.toNat_lt
  have powers : twoTo 63 = 2 ^ 63 ∧ twoTo 52 = 2 ^ 52 ∧ twoTo 11 = 2 ^ 11 := ⟨rfl, rfl, rfl⟩
  unfold ofFloat? at finite
  generalize x.toBits.toNat = n at finite bound ⊢
  simp only [powers] at finite
  split at finite
  · cases finite
  · split at finite <;> cases finite
    · refine ⟨⟨?_, ?_, ?_⟩, ?_⟩
      · dsimp only; omega
      · dsimp only; omega
      · intro more; exact absurd more (by simp)
      · simp only [bits, decide_eq_true_eq]
        split <;> split <;> omega
    · refine ⟨⟨?_, ?_, ?_⟩, ?_⟩
      · dsimp only; omega
      · dsimp only; omega
      · dsimp only; omega
      · simp only [bits, decide_eq_true_eq]
        split <;> split <;> omega

theorem ofFloat?_injective {x y : Float} {b : Binary} (finite : ofFloat? x = some b)
    (finite' : ofFloat? y = some b) : x = y := by
  have same : x.toBits.toNat = y.toBits.toNat := by
    rw [(ofFloat?_normal finite).2, (ofFloat?_normal finite').2]
  obtain ⟨⟨bits, valid⟩⟩ := x
  obtain ⟨⟨bits', valid'⟩⟩ := y
  obtain rfl : bits = bits' := UInt64.toNat_inj.mp same
  rfl

-- Brought to one exponent, equal fractions have the same mantissa.
theorem value_aligned {b c : Binary} (below : b.exponent ≤ c.exponent) (same : b.value = c.value) :
    b.signed b.mantissa = c.signed c.mantissa * 2 ^ (c.exponent - b.exponent).toNat := by
  have two : (2 : ℚ) ≠ 0 := by norm_num
  have split : c.exponent = (c.exponent - b.exponent).toNat + b.exponent := by omega
  unfold value at same
  rw [split, zpow_add₀ two, ← mul_assoc, zpow_natCast] at same
  exact_mod_cast mul_right_cancel₀ (zpow_ne_zero _ two) same

theorem value_zero {b : Binary} (zero : b.mantissa = 0) : b.value = 0 := by
  simp [value, signed, zero]

theorem normal_aligned {b c : Binary} (normal : b.Normal) (normal' : c.Normal) (nonzero : b.value ≠ 0)
    (same : b.value = c.value) (below : b.exponent ≤ c.exponent) : b = c := by
  have aligned := value_aligned below same
  have sizes := congrArg Int.natAbs aligned
  rw [signed_natAbs, Int.natAbs_mul, signed_natAbs, Int.natAbs_pow] at sizes
  change b.mantissa = c.mantissa * 2 ^ (c.exponent - b.exponent).toNat at sizes
  have level : b.exponent = c.exponent := by
    by_contra different
    -- one more binary digit than a mantissa has
    have longer : 2 ^ 1 ≤ 2 ^ (c.exponent - b.exponent).toNat := Nat.pow_le_pow_right (by decide) (by omega)
    have full := normal'.full (by have := normal.exponent; omega)
    have size := normal.mantissa
    have := Nat.mul_le_mul full longer
    omega
  rw [level, sub_self, Int.toNat_zero, pow_zero, mul_one] at aligned
  obtain ⟨negative, mantissa, exponent⟩ := b
  obtain ⟨negative', mantissa', exponent'⟩ := c
  have positive : mantissa ≠ 0 := fun zero => nonzero (value_zero zero)
  obtain rfl : exponent = exponent' := level
  unfold signed at aligned
  cases negative <;> cases negative' <;> simp at aligned ⊢ <;> omega

theorem normal_ext {b c : Binary} (normal : b.Normal) (normal' : c.Normal) (nonzero : b.value ≠ 0)
    (same : b.value = c.value) : b = c := by
  rcases le_total b.exponent c.exponent with below | above
  · exact normal_aligned normal normal' nonzero same below
  · exact (normal_aligned normal' normal (same ▸ nonzero) same.symm above).symm

end Switchboard.Decimal.Binary
