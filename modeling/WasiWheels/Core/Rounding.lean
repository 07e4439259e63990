import Mathlib.Data.Nat.Bitwise

/-! Rounding a machine word up to a multiple of a power of two with a mask, and what is
left of the word when the sum before the mask wraps around. -/

namespace WasiWheels

namespace Rounding

variable {width exponent : Nat} {align : BitVec width}

theorem toNat_pred (power : align.toNat = 2 ^ exponent) : (align - BitVec.ofNat width 1).toNat = 2 ^ exponent - 1 := by
  have positive : 0 < 2 ^ exponent := Nat.two_pow_pos exponent
  have one : (BitVec.ofNat width 1).toNat = 1 := by
    rw [BitVec.toNat_ofNat]
    exact Nat.mod_eq_of_lt (Nat.lt_of_le_of_lt positive (power ▸ align.isLt))
  rw [BitVec.toNat_sub_of_le, power, one]
  rw [BitVec.le_def, power, one]
  exact positive

/-- The mask clears the bits below the power, as rounding down does. -/
theorem toNat_masked (power : align.toNat = 2 ^ exponent) (word : BitVec width) :
    (word &&& ~~~(align - BitVec.ofNat width 1)).toNat = word.toNat / 2 ^ exponent * 2 ^ exponent := by
  have positive : 0 < 2 ^ exponent := Nat.two_pow_pos exponent
  have below : 2 ^ exponent < 2 ^ width := power ▸ align.isLt
  have mask : 2 ^ width - 1 - (2 ^ exponent - 1) = 2 ^ width - (2 ^ exponent - 1 + 1) := by omega
  rw [BitVec.toNat_and, BitVec.toNat_not, toNat_pred power, mask]
  refine Nat.eq_of_testBit_eq fun index => ?_
  rw [Nat.testBit_and, Nat.testBit_two_pow_sub_succ (by omega), Nat.testBit_two_pow_sub_one,
    ← Nat.shiftRight_eq_div_pow, ← Nat.shiftLeft_eq, Nat.testBit_shiftLeft, Nat.testBit_shiftRight]
  by_cases high : exponent ≤ index
  · have here : exponent + (index - exponent) = index := Nat.add_sub_cancel' high
    by_cases inside : index < width
    · simp [high, here, inside]
    · have far : word.toNat < 2 ^ index :=
        Nat.lt_of_lt_of_le word.isLt (Nat.pow_le_pow_right (by decide) (Nat.le_of_not_lt inside))
      simp [high, here, Nat.testBit_lt_two_pow far]
  · simpa [high] using fun _ _ => Nat.lt_of_not_le high

theorem toNat_sum (power : align.toNat = 2 ^ exponent) (size : BitVec width) :
    (size + align - BitVec.ofNat width 1).toNat = (size.toNat + (2 ^ exponent - 1)) % 2 ^ width := by
  rw [BitVec.sub_eq_add_neg, BitVec.add_assoc, ← BitVec.sub_eq_add_neg, BitVec.toNat_add, toNat_pred power]

/-- A sum within the word is rounded up. -/
theorem toNat_roundUp (power : align.toNat = 2 ^ exponent) (size : BitVec width)
    (fits : size.toNat + align.toNat ≤ 2 ^ width) :
    ((size + align - BitVec.ofNat width 1) &&& ~~~(align - BitVec.ofNat width 1)).toNat =
      (size.toNat + (2 ^ exponent - 1)) / 2 ^ exponent * 2 ^ exponent := by
  have positive : 0 < 2 ^ exponent := Nat.two_pow_pos exponent
  rw [toNat_masked power, toNat_sum power, Nat.mod_eq_of_lt]
  omega

/-- The bits below the power set, as rounding down leaves them clear. -/
theorem or_two_pow_sub_one (number exponent : Nat) :
    number ||| (2 ^ exponent - 1) = number / 2 ^ exponent * 2 ^ exponent + (2 ^ exponent - 1) := by
  have below : 2 ^ exponent - 1 < 2 ^ exponent := Nat.sub_lt (Nat.two_pow_pos exponent) Nat.one_pos
  rw [Nat.mul_comm, Nat.two_pow_add_eq_or_of_lt below]
  refine Nat.eq_of_testBit_eq fun index => ?_
  rw [Nat.testBit_or, Nat.testBit_or, Nat.testBit_two_pow_mul, Nat.testBit_two_pow_sub_one, Nat.testBit_div_two_pow]
  by_cases high : exponent ≤ index
  · simp [high]
  · simp [high, Nat.lt_of_not_le high]

/-- Without a mask: the bits below the power are set in the word before, and one is added. -/
theorem toNat_filled (power : align.toNat = 2 ^ exponent) (word : BitVec width) :
    (((word - BitVec.ofNat width 1) ||| (align - BitVec.ofNat width 1)) + BitVec.ofNat width 1).toNat =
      (word.toNat + (2 ^ exponent - 1)) / 2 ^ exponent * 2 ^ exponent % 2 ^ width := by
  have positive : 0 < 2 ^ exponent := Nat.two_pow_pos exponent
  have below : 2 ^ exponent < 2 ^ width := power ▸ align.isLt
  have one : (BitVec.ofNat width 1).toNat = 1 := by
    rw [BitVec.toNat_ofNat]
    exact Nat.mod_eq_of_lt (by omega)
  rw [BitVec.toNat_add, BitVec.toNat_or, toNat_pred power, one, or_two_pow_sub_one]
  obtain ⟨factor, whole⟩ := Nat.pow_dvd_pow 2 (Nat.le_of_lt ((Nat.pow_lt_pow_iff_right (by decide)).mp below))
  by_cases zero : word.toNat = 0
  · -- the word before is the last one
    have last : (word - BitVec.ofNat width 1).toNat = 2 ^ width - 1 := by
      rw [BitVec.toNat_sub, one, zero, Nat.add_zero]
      exact Nat.mod_eq_of_lt (by omega)
    have some : 0 < factor := Nat.pos_of_ne_zero fun none => by simp [none] at whole
    have first : (2 ^ width - 1) / 2 ^ exponent = factor - 1 := by
      rw [whole, Nat.mul_sub_div 0 _ _ (Nat.mul_pos positive some), Nat.zero_div]
    have round : (factor - 1) * 2 ^ exponent + (2 ^ exponent - 1) + 1 = 2 ^ width := by
      rw [whole, Nat.add_assoc, Nat.sub_add_cancel positive, ← Nat.succ_mul, Nat.succ_eq_add_one,
        Nat.sub_add_cancel some, Nat.mul_comm]
    rw [last, first, round, Nat.mod_self, zero, Nat.zero_add, Nat.div_eq_of_lt (by omega), Nat.zero_mul, Nat.zero_mod]
  · have before : (word - BitVec.ofNat width 1).toNat = word.toNat - 1 := by
      rw [BitVec.toNat_sub_of_le, one]
      rw [BitVec.le_def, one]
      omega
    have shifted : word.toNat + (2 ^ exponent - 1) = word.toNat - 1 + 2 ^ exponent := by omega
    rw [before, shifted, Nat.add_div_right _ positive, Nat.succ_mul]
    congr 1
    omega

/-- A sum that wraps around leaves nothing above the mask. -/
theorem roundUp_wraps (power : align.toNat = 2 ^ exponent) (size : BitVec width)
    (wraps : 2 ^ width < size.toNat + align.toNat) :
    (size + align - BitVec.ofNat width 1) &&& ~~~(align - BitVec.ofNat width 1) = BitVec.ofNat width 0 := by
  have small := size.isLt
  have below : 2 ^ exponent < 2 ^ width := power ▸ align.isLt
  have sum : (size.toNat + (2 ^ exponent - 1)) % 2 ^ width = size.toNat + (2 ^ exponent - 1) - 2 ^ width := by
    rw [Nat.mod_eq_sub_mod (by omega), Nat.mod_eq_of_lt (by omega)]
  refine BitVec.eq_of_toNat_eq ?_
  rw [toNat_masked power, toNat_sum power, sum, Nat.div_eq_of_lt (by omega)]
  simp

/-- Rounding up does not make a number smaller. -/
theorem le_roundUp (size exponent : Nat) : size ≤ (size + (2 ^ exponent - 1)) / 2 ^ exponent * 2 ^ exponent := by
  have positive : 0 < 2 ^ exponent := Nat.two_pow_pos exponent
  have split := Nat.div_add_mod' (size + (2 ^ exponent - 1)) (2 ^ exponent)
  have rest := Nat.mod_lt (size + (2 ^ exponent - 1)) positive
  omega

end Rounding

end WasiWheels
