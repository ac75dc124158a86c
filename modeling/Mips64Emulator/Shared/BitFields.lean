import Mathlib.Data.Nat.Bitwise

set_option autoImplicit false

namespace BitFields

theorem toNat_and_mask {n : Nat} (word : BitVec n) (width : Nat) (fits : width ≤ n) :
    (word &&& BitVec.ofNat n (2 ^ width - 1)).toNat = word.toNat % 2 ^ width := by
  have small : 2 ^ width - 1 < 2 ^ n := by
    have positive := Nat.two_pow_pos width
    have bounded := Nat.pow_le_pow_right (n := 2) (by omega) fits
    omega
  rw [BitVec.toNat_and, BitVec.toNat_ofNat, Nat.mod_eq_of_lt small, Nat.and_two_pow_sub_one_eq_mod]

theorem and_mask_eq_zero_iff {n : Nat} (word : BitVec n) (width : Nat) (fits : width ≤ n) :
    word &&& BitVec.ofNat n (2 ^ width - 1) = 0 ↔ 2 ^ width ∣ word.toNat := by
  rw [BitVec.toNat_eq, toNat_and_mask word width fits, Nat.dvd_iff_mod_eq_zero]
  simp

theorem toNat_shift_mask {m : Nat} (word : BitVec m) (n low width : Nat) (fits : width ≤ n) :
    ((word >>> low).setWidth n &&& BitVec.ofNat n (2 ^ width - 1)).toNat =
      word.toNat / 2 ^ low % 2 ^ width := by
  rw [toNat_and_mask _ width fits, BitVec.toNat_setWidth, BitVec.toNat_ushiftRight,
    Nat.shiftRight_eq_div_pow, Nat.mod_mod_of_dvd _ (Nat.pow_dvd_pow 2 fits)]

theorem setWidth_and_mask {n : Nat} (word : BitVec n) (width : Nat) (fits : width ≤ n) :
    (word &&& BitVec.ofNat n (2 ^ width - 1)).setWidth width = word.setWidth width := by
  apply BitVec.eq_of_toNat_eq
  rw [BitVec.toNat_setWidth, toNat_and_mask word width fits, BitVec.toNat_setWidth, Nat.mod_mod]

theorem signExtend_signExtend {n m k : Nat} (word : BitVec n) (first : n ≤ m) (second : m ≤ k) :
    (word.signExtend m).signExtend k = word.signExtend k := by
  apply BitVec.eq_of_toInt_eq
  rw [BitVec.toInt_signExtend_of_le second, BitVec.toInt_signExtend_of_le first,
    BitVec.toInt_signExtend_of_le (first.trans second)]

theorem signExtend_inj {n m : Nat} (left right : BitVec n) (wider : n ≤ m) :
    left.signExtend m = right.signExtend m ↔ left = right := by
  rw [← BitVec.toInt_inj, BitVec.toInt_signExtend_of_le wider, BitVec.toInt_signExtend_of_le wider,
    BitVec.toInt_inj]

end BitFields
