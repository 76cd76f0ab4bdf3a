import Mathlib.Data.Nat.Bitwise

/-!
# Machine words as numbers

Conversions between 32-bit words and the numbers they stand for, in the form that linear
arithmetic can use.
-/

namespace KlipperMcu.Lib

lemma toNat_neg_eq (x : UInt32) : (-x).toNat = (2 ^ 32 - x.toNat) % 2 ^ 32 := UInt32.toNat_neg x

lemma toNat_ofNat_of_lt {n : Nat} (h : n < 2 ^ 32) : (UInt32.ofNat n).toNat = n := by
  rw [UInt32.toNat_ofNat']
  exact Nat.mod_eq_of_lt h

lemma toNat_ofInt (x : Int) : ((UInt32.ofInt x).toNat : Int) = x % 2 ^ 32 := by
  have hpos : 0 ≤ x % 2 ^ 32 := Int.emod_nonneg _ (by decide)
  have hlt : x % 2 ^ 32 < 2 ^ 32 := Int.emod_lt_of_pos _ (by decide)
  rw [UInt32.ofInt, toNat_ofNat_of_lt (by omega)]
  exact Int.toNat_of_nonneg hpos

lemma ofInt_natCast (n : Nat) : UInt32.ofInt n = UInt32.ofNat n := by
  rw [← UInt32.toNat_inj]
  have h := toNat_ofInt n
  rw [UInt32.toNat_ofNat']
  omega

lemma ofInt_congr {x y : Int} (h : x % 2 ^ 32 = y % 2 ^ 32) : UInt32.ofInt x = UInt32.ofInt y := by
  unfold UInt32.ofInt
  rw [h]

lemma toUInt32_int16 (x : Int16) : x.toInt32.toUInt32 = UInt32.ofInt x.toInt := by
  have hx : x.toInt32.toInt = x.toInt := Int16.toInt_toInt32 x
  have hlt := x.toInt_lt
  have hle := x.le_toInt
  have hof := toNat_ofInt x.toInt
  rw [← UInt32.toNat_inj]
  rw [← hx, ← Int32.toInt_toBitVec, BitVec.toInt_eq_toNat_cond] at hof hlt hle
  change x.toInt32.toBitVec.toNat = _
  rw [← hx, ← Int32.toInt_toBitVec, BitVec.toInt_eq_toNat_cond]
  have hb := x.toInt32.toBitVec.isLt
  split at hof <;> rename_i hc <;> simp only [hc, if_true, if_false] at * <;> omega

lemma toInt16_toUInt32_int16 (x : Int16) : x.toInt32.toUInt32.toUInt16.toInt16 = x := by
  have h : x.toInt32.toUInt32.toUInt16.toInt16 = x.toInt32.toInt16 := by
    rw [← Int16.toBitVec_inj, UInt16.toBitVec_toInt16, UInt32.toBitVec_toUInt16,
      Int32.toBitVec_toInt16, BitVec.signExtend_eq_setWidth_of_le _ (by decide)]
    rfl
  rw [h, Int16.toInt16_toInt32]

lemma and_two_pow_eq_zero_iff {n k : Nat} (hn : n < 2 ^ (k + 1)) :
    n &&& 2 ^ k = 0 ↔ n < 2 ^ k := by
  rw [Nat.and_two_pow, Nat.mul_eq_zero, Bool.toNat_eq_zero, or_iff_left (Nat.two_pow_pos k).ne']
  constructor
  · intro hbit
    by_contra hlt
    rw [Nat.testBit_of_two_pow_le_and_two_pow_add_one_gt (Nat.not_lt.mp hlt) hn] at hbit
    cases hbit
  · exact Nat.testBit_lt_two_pow

lemma and_top_ne_zero_iff (x : UInt32) : x &&& 0x80000000 ≠ 0 ↔ 2 ^ 31 ≤ x.toNat := by
  have htop : (0x80000000 : UInt32).toNat = 2 ^ 31 := rfl
  rw [ne_eq, ← UInt32.toNat_inj, UInt32.toNat_and, htop, UInt32.toNat_zero,
    and_two_pow_eq_zero_iff x.toNat_lt, Nat.not_lt]

lemma and_one_eq_zero_iff (x : UInt32) : x &&& 1 = 0 ↔ x.toNat % 2 = 0 := by
  rw [← UInt32.toNat_inj, UInt32.toNat_and, UInt32.toNat_one, Nat.and_one_is_mod, UInt32.toNat_zero]

lemma forall_byte {P : UInt8 → Prop} (h : ∀ n < 256, P (UInt8.ofNat n)) (c : UInt8) : P c := by
  have hc := h c.toNat c.toNat_lt
  rwa [UInt8.ofNat_toNat] at hc

lemma and_0x80_eq_zero_iff (c : UInt8) : c &&& 0x80 = 0 ↔ c.toNat < 128 := by
  have htop : (0x80 : UInt8).toNat = 2 ^ 7 := rfl
  rw [← UInt8.toNat_inj, UInt8.toNat_and, htop, UInt8.toNat_zero,
    and_two_pow_eq_zero_iff c.toNat_lt]
  rfl

lemma toNat_and_0x7f (c : UInt8) : (c &&& 0x7f).toNat = c.toNat % 128 := by
  rw [UInt8.toNat_and]
  exact Nat.and_two_pow_sub_one_eq_mod c.toNat 7

lemma toInt_toInt32 (x : UInt32) :
    x.toInt32.toInt = if x.toNat < 2 ^ 31 then (x.toNat : Int) else x.toNat - 2 ^ 32 := by
  rw [← Int32.toInt_toBitVec, UInt32.toBitVec_toInt32, BitVec.toInt_eq_toNat_cond,
    UInt32.toNat_toBitVec]
  split <;> split <;> omega

end KlipperMcu.Lib
