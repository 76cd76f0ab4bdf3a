import Mathlib.Data.Nat.Bitwise

/-!
# Signed machine words without overflow

The operations of 32-bit signed words agree with those of the integers when the result is in
range.
-/

namespace KlipperMcu.Lib

variable {a b : Int32}

lemma bmod_of_range {x : Int} (h₀ : -2 ^ 31 ≤ x) (h₁ : x < 2 ^ 31) : x.bmod (2 ^ 32) = x :=
  Int.bmod_eq_of_le (by omega) (by omega)

lemma toInt_add_of_range (h₀ : -2 ^ 31 ≤ a.toInt + b.toInt) (h₁ : a.toInt + b.toInt < 2 ^ 31) :
    (a + b).toInt = a.toInt + b.toInt := by
  rw [Int32.toInt_add, bmod_of_range h₀ h₁]

lemma toInt_sub_of_range (h₀ : -2 ^ 31 ≤ a.toInt - b.toInt) (h₁ : a.toInt - b.toInt < 2 ^ 31) :
    (a - b).toInt = a.toInt - b.toInt := by
  rw [Int32.toInt_sub, bmod_of_range h₀ h₁]

lemma toInt_mul_of_range (h₀ : -2 ^ 31 ≤ a.toInt * b.toInt) (h₁ : a.toInt * b.toInt < 2 ^ 31) :
    (a * b).toInt = a.toInt * b.toInt := by
  rw [Int32.toInt_mul, bmod_of_range h₀ h₁]

lemma toInt_div_of_pos (hb : 0 < b.toInt) : (a / b).toInt = a.toInt.tdiv b.toInt := by
  have hlt := a.toInt_lt
  have hle := a.le_toInt
  have habs := Int.natAbs_tdiv_le_natAbs a.toInt b.toInt
  rw [Int32.toInt_div]
  rcases Int.le_total 0 a.toInt with hpos | hneg
  · have hq := Int.tdiv_nonneg hpos (Int.le_of_lt hb)
    exact bmod_of_range (by omega) (by omega)
  · have hq := Int.tdiv_nonneg (Int.neg_nonneg_of_nonpos hneg) (Int.le_of_lt hb)
    rw [Int.neg_tdiv] at hq
    exact bmod_of_range (by omega) (by omega)

lemma tdiv_of_nonpos {n d : Int} (hn : n ≤ 0) (hd : 0 < d) :
    n ≤ n.tdiv d * d ∧ n.tdiv d * d < n + d := by
  have hq : n.tdiv d = -((-n) / d) := by
    rw [← Int.tdiv_eq_ediv_of_nonneg (Int.neg_nonneg_of_nonpos hn), Int.neg_tdiv, Int.neg_neg]
  have hlo := Int.ediv_mul_le (-n) (Int.ne_of_gt hd)
  have hhi := Int.lt_ediv_add_one_mul_self (-n) hd
  rw [hq, Int.neg_mul]
  rw [Int.add_mul, Int.one_mul] at hhi
  omega

lemma tdiv_of_nonneg {n d : Int} (hn : 0 ≤ n) (hd : 0 < d) :
    n.tdiv d * d ≤ n ∧ n < n.tdiv d * d + d := by
  have hlo := Int.ediv_mul_le n (Int.ne_of_gt hd)
  have hhi := Int.lt_ediv_add_one_mul_self n hd
  rw [Int.tdiv_eq_ediv_of_nonneg hn]
  rw [Int.add_mul, Int.one_mul] at hhi
  exact ⟨hlo, hhi⟩

lemma toInt_toInt32_ofNat {n : Nat} (h : n < 2 ^ 31) : (UInt32.ofNat n).toInt32.toInt = n := by
  have hnat : (UInt32.ofNat n).toNat = n := by
    rw [UInt32.toNat_ofNat']
    omega
  rw [← Int32.toInt_toBitVec, UInt32.toBitVec_toInt32, BitVec.toInt_eq_toNat_of_lt]
  · rw [UInt32.toNat_toBitVec, hnat]
  · rw [UInt32.toNat_toBitVec, hnat]
    omega

lemma toNat_toUInt32_of_nonneg (h : 0 ≤ a.toInt) : (a.toUInt32.toNat : Int) = a.toInt := by
  have hcond := BitVec.toInt_eq_toNat_cond a.toBitVec
  have hlt := a.toBitVec.isLt
  rw [Int32.toInt_toBitVec] at hcond
  change (a.toBitVec.toNat : Int) = _
  split at hcond <;> omega

end KlipperMcu.Lib
