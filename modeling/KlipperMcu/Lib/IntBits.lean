import Mathlib.Data.Int.Bitwise
import Mathlib.Algebra.Order.Ring.Int
import Mathlib.Tactic.Ring
import Mathlib.Tactic.Linarith

/-!
# Bit operations on unbounded integers

Masks and shifts of integers in two's complement, as arithmetic.
-/

namespace KlipperMcu.Lib

lemma bit_eq_add (b : Bool) (x : Int) : Int.bit b x = 2 * x + b.toInt := by
  rw [Int.bit_val]
  cases b <;> rfl

lemma bodd_toInt (x : Int) : (Int.bodd x).toInt = x % 2 := by
  have h := Int.bodd_add_div2 x
  have hdiv := Int.div2_val x
  cases hb : Int.bodd x with
  | false =>
    rw [hb] at h
    change 0 = x % 2
    simp only [cond_false] at h
    omega
  | true =>
    rw [hb] at h
    change 1 = x % 2
    simp only [cond_true] at h
    omega

lemma land_two_pow_sub_one (k : Nat) (x : Int) : Int.land x (2 ^ k - 1) = x % 2 ^ k := by
  induction k generalizing x with
  | zero =>
    rw [pow_zero, Int.sub_self, Int.emod_one]
    cases x <;> simp [Int.land, Nat.ldiff]
  | succ k ih =>
    have hmask : (2 ^ (k + 1) - 1 : Int) = Int.bit true (2 ^ k - 1) := by
      rw [bit_eq_add]
      change _ = 2 * (2 ^ k - 1) + 1
      ring
    have hx : x = Int.bit (Int.bodd x) (x / 2) := by
      rw [bit_eq_add, bodd_toInt]
      omega
    have hmod : x % 2 ^ (k + 1) = 2 * (x / 2 % 2 ^ k) + x % 2 := by
      have hdiv : x / (2 * 2 ^ k) = x / 2 / 2 ^ k := (Int.ediv_ediv_of_nonneg (by decide)).symm
      rw [pow_succ, mul_comm, Int.emod_def, Int.emod_def (x / 2), Int.emod_def x 2, hdiv]
      ring
    calc Int.land x (2 ^ (k + 1) - 1)
        = Int.land (Int.bit (Int.bodd x) (x / 2)) (Int.bit true (2 ^ k - 1)) := by rw [← hx, hmask]
      _ = Int.bit (Int.bodd x) (x / 2 % 2 ^ k) := by rw [Int.land_bit, Bool.and_true, ih]
      _ = x % 2 ^ (k + 1) := by rw [bit_eq_add, bodd_toInt, hmod]

lemma lor_of_lt (k : Nat) (x : Int) {d : Int} (h₀ : 0 ≤ d) (h : d < 2 ^ k) :
    Int.lor (x * 2 ^ k) d = x * 2 ^ k + d := by
  induction k generalizing d with
  | zero =>
    obtain rfl : d = 0 := by omega
    rw [pow_zero, mul_one, Int.add_zero]
    cases x <;> simp [Int.lor, Nat.ldiff]
  | succ k ih =>
    have hx : x * 2 ^ (k + 1) = Int.bit false (x * 2 ^ k) := by
      rw [bit_eq_add]
      change _ = 2 * (x * 2 ^ k) + 0
      ring
    have hd : d = Int.bit (Int.bodd d) (d / 2) := by
      rw [bit_eq_add, bodd_toInt]
      omega
    have hhalf : d / 2 < 2 ^ k := by
      rw [pow_succ] at h
      omega
    calc Int.lor (x * 2 ^ (k + 1)) d
        = Int.lor (Int.bit false (x * 2 ^ k)) (Int.bit (Int.bodd d) (d / 2)) := by rw [hx, ← hd]
      _ = Int.bit (Int.bodd d) (x * 2 ^ k + d / 2) := by
        rw [Int.lor_bit, Bool.false_or, ih (by omega) hhalf]
      _ = x * 2 ^ (k + 1) + d := by
        rw [bit_eq_add, bodd_toInt, pow_succ]
        have := Int.mul_ediv_add_emod d 2
        linarith

end KlipperMcu.Lib
