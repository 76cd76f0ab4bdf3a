import Mathlib.Algebra.Order.Ring.Int
import Mathlib.Order.Iterate
import Mathlib.Tactic.Ring

/-!
# A sum with a leak

A running sum to which samples are added and from which a fixed part of it, rounded down, is taken.
What is left grows with the sum, so that the part that is taken stays between the samples. If the
same sample is added again and again, the difference to it leaks away down to the rounding.
-/

namespace KlipperMcu.Lib

/-- What is left of a sum after a `k`-th of it was taken. -/
def leak (k y : Int) : Int := y - y / k

variable {k y z lo hi : Int} {n : Nat}

lemma leak_le_leak (hk : 0 < k) (hyz : y ≤ z) : leak k y ≤ leak k z := by
  have hstep : z / k ≤ y / k + (z - y) := by
    rw [← Int.add_mul_ediv_right _ _ hk.ne']
    apply Int.ediv_le_ediv hk
    have hmul : (z - y) * 1 ≤ (z - y) * k := mul_le_mul_of_nonneg_left hk (by omega)
    omega
  unfold leak
  omega

lemma leak_add_mul (hk : k ≠ 0) (y x : Int) : leak k (y + k * x) = leak k y + (k - 1) * x := by
  unfold leak
  rw [Int.add_mul_ediv_left _ _ hk]
  ring

lemma leak_mul (hk : k ≠ 0) (x : Int) : leak k (k * x) = (k - 1) * x := by
  unfold leak
  rw [Int.mul_ediv_cancel_left _ hk, sub_mul, one_mul]

lemma leak_mem (hk : 0 < k) (hlo : k * lo ≤ y) (hhi : y ≤ k * hi) :
    (k - 1) * lo ≤ leak k y ∧ leak k y ≤ (k - 1) * hi := by
  rw [← leak_mul hk.ne', ← leak_mul hk.ne']
  exact ⟨leak_le_leak hk hlo, leak_le_leak hk hhi⟩

lemma ediv_mem (hk : 0 < k) (hlo : k * lo ≤ y) (hhi : y ≤ k * hi) : lo ≤ y / k ∧ y / k ≤ hi := by
  constructor
  · rwa [Int.le_ediv_iff_mul_le hk, mul_comm]
  · apply Int.le_of_lt_add_one
    rw [Int.ediv_lt_iff_lt_mul hk, add_mul, one_mul, mul_comm hi]
    omega

/-! ### Leaking away -/

lemma leak_of_lt (h₀ : 0 ≤ y) (hlt : y < k) : leak k y = y := by
  rw [leak, Int.ediv_eq_zero_of_lt h₀ hlt, sub_zero]

/-- Whether the rest gets into the range of the rounding within `n` steps. -/
def settles (k : Int) : Nat → Int → Bool
  | 0, y => decide (0 ≤ y ∧ y < k)
  | n + 1, y => decide (0 ≤ y ∧ y < k) || settles k n (leak k y)

lemma iterate_leak_of_settles (h : settles k n y = true) :
    0 ≤ (leak k)^[n] y ∧ (leak k)^[n] y < k := by
  induction n generalizing y with
  | zero => exact of_decide_eq_true h
  | succ n ih =>
    rcases Bool.or_eq_true_iff.mp h with hin | hrest
    · have hin := of_decide_eq_true hin
      rw [Function.iterate_fixed (leak_of_lt hin.1 hin.2)]
      exact hin
    · exact ih hrest

lemma iterate_leak_mem (hk : 0 < k) (hlo : lo ≤ y) (hhi : y ≤ hi) (hslo : settles k n lo = true)
    (hshi : settles k n hi = true) : 0 ≤ (leak k)^[n] y ∧ (leak k)^[n] y < k := by
  have hleak : Monotone (leak k) := fun _ _ hyz => leak_le_leak hk hyz
  have hmono := hleak.iterate n
  exact ⟨(iterate_leak_of_settles hslo).1.trans (hmono hlo),
    (hmono hhi).trans_lt (iterate_leak_of_settles hshi).2⟩

end KlipperMcu.Lib
