import Mathlib.Algebra.Order.Ring.Nat
import Mathlib.Tactic.Linarith
import Mathlib.Tactic.Ring

/-!
# Newton's iteration for the integer square root

A guess that is not below the root is replaced by the mean of itself and the quotient, as long as
that is smaller.
-/

namespace KlipperMcu.Lib

lemma lt_newton_succ_sq {v r : Nat} (hr : 0 < r) :
    v < ((v / r + r) / 2 + 1) * ((v / r + r) / 2 + 1) := by
  set q := v / r with hq
  set m := (q + r) / 2 with hm
  have hv : v < r * (q + 1) := Nat.lt_mul_div_succ v hr
  have hsum : r + (q + 1) ≤ 2 * (m + 1) := by omega
  have hmean : 4 * (r * (q + 1)) ≤ (r + (q + 1)) * (r + (q + 1)) := by
    have h := four_mul_le_sq_add r (q + 1)
    rw [sq] at h
    linarith
  have hsq := Nat.mul_le_mul hsum hsum
  linarith

lemma sq_le_of_le_newton {v r : Nat} (h : r ≤ (v / r + r) / 2) : r * r ≤ v := by
  have hle : r ≤ v / r := by omega
  exact (Nat.mul_le_mul_left r hle).trans (Nat.mul_div_le v r)

end KlipperMcu.Lib
