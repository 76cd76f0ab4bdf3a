import Mathlib.Algebra.Order.Ring.Int
import Mathlib.Logic.Function.Iterate
import Mathlib.Tactic.Linarith

/-!
# A low pass filter in whole numbers

An accumulator moves towards its input by a fraction of the difference, rounded down. Coming from
below it stops short of the input.
-/

namespace KlipperMcu.Lib

/-- One step of the filter. -/
def lowPass (k x acc : Int) : Int := acc + (x - acc) / k

variable {k x acc : Int}

lemma lowPass_nonneg (hk : 0 < k) (hx : 0 ≤ x) (hacc : 0 ≤ acc) : 0 ≤ lowPass k x acc := by
  have hdiv : -acc ≤ (x - acc) / k := by
    rw [Int.le_ediv_iff_mul_le hk]
    have hmul : -acc * k ≤ -acc * 1 := mul_le_mul_of_nonpos_left hk (by omega)
    omega
  unfold lowPass
  omega

lemma le_lowPass (hk : 0 < k) (h : acc ≤ x) : acc ≤ lowPass k x acc := by
  have hdiv := Int.ediv_nonneg (sub_nonneg.mpr h) hk.le
  unfold lowPass
  omega

lemma lt_lowPass (hk : 0 < k) (h : acc < x - (k - 1)) : acc < lowPass k x acc := by
  have hdiv : 1 ≤ (x - acc) / k := by
    rw [Int.le_ediv_iff_mul_le hk]
    omega
  unfold lowPass
  omega

lemma lowPass_le (hk : 0 < k) (h : acc ≤ x - (k - 1)) : lowPass k x acc ≤ x - (k - 1) := by
  unfold lowPass
  rcases h.eq_or_lt with heq | hlt
  · have hdiv : (x - acc) / k = 0 := Int.ediv_eq_zero_of_lt (by omega) (by omega)
    omega
  · have hone : 1 ≤ (x - acc) / k := by
      rw [Int.le_ediv_iff_mul_le hk]
      omega
    have hmul : (x - acc) / k * k ≤ x - acc := Int.ediv_mul_le _ hk.ne'
    nlinarith

lemma iterate_lowPass_le (hk : 0 < k) (h : acc ≤ x - (k - 1)) (n : Nat) :
    (lowPass k x)^[n] acc ≤ x - (k - 1) := by
  induction n generalizing acc with
  | zero => exact h
  | succ n ih => exact ih (lowPass_le hk h)

/-- It gets there after finitely many steps and stays. -/
theorem exists_iterate_lowPass (hk : 0 < k) (h : acc ≤ x - (k - 1)) :
    ∃ n, ∀ m, (lowPass k x)^[n + m] acc = x - (k - 1) := by
  induction hd : (x - (k - 1) - acc).toNat using Nat.strong_induction_on generalizing acc with
  | _ d ih =>
    rcases h.eq_or_lt with heq | hlt
    · refine ⟨0, fun m => ?_⟩
      have hfix : lowPass k x acc = acc := by
        have hle := lowPass_le hk h
        have hge := le_lowPass hk (by omega : acc ≤ x)
        omega
      rw [Nat.zero_add, Function.iterate_fixed hfix, heq]
    · have hup := lt_lowPass hk hlt
      obtain ⟨n, hn⟩ := ih _ (by omega) (lowPass_le hk h) rfl
      refine ⟨n + 1, fun m => ?_⟩
      rw [Nat.add_right_comm, Function.iterate_succ_apply]
      exact hn m

end KlipperMcu.Lib
