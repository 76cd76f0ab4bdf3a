import Mathlib.Algebra.Order.Ring.Int
import Mathlib.Data.Nat.Choose.Basic
import Mathlib.Tactic.Ring
import Mathlib.Tactic.Linarith

/-!
# Sequences with a constant second difference

`quad interval add k` is the sum of the first `k` terms of the arithmetic progression that starts
with `interval` and grows by `add`.
-/

namespace KlipperMcu.Lib

/-- The triangular number `0 + 1 + ... + (n - 1)`. -/
def tri (n : Nat) : Nat := n * (n - 1) / 2

@[simp] lemma tri_zero : tri 0 = 0 := rfl

@[simp] lemma tri_one : tri 1 = 0 := rfl

lemma tri_succ (n : Nat) : tri (n + 1) = tri n + n := Nat.triangle_succ n

lemma two_mul_tri (n : Nat) : 2 * tri n = n * (n - 1) := by
  induction n with
  | zero => rfl
  | succ n ih =>
    rw [tri_succ, Nat.mul_add, ih, Nat.add_sub_cancel]
    cases n with
    | zero => rfl
    | succ n =>
      rw [Nat.add_sub_cancel]
      ring

lemma two_mul_tri_int (n : Nat) : 2 * (tri n : Int) = n * (n - 1) := by
  induction n with
  | zero => rfl
  | succ n ih =>
    rw [tri_succ]
    push_cast
    linarith

def quad (interval add : Int) (k : Nat) : Int := k * interval + add * tri k

@[simp] lemma quad_zero (interval add : Int) : quad interval add 0 = 0 := by simp [quad]

@[simp] lemma quad_one (interval add : Int) : quad interval add 1 = interval := by simp [quad]

lemma quad_succ (interval add : Int) (k : Nat) :
    quad interval add (k + 1) = quad interval add k + (interval + k * add) := by
  unfold quad
  rw [tri_succ]
  push_cast
  ring

lemma quad_shift (interval add : Int) (k : Nat) :
    quad interval add (k + 1) = interval + quad (interval + add) add k := by
  unfold quad
  rw [tri_succ]
  push_cast
  ring

lemma quad_le_quad {interval add : Int} {k n : Nat} (hk : k ≤ n)
    (h : ∀ j < n, 0 ≤ interval + j * add) : quad interval add k ≤ quad interval add n := by
  induction n with
  | zero =>
    obtain rfl : k = 0 := by omega
    exact le_refl _
  | succ n ih =>
    rcases Nat.lt_or_ge n k with hlt | hle
    · obtain rfl : k = n + 1 := by omega
      exact le_refl _
    · have hrec := ih hle (fun j hj => h j (by omega))
      have hlast := h n (by omega)
      rw [quad_succ]
      omega

lemma abs_mul_tri_le_quad {interval add : Int} {n : Nat} (hn : 1 ≤ n) (h₀ : 0 ≤ interval)
    (h₁ : 0 ≤ interval + ((n - 1 : Nat) : Int) * add) : |add| * tri n ≤ quad interval add n := by
  have htwo := two_mul_tri_int n
  have hcast : ((n - 1 : Nat) : Int) = n - 1 := by omega
  rw [hcast] at h₁
  have hn0 : (0 : Int) ≤ n := Int.natCast_nonneg n
  have hfirst : 0 ≤ (n : Int) * interval := mul_nonneg hn0 h₀
  unfold quad
  rcases le_total 0 add with hpos | hneg
  · rw [abs_of_nonneg hpos]
    linarith
  · have hlast : 0 ≤ (n : Int) * (interval + (n - 1) * add) := mul_nonneg hn0 h₁
    have hexp : (n : Int) * (interval + (n - 1) * add) = n * interval + add * (n * (n - 1)) := by ring
    rw [hexp, ← htwo] at hlast
    rw [abs_of_nonpos hneg]
    linarith

lemma tri_le_quad {interval add : Int} {n : Nat} (hadd : add ≠ 0) (hn : 1 ≤ n)
    (h₀ : 0 ≤ interval) (h₁ : 0 ≤ interval + ((n - 1 : Nat) : Int) * add) :
    (tri n : Int) ≤ quad interval add n := by
  have htri : (0 : Int) ≤ tri n := Int.natCast_nonneg _
  have hone : 1 ≤ |add| := Int.one_le_abs hadd
  exact le_trans (le_mul_of_one_le_left htri hone) (abs_mul_tri_le_quad hn h₀ h₁)

lemma quad_le_quad_left {interval interval' add : Int} (h : interval ≤ interval') (k : Nat) :
    quad interval add k ≤ quad interval' add k := by
  have hmul := mul_le_mul_of_nonneg_left h (Int.natCast_nonneg k)
  unfold quad
  linarith

end KlipperMcu.Lib
