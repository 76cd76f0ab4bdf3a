import Mathlib.Logic.Basic
import Mathlib.Algebra.Ring.Nat

/-!
# Symbols on a line

A line carries a sequence of symbols of one width. Its driver only acts when the level has to
change, and the line keeps the level that was set last.
-/

namespace KlipperMcu.Lib

variable {α : Type*}

/-- The line from time `t` on has level `v`. -/
def drive (level : Nat → α) (t : Nat) (v : α) : Nat → α :=
  fun τ => if τ < t then level τ else v

/-- The line shows the first `count` symbols from `start` on. -/
def Shows (symbol : Nat → α) (start width count : Nat) (level : Nat → α) : Prop :=
  ∀ k < count, ∀ τ, start + k * width ≤ τ → τ < start + (k + 1) * width → level τ = symbol k

variable {symbol : Nat → α} {start width p q : Nat} {level : Nat → α}

lemma shows_zero : Shows symbol start width 0 level := by
  intro k hk
  exact absurd hk (Nat.not_lt_zero k)

/-- A line that is idle until `start` and carries symbols from then on. -/
def carry (idle : α) (symbol : Nat → α) (start width : Nat) : Nat → α :=
  fun τ => if τ < start then idle else symbol ((τ - start) / width)

lemma shows_carry (idle : α) (symbol : Nat → α) (start width count : Nat) :
    Shows symbol start width count (carry idle symbol start width) := by
  intro k _ τ hle hlt
  obtain ⟨r, rfl⟩ := Nat.exists_eq_add_of_le hle
  rw [Nat.succ_mul] at hlt
  have hr : r < width := by omega
  have hsub : start + k * width + r - start = width * k + r := by
    rw [Nat.mul_comm]
    omega
  unfold carry
  rw [if_neg (by omega), hsub, Nat.mul_add_div (by omega), Nat.div_eq_of_lt hr, Nat.add_zero]

lemma Shows.sample (h : Shows symbol start width p level) {phase k : Nat} (hphase : phase < width)
    (hk : k < p) : level (start + phase + k * width) = symbol k := by
  apply h k hk
  · omega
  · rw [Nat.succ_mul]
    omega

lemma Shows.drive_after {v : α} {t : Nat} (h : Shows symbol start width p level)
    (ht : start + p * width ≤ t) : Shows symbol start width p (drive level t v) := by
  intro k hk τ hle hlt
  have hend : (k + 1) * width ≤ p * width := Nat.mul_le_mul_right _ hk
  unfold Lib.drive
  rw [if_pos (by omega)]
  exact h k hk τ hle hlt

lemma Shows.drive {v : α} (h : Shows symbol start width p level)
    (hsame : ∀ k, p ≤ k → k < q → symbol k = v) :
    Shows symbol start width q (drive level (start + p * width) v) := by
  intro k hk τ hle hlt
  unfold Lib.drive
  by_cases hkp : k < p
  · have hend : (k + 1) * width ≤ p * width := Nat.mul_le_mul_right _ hkp
    rw [if_pos (by omega)]
    exact h k hkp τ hle hlt
  · have hbegin : p * width ≤ k * width := Nat.mul_le_mul_right _ (Nat.not_lt.mp hkp)
    rw [if_neg (by omega)]
    exact (hsame k (Nat.not_lt.mp hkp) hk).symm

end KlipperMcu.Lib
