import KlipperMcu.Host.CheckLine
import KlipperMcu.Lib.Signed

/-!
# Quadratic sequences in windows of time

The windows of queued steps follow one another. A quadratic sequence that hits the first `m` of
them has nonnegative intervals, and the products that occur in the search for such sequences are
small.
-/

namespace KlipperMcu.Compress

open Lib

/-- Consecutive windows before `CLOCK_DIFF_MAX`, the first of them no longer than the largest
`max_error`. -/
structure Windows (lo hi : Nat → Int) (n : Nat) : Prop where
  pos : 1 ≤ lo 0
  slack : hi 0 ≤ lo 0 + 65536
  le : ∀ i < n, lo i ≤ hi i
  next : ∀ i, i + 1 < n → hi i ≤ lo (i + 1)
  lt : ∀ i < n, hi i < clockDiffMax

/-- The first `m` steps of the sequence fall into their windows. -/
def Fits (lo hi : Nat → Int) (interval add : Int) (m : Nat) : Prop :=
  ∀ j < m, lo j ≤ quad interval add (j + 1) ∧ quad interval add (j + 1) ≤ hi j

section Fits

variable {lo hi : Nat → Int} {n m : Nat} {interval add : Int}

lemma Windows.hi_mono (hw : Windows lo hi n) {i j : Nat} (hij : i ≤ j) (hj : j < n) :
    hi i ≤ hi j := by
  induction j with
  | zero =>
    obtain rfl : i = 0 := by omega
    exact le_refl _
  | succ j ih =>
    rcases Nat.lt_or_ge j i with hlt | hle
    · obtain rfl : i = j + 1 := by omega
      exact le_refl _
    · have hrec := ih hle (by omega)
      have hnext := hw.next j hj
      have hle := hw.le (j + 1) hj
      omega

lemma Windows.lo_pos (hw : Windows lo hi n) {i : Nat} (hi' : i < n) : 1 ≤ lo i := by
  have hpos := hw.pos
  cases i with
  | zero => exact hpos
  | succ i =>
    have hnext := hw.next i hi'
    have hmono := hw.hi_mono (Nat.zero_le i) (by omega)
    have hle := hw.le 0 (by omega)
    omega

lemma Fits.between {interval₀ interval₁ : Int} (h₀ : Fits lo hi interval₀ add m)
    (h₁ : Fits lo hi interval₁ add m) (hle₀ : interval₀ ≤ interval) (hle₁ : interval ≤ interval₁) :
    Fits lo hi interval add m :=
  fun j hj => ⟨le_trans (h₀ j hj).1 (quad_le_quad_left hle₀ _),
    le_trans (quad_le_quad_left hle₁ _) (h₁ j hj).2⟩

lemma Fits.succ (hf : Fits lo hi interval add m) (hlo : lo m ≤ quad interval add (m + 1))
    (hhi : quad interval add (m + 1) ≤ hi m) : Fits lo hi interval add (m + 1) := by
  intro j hj
  rcases Nat.lt_or_eq_of_le (Nat.le_of_lt_succ hj) with hlt | rfl
  · exact hf j hlt
  · exact ⟨hlo, hhi⟩

lemma Fits.first (hf : Fits lo hi interval add m) (hm : 1 ≤ m) :
    lo 0 ≤ interval ∧ interval ≤ hi 0 := by
  have h := hf 0 hm
  rwa [Nat.zero_add, quad_one] at h

lemma Fits.nonneg (hf : Fits lo hi interval add m) (hw : Windows lo hi n) (hm : m ≤ n) :
    ∀ j < m, 0 ≤ interval + j * add := by
  intro j hj
  cases j with
  | zero =>
    have hfirst := (hf.first hj).1
    have hpos := hw.pos
    simp only [Int.natCast_zero, zero_mul, add_zero]
    omega
  | succ j =>
    have hprev := (hf j (by omega)).2
    have hstep := (hf (j + 1) hj).1
    have hnext := hw.next j (by omega)
    rw [quad_succ] at hstep
    omega

lemma Fits.abs_mul_tri_le (hf : Fits lo hi interval add m) (hw : Windows lo hi n) (hm : m ≤ n)
    (h1 : 1 ≤ m) : |add| * tri m ≤ quad interval add m := by
  have h0 := hf.nonneg hw hm 0 h1
  simp only [Int.natCast_zero, zero_mul, add_zero] at h0
  exact abs_mul_tri_le_quad h1 h0 (hf.nonneg hw hm (m - 1) (by omega))

lemma Fits.last (hf : Fits lo hi interval add m) (h1 : 1 ≤ m) :
    lo (m - 1) ≤ quad interval add m ∧ quad interval add m ≤ hi (m - 1) := by
  have h := hf (m - 1) (by omega)
  rwa [Nat.sub_add_cancel h1] at h

lemma Fits.deviation_le (hf : Fits lo hi interval add m) (hw : Windows lo hi n) (hm : m ≤ n)
    (h1 : 1 ≤ m) (hadd : |add| ≤ 32768) : |add| * tri (m + 1) ≤ 813694976 := by
  have hM : (clockDiffMax : Int) = 805306368 := rfl
  have hdev := hf.abs_mul_tri_le hw hm h1
  have hlast := (hf.last h1).2
  have hlt := hw.lt (m - 1) (by omega)
  have habs : 0 ≤ |add| := abs_nonneg add
  rw [tri_succ]
  push_cast
  rw [mul_add]
  rcases Nat.lt_or_ge 256 m with hbig | hsmall
  · have htwo := two_mul_tri_int m
    have hmul : (256 : Int) * m ≤ 2 * tri m := by
      rw [htwo, mul_comm]
      exact mul_le_mul_of_nonneg_left (by omega) (Int.natCast_nonneg m)
    have hscale := mul_le_mul_of_nonneg_left hmul habs
    have hexp : |add| * (256 * (m : Int)) = 256 * (|add| * m) := by ring
    have hexp' : |add| * (2 * (tri m : Int)) = 2 * (|add| * tri m) := by ring
    rw [hexp, hexp'] at hscale
    omega
  · have hmul : |add| * (m : Int) ≤ 32768 * 256 :=
      mul_le_mul hadd (by omega) (Int.natCast_nonneg m) (by decide)
    omega

lemma Fits.interval_mul_le (hf : Fits lo hi interval add m) (hw : Windows lo hi n) (hm : m ≤ n)
    (h1 : 1 ≤ m) (hadd : |add| ≤ 32768) :
    1 ≤ interval ∧ interval * (m + 1) ≤ 2013265920 := by
  have hM : (clockDiffMax : Int) = 805306368 := rfl
  have hdev := hf.abs_mul_tri_le hw hm h1
  have hlast := (hf.last h1).2
  have hlt := hw.lt (m - 1) (by omega)
  have hfirst := hf.first h1
  have hpos := hw.pos
  have hdef : quad interval add m = m * interval + add * tri m := rfl
  have hneg : -(|add| * (tri m : Int)) ≤ add * tri m := by
    rw [← neg_mul]
    exact mul_le_mul_of_nonneg_right (neg_abs_le add) (Int.natCast_nonneg _)
  have hexp : interval * ((m : Int) + 1) = m * interval + interval := by ring
  refine ⟨by omega, ?_⟩
  rw [hexp]
  rcases Nat.lt_or_ge 3 m with hbig | hsmall
  · have hmul : 4 * interval ≤ m * interval := mul_le_mul_of_nonneg_right (by omega) (by omega)
    omega
  · have htri : |add| * (tri m : Int) ≤ 32768 * 3 := by
      refine mul_le_mul hadd ?_ (Int.natCast_nonneg _) (by decide)
      obtain rfl | rfl | rfl : m = 1 ∨ m = 2 ∨ m = 3 := by omega
      all_goals decide
    obtain rfl | rfl | rfl : m = 1 ∨ m = 2 ∨ m = 3 := by omega
    all_goals
      push_cast at *
      omega

lemma Fits.count_le (hf : Fits lo hi interval add m) (hw : Windows lo hi n) (hm : m ≤ n)
    (hadd : add ≠ 0) {k : Nat} (hreach : quad interval add m ≤ hi k) : m ≤ k + 3 := by
  by_contra hlong
  have hnonneg := hf.nonneg hw hm
  have hstep : ∀ j, k + 2 ≤ j → j ≤ m → quad interval add j = hi k := by
    intro j hj hjm
    have hle := quad_le_quad hjm hnonneg
    have hlo := (hf (j - 1) (by omega)).1
    have hnext := hw.next (j - 2) (by omega)
    have hmono := hw.hi_mono (show k ≤ j - 2 by omega) (by omega)
    rw [show j - 2 + 1 = j - 1 by omega] at hnext
    rw [Nat.sub_add_cancel (by omega)] at hlo
    omega
  have h₂ := hstep (k + 2) (by omega) (by omega)
  have h₃ := hstep (k + 2 + 1) (by omega) (by omega)
  have h₄ := hstep (k + 2 + 1 + 1) (by omega) (by omega)
  rw [quad_succ, h₂] at h₃
  rw [quad_succ, quad_succ, h₂] at h₄
  push_cast at h₃ h₄
  apply hadd
  linarith

end Fits

end KlipperMcu.Compress
