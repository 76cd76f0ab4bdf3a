import KlipperMcu.Host.Bisect
import KlipperMcu.Host.Windows
import Mathlib.Algebra.Order.Ring.Abs

/-!
# The inner loop of compress_bisect_add

For a fixed `add` the inner loop narrows the range of the first interval until the next window
cannot be hit. Every interval in the range gives a sequence that fits the windows passed so far.
-/

namespace KlipperMcu.Compress

open Lib

section Division

variable {n d x low high : Int32}

lemma idivUp_spec (hd : 0 < d.toInt) (hn : n.toInt + d.toInt < 2 ^ 31) :
    n.toInt ≤ (idivUp n d).toInt * d.toInt ∧ (idivUp n d).toInt * d.toInt < n.toInt + d.toInt := by
  have hle := n.le_toInt
  have hone : (1 : Int32).toInt = 1 := rfl
  have hzero : (0 : Int32).toInt = 0 := rfl
  unfold idivUp
  split
  · rename_i hpos
    rw [Int32.le_iff_toInt_le, hzero] at hpos
    have hadd : (n + d).toInt = n.toInt + d.toInt := toInt_add_of_range (by omega) hn
    have hsub : (n + d - 1).toInt = n.toInt + d.toInt - 1 := by
      rw [toInt_sub_of_range (by omega) (by omega), hadd, hone]
    rw [toInt_div_of_pos hd, hsub]
    have hq := tdiv_of_nonneg (show 0 ≤ n.toInt + d.toInt - 1 by omega) hd
    omega
  · rename_i hneg
    rw [Int32.le_iff_toInt_le, hzero] at hneg
    rw [toInt_div_of_pos hd]
    exact tdiv_of_nonpos (by omega) hd

lemma idivDown_spec (hd : 0 < d.toInt) (hn : -2 ^ 31 ≤ n.toInt - d.toInt) :
    (idivDown n d).toInt * d.toInt ≤ n.toInt ∧
      n.toInt < (idivDown n d).toInt * d.toInt + d.toInt := by
  have hlt := n.toInt_lt
  have hone : (1 : Int32).toInt = 1 := rfl
  have hzero : (0 : Int32).toInt = 0 := rfl
  unfold idivDown
  split
  · rename_i hpos
    rw [Int32.le_iff_toInt_le, hzero] at hpos
    rw [toInt_div_of_pos hd]
    exact tdiv_of_nonneg hpos hd
  · rename_i hneg
    rw [Int32.le_iff_toInt_le, hzero] at hneg
    have hsub : (n - d).toInt = n.toInt - d.toInt := toInt_sub_of_range hn (by omega)
    have hadd : (n - d + 1).toInt = n.toInt - d.toInt + 1 := by
      rw [toInt_add_of_range (by omega) (by omega), hsub, hone]
    rw [toInt_div_of_pos hd, hadd]
    have hq := tdiv_of_nonpos (show n.toInt - d.toInt + 1 ≤ 0 by omega) hd
    omega

lemma raiseTo_spec (hd : 0 < d.toInt) (hx₀ : -2 ^ 31 ≤ x.toInt * d.toInt)
    (hx₁ : x.toInt * d.toInt < 2 ^ 31) (hlow : low.toInt + d.toInt < 2 ^ 31) :
    x.toInt ≤ (raiseTo x d low).toInt ∧ low.toInt ≤ (raiseTo x d low).toInt * d.toInt ∧
      ∀ y : Int, x.toInt ≤ y → low.toInt ≤ y * d.toInt → (raiseTo x d low).toInt ≤ y := by
  have hmul := toInt_mul_of_range hx₀ hx₁
  unfold raiseTo
  split
  · rename_i hlt
    rw [Int32.lt_iff_toInt_lt, hmul] at hlt
    obtain ⟨h₁, h₂⟩ := idivUp_spec hd hlow
    refine ⟨?_, h₁, fun y _ hy => ?_⟩
    · exact le_of_lt (lt_of_mul_lt_mul_right (lt_of_lt_of_le hlt h₁) (le_of_lt hd))
    · refine Int.le_of_lt_add_one (lt_of_mul_lt_mul_right ?_ (le_of_lt hd))
      rw [add_mul, one_mul]
      omega
  · rename_i hge
    rw [Int32.lt_iff_toInt_lt, hmul] at hge
    exact ⟨le_refl _, by omega, fun y hy _ => hy⟩

lemma lowerTo_spec (hd : 0 < d.toInt) (hx₀ : -2 ^ 31 ≤ x.toInt * d.toInt)
    (hx₁ : x.toInt * d.toInt < 2 ^ 31) (hhigh : -2 ^ 31 ≤ high.toInt - d.toInt) :
    (lowerTo x d high).toInt ≤ x.toInt ∧ (lowerTo x d high).toInt * d.toInt ≤ high.toInt ∧
      ∀ y : Int, y ≤ x.toInt → y * d.toInt ≤ high.toInt → y ≤ (lowerTo x d high).toInt := by
  have hmul := toInt_mul_of_range hx₀ hx₁
  unfold lowerTo
  split
  · rename_i hlt
    rw [Int32.lt_iff_toInt_lt, hmul] at hlt
    obtain ⟨h₁, h₂⟩ := idivDown_spec hd hhigh
    refine ⟨?_, h₁, fun y _ hy => ?_⟩
    · exact le_of_lt (lt_of_mul_lt_mul_right (lt_of_le_of_lt h₁ hlt) (le_of_lt hd))
    · refine Int.le_of_lt_add_one (lt_of_mul_lt_mul_right ?_ (le_of_lt hd))
      rw [add_mul, one_mul]
      omega
  · rename_i hge
    rw [Int32.lt_iff_toInt_lt, hmul] at hge
    exact ⟨le_refl _, by omega, fun y hy _ => hy⟩

lemma addFactor_toInt {k : Nat} (hk : 1 ≤ k) (h : 2 * tri k < 2 ^ 31) :
    (addFactor (Int32.ofNat k)).toInt = tri k := by
  have htwo := two_mul_tri_int k
  have hk31 : k < 2 ^ 31 := by
    rcases Nat.lt_or_ge k 3 with hlt | hge
    · omega
    · have hmul : k * 2 ≤ k * (k - 1) := Nat.mul_le_mul_left k (by omega)
      rw [← two_mul_tri] at hmul
      omega
  have hone : (1 : Int32).toInt = 1 := rfl
  have hcount : (Int32.ofNat k).toInt = k := Int32.toInt_ofNat_of_lt hk31
  have hpred : (Int32.ofNat k - 1).toInt = k - 1 := by
    rw [toInt_sub_of_range (by omega) (by omega), hcount, hone]
  have hprod : (Int32.ofNat k).toInt * (Int32.ofNat k - 1).toInt = 2 * tri k := by
    rw [hcount, hpred, htwo]
  unfold addFactor
  have hmul : (Int32.ofNat k * (Int32.ofNat k - 1)).toInt = 2 * tri k := by
    rw [toInt_mul_of_range (by omega) (by omega), hprod]
  have htwo' : (2 : Int32).toInt = 2 := rfl
  rw [toInt_div_of_pos (by rw [htwo']; decide), hmul, htwo', Int.mul_tdiv_cancel_left _ (by decide)]

/-- The product with an addfactor. When `add` is zero the addfactor may overflow. -/
lemma mul_addFactor_toInt {k : Nat} (hk : 1 ≤ k) (hdev : |x.toInt| * tri k < 2 ^ 30) :
    (x * addFactor (Int32.ofNat k)).toInt = x.toInt * tri k := by
  by_cases hx : x.toInt = 0
  · have hx0 : x = 0 := Int32.toInt_inj.mp hx
    rw [hx, zero_mul, hx0, Int32.zero_mul]
    rfl
  · have hone : 1 ≤ |x.toInt| := Int.one_le_abs hx
    have htri : (0 : Int) ≤ tri k := Int.natCast_nonneg _
    have hle : (tri k : Int) ≤ |x.toInt| * tri k := le_mul_of_one_le_left htri hone
    have hfactor := addFactor_toInt hk (by omega)
    have habs : |x.toInt * tri k| < 2 ^ 30 := by
      rwa [abs_mul, abs_of_nonneg htri]
    rw [abs_lt] at habs
    rw [toInt_mul_of_range (by rw [hfactor]; omega) (by rw [hfactor]; omega), hfactor]

end Division

/-- What the windows of the queue are. -/
structure Points.Is (point : Points) (lo hi : Int) : Prop where
  minp : point.minp.toInt = lo
  maxp : point.maxp.toInt = hi

/-- The range of intervals after `count` steps, inside the outer range. -/
structure InRange (lo hi : Nat → Int) (add outerMin outerMax : Int) (count : Nat)
    (nextmin nextmax : Int) : Prop where
  le : nextmin ≤ nextmax
  outerMin_le : outerMin ≤ nextmin
  le_outerMax : nextmax ≤ outerMax
  fitsMin : Fits lo hi nextmin add count
  fitsMax : Fits lo hi nextmax add count

/-- What the inner loop finds in the windows of `n` queued steps. -/
def Extent.Ok (lo hi : Nat → Int) (n : Nat) (add outerMin outerMax : Int) : Extent → Prop
  | .all interval count =>
    count = n ∧ Fits lo hi interval.toInt add count
  | .stop count nextpoint nextmin nextmax interval =>
    1 ≤ count ∧ count < n ∧ nextpoint.Is (lo count) (hi count) ∧
      Fits lo hi interval.toInt add count ∧
      outerMin ≤ interval.toInt ∧ interval.toInt ≤ outerMax ∧
      (quad interval.toInt add (count + 1) < lo count → nextmax = interval) ∧
      (lo count ≤ quad interval.toInt add (count + 1) →
        outerMin ≤ nextmin.toInt ∧ nextmin.toInt ≤ interval.toInt)

section Inner

variable {sc : StepCompress} {lo hi : Nat → Int} {n count : Nat} {add : Int32}
  {outerMin outerMax : Int} {nextmin nextmax : Int32}

lemma InRange.narrow (hw : Windows lo hi n) (hn : n ≤ 65535) (hcount : 1 ≤ count) (hlt : count < n)
    (hadd : |add.toInt| ≤ 32768) {point : Points} (hp : point.Is (lo count) (hi count))
    (hr : InRange lo hi add.toInt outerMin outerMax count nextmin.toInt nextmax.toInt) :
    let nextcount := Int32.ofNat (count + 1)
    let c := add * addFactor nextcount
    let nextmin' := (raiseTo nextmin nextcount (point.minp - c)).toInt
    let nextmax' := (lowerTo nextmax nextcount (point.maxp - c)).toInt
    nextmin.toInt ≤ nextmin' ∧ lo count ≤ quad nextmin' add.toInt (count + 1) ∧
      (∀ y : Int, nextmin.toInt ≤ y → lo count ≤ quad y add.toInt (count + 1) → nextmin' ≤ y) ∧
      nextmax' ≤ nextmax.toInt ∧ quad nextmax' add.toInt (count + 1) ≤ hi count ∧
      (∀ y : Int, y ≤ nextmax.toInt → quad y add.toInt (count + 1) ≤ hi count → y ≤ nextmax') := by
  have hM : (clockDiffMax : Int) = 805306368 := rfl
  have hdev := hr.fitsMin.deviation_le hw hlt.le hcount hadd
  have hmin := hr.fitsMin.interval_mul_le hw hlt.le hcount hadd
  have hmax := hr.fitsMax.interval_mul_le hw hlt.le hcount hadd
  have hc : (Int32.ofNat (count + 1)).toInt = count + 1 :=
    Int32.toInt_ofNat_of_lt (by omega)
  have hfactor := @mul_addFactor_toInt add (count + 1) (by omega) (by omega)
  have habs : |add.toInt * tri (count + 1)| ≤ 813694976 := by
    rwa [abs_mul, abs_of_nonneg (Int.natCast_nonneg _)]
  rw [abs_le] at habs
  have hlo := hw.lo_pos hlt
  have hmin0 : 0 ≤ nextmin.toInt * (count + 1) := mul_nonneg (by omega) (by omega)
  have hmax0 : 0 ≤ nextmax.toInt * (count + 1) := mul_nonneg (by omega) (by omega)
  have hle := hw.le count hlt
  have hhi := hw.lt count hlt
  have hlow : (point.minp - add * addFactor (Int32.ofNat (count + 1))).toInt =
      lo count - add.toInt * tri (count + 1) := by
    rw [toInt_sub_of_range (by rw [hfactor, hp.minp]; omega) (by rw [hfactor, hp.minp]; omega),
      hfactor, hp.minp]
  have hhigh : (point.maxp - add * addFactor (Int32.ofNat (count + 1))).toInt =
      hi count - add.toInt * tri (count + 1) := by
    rw [toInt_sub_of_range (by rw [hfactor, hp.maxp]; omega) (by rw [hfactor, hp.maxp]; omega),
      hfactor, hp.maxp]
  have hquad : ∀ y : Int, quad y add.toInt (count + 1) =
      y * (count + 1) + add.toInt * tri (count + 1) := by
    intro y
    unfold quad
    push_cast
    ring
  have hpos : 0 < (Int32.ofNat (count + 1)).toInt := by omega
  obtain ⟨h₁, h₂, h₃⟩ := @raiseTo_spec (Int32.ofNat (count + 1)) nextmin
    (point.minp - add * addFactor (Int32.ofNat (count + 1))) hpos
    (by rw [hc]; omega) (by rw [hc]; omega) (by rw [hlow, hc]; omega)
  obtain ⟨h₄, h₅, h₆⟩ := @lowerTo_spec (Int32.ofNat (count + 1)) nextmax
    (point.maxp - add * addFactor (Int32.ofNat (count + 1))) hpos
    (by rw [hc]; omega) (by rw [hc]; omega) (by rw [hhigh, hc]; omega)
  rw [hlow, hc] at h₂ h₃
  rw [hhigh, hc] at h₅ h₆
  refine ⟨h₁, ?_, ?_, h₄, ?_, ?_⟩
  · rw [hquad]
    omega
  · intro y hy hq
    rw [hquad] at hq
    exact h₃ y hy (by omega)
  · rw [hquad]
    omega
  · intro y hy hq
    rw [hquad] at hq
    exact h₆ y hy (by omega)

/-- The inner loop ends with a sequence that fits, at the end of the queue or at a point that no
interval of the range can reach. -/
lemma extend_spec (hw : Windows lo hi n) (hn : n ≤ 65535)
    (hp : ∀ i < n, ∃ point, minmaxPoint sc i = some point ∧ point.Is (lo i) (hi i))
    (hadd : |add.toInt| ≤ 32768) {left : Nat} (hcount : 1 ≤ count) (hleft : count + left = n)
    (hr : InRange lo hi add.toInt outerMin outerMax count nextmin.toInt nextmax.toInt) :
    ∃ e, extend sc add left count nextmin nextmax nextmax = some e ∧
      e.Ok lo hi n add.toInt outerMin outerMax := by
  induction left generalizing count nextmin nextmax with
  | zero => exact ⟨_, rfl, hleft, hr.fitsMax⟩
  | succ left ih =>
    obtain ⟨point, hpoint, his⟩ := hp count (by omega)
    obtain ⟨h₁, h₂, h₃, h₄, h₅, h₆⟩ := hr.narrow hw hn hcount (by omega) hadd his
    have hle := hr.le
    have homin := hr.outerMin_le
    have homax := hr.le_outerMax
    rw [extend, hpoint]
    simp only []
    split
    · rename_i hstop
      rw [Int32.lt_iff_toInt_lt] at hstop
      refine ⟨_, rfl, hcount, by omega, his, hr.fitsMax, by omega, by omega, ?_, ?_⟩
      · intro hbelow
        have hwin := hw.le count (by omega)
        have hkeep := h₆ nextmax.toInt (le_refl _) (by omega)
        exact Int32.toInt_inj.mp (by omega)
      · intro hreach
        exact ⟨by omega, h₃ nextmax.toInt hle hreach⟩
    · rename_i hgo
      rw [Int32.lt_iff_toInt_lt] at hgo
      refine ih (by omega) (by omega) ⟨by omega, by omega, by omega, ?_, ?_⟩
      · have hfit := hr.fitsMin.between hr.fitsMax h₁ (by omega)
        exact hfit.succ h₂ (le_trans (quad_le_quad_left (by omega) _) h₅)
      · have hfit := hr.fitsMin.between hr.fitsMax (by omega) h₄
        exact hfit.succ (le_trans h₂ (quad_le_quad_left (by omega) _)) h₅

end Inner

end KlipperMcu.Compress
