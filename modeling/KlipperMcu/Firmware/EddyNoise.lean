import KlipperMcu.Firmware.Eddy
import KlipperMcu.Lib.NewtonSqrt
import KlipperMcu.Lib.Run
import KlipperMcu.Lib.Word
import Mathlib.Algebra.BigOperators.Ring.Finset
import Mathlib.Algebra.Group.Action.Defs
import Mathlib.Algebra.Order.BigOperators.Group.List
import Mathlib.Data.List.Sort
import Mathlib.Data.Nat.Sqrt

/-!
# The threshold of the eddy probe

A recalibration sets the threshold from the noise of the ring. The code sorts in place, takes the
root by Newton's method and narrows on the way, which is compared with the numbers that are meant.
-/

namespace KlipperMcu.Eddy

open Lib

/-! ### What the threshold is meant to be -/

/-- The middle element. -/
def median (l : List Nat) : Nat := (l.insertionSort (· ≤ ·)).getD (l.length / 2) 0

/-- The distance of an element from the median. -/
def spread (l : List Nat) (x : Nat) : Nat := ((x : Int) - median l).natAbs

def medianSpread (l : List Nat) : Nat := median (l.map (spread l))

def meanSquare (l : List Nat) : Nat := (l.map fun x => spread l x * spread l x).sum / l.length

/-- The larger one of the two estimates of the noise. -/
def noise (l : List Nat) : Nat :=
  max (max 1 (medianSpread l + medianSpread l / 2)) (meanSquare l).sqrt

def threshold (l : List Nat) : Nat := max 20 (min 60 (3 * noise l))

/-! ### What becomes of it in the widths of the code -/

/-- The square as an `int32_t`. -/
def squareLow (d : Nat) : Int := Int.bmod (d * d : Nat) (2 ^ 32)

/-- The sum is an `uint64_t`, of which the mean is truncated to 32 bits. -/
def meanSquareLow (l : List Nat) : Nat :=
  ((l.map fun x => squareLow (spread l x)).sum % 2 ^ 64).toNat / l.length % 2 ^ 32

/-- The first guess for the largest number wraps to zero. -/
def rootLow (v : Nat) : Nat := if v = 2 ^ 32 - 1 then 0 else v.sqrt

def noiseLow (l : List Nat) : Nat :=
  max (max 1 (medianSpread l + medianSpread l / 2)) (rootLow (meanSquareLow l))

/-- No deviation is so large that its square overflows. -/
def Squares (l : List Nat) : Prop := ∀ x ∈ l, spread l x ≤ 46340

/-- Where the threshold is 60, three times the noise is so as an `int16_t` too. -/
def Kept (l : List Nat) : Prop :=
  3 * noise l < 60 ∨ 60 ≤ 3 * noiseLow l % 2 ^ 16 ∧ 3 * noiseLow l % 2 ^ 16 < 2 ^ 15

/-! ### The sorts -/

lemma sortTo_map_toNat {l : List UInt32} {n : Nat} (hl : l.length = n + 1) :
    (InsertionSort.sortTo l n).map UInt32.toNat = (l.map UInt32.toNat).insertionSort (· ≤ ·) := by
  obtain ⟨hperm, hsorted⟩ := InsertionSort.sortTo_sorted l hl
  apply List.Perm.eq_of_pairwise' (r := (· ≤ ·))
  · rw [List.pairwise_map]
    apply hsorted.imp
    intro a b hab
    exact UInt32.le_iff_toNat_le.mp hab
  · exact List.pairwise_insertionSort (· ≤ ·) _
  · exact (hperm.map _).trans (List.perm_insertionSort (· ≤ ·) _).symm

lemma toNat_getD_sortTo {l : List UInt32} (hl : l.length = 11) :
    ((InsertionSort.sortTo l 10).getD 5 0).toNat = median (l.map UInt32.toNat) := by
  have hlen : (l.map UInt32.toNat).length / 2 = 5 := by rw [List.length_map, hl]
  rw [median, hlen, ← sortTo_map_toNat hl]
  exact (List.getD_map _ 0 UInt32.toNat).symm

lemma toNat_ffEddyMedian {l : List UInt32} (hl : l.length = 11) :
    (ffEddyMedian l).toNat = median (l.map UInt32.toNat) :=
  toNat_getD_sortTo hl

lemma toNat_deviation (center x : UInt32) :
    (deviation center x).toNat = ((x.toNat : Int) - center.toNat).natAbs := by
  have hx := x.toNat_lt
  have hc := center.toNat_lt
  unfold deviation
  split_ifs with hle
  · rw [UInt32.le_iff_toNat_le] at hle
    rw [UInt32.toNat_sub_of_le _ _ hle]
    omega
  · rw [UInt32.le_iff_toNat_le] at hle
    rw [UInt32.toNat_sub_of_le _ _ (by rw [UInt32.le_iff_toNat_le]; omega)]
    omega

lemma spread_map_toNat {l : List UInt32} (hl : l.length = 11) (x : UInt32) :
    spread (l.map UInt32.toNat) x.toNat = (deviation (ffEddyMedian l) x).toNat := by
  rw [toNat_deviation, toNat_ffEddyMedian hl, spread]

lemma toNat_medianDeviation {l : List UInt32} (hl : l.length = 11) :
    (medianDeviation l (ffEddyMedian l)).toNat = medianSpread (l.map UInt32.toNat) := by
  have hmap : (l.map (deviation (ffEddyMedian l))).map UInt32.toNat =
      (l.map UInt32.toNat).map (spread (l.map UInt32.toNat)) := by
    rw [List.map_map, List.map_map]
    apply List.map_congr_left
    intro x _
    exact (spread_map_toNat hl x).symm
  rw [medianDeviation, toNat_getD_sortTo (by rw [List.length_map, hl]), hmap, medianSpread]

/-! ### The square root -/

lemma toNat_shiftRight_one (x : UInt32) : (x >>> 1).toNat = x.toNat / 2 := by
  rw [UInt32.toNat_shiftRight]
  have hone : (1 : UInt32).toNat % 32 = 1 := rfl
  rw [hone]
  exact Nat.shiftRight_eq_div_pow x.toNat 1

lemma toNat_newton {v r : UInt32} (hv : v.toNat + 1 < 2 ^ 32) (hr : 0 < r.toNat)
    (hrv : r.toNat ≤ v.toNat) :
    ((v / r + r) >>> 1).toNat = (v.toNat / r.toNat + r.toNat) / 2 := by
  have hsum : v.toNat / r.toNat + r.toNat ≤ v.toNat + 1 := by
    have hmul := Nat.div_mul_le_self v.toNat r.toNat
    have hq : 1 ≤ v.toNat / r.toNat := Nat.div_pos hrv hr
    nlinarith
  rw [toNat_shiftRight_one, UInt32.toNat_add, UInt32.toNat_div, Nat.mod_eq_of_lt (by omega)]

lemma toNat_isqrtLoop {v r next : UInt32} {fuel : Nat} (hv : v.toNat + 1 < 2 ^ 32)
    (hr : 0 < r.toNat) (hrv : r.toNat ≤ v.toNat)
    (hnext : next.toNat = (v.toNat / r.toNat + r.toNat) / 2) (hfuel : r.toNat ≤ fuel)
    (hroot : v.toNat < (r.toNat + 1) * (r.toNat + 1)) :
    (isqrtLoop v fuel r next).toNat = v.toNat.sqrt := by
  induction fuel generalizing r next with
  | zero => omega
  | succ fuel ih =>
    rw [isqrtLoop]
    split_ifs with hlt
    · rw [UInt32.lt_iff_toNat_lt] at hlt
      have hpos : 0 < next.toNat := by
        have hq : 1 ≤ v.toNat / r.toNat := Nat.div_pos hrv hr
        omega
      apply ih hpos (by omega) (toNat_newton hv hpos (by omega)) (by omega)
      rw [hnext]
      exact lt_newton_succ_sq hr
    · rw [UInt32.lt_iff_toNat_lt, not_lt, hnext] at hlt
      exact Nat.eq_sqrt.mpr ⟨sq_le_of_le_newton hlt, hroot⟩

lemma toNat_ffEddyIsqrt {v : UInt32} (hv : v.toNat + 1 < 2 ^ 32) :
    (ffEddyIsqrt v).toNat = v.toNat.sqrt := by
  unfold ffEddyIsqrt
  split_ifs with hzero
  · rw [hzero]
    rfl
  · have hpos : 0 < v.toNat := by
      apply Nat.pos_of_ne_zero
      intro h
      exact hzero (UInt32.toNat_inj.mp h)
    apply toNat_isqrtLoop hv hpos (le_refl _) _ (le_refl _)
    · nlinarith
    · rw [toNat_shiftRight_one, UInt32.toNat_add, Nat.div_self hpos]
      have hone : (1 : UInt32).toNat = 1 := rfl
      omega

lemma ffEddyIsqrt_eq_zero : ffEddyIsqrt 0xffffffff = 0 := by
  have hguess : (0xffffffff + 1 : UInt32) >>> 1 = 0 := by decide
  have hfuel : (0xffffffff : UInt32).toNat = 4294967293 + 1 + 1 := rfl
  rw [ffEddyIsqrt, if_neg (by decide), hguess, hfuel, isqrtLoop, if_pos (by decide), isqrtLoop,
    if_neg (by decide)]

lemma toNat_ffEddyIsqrt_eq_rootLow (v : UInt32) : (ffEddyIsqrt v).toNat = rootLow v.toNat := by
  unfold rootLow
  split_ifs with hmax
  · obtain rfl : v = 0xffffffff := UInt32.toNat_inj.mp hmax
    rw [ffEddyIsqrt_eq_zero]
    rfl
  · have hlt := v.toNat_lt
    exact toNat_ffEddyIsqrt (by omega)

/-! ### The noise and the threshold -/

lemma toNat_toUInt64 (y : Int64) : (y.toUInt64.toNat : Int) = y.toInt % 2 ^ 64 := by
  have hlt := y.toBitVec.isLt
  change (y.toBitVec.toNat : Int) = _
  rw [← Int64.toInt_toBitVec, BitVec.toInt_eq_toNat_cond]
  split_ifs <;> omega

lemma mul_self_sub_comm (x center : UInt32) :
    (x - center) * (x - center) = deviation center x * deviation center x := by
  unfold deviation
  split_ifs
  · rfl
  · rw [← UInt32.neg_sub, UInt32.neg_mul, UInt32.mul_neg, UInt32.neg_neg]

lemma squareLow_eq (d : Nat) : squareLow d =
    if d * d % 2 ^ 32 < 2 ^ 31 then ((d * d % 2 ^ 32 : Nat) : Int)
    else ((d * d % 2 ^ 32 : Nat) : Int) - 2 ^ 32 := by
  unfold squareLow
  generalize d * d = n
  rw [Int.bmod_def]
  split_ifs <;> omega

lemma toNat_square (center x : UInt32) :
    (((x - center) * (x - center)).toInt32.toInt64.toUInt64.toNat : Int) =
      squareLow (deviation center x).toNat % 2 ^ 64 := by
  rw [mul_self_sub_comm, toNat_toUInt64, Int32.toInt_toInt64, toInt_toInt32, UInt32.toNat_mul,
    squareLow_eq]

lemma toNat_foldl_add {f : UInt32 → UInt64} {g : UInt32 → Int} (l : List UInt32) (acc : UInt64)
    (hfg : ∀ x, ((f x).toNat : Int) = g x % 2 ^ 64) :
    ((l.foldl (fun acc x => acc + f x) acc).toNat : Int) = (acc.toNat + (l.map g).sum) % 2 ^ 64 := by
  induction l generalizing acc with
  | nil =>
    have hlt := acc.toNat_lt
    rw [List.foldl_nil, List.map_nil, List.sum_nil]
    omega
  | cons x l ih =>
    have hx := hfg x
    rw [List.foldl_cons, ih, UInt64.toNat_add, List.map_cons, List.sum_cons]
    omega

variable {l : List UInt32}

lemma toNat_sumsq (hl : l.length = 11) :
    ((sumsq l (ffEddyMedian l)).toNat : Int) = ((l.map UInt32.toNat).map fun x =>
      squareLow (spread (l.map UInt32.toNat) x)).sum % 2 ^ 64 := by
  have hmap : ((l.map UInt32.toNat).map fun x => squareLow (spread (l.map UInt32.toNat) x)) =
      l.map fun x => squareLow (deviation (ffEddyMedian l) x).toNat := by
    rw [List.map_map]
    apply List.map_congr_left
    intro x _
    rw [Function.comp_apply, spread_map_toNat hl]
  have hsum := toNat_foldl_add l 0 (toNat_square (ffEddyMedian l))
  rw [UInt64.toNat_zero, Nat.cast_zero, Int.zero_add] at hsum
  rw [sumsq, hsum, hmap]

lemma toNat_ffEddyIsqrt_sumsq (hl : l.length = 11) :
    (ffEddyIsqrt (sumsq l (ffEddyMedian l) / 11).toUInt32).toNat =
      rootLow (meanSquareLow (l.map UInt32.toNat)) := by
  have heleven : (11 : UInt64).toNat = 11 := rfl
  rw [toNat_ffEddyIsqrt_eq_rootLow, UInt64.toNat_toUInt32, UInt64.toNat_div, heleven, meanSquareLow,
    ← toNat_sumsq hl, Int.toNat_natCast, List.length_map, hl]

lemma median_lt {l : List Nat} {n : Nat} (hn : 0 < n) (h : ∀ x ∈ l, x < n) : median l < n := by
  unfold median
  rcases lt_or_ge (l.length / 2) (l.insertionSort (· ≤ ·)).length with hlt | hge
  · rw [List.getD_eq_getElem _ _ hlt]
    exact h _ ((List.mem_insertionSort (· ≤ ·)).mp (List.getElem_mem hlt))
  · rw [List.getD_eq_default _ _ hge]
    exact hn

lemma medianSpread_lt {l : List Nat} (h : ∀ x ∈ l, x < 2 ^ 16) : medianSpread l < 2 ^ 16 := by
  apply median_lt (by decide)
  intro d hd
  obtain ⟨x, hx, rfl⟩ := List.mem_map.mp hd
  have hx := h x hx
  have hmedian := median_lt (by decide) h
  unfold spread
  omega

lemma toNat_sigma (hl : l.length = 11) (h : ∀ x ∈ l.map UInt32.toNat, x < 2 ^ 16) :
    (sigma l (ffEddyMedian l) (medianDeviation l (ffEddyMedian l))).toNat =
      noiseLow (l.map UInt32.toNat) := by
  have hmad := toNat_medianDeviation hl
  have hlt := medianSpread_lt h
  unfold noiseLow
  rw [← toNat_ffEddyIsqrt_sumsq hl]
  rw [← hmad] at hlt ⊢
  unfold sigma
  dsimp only
  generalize medianDeviation l (ffEddyMedian l) = mad at hlt ⊢
  generalize ffEddyIsqrt (sumsq l (ffEddyMedian l) / 11).toUInt32 = sd
  have htwo : (2 : UInt32).toNat = 2 := rfl
  have hfloor : (mad + mad / 2).toNat = mad.toNat + mad.toNat / 2 := by
    rw [UInt32.toNat_add, UInt32.toNat_div, htwo]
    exact Nat.mod_eq_of_lt (by omega)
  have hone : (1 : UInt32).toNat = 1 := rfl
  have hzero : mad + mad / 2 = 0 ↔ mad.toNat + mad.toNat / 2 = 0 := by
    rw [← UInt32.toNat_inj, hfloor]
    rfl
  by_cases hz : mad + mad / 2 = 0
  · rw [if_pos hz]
    rw [hzero] at hz
    split_ifs with hlt <;> rw [UInt32.lt_iff_toNat_lt] at hlt <;> omega
  · rw [if_neg hz]
    rw [hzero] at hz
    split_ifs with hlt <;> rw [UInt32.lt_iff_toNat_lt] at hlt <;> omega

lemma toInt_mul_three (sd : UInt32) :
    (sd * 3).toUInt16.toInt16.toInt = Int.bmod (3 * sd.toNat : Nat) (2 ^ 16) := by
  have hthree : (3 : UInt32).toNat = 3 := rfl
  have hnat : (sd * 3).toUInt16.toBitVec.toNat = 3 * sd.toNat % 2 ^ 16 := by
    change (sd * 3).toUInt16.toNat = _
    rw [UInt32.toNat_toUInt16, UInt32.toNat_mul, hthree]
    omega
  rw [← Int16.toInt_toBitVec, UInt16.toBitVec_toInt16, BitVec.toInt_eq_toNat_bmod, hnat,
    Int.natCast_emod, Int.emod_bmod]

lemma toInt_noiseThreshold (sd : UInt32) :
    (noiseThreshold sd).toInt = max 20 (min 60 (Int.bmod (3 * sd.toNat : Nat) (2 ^ 16))) := by
  have hmul := toInt_mul_three sd
  unfold noiseThreshold
  dsimp only
  generalize (sd * 3).toUInt16.toInt16 = thr at hmul ⊢
  rw [← hmul]
  have htwenty : (20 : Int16).toInt = 20 := rfl
  have hsixty : (60 : Int16).toInt = 60 := rfl
  by_cases hlt : thr < 20
  · rw [if_pos hlt, if_neg (by decide), htwenty]
    rw [Int16.lt_iff_toInt_lt, htwenty] at hlt
    omega
  · rw [if_neg hlt]
    rw [Int16.lt_iff_toInt_lt, htwenty] at hlt
    split_ifs with hle
    · rw [Int16.le_iff_toInt_le, hsixty] at hle
      omega
    · rw [Int16.le_iff_toInt_le, hsixty] at hle
      omega

/-! ### Where nothing is lost -/

lemma sum_squareLow {l : List Nat} (h : Squares l) :
    (l.map fun x => squareLow (spread l x)).sum = ((l.map fun x => spread l x * spread l x).sum : Nat) := by
  have hmap : (l.map fun x => squareLow (spread l x)) =
      (l.map fun x => spread l x * spread l x).map (Nat.cast : Nat → Int) := by
    rw [List.map_map]
    apply List.map_congr_left
    intro x hx
    have hsq : spread l x * spread l x ≤ 46340 * 46340 := Nat.mul_le_mul (h x hx) (h x hx)
    rw [squareLow_eq, Nat.mod_eq_of_lt (by omega), if_pos (by omega), Function.comp_apply]
  rw [hmap, Nat.cast_list_sum]

lemma meanSquareLow_eq {l : List Nat} (hl : l.length = 11) (h : Squares l) :
    meanSquareLow l = meanSquare l ∧ meanSquare l < 2 ^ 31 := by
  have hle := List.sum_le_card_nsmul (l.map fun x => spread l x * spread l x) (46340 * 46340) (by
    intro y hy
    obtain ⟨x, hx, rfl⟩ := List.mem_map.mp hy
    exact Nat.mul_le_mul (h x hx) (h x hx))
  rw [List.length_map, hl, smul_eq_mul] at hle
  unfold meanSquareLow meanSquare
  rw [sum_squareLow h, hl]
  omega

lemma noiseLow_eq {l : List Nat} (hl : l.length = 11) (h : Squares l) : noiseLow l = noise l := by
  obtain ⟨hmean, hlt⟩ := meanSquareLow_eq hl h
  rw [noiseLow, noise, hmean, rootLow, if_neg (by omega)]

lemma squares_of_noise_lt {l : List Nat} (hl : l.length = 11) (h : 3 * noise l < 60) : Squares l := by
  have hroot : (meanSquare l).sqrt < 20 := by
    unfold noise at h
    omega
  have hmean := Nat.sqrt_lt.mp hroot
  rw [meanSquare, hl] at hmean
  intro x hx
  have hle := List.le_sum_of_mem (List.mem_map_of_mem (f := fun x => spread l x * spread l x) hx)
  have hsq : spread l x * spread l x < 46341 * 46341 := by omega
  exact Nat.le_of_lt_succ (Nat.mul_self_lt_mul_self_iff.mp hsq)

lemma clamp_bmod_eq_iff {l : List Nat} (hl : l.length = 11) :
    max 20 (min 60 (Int.bmod (3 * noiseLow l : Nat) (2 ^ 16))) = threshold l ↔ Kept l := by
  unfold Kept threshold
  rcases Nat.lt_or_ge (3 * noise l) 60 with hlt | hge
  · rw [noiseLow_eq hl (squares_of_noise_lt hl hlt), Int.bmod_eq_of_le (by omega) (by omega)]
    omega
  · rw [Int.bmod_def]
    split_ifs <;> omega

lemma threshold_recalibrate (p : Probe) (center mad : UInt32) :
    (recalibrate p center mad).threshold = noiseThreshold (sigma p.ring.toList center mad) := by
  rw [recalibrate]

/-- A recalibration sets the threshold to three times the noise of the ring, between 20 and 60,
exactly when the narrowing of that product does no harm. The squares are another matter only if one of
them overflows. -/
theorem threshold_of_recalibrated {p : Probe} {now : UInt32}
    (h : (ffEddyUpdate p now).2 = some .recalibrated)
    (hring : ∀ x ∈ (stored p).ring.toList.map UInt32.toNat, x < 2 ^ 16) :
    ((ffEddyUpdate p now).1.threshold.toInt = threshold ((stored p).ring.toList.map UInt32.toNat) ↔
        Kept ((stored p).ring.toList.map UInt32.toNat)) ∧
      (Squares ((stored p).ring.toList.map UInt32.toNat) →
        noiseLow ((stored p).ring.toList.map UInt32.toNat) =
          noise ((stored p).ring.toList.map UInt32.toNat)) := by
  have hl : ((stored p).ring.toList.map UInt32.toNat).length = 11 := by
    rw [List.length_map, Vector.length_toList]
  refine ⟨?_, noiseLow_eq hl⟩
  have hcases := updateStep p now
  generalize ffEddyUpdate p now = r at h hcases ⊢
  cases hcases with
  | recalibrated =>
    have hsigma := toNat_sigma Vector.length_toList hring
    rw [threshold_recalibrate, toInt_noiseThreshold, ← clamp_bmod_eq_iff hl, ← hsigma]
    rfl
  | _ => cases h

instance decidableKept (l : List Nat) : Decidable (Kept l) :=
  inferInstanceAs (Decidable (3 * noise l < 60 ∨
    60 ≤ 3 * noiseLow l % 2 ^ 16 ∧ 3 * noiseLow l % 2 ^ 16 < 2 ^ 15))

instance decidableBelow (l : List Nat) (n : Nat) : Decidable (∀ x ∈ l, x < n) :=
  List.decidableBAll _ l

/-- A probe about to recalibrate, with eight readings of 500 and three that are higher by 10. -/
def noisyRing : Probe :=
  { haveFilter := true, sampleReady := true, sample := 500, quietStartMs := 1
    ring := #v[500, 510, 500, 500, 510, 500, 500, 510, 500, 500, 500] }

theorem threshold_of_recalibrated_noisyRing :
    (ffEddyUpdate noisyRing 2001).2 = some .recalibrated ∧
    (ffEddyUpdate noisyRing 2001).1.threshold.toInt =
      threshold ((stored noisyRing).ring.toList.map UInt32.toNat) := by
  have hmark : (ffEddyUpdate noisyRing 2001).2 = some .recalibrated := by decide +kernel
  exact ⟨hmark, (threshold_of_recalibrated hmark (by decide +kernel)).1.mpr (by decide +kernel)⟩

/-- Five readings of eleven are far off, so that the median absolute deviation is zero. Three times
the noise is truncated to a negative number, and the threshold is the smallest one instead of the
largest. -/
theorem threshold_truncated : ∃ actions s, Run step (fun _ _ => True) {} actions s ∧
    (∀ x ∈ (stored s.probe).ring.toList.map UInt32.toNat, x < 2 ^ 16) ∧
    medianSpread ((stored s.probe).ring.toList.map UInt32.toNat) ≤ s.probe.madLimit.toNat ∧
    (ffEddyUpdate s.probe (ffEddyNowMs s.clock)).2 = some .recalibrated ∧
    (ffEddyUpdate s.probe (ffEddyNowMs s.clock)).1.threshold = 20 ∧
    threshold ((stored s.probe).ring.toList.map UInt32.toNat) = 60 := by
  obtain ⟨s, hrun, hp⟩ : ∃ s, Run step (fun _ _ => True) {} ([Action.tick 128000] ++
      ([500, 21000, 21500, 42000, 42500, 63000, 63500, 18464, 18964, 39464, 39964].flatMap
        fun cnt => [Action.capture cnt, .timer]) ++ [Action.tick 256000000, .capture 40464]) s ∧
      decide ((∀ x ∈ (stored s.probe).ring.toList.map UInt32.toNat, x < 2 ^ 16) ∧
        medianSpread ((stored s.probe).ring.toList.map UInt32.toNat) ≤ s.probe.madLimit.toNat ∧
        (ffEddyUpdate s.probe (ffEddyNowMs s.clock)).2 = some .recalibrated ∧
        (ffEddyUpdate s.probe (ffEddyNowMs s.clock)).1.threshold = 20 ∧
        threshold ((stored s.probe).ring.toList.map UInt32.toNat) = 60) = true :=
    Run.exists_of_exec _ _ (by decide +kernel)
  exact ⟨_, s, hrun, of_decide_eq_true hp⟩

end KlipperMcu.Eddy
