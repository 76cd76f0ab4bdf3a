import KlipperMcu.Host.StepCompress
import KlipperMcu.Lib.Word
import KlipperMcu.Lib.Quadratic
import Mathlib.Data.List.GetD

/-!
# What check_line accepts

For a queue of step clocks that lie less than `CLOCK_DIFF_MAX` after the last step, the 32-bit
arithmetic of `check_line` is exact: a move passes when every step falls into its window and no
interval is negative.
-/

namespace KlipperMcu.Compress

open Lib

/-- The queue holds the nondecreasing clocks `clocks`, none of them far from the last step. -/
structure QueueOk (sc : StepCompress) (clocks : List Nat) : Prop where
  queue : sc.queue = clocks.map UInt32.ofNat
  sorted : clocks.Pairwise (· ≤ ·)
  lower : ∀ c ∈ clocks, sc.lastStepClock ≤ c
  upper : ∀ c ∈ clocks, c < sc.lastStepClock + clockDiffMax

/-- The latest acceptable time of step `i` relative to the last step. -/
def maxAt (sc : StepCompress) (clocks : List Nat) (i : Nat) : Nat :=
  clocks.getD i 0 - sc.lastStepClock

def prevAt (sc : StepCompress) (clocks : List Nat) (i : Nat) : Nat :=
  if i = 0 then 0 else maxAt sc clocks (i - 1)

/-- The earliest acceptable time of step `i` relative to the last step. -/
def minAt (sc : StepCompress) (clocks : List Nat) (i : Nat) : Nat :=
  maxAt sc clocks i - min ((maxAt sc clocks i - prevAt sc clocks i) / 2) sc.maxError.toNat

section Windows

variable {sc : StepCompress} {clocks : List Nat} {i : Nat}

lemma QueueOk.maxAt_lt (h : QueueOk sc clocks) (hi : i < clocks.length) :
    maxAt sc clocks i < clockDiffMax := by
  have hmem : clocks.getD i 0 ∈ clocks := by
    rw [List.getD_eq_getElem _ _ hi]
    exact List.getElem_mem hi
  have hlo := h.lower _ hmem
  have hup := h.upper _ hmem
  unfold maxAt
  omega

lemma QueueOk.prevAt_le (h : QueueOk sc clocks) (hi : i < clocks.length) :
    prevAt sc clocks i ≤ maxAt sc clocks i := by
  unfold prevAt
  split
  · omega
  · unfold maxAt
    rw [List.getD_eq_getElem _ _ hi, List.getD_eq_getElem _ _ (by omega : i - 1 < clocks.length)]
    have hle := List.pairwise_iff_getElem.mp h.sorted (i - 1) i (by omega) hi (by omega)
    omega

lemma QueueOk.pointAt_eq (h : QueueOk sc clocks) (hi : i < clocks.length) :
    pointAt sc i = some (UInt32.ofNat (maxAt sc clocks i)) := by
  have hmem : clocks[i] ∈ clocks := List.getElem_mem hi
  have hlo := h.lower _ hmem
  unfold pointAt maxAt
  rw [h.queue, List.getElem?_map, List.getElem?_eq_getElem hi, List.getD_eq_getElem _ _ hi,
    Option.map_some, Option.map_some, Option.some.injEq, ← UInt32.toNat_inj, UInt32.toNat_sub,
    UInt32.toNat_ofNat', UInt32.toNat_ofNat', UInt32.toNat_ofNat']
  omega

lemma QueueOk.minmaxPoint_eq (h : QueueOk sc clocks) (hi : i < clocks.length) :
    minmaxPoint sc i = some ⟨(UInt32.ofNat (minAt sc clocks i)).toInt32,
      (UInt32.ofNat (maxAt sc clocks i)).toInt32⟩ := by
  have hmax := h.maxAt_lt hi
  have hprev := h.prevAt_le hi
  have hM : clockDiffMax < 2 ^ 32 := by decide
  have hp : prevPointAt sc i = some (UInt32.ofNat (prevAt sc clocks i)) := by
    unfold prevAt prevPointAt
    split
    · rfl
    · exact h.pointAt_eq (by omega)
  have herr : ∀ e : UInt32, e = UInt32.ofNat ((maxAt sc clocks i - prevAt sc clocks i) / 2) →
      UInt32.ofNat (maxAt sc clocks i) - (if sc.maxError < e then sc.maxError else e) =
        UInt32.ofNat (minAt sc clocks i) := by
    rintro e rfl
    rw [← UInt32.toNat_inj, UInt32.toNat_sub, toNat_ofNat_of_lt (by omega : maxAt sc clocks i < _)]
    unfold minAt
    rw [toNat_ofNat_of_lt (by omega)]
    split
    · rename_i hlt
      rw [UInt32.lt_iff_toNat_lt, toNat_ofNat_of_lt (by omega)] at hlt
      omega
    · rename_i hlt
      rw [UInt32.lt_iff_toNat_lt, toNat_ofNat_of_lt (by omega)] at hlt
      rw [toNat_ofNat_of_lt (by omega)]
      omega
  have hdiv : (UInt32.ofNat (maxAt sc clocks i) - UInt32.ofNat (prevAt sc clocks i)) / 2 =
      UInt32.ofNat ((maxAt sc clocks i - prevAt sc clocks i) / 2) := by
    have htwo : (2 : UInt32).toNat = 2 := rfl
    rw [← UInt32.toNat_inj, UInt32.toNat_div, UInt32.toNat_sub, htwo,
      toNat_ofNat_of_lt (by omega : maxAt sc clocks i < _),
      toNat_ofNat_of_lt (by omega : prevAt sc clocks i < _), toNat_ofNat_of_lt (by omega)]
    omega
  rw [minmaxPoint, h.pointAt_eq hi, hp, Option.bind_some, Option.map_some, pointWindow]
  simp only [herr _ hdiv]

lemma minmaxPoint_none (h : QueueOk sc clocks) (hi : clocks.length ≤ i) :
    minmaxPoint sc i = none := by
  unfold minmaxPoint pointAt
  rw [h.queue, List.getElem?_map, List.getElem?_eq_none hi]
  rfl

end Windows

/-- The remaining steps of a move fall into their windows, with `i` steps done, the last of them
at `p`, and `interval` to the next one. -/
def StepsFit (sc : StepCompress) (clocks : List Nat) (add : Int) :
    Nat → Nat → Int → Int → Prop
  | 0, _, _, _ => True
  | left + 1, i, interval, p =>
    minAt sc clocks i ≤ p + interval ∧ p + interval ≤ maxAt sc clocks i ∧ 0 ≤ interval ∧
      interval < 2 ^ 31 ∧ StepsFit sc clocks add left (i + 1) (interval + add) (p + interval)

section Line

variable {sc : StepCompress} {clocks : List Nat} {add : Int}

/-- The steps of a move fit when each of them, given in closed form, falls into its window. -/
lemma stepsFit_iff {left i : Nat} {interval p : Int} :
    StepsFit sc clocks add left i interval p ↔ ∀ j < left,
      minAt sc clocks (i + j) ≤ p + quad interval add (j + 1) ∧
      p + quad interval add (j + 1) ≤ maxAt sc clocks (i + j) ∧
      0 ≤ interval + j * add ∧ interval + j * add < 2 ^ 31 := by
  induction left generalizing i interval p with
  | zero => simp [StepsFit]
  | succ left ih =>
    have hnext : ∀ j : Nat, p + interval + quad (interval + add) add (j + 1) =
        p + quad interval add (j + 1 + 1) ∧
        interval + add + j * add = interval + (j + 1 : Nat) * add := by
      intro j
      constructor
      · rw [quad_shift interval add (j + 1)]
        ring
      · push_cast
        ring
    rw [StepsFit, ih]
    constructor
    · rintro ⟨h₁, h₂, h₃, h₄, hrest⟩ j hj
      cases j with
      | zero =>
        simp only [Nat.zero_add, quad_one, Int.natCast_zero, zero_mul, add_zero]
        exact ⟨h₁, h₂, h₃, h₄⟩
      | succ j =>
        have hj' := hrest j (by omega)
        rw [(hnext j).1, (hnext j).2, show i + 1 + j = i + (j + 1) by omega] at hj'
        exact hj'
    · intro h
      have h0 := h 0 (by omega)
      simp only [Nat.zero_add, quad_one, Int.natCast_zero, zero_mul, add_zero] at h0
      refine ⟨h0.1, h0.2.1, h0.2.2.1, h0.2.2.2, fun j hj => ?_⟩
      rw [(hnext j).1, (hnext j).2, show i + 1 + j = i + (j + 1) by omega]
      exact h (j + 1) (by omega)

lemma checkSteps_iff (h : QueueOk sc clocks) (hadd : -2 ^ 15 ≤ add ∧ add < 2 ^ 15)
    {left i : Nat} {interval p : Int} (hlen : i ≤ clocks.length)
    (hint : -2 ^ 15 ≤ interval ∧ interval < 2 ^ 31 + 2 ^ 15) (hp : 0 ≤ p ∧ p ≤ clockDiffMax) :
    checkSteps sc (UInt32.ofInt add) left i (UInt32.ofInt interval) (UInt32.ofInt p) = some true ↔
      i + left ≤ clocks.length ∧ StepsFit sc clocks add left i interval p := by
  have hM : clockDiffMax = 805306368 := rfl
  induction left generalizing i interval p with
  | zero => simp [checkSteps, StepsFit, hlen]
  | succ left ih =>
    rw [checkSteps]
    by_cases hi : i < clocks.length
    · have hmax := h.maxAt_lt hi
      have hmin : minAt sc clocks i ≤ maxAt sc clocks i := Nat.sub_le _ _
      have hI := toNat_ofInt interval
      have htop : (0x80000000 : UInt32).toNat = 2147483648 := rfl
      have hsum : UInt32.ofInt p + UInt32.ofInt interval = UInt32.ofInt (p + interval) :=
        (UInt32.ofInt_add _ _).symm
      have hS := toNat_ofInt (p + interval)
      simp only [h.minmaxPoint_eq hi, UInt32.toUInt32_toInt32, hsum, UInt32.lt_iff_toNat_lt,
        UInt32.le_iff_toNat_le, toNat_ofNat_of_lt (by omega : minAt sc clocks i < 2 ^ 32),
        toNat_ofNat_of_lt (by omega : maxAt sc clocks i < 2 ^ 32), htop]
      rw [StepsFit]
      by_cases hneg : 0 ≤ interval ∧ interval < 2 ^ 31
      · by_cases hfit : (minAt sc clocks i : Int) ≤ p + interval ∧ p + interval ≤ maxAt sc clocks i
        · have hnext := @ih (i + 1) (interval + add) (p + interval) (by omega) (by omega) (by omega)
          rw [if_neg (by omega), if_neg (by omega), ← UInt32.ofInt_add]
          refine Iff.trans hnext ?_
          constructor
          · rintro ⟨hl, hs⟩
            exact ⟨by omega, hfit.1, hfit.2, hneg.1, hneg.2, hs⟩
          · rintro ⟨hl, -, -, -, -, hs⟩
            exact ⟨by omega, hs⟩
        · rw [if_pos (by omega)]
          constructor
          · intro hf
            cases hf
          · rintro ⟨-, h₁, h₂, -⟩
            exact absurd ⟨h₁, h₂⟩ hfit
      · have hbad : 2147483648 ≤ (UInt32.ofInt interval).toNat := by omega
        constructor
        · intro hf
          rw [if_pos hbad, ite_self] at hf
          cases hf
        · rintro ⟨-, -, -, h₁, h₂, -⟩
          exact absurd ⟨h₁, h₂⟩ hneg
    · rw [minmaxPoint_none h (by omega)]
      constructor
      · intro hf
        cases hf
      · rintro ⟨hl, -⟩
        omega

/-- The moves that pass `check_line`. -/
theorem checkLine_iff (h : QueueOk sc clocks) (move : StepMove) :
    checkLine sc move = some true ↔
      1 ≤ move.count.toNat ∧ move.count.toNat ≤ clocks.length ∧
      ¬(move.interval = 0 ∧ move.add = 0 ∧ 1 < move.count.toNat) ∧ move.interval.toNat < 2 ^ 31 ∧
      StepsFit sc clocks move.add.toInt move.count.toNat 0 move.interval.toNat 0 := by
  have hone : (1 : UInt16).toNat = 1 := rfl
  have htop : (0x80000000 : UInt32).toNat = 2147483648 := rfl
  have hz : move.count = 0 ↔ move.count.toNat = 0 := by
    rw [← UInt16.toNat_inj]
    rfl
  have hlt := move.add.toInt_lt
  have hle := move.add.le_toInt
  unfold checkLine
  simp only [UInt16.lt_iff_toNat_lt, UInt32.le_iff_toNat_le, hone, htop, hz]
  by_cases hbad : move.count.toNat = 0 ∨ (move.interval = 0 ∧ move.add = 0 ∧ 1 < move.count.toNat) ∨
      2147483648 ≤ move.interval.toNat
  · rw [if_pos hbad]
    constructor
    · intro hf
      cases hf
    · rintro ⟨h₁, -, h₂, h₃, -⟩
      rcases hbad with hb | hb | hb
      · omega
      · exact absurd hb h₂
      · omega
  · rw [if_neg hbad]
    simp only [not_or] at hbad
    have hi : move.interval = UInt32.ofInt move.interval.toNat := by
      rw [ofInt_natCast, UInt32.ofNat_toNat]
    have h0 : (0 : UInt32) = UInt32.ofInt 0 := rfl
    have hiff := @checkSteps_iff sc clocks move.add.toInt h ⟨hle, hlt⟩ move.count.toNat 0
      move.interval.toNat 0 (by omega) (by omega) (by decide)
    rw [← hi, ← h0, ← toUInt32_int16, Nat.zero_add] at hiff
    rw [hiff]
    constructor
    · rintro ⟨h₁, h₂⟩
      exact ⟨by omega, h₁, hbad.2.1, by omega, h₂⟩
    · rintro ⟨-, h₁, -, -, h₂⟩
      exact ⟨h₁, h₂⟩

end Line

end KlipperMcu.Compress
