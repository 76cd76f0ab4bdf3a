import KlipperMcu.Firmware.SampleFilter
import Mathlib.Algebra.Order.Group.Abs

/-!
# Calibration of the current offsets

The part of mclib_commands.c that finds the midpoints of the two current channels of a motor. Every
interrupt of the control loop calls it until 2000 samples were taken. Then the outputs of the
filters become the offsets. The filters start at the middle of the converter's range, and a constant
sample not too far from there is found exactly.
-/

namespace KlipperMcu.Acquisition

open Lib

/-- `struct mclib_current_acquisition_state`, as far as the calibration uses it. -/
structure CurrentAcquisition where
  calibrating : UInt8
  calibrationSamples : UInt16
  filteredAlpha : Int16
  filteredBeta : Int16
  offsetAlpha : Int16
  offsetBeta : Int16
  alphaFilter : SampleFilter
  betaFilter : SampleFilter
deriving DecidableEq, Repr

/-- The filtered samples of before are kept. -/
def mclibCurrentAcquisitionReset (state : CurrentAcquisition) : CurrentAcquisition :=
  { state with
    offsetAlpha := 8192
    offsetBeta := 8192
    calibrating := 1
    calibrationSamples := 0
    alphaFilter := mclibSampleFilterInit 8 8192
    betaFilter := mclibSampleFilterInit 8 8192 }

/-- The two samples, and the counter that was stored before they are filtered. -/
def takeSamples (state : CurrentAcquisition) (sampleAlpha sampleBeta : Int16) :
    CurrentAcquisition :=
  { state with
    calibrationSamples := state.calibrationSamples + 1
    alphaFilter := (mclibSampleFilterUpdate state.alphaFilter sampleAlpha).1
    filteredAlpha := (mclibSampleFilterUpdate state.alphaFilter sampleAlpha).2
    betaFilter := (mclibSampleFilterUpdate state.betaFilter sampleBeta).1
    filteredBeta := (mclibSampleFilterUpdate state.betaFilter sampleBeta).2 }

/-- The end of the calibration. -/
def commitOffsets (state : CurrentAcquisition) : CurrentAcquisition :=
  { state with
    calibrating := 0
    offsetAlpha := state.filteredAlpha
    offsetBeta := state.filteredBeta }

def calibrationStep (state : CurrentAcquisition) (sampleAlpha sampleBeta : Int16) :
    CurrentAcquisition :=
  if state.calibrating ≠ 0 then
    if 2000 ≤ (takeSamples state sampleAlpha sampleBeta).calibrationSamples then
      commitOffsets (takeSamples state sampleAlpha sampleBeta)
    else takeSamples state sampleAlpha sampleBeta
  else state

/-- The flag is loaded again for the reply. -/
def mclibCurrentAcquisitionCalibrate (state : CurrentAcquisition)
    (sampleAlpha sampleBeta : Int16) : CurrentAcquisition × UInt8 :=
  (calibrationStep state sampleAlpha sampleBeta,
    (calibrationStep state sampleAlpha sampleBeta).calibrating)

/-- The state after a reset and `n` calls, the `i`-th of which reads `alpha i` and `beta i`. -/
def afterCalls (state : CurrentAcquisition) (alpha beta : Nat → Int16) : Nat → CurrentAcquisition
  | 0 => mclibCurrentAcquisitionReset state
  | n + 1 => (mclibCurrentAcquisitionCalibrate (afterCalls state alpha beta n)
      (alpha n) (beta n)).1

lemma afterCalls_succ (state : CurrentAcquisition) (alpha beta : Nat → Int16) (n : Nat) :
    afterCalls state alpha beta (n + 1) =
      calibrationStep (afterCalls state alpha beta n) (alpha n) (beta n) := rfl

/-- A channel's filter after its first `n` samples. -/
def channelFilter (samples : Nat → Int16) (n : Nat) : SampleFilter :=
  filterAfter (mclibSampleFilterInit 8 8192) ((List.range n).map samples)

/-- The output for a channel's sample after the first `n`. -/
def channelOutput (samples : Nat → Int16) (n : Nat) : Int16 :=
  (mclibSampleFilterUpdate (channelFilter samples n) (samples n)).2

lemma channelFilter_succ (samples : Nat → Int16) (n : Nat) :
    channelFilter samples (n + 1) =
      (mclibSampleFilterUpdate (channelFilter samples n) (samples n)).1 := by
  rw [channelFilter, List.range_succ, List.map_append]
  exact filterAfter_concat _ _ _

/-- The calibration has taken `n` samples. -/
structure Calibrating (alpha beta : Nat → Int16) (n : Nat) (state : CurrentAcquisition) : Prop where
  calibrating : state.calibrating = 1
  samples : state.calibrationSamples = UInt16.ofNat n
  alphaFilter : state.alphaFilter = channelFilter alpha n
  betaFilter : state.betaFilter = channelFilter beta n

/-- The calibration is over, with the outputs for the last samples. -/
structure Calibrated (alpha beta : Nat → Int16) (state : CurrentAcquisition) : Prop where
  calibrating : state.calibrating = 0
  offsetAlpha : state.offsetAlpha = channelOutput alpha 1999
  offsetBeta : state.offsetBeta = channelOutput beta 1999

section Calls

variable {alpha beta : Nat → Int16} {n : Nat} {state : CurrentAcquisition}

lemma calibrating_reset (state : CurrentAcquisition) :
    Calibrating alpha beta 0 (mclibCurrentAcquisitionReset state) :=
  ⟨rfl, rfl, rfl, rfl⟩

lemma Calibrating.takeSamples (h : Calibrating alpha beta n state) :
    Calibrating alpha beta (n + 1) (takeSamples state (alpha n) (beta n)) := by
  refine ⟨h.calibrating, ?_, ?_, ?_⟩
  · change state.calibrationSamples + 1 = _
    rw [h.samples, UInt16.ofNat_add]
    rfl
  · rw [channelFilter_succ, ← h.alphaFilter]
    rfl
  · rw [channelFilter_succ, ← h.betaFilter]
    rfl

lemma Calibrating.step (h : Calibrating alpha beta n state) (hn : n < 2000) :
    calibrationStep state (alpha n) (beta n) =
      if n = 1999 then commitOffsets (Acquisition.takeSamples state (alpha n) (beta n))
      else Acquisition.takeSamples state (alpha n) (beta n) := by
  have hcount : 2000 ≤ (Acquisition.takeSamples state (alpha n) (beta n)).calibrationSamples ↔
      n = 1999 := by
    rw [h.takeSamples.samples, UInt16.le_iff_toNat_le, UInt16.toNat_ofNat_of_lt'
      (lt_of_le_of_lt (by omega : n + 1 ≤ 2000) (by decide))]
    change 2000 ≤ n + 1 ↔ _
    omega
  simp only [calibrationStep, h.calibrating, hcount]
  rfl

lemma calibrating_afterCalls (state : CurrentAcquisition) (hn : n < 2000) :
    Calibrating alpha beta n (afterCalls state alpha beta n) := by
  induction n with
  | zero => exact calibrating_reset state
  | succ n ih =>
    have h := ih (by omega)
    rw [afterCalls_succ, h.step (by omega), if_neg (by omega)]
    exact h.takeSamples

lemma calibrated_afterCalls (state : CurrentAcquisition) (hn : 2000 ≤ n) :
    Calibrated alpha beta (afterCalls state alpha beta n) := by
  induction n, hn using Nat.le_induction with
  | base =>
    have h := @calibrating_afterCalls alpha beta 1999 state (by decide)
    rw [afterCalls_succ state alpha beta 1999, h.step (by decide), if_pos rfl]
    refine ⟨rfl, ?_, ?_⟩
    · rw [channelOutput, ← h.alphaFilter]
      rfl
    · rw [channelOutput, ← h.betaFilter]
      rfl
  | succ n hn ih =>
    have hidle : calibrationStep (afterCalls state alpha beta n) (alpha n) (beta n) =
        afterCalls state alpha beta n := if_neg (not_not.mpr ih.calibrating)
    rw [afterCalls_succ, hidle]
    exact ih

end Calls

/-! ### A constant sample -/

lemma difference_mem {c : Int16} (hc : |c.toInt - 8192| ≤ 1024) :
    0 ≤ difference 8 8192 c 1999 ∧ difference 8 8192 c 1999 < 256 := by
  have habs := abs_le.mp hc
  apply @iterate_leak_mem 256 (255 * (8192 - c.toInt)) (-261120) 261120
  · decide
  · omega
  · omega
  · decide +kernel
  · decide +kernel

lemma channelOutput_of_const {samples : Nat → Int16} {c : Int16} (hc : |c.toInt - 8192| ≤ 1024)
    (h : ∀ i < 2000, samples i = c) : channelOutput samples 1999 = c := by
  have hconst : (List.range 1999).map samples = List.replicate 1999 c := by
    rw [List.eq_replicate_iff]
    refine ⟨by rw [List.length_map, List.length_range], ?_⟩
    intro x hx
    obtain ⟨i, hi, rfl⟩ := List.mem_map.mp hx
    have hi := List.mem_range.mp hi
    exact h i (by omega)
  obtain ⟨h₀, h₁⟩ := difference_mem hc
  apply Int16.toInt_inj.mp
  rw [channelOutput, channelFilter, hconst, h 1999 (by decide), output_replicate (by decide)]
  change difference 8 8192 c 1999 / 256 + c.toInt = c.toInt
  rw [Int.ediv_eq_zero_of_lt h₀ h₁, zero_add]

/-- After a reset the first 1999 calls report a calibration, the next one ends it, and a channel
whose samples were constant until then has the sample as its offset, for as long as it is not reset
again. -/
theorem calibrate_of_reset (state : CurrentAcquisition) (alpha beta : Nat → Int16) :
    (∀ n, (mclibCurrentAcquisitionCalibrate (afterCalls state alpha beta n)
        (alpha n) (beta n)).2 = if n < 1999 then 1 else 0) ∧
      (∀ c : Int16, |c.toInt - 8192| ≤ 1024 → (∀ i < 2000, alpha i = c) →
        ∀ n, 2000 ≤ n → (afterCalls state alpha beta n).offsetAlpha = c) ∧
      ∀ c : Int16, |c.toInt - 8192| ≤ 1024 → (∀ i < 2000, beta i = c) →
        ∀ n, 2000 ≤ n → (afterCalls state alpha beta n).offsetBeta = c := by
  refine ⟨?_, ?_, ?_⟩
  · intro n
    change (afterCalls state alpha beta (n + 1)).calibrating = _
    split
    · exact (calibrating_afterCalls state (by omega)).calibrating
    · exact (calibrated_afterCalls state (by omega)).calibrating
  · intro c hc h n hn
    rw [(calibrated_afterCalls state hn).offsetAlpha, channelOutput_of_const hc h]
  · intro c hc h n hn
    rw [(calibrated_afterCalls state hn).offsetBeta, channelOutput_of_const hc h]

/-- The two ends of the range on the two channels. -/
theorem calibrate_of_reset_ends :
    (afterCalls ⟨0, 0, 0, 0, 0, 0, ⟨0, 0⟩, ⟨0, 0⟩⟩ (fun _ => 9216) (fun _ => 7168)
        2000).offsetAlpha = 9216 ∧
      (afterCalls ⟨0, 0, 0, 0, 0, 0, ⟨0, 0⟩, ⟨0, 0⟩⟩ (fun _ => 9216) (fun _ => 7168)
        2000).offsetBeta = 7168 := by
  obtain ⟨-, halpha, hbeta⟩ :=
    calibrate_of_reset ⟨0, 0, 0, 0, 0, 0, ⟨0, 0⟩, ⟨0, 0⟩⟩ (fun _ => 9216) (fun _ => 7168)
  exact ⟨halpha 9216 (by decide) (fun _ _ => rfl) 2000 le_rfl,
    hbeta 7168 (by decide) (fun _ _ => rfl) 2000 le_rfl⟩

end KlipperMcu.Acquisition
