import KlipperMcu.Firmware.MotorPins
import Mathlib.Data.Int.CardIntervalMod

/-!
# The quarter turns of a motor

A motor of the main board counts the quarter turns of its electrical phase, up to 255, and its
control loop looks for a stall only after 17 of them. A quarter turn is counted when the phase is a
multiple of 16384 after a step. The phase starts in the middle of a quarter, and a step is 16384
divided by the number of microsteps. Without microsteps no step ever gets to a multiple.
-/

namespace KlipperMcu.MotorPins

/-- A left shift by a register: the count is its low byte, and the bits that leave are lost. -/
def registerShift (value count : UInt32) : UInt32 :=
  UInt32.ofNat (value.toNat <<< (count.toNat % 256))

def mclibSetMicrostep (exponent : UInt16) (m : Motor) : Motor :=
  { m with
    angleIncrement := (registerShift 1 (14 - exponent.toUInt32)).toUInt16
    microstepExponent := exponent
    idleThreshold := registerShift 0x007f2815 (8 - exponent.toUInt32) }

/-- The calls of `mclib_gpio_step` at some values of the timer. -/
def mclibGpioSteps (times : List UInt32) (m : Motor) : Motor :=
  times.foldl (fun m sampled => mclibGpioStep sampled m) m

/-- The phase, counted in the direction of the motor. -/
def turned (m : Motor) : UInt16 := if m.direction ≠ 0 then m.stepPhase else -m.stepPhase

/-- The `i`-th step ends at a multiple of a quarter turn. -/
def AtQuarter (n i : Nat) : Prop := 2 ^ 14 ∣ 8192 + i * 2 ^ (14 - n)

instance (n i : Nat) : Decidable (AtQuarter n i) := inferInstanceAs (Decidable (_ ∣ _))

/-- The number of multiples of a quarter turn among the first `i` steps. -/
def quarterTurns (n i : Nat) : Nat := Nat.count (fun j => AtQuarter n (j + 1)) i

/-! ### A step -/

section Step

variable (sampled : UInt32) (m : Motor)

lemma angleIncrement_mclibGpioStep :
    (mclibGpioStep sampled m).angleIncrement = m.angleIncrement := by
  unfold mclibGpioStep
  dsimp only
  split_ifs <;> rfl

lemma stepPhase_mclibGpioStep :
    (mclibGpioStep sampled m).stepPhase =
      if m.direction ≠ 0 then m.stepPhase + m.angleIncrement
      else m.stepPhase - m.angleIncrement := by
  unfold mclibGpioStep
  dsimp only
  split_ifs <;> rfl

lemma stallGateCount_mclibGpioStep :
    (mclibGpioStep sampled m).stallGateCount =
      if (mclibGpioStep sampled m).stepPhase &&& 0x3fff = 0 ∧ m.stallGateCount ≠ 255 then
        m.stallGateCount + 1
      else m.stallGateCount := by
  rw [stepPhase_mclibGpioStep]
  unfold mclibGpioStep
  by_cases hdir : m.direction ≠ 0
  · simp only [if_pos hdir]
    split_ifs <;> rfl
  · simp only [if_neg hdir]
    split_ifs <;> rfl

lemma turned_mclibGpioStep : turned (mclibGpioStep sampled m) = turned m + m.angleIncrement := by
  rw [turned, direction_mclibGpioStep, stepPhase_mclibGpioStep, turned]
  split_ifs
  · rfl
  · rw [UInt16.neg_sub, UInt16.sub_eq_add_neg, UInt16.add_comm]

lemma and_quarter (x : UInt16) : x &&& 0x3fff = 0 ↔ 2 ^ 14 ∣ x.toNat := by
  rw [← UInt16.toNat_inj, UInt16.toNat_and, Nat.dvd_iff_mod_eq_zero]
  exact Eq.congr_left (Nat.and_two_pow_sub_one_eq_mod _ 14)

lemma dvd_turned : 2 ^ 14 ∣ (turned m).toNat ↔ 2 ^ 14 ∣ m.stepPhase.toNat := by
  unfold turned
  split_ifs
  · rfl
  · have hlt := m.stepPhase.toNat_lt
    rw [UInt16.toNat_neg]
    change 2 ^ 14 ∣ (2 ^ 16 - m.stepPhase.toNat) % 2 ^ 16 ↔ _
    omega

end Step

/-! ### A run of steps -/

/-- The motor `i` steps after it was enabled with `2 ^ n` microsteps. -/
structure Turning (n i : Nat) (m : Motor) : Prop where
  increment : m.angleIncrement.toNat = 2 ^ (14 - n)
  phase : (turned m).toNat ≡ 8192 + i * 2 ^ (14 - n) [MOD 2 ^ 14]
  count : m.stallGateCount.toNat = min (quarterTurns n i) 255

variable {n i : Nat} {m : Motor} {exponent : UInt16}

lemma quarterTurns_succ (n i : Nat) :
    quarterTurns n (i + 1) = quarterTurns n i + if AtQuarter n (i + 1) then 1 else 0 :=
  Nat.count_succ _ _

lemma Turning.phase_step (h : Turning n i m) (sampled : UInt32) :
    (turned (mclibGpioStep sampled m)).toNat ≡ 8192 + (i + 1) * 2 ^ (14 - n) [MOD 2 ^ 14] := by
  rw [turned_mclibGpioStep, UInt16.toNat_add, h.increment, add_mul, one_mul, ← add_assoc]
  exact ((Nat.mod_modEq _ _).of_dvd (by decide)).trans (h.phase.add_right _)

lemma Turning.step (h : Turning n i m) (sampled : UInt32) :
    Turning n (i + 1) (mclibGpioStep sampled m) := by
  refine ⟨?_, h.phase_step sampled, ?_⟩
  · rw [angleIncrement_mclibGpioStep]
    exact h.increment
  · have hquarter : (mclibGpioStep sampled m).stepPhase &&& 0x3fff = 0 ↔ AtQuarter n (i + 1) := by
      rw [and_quarter, ← dvd_turned]
      exact (h.phase_step sampled).dvd_iff dvd_rfl
    have hfull : m.stallGateCount ≠ 255 ↔ quarterTurns n i < 255 := by
      rw [Ne, ← UInt8.toNat_inj, h.count]
      change ¬min _ 255 = 255 ↔ _
      omega
    rw [stallGateCount_mclibGpioStep, quarterTurns_succ]
    simp only [hquarter, hfull]
    have hcount := h.count
    by_cases hat : AtQuarter n (i + 1) <;> by_cases hlt : quarterTurns n i < 255
    · rw [if_pos ⟨hat, hlt⟩, if_pos hat, UInt8.toNat_add]
      change (_ + 1) % 2 ^ 8 = _
      omega
    all_goals
      simp only [hat, hlt, and_false, and_true, if_false, if_true]
      omega

lemma Turning.steps (h : Turning n i m) (times : List UInt32) :
    Turning n (i + times.length) (mclibGpioSteps times m) := by
  induction times generalizing i m with
  | nil => exact h
  | cons sampled times ih =>
    rw [List.length_cons, Nat.add_comm times.length, ← Nat.add_assoc]
    exact ih (h.step sampled)

lemma angleIncrement_enable (hn : exponent.toNat ≤ 14) (enabled : UInt32) (m : Motor) :
    (mclibGpioEnable enabled (mclibSetMicrostep exponent m)).angleIncrement.toNat =
      2 ^ (14 - exponent.toNat) := by
  change ((1 : UInt16) <<< (14 - exponent)).toNat = _
  have hcount : (14 - exponent).toNat = 14 - exponent.toNat :=
    UInt16.toNat_sub_of_le _ _ hn
  have hpow : 2 ^ (14 - exponent.toNat) ≤ 2 ^ 14 := Nat.pow_le_pow_right (by decide) (by omega)
  rw [UInt16.toNat_shiftLeft, hcount, Nat.mod_eq_of_lt (by omega : _ < 16), Nat.shiftLeft_eq]
  change 1 * 2 ^ _ % 2 ^ 16 = _
  omega

lemma turning_enable (hn : exponent.toNat ≤ 14) (hcount : m.stallGateCount = 0)
    (enabled : UInt32) :
    Turning exponent.toNat 0 (mclibGpioEnable enabled (mclibSetMicrostep exponent m)) := by
  refine ⟨angleIncrement_enable hn enabled m, ?_, ?_⟩
  · rw [zero_mul, add_zero, turned]
    split_ifs
    · rfl
    · change (-(8192 : UInt16)).toNat ≡ 8192 [MOD 2 ^ 14]
      decide
  · change m.stallGateCount.toNat = min 0 255
    rw [hcount]
    rfl

/-! ### The number of quarter turns -/

lemma not_atQuarter_zero (i : Nat) : ¬AtQuarter 0 i := by
  unfold AtQuarter
  omega

lemma atQuarter_iff (h₀ : n ≠ 0) (hn : n ≤ 14) (i : Nat) :
    AtQuarter n (i + 1) ↔ i ≡ 2 ^ (n - 1) - 1 [MOD 2 ^ n] := by
  have hquarter : 2 ^ 14 = 2 ^ n * 2 ^ (14 - n) := by rw [← pow_add, Nat.add_sub_cancel' hn]
  have hmiddle : 8192 = 2 ^ (n - 1) * 2 ^ (14 - n) := by
    rw [← pow_add, show n - 1 + (14 - n) = 13 by omega]
    rfl
  have hhalf : 2 ^ n = 2 * 2 ^ (n - 1) := by rw [← pow_succ', Nat.sub_add_cancel (by omega)]
  have hpos : 0 < 2 ^ (n - 1) := by positivity
  rw [AtQuarter, hquarter, hmiddle, ← add_mul, Nat.mul_dvd_mul_iff_right (by positivity)]
  have hzero : 2 ^ (n - 1) - 1 + (2 ^ (n - 1) + 1) ≡ 0 [MOD 2 ^ n] := by
    rw [Nat.modEq_zero_iff_dvd, hhalf]
    exact ⟨1, by omega⟩
  rw [Nat.add_left_comm, ← Nat.modEq_zero_iff_dvd]
  constructor
  · intro h
    exact Nat.ModEq.add_right_cancel' _ (h.trans hzero.symm)
  · intro h
    exact (h.add_right _).trans hzero

lemma quarterTurns_mul (h₀ : n ≠ 0) (hn : n ≤ 14) (k : Nat) : quarterTurns n (k * 2 ^ n) = k := by
  simp only [quarterTurns, atQuarter_iff h₀ hn]
  rw [Nat.count_modEq_card _ (by positivity), Nat.mul_div_cancel _ (by positivity),
    Nat.mul_mod_left, if_neg (by omega), add_zero]

/-- Without microsteps the quarter turns are not counted; with any other number of them they are. -/
theorem stallGateCount_iff {exponent : UInt16} (hn : exponent.toNat ≤ 14) {m : Motor}
    (hcount : m.stallGateCount = 0) (enabled : UInt32) (k : Nat) {times : List UInt32}
    (htimes : times.length = k * 2 ^ exponent.toNat) :
    (mclibGpioSteps times
        (mclibGpioEnable enabled (mclibSetMicrostep exponent m))).stallGateCount.toNat =
      min k 255 ↔ exponent ≠ 0 ∨ k = 0 := by
  have hrun := ((turning_enable hn hcount enabled).steps times).count
  rw [zero_add, htimes] at hrun
  rw [hrun, Ne, ← UInt16.toNat_inj]
  by_cases h₀ : exponent.toNat = 0
  · have hnone : quarterTurns exponent.toNat (k * 2 ^ exponent.toNat) = 0 := by
      rw [h₀]
      exact Nat.count_iff_forall_not.mpr fun i _ => not_atQuarter_zero (i + 1)
    rw [hnone]
    change min 0 255 = _ ↔ ¬exponent.toNat = 0 ∨ _
    omega
  · rw [quarterTurns_mul h₀ hn]
    exact iff_of_true rfl (.inl h₀)

/-- With two microsteps, backwards, a full turn is four quarters. -/
theorem stallGateCount_iff_turn :
    (mclibGpioSteps (List.replicate 8 7)
      (mclibGpioEnable 3 (mclibSetMicrostep 1
        ⟨0, 0, 0, 0, 0, 0, 0, 0, 0, 0, 0, 0, 0, 0⟩))).stallGateCount.toNat = min 4 255 :=
  (stallGateCount_iff (by decide) rfl 3 4 rfl).mpr (.inl (by decide))

/-- Without microsteps a full turn is not counted at all. -/
theorem stallGateCount_no_microsteps :
    (mclibGpioSteps (List.replicate 4 7)
      (mclibGpioEnable 3 (mclibSetMicrostep 0
        ⟨1, 0, 0, 0, 0, 0, 0, 0, 0, 0, 0, 0, 0, 0⟩))).stallGateCount = 0 := by
  decide

end KlipperMcu.MotorPins
