import KlipperMcu.Host.Trdispatch
import KlipperMcu.Lib.Extend
import KlipperMcu.Lib.IntBits
import KlipperMcu.Lib.Word

/-!
# Clocks of a micro-controller on the host

The messages of a micro-controller carry the low 32 bits of its clock. clocksync.py keeps the full
clock of the last `clock` message, and msgblock.c has a copy of it. Both take another clock for the
one within half a turn of it.
-/

namespace KlipperMcu.Clocks

open Lib

/-- What `ClockSync` knows of the clock. Its estimates of frequency and time are not kept. -/
structure ClockSync where
  lastClock : Int
deriving DecidableEq, Repr

/-- The clock of an `uptime` message in `connect`. -/
def connect (high clock : UInt32) : ClockSync where
  lastClock := Int.lor ((high.toNat : Int) <<< (32 : Nat)) clock.toNat

/-- `_handle_clock` as far as the clock is concerned. -/
def handleClock (c : ClockSync) (clock : UInt32) : ClockSync :=
  let clockDelta := Int.land (clock.toNat - c.lastClock) 0xffffffff
  { lastClock := c.lastClock + clockDelta }

def clock32ToClock64 (c : ClockSync) (clock32 : UInt32) : Int :=
  let clockDiff := Int.land (clock32.toNat - c.lastClock) 0xffffffff
  let clockDiff := clockDiff - Int.land clockDiff 0x80000000 <<< (1 : Nat)
  c.lastClock + clockDiff

lemma land_mask (x : Int) : Int.land x 0xffffffff = x % 2 ^ 32 := land_two_pow_sub_one 32 x

lemma handleClock_eq (c : ClockSync) (clock : UInt32) :
    (handleClock c clock).lastClock = extendForward 32 c.lastClock clock.toNat := by
  unfold handleClock extendForward
  rw [land_mask]

lemma sub_signBit {d : Int} (h₀ : 0 ≤ d) (h : d < 2 ^ 32) :
    d - Int.land d 0x80000000 <<< (1 : Nat) = d.bmod (2 ^ 32) := by
  obtain ⟨n, rfl⟩ := Int.eq_ofNat_of_zero_le h₀
  have hn : n < 2 ^ 32 := by omega
  have hland : Int.land (n : Int) 0x80000000 = ((n &&& 2 ^ 31 : Nat) : Int) := rfl
  have hbit : n &&& 2 ^ 31 = if n < 2 ^ 31 then 0 else 2 ^ 31 := by
    rw [Nat.and_two_pow, Nat.testBit_eq_decide_div_mod_eq]
    by_cases hlow : n < 2 ^ 31
    · rw [if_pos hlow, Nat.div_eq_of_lt hlow]
      rfl
    · have hdiv : n / 2 ^ 31 = 1 := by omega
      rw [if_neg hlow, hdiv]
      rfl
  rw [hland, hbit, Int.shiftLeft_eq, Int.bmod_def]
  by_cases hlow : n < 2 ^ 31
  · rw [if_pos hlow, if_pos (by omega)]
    omega
  · rw [if_neg hlow, if_neg (by omega)]
    omega

lemma clock32ToClock64_eq (c : ClockSync) (clock32 : UInt32) :
    clock32ToClock64 c clock32 = extendNearest 32 c.lastClock clock32.toNat := by
  have hmod : ∀ d : Int, (d % 2 ^ 32).bmod (2 ^ 32) = d.bmod (2 ^ 32) := fun d =>
    Int.emod_bmod (x := d) (n := 2 ^ 32)
  unfold clock32ToClock64 extendNearest
  dsimp only
  rw [land_mask, sub_signBit (Int.emod_nonneg _ (by decide)) (Int.emod_lt_of_pos _ (by decide)),
    hmod]

lemma toNat_toUInt64_int64 (x : Int64) : (x.toUInt64.toNat : Int) = x.toInt % 2 ^ 64 := by
  have hcond := BitVec.toInt_eq_toNat_cond x.toBitVec
  have hlt := x.toBitVec.isLt
  rw [Int64.toInt_toBitVec] at hcond
  change (x.toBitVec.toNat : Int) = _
  split at hcond <;> omega

lemma clockFromClock32_eq {τ : Type} (ce : Trigger.ClockEstimate τ) (clock32 : UInt32) :
    ((Trigger.clockFromClock32 ce clock32).toNat : Int) =
      extendNearest 32 ce.lastClock.toNat clock32.toNat % 2 ^ 64 := by
  have hsub : (clock32 - ce.lastClock.toUInt32).toNat =
      (2 ^ 32 - ce.lastClock.toNat % 2 ^ 32 + clock32.toNat) % 2 ^ 32 := by
    rw [UInt32.toNat_sub, UInt64.toNat_toUInt32]
  have hdiff : (clock32 - ce.lastClock.toUInt32).toInt32.toInt =
      ((clock32.toNat : Int) - ce.lastClock.toNat).bmod (2 ^ 32) := by
    rw [toInt_toInt32, hsub, Int.bmod_def]
    split <;> split <;> omega
  unfold Trigger.clockFromClock32 extendNearest
  rw [UInt64.toNat_add, Int.natCast_emod, Int.natCast_add, toNat_toUInt64_int64,
    Int32.toInt_toInt64, hdiff]
  omega

end KlipperMcu.Clocks
