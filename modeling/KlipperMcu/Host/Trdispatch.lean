import KlipperMcu.Firmware.Trsync
import Mathlib.Data.List.FinRange

/-!
# Trigger dispatch on the host

The functions of trdispatch.c over the `n` micro-controllers of one `struct trdispatch`. The
conversions between clocks and times are floating-point in the source. They are kept as functions
of the clock estimate, and `τ` is the type of times.
-/

namespace KlipperMcu.Trigger

/-- A command to the object of a micro-controller, its `oid` apart. -/
inductive Command where
  | trsyncTrigger (reason : UInt32)
  | trsyncSetTimeout (clock : UInt32)
deriving DecidableEq, Repr

/-- `struct clock_estimate`. -/
structure ClockEstimate (τ : Type) where
  lastClock : UInt64
  clockToTime : UInt64 → τ
  clockFromTime : τ → UInt64

def clockFromClock32 {τ : Type} (ce : ClockEstimate τ) (clock32 : UInt32) : UInt64 :=
  ce.lastClock + (clock32 - ce.lastClock.toUInt32).toInt32.toInt64.toUInt64

/-- `struct trdispatch_mcu`. -/
structure TrdispatchMcu (τ : Type) where
  lastStatusClock : UInt64
  expireClock : UInt64
  expireTicks : UInt64
  minExtendTicks : UInt64
  ce : ClockEstimate τ

/-- `struct trdispatch` with its list of micro-controllers. -/
structure Trdispatch (n : Nat) (τ : Type) where
  isActive : Bool
  canTrigger : Bool
  dispatchReason : UInt32
  tdms : Fin n → TrdispatchMcu τ

def trdispatchStart {n : Nat} {τ : Type} (td : Trdispatch n τ) (dispatchReason : UInt32) :
    Trdispatch n τ :=
  if td.isActive ∨ n = 0 then td
  else { td with dispatchReason := dispatchReason, isActive := true, canTrigger := true }

variable {n : Nat} {τ : Type} [LT τ] [DecidableLT τ] [BEq τ]

/-- The earliest status time, the one after it, and whose the earliest is. -/
structure MinTimes (n : Nat) (τ : Type) where
  minTime : τ
  nextMinTime : τ
  minTdm : Option (Fin n)

/-- One round of the loop that determines the minimum acknowledged time. -/
def MinTimes.round (tdms : Fin n → TrdispatchMcu τ) (t : MinTimes n τ) (m : Fin n) : MinTimes n τ :=
  let statusTime := (tdms m).ce.clockToTime (tdms m).lastStatusClock
  if statusTime < t.nextMinTime then
    if statusTime < t.minTime then ⟨statusTime, t.minTime, some m⟩
    else { t with nextMinTime := statusTime }
  else t

/-- The minimum acknowledged times among all micro-controllers. `never` is `PR_NEVER`. -/
def minTimes (never : τ) (tdms : Fin n → TrdispatchMcu τ) : MinTimes n τ :=
  let t := (List.finRange n).foldl (MinTimes.round tdms) ⟨never, never, none⟩
  if t.nextMinTime == never then { t with nextMinTime := t.minTime } else t

/-- The new timeout of micro-controller `m`, if it is extended. The comparison is unsigned. -/
def extension (t : MinTimes n τ) (tdms : Fin n → TrdispatchMcu τ) (m : Fin n) : Option UInt64 :=
  let statusTime := if t.minTdm = some m then t.nextMinTime else t.minTime
  let expire := (tdms m).ce.clockFromTime statusTime + (tdms m).expireTicks
  if (tdms m).minExtendTicks ≤ expire - (tdms m).expireClock then some expire else none

/-- `handle_trsync_state` for a message of micro-controller `i`, with the commands it sends. `ce`
is the clock estimate of its serialqueue. -/
def handleTrsyncState (never : τ) (td : Trdispatch n τ) (i : Fin n) (ce : ClockEstimate τ)
    (msg : TrsyncState) : Trdispatch n τ × List (Fin n × Command) :=
  if !td.canTrigger then (td, [])
  else if !msg.canTrigger then
    ({ td with canTrigger := false },
      (List.finRange n).map fun m => (m, .trsyncTrigger td.dispatchReason))
  else
    let tdms := Function.update td.tdms i
      { td.tdms i with ce := ce, lastStatusClock := clockFromClock32 ce msg.clock }
    let expire := extension (minTimes never tdms) tdms
    ({ td with
        tdms := fun m => (expire m).elim (tdms m) fun e => { tdms m with expireClock := e } },
      (List.finRange n).filterMap fun m =>
        (expire m).map fun e => (m, .trsyncSetTimeout e.toUInt32))

section Handle

variable {never : τ} {td : Trdispatch n τ} {i : Fin n} {ce : ClockEstimate τ} {msg : TrsyncState}

lemma handleTrsyncState_inactive (h : td.canTrigger = false) :
    handleTrsyncState never td i ce msg = (td, []) := by
  simp [handleTrsyncState, h]

lemma handleTrsyncState_trigger (h : td.canTrigger = true) (hm : msg.canTrigger = false) :
    handleTrsyncState never td i ce msg =
      ({ td with canTrigger := false },
        (List.finRange n).map fun m => (m, .trsyncTrigger td.dispatchReason)) := by
  simp [handleTrsyncState, h, hm]

lemma handleTrsyncState_status (h : td.canTrigger = true) (hm : msg.canTrigger = true) :
    (handleTrsyncState never td i ce msg).1.canTrigger = true ∧
      ∀ c ∈ (handleTrsyncState never td i ce msg).2, ∃ clock, c.2 = .trsyncSetTimeout clock := by
  simp only [handleTrsyncState, h, hm, Bool.not_true, Bool.false_eq_true, if_false, true_and]
  intro c hc
  obtain ⟨m, -, he⟩ := List.mem_filterMap.mp hc
  obtain ⟨e, -, rfl⟩ := Option.map_eq_some_iff.mp he
  exact ⟨_, rfl⟩

end Handle

end KlipperMcu.Trigger
