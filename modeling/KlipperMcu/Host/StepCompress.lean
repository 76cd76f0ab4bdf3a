import Mathlib.Algebra.Order.Ring.Int
import Mathlib.Data.List.Basic
import Mathlib.Tactic.Common

/-!
# Step compression on the host

The data of stepcompress.c and the functions that turn queued step times into `queue_step`
commands. Clocks of 64 bits are natural numbers. The queue holds the low 32 bits of the step
clocks from `queue_pos` to `queue_next`.
-/

namespace KlipperMcu.Compress

/-- `CLOCK_DIFF_MAX`. -/
def clockDiffMax : Nat := 3 * 2 ^ 28

/-- `struct step_move`. -/
structure StepMove where
  interval : UInt32
  count : UInt16
  add : Int16
deriving DecidableEq, Repr

/-- A `queue_step` command waiting to be sent. -/
structure QueueMessage where
  move : StepMove
  minClock : Nat
  reqClock : Nat
deriving DecidableEq, Repr

structure HistorySteps where
  firstClock : Nat
  lastClock : Nat
  startPosition : Int
  stepCount : Int
  interval : UInt32
  add : Int16
deriving DecidableEq, Repr

structure StepCompress where
  queue : List UInt32
  maxError : UInt32
  lastStepClock : Nat
  msgQueue : List QueueMessage
  sdir : Int
  lastPosition : Int
  historyList : List HistorySteps
deriving DecidableEq, Repr

/-- The signed 32-bit number congruent to `x`. -/
def wrap (x : Int) : Int := (x + 2 ^ 31) % 2 ^ 32 - 2 ^ 31

structure Points where
  minp : Int32
  maxp : Int32
deriving DecidableEq, Repr

/-- The clock of the queued step `i` relative to the last step. -/
def pointAt (sc : StepCompress) (i : Nat) : Option UInt32 :=
  sc.queue[i]?.map fun pos => pos - UInt32.ofNat sc.lastStepClock

/-- The clock of the step before queued step `i`, relative to the last step. -/
def prevPointAt (sc : StepCompress) (i : Nat) : Option UInt32 :=
  if i = 0 then some 0 else pointAt sc (i - 1)

/-- The acceptable times of a step at `point` that follows one at `prevpoint`. -/
def pointWindow (sc : StepCompress) (point prevpoint : UInt32) : Points :=
  let maxError := (point - prevpoint) / 2
  let maxError := if sc.maxError < maxError then sc.maxError else maxError
  ⟨(point - maxError).toInt32, point.toInt32⟩

/-- `minmax_point` of queued step `i`, or `none` past the end of the queue. -/
def minmaxPoint (sc : StepCompress) (i : Nat) : Option Points :=
  (pointAt sc i).bind fun point => (prevPointAt sc i).map (pointWindow sc point)

/-- The loop of `check_line` over the remaining steps, `i` of them done. It is `none` when it
reads past the end of the queue. The bounds are compared as unsigned numbers. -/
def checkSteps (sc : StepCompress) (add : UInt32) :
    Nat → Nat → UInt32 → UInt32 → Option Bool
  | 0, _, _, _ => some true
  | left + 1, i, interval, p =>
    match minmaxPoint sc i with
    | none => none
    | some point =>
      if p + interval < point.minp.toUInt32 ∨ point.maxp.toUInt32 < p + interval then some false
      else if 0x80000000 ≤ interval then some false
      else checkSteps sc add left (i + 1) (interval + add) (p + interval)

/-- `check_line`: whether the move matches the queued step times. -/
def checkLine (sc : StepCompress) (move : StepMove) : Option Bool :=
  if move.count = 0 ∨ (move.interval = 0 ∧ move.add = 0 ∧ 1 < move.count) ∨
      0x80000000 ≤ move.interval then some false
  else checkSteps sc move.add.toInt32.toUInt32 move.count.toNat 0 move.interval 0

/-- The number of ticks from the first to the last step of a move, as `add_move` computes it. -/
def moveTicks (move : StepMove) : UInt32 :=
  let addfactor := (wrap (move.count.toNat * (move.count.toNat - 1))).tdiv 2
  UInt32.ofInt (wrap (move.add.toInt * addfactor)) + move.interval * (move.count.toUInt32 - 1)

def addMove (sc : StepCompress) (firstClock : Nat) (move : StepMove) : StepCompress :=
  let lastClock := firstClock + (moveTicks move).toNat
  let far := move.count = 1 ∧ sc.lastStepClock + clockDiffMax ≤ firstClock
  let stepCount : Int := if sc.sdir ≠ 0 then move.count.toNat else -move.count.toNat
  { sc with
    msgQueue := sc.msgQueue ++
      [⟨move, sc.lastStepClock, if far then firstClock else sc.lastStepClock⟩]
    lastStepClock := lastClock
    historyList :=
      ⟨firstClock, lastClock, sc.lastPosition, stepCount, move.interval, move.add⟩ ::
        sc.historyList
    lastPosition := sc.lastPosition + stepCount }

/-- One round of the loop of `queue_flush` in which the compressor proposed `move`. -/
def flushMove (sc : StepCompress) (move : StepMove) : Option StepCompress :=
  match checkLine sc move with
  | some true =>
    some { addMove sc (sc.lastStepClock + move.interval.toNat) move with
      queue := sc.queue.drop move.count.toNat }
  | _ => none

/-- `stepcompress_flush_far`. -/
def stepcompressFlushFar (sc : StepCompress) (absStepClock : Nat) : StepCompress :=
  addMove sc absStepClock ⟨UInt32.ofNat (absStepClock - sc.lastStepClock), 1, 0⟩

end KlipperMcu.Compress
