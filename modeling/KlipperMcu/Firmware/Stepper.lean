import KlipperMcu.Firmware.Sched

/-!
# Stepper control

The functions of stepper.c on one `struct stepper`. The moves of its queue are kept in a list. A
call that shuts down returns the memory it leaves behind.
-/

namespace KlipperMcu.Motion

open Sched

/-- `struct stepper_move`. `command_queue_step` queues no move without steps. -/
structure StepperMove where
  interval : UInt32
  add : Int16
  count : UInt16
  dir : Bool
  count_ne : count ≠ 0
deriving DecidableEq, Repr

/-- `struct stepper` with the flags of its `flags` field, the levels of its pins and whether its
timer is on the timer list. -/
structure Stepper where
  waketime : UInt32
  scheduled : Bool
  interval : UInt32
  add : Int16
  count : UInt32
  nextStepTime : UInt32
  stepPulseTicks : UInt32
  stepPin : Bool
  dirPin : Bool
  position : UInt32
  mq : List StepperMove
  lastDir : Bool
  nextDir : Bool
  invertStep : Bool
  needReset : Bool
  singleSched : Bool
deriving DecidableEq, Repr

def positionBias : UInt32 := 0x40000000

/-- An `int16_t` added to a 32-bit time. -/
def addTicks (add : Int16) : UInt32 := add.toInt32.toUInt32

/-- The part of `stepper_load_next` that loads `m` into the stepper. -/
def loadMove (s : Stepper) (m : StepperMove) : Stepper :=
  let s := { s with add := m.add, interval := m.interval + addTicks m.add }
  let s :=
    if s.singleSched then
      { s with waketime := s.waketime + m.interval, count := m.count.toUInt32 }
    else
      { s with
        nextStepTime := s.nextStepTime + m.interval
        waketime := s.nextStepTime + m.interval
        count := m.count.toUInt32 * 2 }
  if m.dir then
    { s with position := -s.position + m.count.toUInt32, dirPin := !s.dirPin }
  else { s with position := s.position + m.count.toUInt32 }

def stepperLoadNext (s : Stepper) : Stepper × SchedResult :=
  match s.mq with
  | [] => ({ s with count := 0 }, .done)
  | m :: mq => (loadMove { s with mq := mq } m, .reschedule)

lemma stepperLoadNext_nil {s : Stepper} (h : s.mq = []) :
    stepperLoadNext s = ({ s with count := 0 }, .done) := by
  unfold stepperLoadNext
  rw [h]

lemma stepperLoadNext_cons {s : Stepper} {m : StepperMove} {mq : List StepperMove}
    (h : s.mq = m :: mq) : stepperLoadNext s = (loadMove { s with mq := mq } m, .reschedule) := by
  unfold stepperLoadNext
  rw [h]

def stepperEventEdge (s : Stepper) : Stepper × SchedResult :=
  let s := { s with stepPin := !s.stepPin }
  let count := s.count - 1
  if count ≠ 0 then
    ({ s with
      count := count
      waketime := s.waketime + s.interval
      interval := s.interval + addTicks s.add }, .reschedule)
  else stepperLoadNext s

/-- `stepper_event_full` at time `curtime`. -/
def stepperEventFull (s : Stepper) (curtime : UInt32) : Except Stepper (Stepper × SchedResult) :=
  let minNextTime := curtime + s.stepPulseTicks
  let s := { s with stepPin := !s.stepPin, count := s.count - 1 }
  if s.count &&& 1 ≠ 0 then .ok ({ s with waketime := minNextTime }, .reschedule)
  else if s.count ≠ 0 then
    let s := { s with
      nextStepTime := s.nextStepTime + s.interval
      interval := s.interval + addTicks s.add }
    if timerIsBefore s.nextStepTime minNextTime then
      .ok ({ s with waketime := minNextTime }, .reschedule)
    else .ok ({ s with waketime := s.nextStepTime }, .reschedule)
  else
    let (s, ret) := stepperLoadNext s
    if ret = .done ∨ timerIsBefore s.waketime minNextTime = false then .ok (s, ret)
    else if (s.waketime - minNextTime).toInt32 < (-timerFromUs 1000).toInt32 then .error s
    else .ok ({ s with waketime := minNextTime }, .reschedule)

/-- The callback of the stepper's timer. `command_config_stepper` sets `stepper_event_full`
unless the stepper is single scheduled. -/
def stepperEvent (s : Stepper) (curtime : UInt32) : Except Stepper (Stepper × SchedResult) :=
  if s.singleSched then .ok (stepperEventEdge s) else stepperEventFull s curtime

/-- `command_config_stepper`. -/
def commandConfigStepper (invertStep : Int) (stepPulseTicks : UInt32) : Stepper where
  waketime := 0
  scheduled := false
  interval := 0
  add := 0
  count := 0
  nextStepTime := 0
  stepPulseTicks := stepPulseTicks
  stepPin := decide (0 < invertStep)
  dirPin := false
  position := -positionBias
  mq := []
  lastDir := false
  nextDir := false
  invertStep := decide (0 < invertStep)
  needReset := false
  singleSched := decide (stepPulseTicks = 0 ∧ invertStep < 0)

/-- `command_queue_step` after the move is filled in. -/
def queueMove (s : Stepper) (interval : UInt32) (add : Int16) (count : UInt16)
    (h : count ≠ 0) : Stepper :=
  let flip := s.lastDir != s.nextDir
  let lastDir := if flip then !s.lastDir else s.lastDir
  let m : StepperMove := ⟨interval, add, count, flip, h⟩
  if s.count ≠ 0 then { s with lastDir := lastDir, mq := s.mq ++ [m] }
  else if s.needReset then s
  else
    let s := (stepperLoadNext { s with lastDir := lastDir, mq := s.mq ++ [m] }).1
    { s with scheduled := true }

def commandQueueStep (s : Stepper) (interval count add : UInt32) : Except Stepper Stepper :=
  if h : count.toUInt16 = 0 then .error s
  else .ok (queueMove s interval add.toUInt16.toInt16 count.toUInt16 h)

def commandSetNextStepDir (s : Stepper) (dir : UInt32) : Stepper :=
  { s with nextDir := decide (dir ≠ 0) }

def commandResetStepClock (s : Stepper) (clock : UInt32) : Except Stepper Stepper :=
  if s.count ≠ 0 then .error s
  else .ok { s with nextStepTime := clock, waketime := clock, needReset := false }

def stepperGetPosition (s : Stepper) : UInt32 :=
  let position := s.position - if s.singleSched then s.count else s.count / 2
  if position &&& 0x80000000 ≠ 0 then -position else position

def stepperStop (s : Stepper) : Stepper :=
  { s with
    scheduled := false
    nextStepTime := 0
    waketime := 0
    position := -stepperGetPosition s
    count := 0
    lastDir := false
    nextDir := false
    needReset := true
    dirPin := false
    stepPin := if s.singleSched then s.stepPin else s.invertStep
    mq := [] }

def stepperShutdown (s : Stepper) : Stepper := stepperStop { s with mq := [] }

end KlipperMcu.Motion
