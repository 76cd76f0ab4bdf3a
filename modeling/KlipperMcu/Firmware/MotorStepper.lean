import KlipperMcu.Firmware.MainBoardDigital
import KlipperMcu.Firmware.MotorPins
import KlipperMcu.Firmware.StepperPosition

/-!
# A stepper that drives a motor controller

The stepper.c of the main board is always double scheduled, and its pins are those of a motor. The
motor counts the rising edges of the step pin in the direction that it was told last. The stepper
counts the steps that were started.
-/

namespace KlipperMcu.MotorStepper

open Lib Sched MotorPins
open Motion (StepperMove addTicks positionBias)

/-- `struct stepper` with the flags of its `flags` field and whether its timer is on the timer
list. -/
structure Stepper where
  waketime : UInt32
  scheduled : Bool
  interval : UInt32
  add : Int16
  count : UInt32
  nextStepTime : UInt32
  stepPulseTicks : UInt32
  stepPin : UInt8
  dirPin : UInt8
  position : UInt32
  mq : List StepperMove
  lastDir : Bool
  nextDir : Bool
  invertStep : Bool
  needReset : Bool
deriving DecidableEq, Repr

structure Board where
  stepper : Stepper
  gpio : Gpio

/-- The part of `stepper_load_next` that loads `m` into the stepper. -/
def loadMove (b : Board) (m : StepperMove) : Board where
  stepper :=
    { b.stepper with
      add := m.add
      nextStepTime := b.stepper.nextStepTime + m.interval
      waketime := b.stepper.nextStepTime + m.interval
      count := m.count.toUInt32 * 2
      interval := m.interval + addTicks m.add
      position := (if m.dir then -b.stepper.position else b.stepper.position) + m.count.toUInt32 }
  gpio := if m.dir then gpioOutToggleNoirq b.gpio b.stepper.dirPin else b.gpio

def stepperLoadNext (b : Board) : Board × SchedResult :=
  match b.stepper.mq with
  | [] => ({ b with stepper := { b.stepper with count := 0 } }, .done)
  | m :: mq => (loadMove { b with stepper := { b.stepper with mq := mq } } m, .reschedule)

/-- The start of `stepper_event_full`. -/
def stepEdge (b : Board) : Board where
  stepper := { b.stepper with count := b.stepper.count - 1 }
  gpio := gpioOutToggleNoirq b.gpio b.stepper.stepPin

/-- `reschedule_min` of `stepper_event_full`. -/
def setWaketime (b : Board) (waketime : UInt32) : Board :=
  { b with stepper := { b.stepper with waketime := waketime } }

/-- `stepper_event_full` after the step pin was toggled. -/
def afterEdge (b : Board) (minNextTime : UInt32) : Except Board (Board × SchedResult) :=
  if b.stepper.count &&& 1 ≠ 0 then .ok (setWaketime b minNextTime, .reschedule)
  else if b.stepper.count ≠ 0 then
    let b := { b with stepper := { b.stepper with
      nextStepTime := b.stepper.nextStepTime + b.stepper.interval
      interval := b.stepper.interval + addTicks b.stepper.add } }
    if timerIsBefore b.stepper.nextStepTime minNextTime then
      .ok (setWaketime b minNextTime, .reschedule)
    else .ok (setWaketime b b.stepper.nextStepTime, .reschedule)
  else
    let r := stepperLoadNext b
    if r.2 = .done ∨ timerIsBefore r.1.stepper.waketime minNextTime = false then .ok r
    else if (r.1.stepper.waketime - minNextTime).toInt32 < (-MainBoard.timerFromUs 1000).toInt32 then
      .error r.1
    else .ok (setWaketime r.1 minNextTime, .reschedule)

/-- `stepper_event_full` at time `curtime`. -/
def stepperEventFull (b : Board) (curtime : UInt32) : Except Board (Board × SchedResult) :=
  afterEdge (stepEdge b) (curtime + b.stepper.stepPulseTicks)

/-- `command_config_stepper` for pins that exist. -/
def commandConfigStepper (g : Gpio) (stepPin dirPin : UInt8) (invertStep : Int)
    (stepPulseTicks : UInt32) : Board where
  stepper :=
    { waketime := 0
      scheduled := false
      interval := 0
      add := 0
      count := 0
      nextStepTime := 0
      stepPulseTicks := stepPulseTicks
      stepPin := stepPin
      dirPin := dirPin
      position := -positionBias
      mq := []
      lastDir := false
      nextDir := false
      invertStep := decide (0 < invertStep)
      needReset := false }
  gpio := gpioOutReset (gpioOutReset g stepPin (if 0 < invertStep then 4 else 0)) dirPin 0

/-- `command_queue_step` after the move is filled in. -/
def queueMove (b : Board) (interval : UInt32) (add : Int16) (count : UInt16) (h : count ≠ 0) :
    Board :=
  let s := b.stepper
  let flip := s.lastDir != s.nextDir
  let lastDir := if flip then !s.lastDir else s.lastDir
  let m : StepperMove := ⟨interval, add, count, flip, h⟩
  let queued := { b with stepper := { s with lastDir := lastDir, mq := s.mq ++ [m] } }
  if s.count ≠ 0 then queued
  else if s.needReset then b
  else
    let b := (stepperLoadNext queued).1
    { b with stepper := { b.stepper with scheduled := true } }

def commandQueueStep (b : Board) (interval count add : UInt32) : Except Board Board :=
  if h : count.toUInt16 = 0 then .error b
  else .ok (queueMove b interval add.toUInt16.toInt16 count.toUInt16 h)

def commandSetNextStepDir (b : Board) (dir : UInt32) : Board :=
  { b with stepper := { b.stepper with nextDir := decide (dir ≠ 0) } }

def commandResetStepClock (b : Board) (clock : UInt32) : Except Board Board :=
  if b.stepper.count ≠ 0 then .error b
  else
    .ok { b with stepper := { b.stepper with
      nextStepTime := clock, waketime := clock, needReset := false } }

def stepperGetPosition (b : Board) : UInt32 :=
  let position := b.stepper.position - b.stepper.count / 2
  if position &&& 0x80000000 ≠ 0 then -position else position

def stepperStop (b : Board) : Board where
  stepper :=
    { b.stepper with
      scheduled := false
      nextStepTime := 0
      waketime := 0
      position := -stepperGetPosition b
      count := 0
      lastDir := false
      nextDir := false
      needReset := true
      mq := [] }
  gpio := gpioOutWrite (gpioOutWrite b.gpio b.stepper.dirPin 0) b.stepper.stepPin
    (if b.stepper.invertStep then 4 else 0)

def stepperShutdown (b : Board) : Board :=
  stepperStop { b with stepper := { b.stepper with mq := [] } }

/-! ### Runs -/

/-- The board, and the steps that were started with the direction pin high and low. -/
structure State where
  board : Board
  high : Nat
  low : Nat

def State.net (s : State) : Int := s.high - s.low

inductive Action where
  | setNextStepDir (dir : UInt32)
  | queueStep (interval count add : UInt32)
  | event (curtime : UInt32)
  | resetStepClock (clock : UInt32)
  | stop
  | shutdown
  | tick (counter : UInt32)
deriving DecidableEq, Repr

/-- The return of a call, or the shutdown handler. -/
def State.leave (s : State) : Except Board Board → State
  | .ok b => { s with board := b }
  | .error b => { s with board := stepperShutdown b }

/-- The counters after the step pin was toggled. A step starts at every other event. -/
def State.countStep (s : State) : State :=
  if s.board.stepper.count &&& 1 = 0 then
    if s.board.gpio.level s.board.stepper.dirPin then { s with high := s.high + 1 }
    else { s with low := s.low + 1 }
  else s

/-- A timer event, after which the timer stays listed if it asks for it. -/
def eventStep (b : Board) (curtime : UInt32) : Except Board Board :=
  (stepperEventFull b curtime).map fun r =>
    { r.1 with stepper := { r.1.stepper with scheduled := decide (r.2 = .reschedule) } }

def step (s : State) : Action → Option State
  | .setNextStepDir dir => some { s with board := commandSetNextStepDir s.board dir }
  | .queueStep interval count add => some (s.leave (commandQueueStep s.board interval count add))
  | .event curtime =>
    if s.board.stepper.scheduled then some (s.countStep.leave (eventStep s.board curtime)) else none
  | .resetStepClock clock => some (s.leave (commandResetStepClock s.board clock))
  | .stop => some { s with board := stepperStop s.board }
  | .shutdown => some { s with board := stepperShutdown s.board }
  | .tick counter => some { s with board := { s.board with gpio := { s.board.gpio with counter } } }

def config (g : Gpio) (axis : Axis) (invertStep : Int) (stepPulseTicks : UInt32) : State where
  board := commandConfigStepper g axis.stepPin axis.dirPin invertStep stepPulseTicks
  high := 0
  low := 0

/-! ### The stepper without the motor -/

/-- The stepper as the stepper with plain pins, in its double scheduled form. -/
def Board.toMotion (b : Board) : Motion.Stepper where
  waketime := b.stepper.waketime
  scheduled := b.stepper.scheduled
  interval := b.stepper.interval
  add := b.stepper.add
  count := b.stepper.count
  nextStepTime := b.stepper.nextStepTime
  stepPulseTicks := b.stepper.stepPulseTicks
  stepPin := b.gpio.level b.stepper.stepPin
  dirPin := b.gpio.level b.stepper.dirPin
  position := b.stepper.position
  mq := b.stepper.mq
  lastDir := b.stepper.lastDir
  nextDir := b.stepper.nextDir
  invertStep := b.stepper.invertStep
  needReset := b.stepper.needReset
  singleSched := false

variable {b b' : Board} {axis : Axis} {start : UInt32} {net : Int}

/-- The pins of the stepper are those of the motor. -/
structure Bound (axis : Axis) (b : Board) : Prop where
  stepPin : b.stepper.stepPin = axis.stepPin
  dirPin : b.stepper.dirPin = axis.dirPin

lemma Bound.ne (h : Bound axis b) : b.stepper.stepPin ≠ b.stepper.dirPin := by
  rw [h.stepPin, h.dirPin]
  exact stepPin_ne_dirPin axis

lemma toMotion_loadMove (h : Bound axis b) (m : StepperMove) :
    (loadMove b m).toMotion = Motion.loadMove b.toMotion m := by
  unfold loadMove Motion.loadMove
  cases hd : m.dir with
  | false => rfl
  | true =>
    simp only [Board.toMotion, if_true, level_toggle, if_neg h.ne,
      Bool.false_eq_true, if_false]

lemma stepperLoadNext_nil (h : b.stepper.mq = []) :
    stepperLoadNext b = ({ b with stepper := { b.stepper with count := 0 } }, .done) := by
  unfold stepperLoadNext
  rw [h]

lemma stepperLoadNext_cons {m : StepperMove} {mq : List StepperMove} (h : b.stepper.mq = m :: mq) :
    stepperLoadNext b =
      (loadMove { b with stepper := { b.stepper with mq := mq } } m, .reschedule) := by
  unfold stepperLoadNext
  rw [h]

lemma Bound.congr (h : Bound axis b) (hs : b'.stepper.stepPin = b.stepper.stepPin)
    (hd : b'.stepper.dirPin = b.stepper.dirPin) : Bound axis b' :=
  ⟨hs.trans h.stepPin, hd.trans h.dirPin⟩

lemma toMotion_stepperLoadNext (h : Bound axis b) :
    Motion.stepperLoadNext b.toMotion =
      ((stepperLoadNext b).1.toMotion, (stepperLoadNext b).2) := by
  cases hq : b.stepper.mq with
  | nil =>
    rw [stepperLoadNext_nil hq]
    exact Motion.stepperLoadNext_nil hq
  | cons m mq =>
    have hrest : Bound axis { b with stepper := { b.stepper with mq := mq } } := h.congr rfl rfl
    rw [stepperLoadNext_cons hq, Motion.stepperLoadNext_cons hq, toMotion_loadMove hrest]
    rfl

/-! ### The motor follows -/

/-- A step was started and not yet ended. -/
def Board.midPulse (b : Board) : Bool := decide (b.stepper.count &&& 1 ≠ 0)

/-- The step that the stepper has counted and the motor has not. The pin of an inverted stepper rises
at the end of a step. -/
def Board.owed (b : Board) : Int :=
  if b.stepper.invertStep && b.midPulse then
    if b.gpio.level b.stepper.dirPin then 1 else -1
  else 0

/-- The motor has made the steps that the stepper counts, from `start` on, but for one that it still
owes. -/
structure Follows (axis : Axis) (start : UInt32) (b : Board) (net : Int) : Prop where
  bound : Bound axis b
  inhibits : b.gpio.stepInhibit72 = false ∧ b.gpio.stepInhibit73 = false
  direction : (b.gpio.motor axis).direction = if b.gpio.level b.stepper.dirPin then 1 else 0
  level : b.gpio.level b.stepper.stepPin = (b.stepper.invertStep != b.midPulse)
  motor : (((b.gpio.motor axis).stepPosition.toNat : Int) - (start.toNat + net - b.owed)) % 2 ^ 32 = 0
  position : Motion.PositionOk b.toMotion net

lemma Follows.congr (h : Follows axis start b net) (hgpio : b'.gpio = b.gpio)
    (hstep : b'.stepper.stepPin = b.stepper.stepPin) (hdir : b'.stepper.dirPin = b.stepper.dirPin)
    (hcount : b'.stepper.count = b.stepper.count)
    (hpos : b'.stepper.position = b.stepper.position)
    (hinvert : b'.stepper.invertStep = b.stepper.invertStep) : Follows axis start b' net where
  bound := h.bound.congr hstep hdir
  inhibits := by
    rw [hgpio]
    exact h.inhibits
  direction := by
    rw [hgpio, hdir]
    exact h.direction
  level := by
    rw [hgpio, hstep, hinvert, Board.midPulse, hcount]
    exact h.level
  motor := by
    rw [Board.owed, Board.midPulse, hgpio, hdir, hinvert, hcount]
    exact h.motor
  position := by
    apply h.position.congr hpos
    · change b'.gpio.level b'.stepper.dirPin = _
      rw [hgpio, hdir]
      rfl
    · change (ite _ _ (b'.stepper.count / 2)) = _
      rw [hcount]
      rfl

lemma toMotion_stepEdge (h : Bound axis b) :
    (stepEdge b).toMotion =
      { b.toMotion with stepPin := !b.toMotion.stepPin, count := b.toMotion.count - 1 } := by
  simp only [stepEdge, Board.toMotion, level_toggle, if_neg h.ne.symm, if_true]

lemma netAfter_toMotion (b : Board) (net : Int) :
    Motion.netAfter b.toMotion net =
      if b.midPulse then net
      else if b.gpio.level b.stepper.dirPin then net + 1 else net - 1 := by
  unfold Motion.netAfter Motion.startsStep Board.midPulse Board.toMotion
  by_cases h : b.stepper.count &&& 1 = 0 <;> simp [h]

lemma midPulse_stepEdge (h : b.stepper.count ≠ 0) : (stepEdge b).midPulse = !b.midPulse := by
  have hcount := Motion.toNat_sub_one h
  have hodd : b.stepper.count - 1 &&& 1 = 0 ↔ b.stepper.count &&& 1 ≠ 0 := by
    rw [ne_eq, and_one_eq_zero_iff, and_one_eq_zero_iff]
    omega
  unfold Board.midPulse
  change decide (b.stepper.count - 1 &&& 1 ≠ 0) = _
  rw [← decide_not, decide_eq_decide]
  exact not_congr hodd

/-- The motor steps at the start of a step, or at its end if the stepper is inverted. -/
lemma Follows.motor_stepEdge (h : Follows axis start b net) :
    ((stepEdge b).gpio.motor axis).direction = (b.gpio.motor axis).direction ∧
    ((stepEdge b).gpio.motor axis).stepPosition =
      if b.stepper.invertStep != b.midPulse then (b.gpio.motor axis).stepPosition
      else if b.gpio.level b.stepper.dirPin then (b.gpio.motor axis).stepPosition + 1
      else (b.gpio.motor axis).stepPosition - 1 := by
  have hmotor := motor_toggle_stepPin b.gpio axis h.inhibits
  rw [← h.bound.stepPin, h.level] at hmotor
  change ((gpioOutToggleNoirq b.gpio b.stepper.stepPin).motor axis).direction = _ ∧
    ((gpioOutToggleNoirq b.gpio b.stepper.stepPin).motor axis).stepPosition = _
  rw [hmotor]
  split
  · exact ⟨rfl, rfl⟩
  · rw [direction_mclibGpioStep, stepPosition_mclibGpioStep, h.direction]
    refine ⟨rfl, ?_⟩
    cases b.gpio.level b.stepper.dirPin <;> rfl

lemma Follows.stepEdge (h : Follows axis start b net) (hc : b.stepper.count ≠ 0) :
    Follows axis start (stepEdge b) (Motion.netAfter b.toMotion net) := by
  have hdir : (MotorStepper.stepEdge b).gpio.level b.stepper.dirPin =
      b.gpio.level b.stepper.dirPin := by
    change (gpioOutToggleNoirq b.gpio b.stepper.stepPin).level _ = _
    rw [level_toggle, if_neg h.bound.ne.symm]
  have hmid := midPulse_stepEdge hc
  obtain ⟨hdirection, hposition⟩ := h.motor_stepEdge
  constructor
  · exact h.bound.congr rfl rfl
  · have hinhibits := inhibits_toggle b.gpio b.stepper.stepPin
    exact ⟨hinhibits.1.trans h.inhibits.1, hinhibits.2.trans h.inhibits.2⟩
  · rw [hdirection, h.direction]
    exact congrArg (fun l : Bool => if l then (1 : UInt8) else 0) hdir.symm
  · change (gpioOutToggleNoirq b.gpio b.stepper.stepPin).level b.stepper.stepPin =
      (b.stepper.invertStep != _)
    rw [level_toggle, if_pos rfl, h.level, hmid]
    cases b.stepper.invertStep <;> cases b.midPulse <;> rfl
  · have hmotor := h.motor
    have howed : (MotorStepper.stepEdge b).owed =
        if b.stepper.invertStep && !b.midPulse then
          if b.gpio.level b.stepper.dirPin then 1 else -1
        else 0 := by
      unfold Board.owed
      rw [hmid]
      change (if b.stepper.invertStep && _ then
        if (MotorStepper.stepEdge b).gpio.level b.stepper.dirPin then _ else _ else _) = _
      rw [hdir]
    rw [netAfter_toMotion, hposition, howed]
    rw [Board.owed] at hmotor
    have hlt := (b.gpio.motor axis).stepPosition.toNat_lt
    have hone : (1 : UInt32).toNat = 1 := rfl
    revert hmotor
    cases b.stepper.invertStep <;> cases b.midPulse <;> cases b.gpio.level b.stepper.dirPin <;>
      simp only [bne_self_eq_false, Bool.false_bne, Bool.true_bne, Bool.not_true, Bool.not_false,
        Bool.and_true, Bool.and_false, Bool.false_eq_true, if_true, if_false, UInt32.toNat_add,
        UInt32.toNat_sub, hone] <;> omega
  · rw [toMotion_stepEdge h.bound]
    exact h.position.edge hc rfl

lemma midPulse_loadMove (b : Board) (m : StepperMove) : (loadMove b m).midPulse = false := by
  have hm := m.count.toNat_lt
  have heven : m.count.toUInt32 * 2 &&& 1 = 0 := by
    rw [and_one_eq_zero_iff, UInt32.toNat_mul, UInt16.toNat_toUInt32]
    have htwo : (2 : UInt32).toNat = 2 := rfl
    rw [htwo]
    omega
  exact decide_eq_false (not_not.mpr heven)

lemma owed_of_midPulse (h : b.midPulse = false) : b.owed = 0 := by
  rw [Board.owed, h, Bool.and_false]
  rfl

lemma Follows.loadMove (h : Follows axis start b net) (hmid : b.midPulse = false)
    (m : StepperMove) (hpos : Motion.PositionOk (loadMove b m).toMotion net) :
    Follows axis start (loadMove b m) net := by
  have hmotor := h.motor
  have hlevel := h.level
  rw [owed_of_midPulse hmid] at hmotor
  rw [hmid] at hlevel
  have hmid' := midPulse_loadMove b m
  cases hd : m.dir with
  | false =>
    have hgpio : (MotorStepper.loadMove b m).gpio = b.gpio := by simp [MotorStepper.loadMove, hd]
    constructor
    · exact h.bound.congr rfl rfl
    · rw [hgpio]
      exact h.inhibits
    · rw [hgpio]
      exact h.direction
    · rw [hgpio, hmid']
      exact hlevel
    · rw [hgpio, owed_of_midPulse hmid']
      exact hmotor
    · exact hpos
  | true =>
    have hgpio : (MotorStepper.loadMove b m).gpio =
        gpioOutToggleNoirq b.gpio b.stepper.dirPin := by simp [MotorStepper.loadMove, hd]
    have hstepPin : (MotorStepper.loadMove b m).stepper.stepPin = b.stepper.stepPin := rfl
    have hdirPin : (MotorStepper.loadMove b m).stepper.dirPin = b.stepper.dirPin := rfl
    have hinhibits := inhibits_toggle b.gpio b.stepper.dirPin
    constructor
    · exact h.bound.congr rfl rfl
    · rw [hgpio]
      exact ⟨hinhibits.1.trans h.inhibits.1, hinhibits.2.trans h.inhibits.2⟩
    · rw [hgpio, hdirPin, level_toggle, if_pos rfl, h.bound.dirPin, motor_toggle_dirPin]
      cases b.gpio.level axis.dirPin <;> rfl
    · rw [hgpio, hstepPin, level_toggle, if_neg h.bound.ne, hmid']
      exact hlevel
    · rw [hgpio, owed_of_midPulse hmid', h.bound.dirPin, motor_toggle_dirPin]
      exact hmotor
    · exact hpos

lemma midPulse_of_count (h : b.stepper.count = 0) : b.midPulse = false := by
  rw [Board.midPulse, h]
  rfl

lemma Follows.stepperLoadNext (h : Follows axis start b net) (hc : b.stepper.count = 0) :
    Follows axis start (stepperLoadNext b).1 net := by
  have hposition : Motion.PositionOk (MotorStepper.stepperLoadNext b).1.toMotion net := by
    have hload := h.position.stepperLoadNext (by
      change (b.stepper.count / 2).toNat = 0
      rw [hc]
      rfl)
    rw [toMotion_stepperLoadNext h.bound] at hload
    exact hload
  cases hq : b.stepper.mq with
  | nil =>
    rw [stepperLoadNext_nil hq]
    exact h.congr rfl rfl rfl hc.symm rfl rfl
  | cons m mq =>
    rw [stepperLoadNext_cons hq] at hposition ⊢
    have hrest : Follows axis start { b with stepper := { b.stepper with mq := mq } } net :=
      h.congr rfl rfl rfl rfl rfl rfl
    exact hrest.loadMove (midPulse_of_count hc) m hposition

lemma midPulse_stepperLoadNext (b : Board) : (stepperLoadNext b).1.midPulse = false := by
  cases hq : b.stepper.mq with
  | nil =>
    rw [stepperLoadNext_nil hq]
    exact midPulse_of_count rfl
  | cons m mq =>
    rw [stepperLoadNext_cons hq]
    exact midPulse_loadMove _ m

lemma stepperLoadNext_result (h : Bound axis b) :
    (stepperLoadNext b).2 = .reschedule ↔ (stepperLoadNext b).1.stepper.count ≠ 0 := by
  have hresult := Motion.stepperLoadNext_result b.toMotion
  rw [toMotion_stepperLoadNext h] at hresult
  exact hresult

/-- What an event leaves after the step pin was toggled. The times apart it is the board as it was,
or the board with the next move loaded. -/
lemma afterEdge_spec {P : Board → Prop} (hbound : Bound axis b) (minNextTime : UInt32)
    (htimes : ∀ b w n i, P b → P { b with stepper := { b.stepper with
      waketime := w, nextStepTime := n, interval := i } })
    (hb : P b) (hload : b.stepper.count = 0 → P (stepperLoadNext b).1) :
    (∀ r, afterEdge b minNextTime = .ok r → P r.1 ∧ (r.2 = .reschedule ↔ r.1.stepper.count ≠ 0)) ∧
      ∀ e, afterEdge b minNextTime = .error e → P e ∧ e.midPulse = false := by
  have hwake (b : Board) (h : P b) (t : UInt32) : P (setWaketime b t) :=
    htimes b t b.stepper.nextStepTime b.stepper.interval h
  rw [afterEdge]
  split
  · rename_i hodd
    refine ⟨?_, by simp⟩
    intro r hr
    cases hr
    refine ⟨hwake b hb _, fun _ hzero => hodd ?_, fun _ => rfl⟩
    rw [show b.stepper.count = 0 from hzero]
    rfl
  split
  · rename_i hne
    have hnext : P { b with stepper := { b.stepper with
        nextStepTime := b.stepper.nextStepTime + b.stepper.interval
        interval := b.stepper.interval + addTicks b.stepper.add } } :=
      htimes b b.stepper.waketime _ _ hb
    dsimp only
    split
    · refine ⟨?_, by simp⟩
      intro r hr
      cases hr
      exact ⟨hwake _ hnext _, fun _ => hne, fun _ => rfl⟩
    · refine ⟨?_, by simp⟩
      intro r hr
      cases hr
      exact ⟨hwake _ hnext _, fun _ => hne, fun _ => rfl⟩
  · rename_i hzero
    have hloaded := hload (not_not.mp hzero)
    have hresult := stepperLoadNext_result hbound
    dsimp only
    split
    · refine ⟨?_, by simp⟩
      intro r hr
      cases hr
      exact ⟨hloaded, hresult⟩
    · rename_i hlate
      split
      · refine ⟨by simp, ?_⟩
        intro e he
        cases he
        exact ⟨hloaded, midPulse_stepperLoadNext b⟩
      · refine ⟨?_, by simp⟩
        intro r hr
        cases hr
        refine ⟨hwake _ hloaded _, fun _ => hresult.mp ?_, fun _ => rfl⟩
        cases hr : (stepperLoadNext b).2 with
        | done => exact absurd (Or.inl hr) hlate
        | reschedule => rfl

lemma Follows.event (h : Follows axis start b net) (hc : b.stepper.count ≠ 0) (curtime : UInt32) :
    (∀ r, stepperEventFull b curtime = .ok r →
      Follows axis start r.1 (Motion.netAfter b.toMotion net) ∧
        (r.2 = .reschedule ↔ r.1.stepper.count ≠ 0)) ∧
    ∀ e, stepperEventFull b curtime = .error e →
      Follows axis start e (Motion.netAfter b.toMotion net) ∧ e.midPulse = false := by
  have hedge := h.stepEdge hc
  apply afterEdge_spec (P := fun b' => Follows axis start b' (Motion.netAfter b.toMotion net))
    hedge.bound (curtime + b.stepper.stepPulseTicks)
  · intro b' w n i hb'
    exact hb'.congr rfl rfl rfl rfl rfl rfl
  · exact hedge
  · intro hzero
    exact hedge.stepperLoadNext hzero

lemma toMotion_stepperStop (h : Bound axis b) :
    (stepperStop b).toMotion = Motion.stepperStop b.toMotion := by
  have hstep : (stepperStop b).gpio.level b.stepper.stepPin = b.stepper.invertStep := by
    change (gpioOutWrite _ _ _).level _ = _
    rw [level_write, if_pos rfl]
    cases b.stepper.invertStep <;> rfl
  have hdir : (stepperStop b).gpio.level b.stepper.dirPin = false := by
    change (gpioOutWrite _ _ _).level _ = _
    rw [level_write, if_neg h.ne.symm, level_write, if_pos rfl]
    rfl
  unfold Board.toMotion Motion.stepperStop
  rw [show (stepperStop b).stepper.stepPin = b.stepper.stepPin from rfl,
    show (stepperStop b).stepper.dirPin = b.stepper.dirPin from rfl, hstep, hdir]
  rfl

lemma Follows.stepperStop (h : Follows axis start b net) (howed : b.owed = 0)
    (hnet : net.natAbs < 2 ^ 30) : Follows axis start (stepperStop b) net := by
  have hmid : (MotorStepper.stepperStop b).midPulse = false := midPulse_of_count rfl
  have hmotion := toMotion_stepperStop h.bound
  have hmotor : (MotorStepper.stepperStop b).gpio.motor axis =
      mclibGpioDirection 0 (b.gpio.motor axis) := by
    change (gpioOutWrite (gpioOutWrite _ _ _) _ _).motor axis = _
    rw [h.bound.stepPin, h.bound.dirPin, motor_write_stepPin, motor_write_dirPin]
  constructor
  · exact h.bound.congr rfl rfl
  · have hpins : (b.stepper.stepPin ≠ 0x72 ∧ b.stepper.stepPin ≠ 0x73) ∧
        b.stepper.dirPin ≠ 0x72 ∧ b.stepper.dirPin ≠ 0x73 := by
      rw [h.bound.stepPin, h.bound.dirPin]
      cases axis <;> decide
    have hdir := inhibits_write b.gpio 0 hpins.2
    have hstep := inhibits_write (gpioOutWrite b.gpio b.stepper.dirPin 0)
      (if b.stepper.invertStep then 4 else 0) hpins.1
    exact ⟨hstep.1.trans (hdir.1.trans h.inhibits.1), hstep.2.trans (hdir.2.trans h.inhibits.2)⟩
  · have hdir : (MotorStepper.stepperStop b).toMotion.dirPin = false := by
      rw [hmotion]
      rfl
    rw [hmotor]
    change 0 = if (MotorStepper.stepperStop b).toMotion.dirPin then (1 : UInt8) else 0
    rw [hdir]
    rfl
  · have hstep : (MotorStepper.stepperStop b).toMotion.stepPin = b.stepper.invertStep := by
      rw [hmotion]
      rfl
    rw [hmid, Bool.bne_false]
    exact hstep
  · have hposition := h.motor
    rw [howed] at hposition
    rw [hmotor, owed_of_midPulse hmid]
    exact hposition
  · rw [hmotion]
    exact h.position.stepperStop hnet

/-! ### Runs of the board -/

/-- The actions that stop the stepper. -/
def stops (s : State) : Action → Bool
  | .stop => true
  | .shutdown => true
  | .queueStep _ count _ => decide (count.toUInt16 = 0)
  | .resetStepClock _ => decide (s.board.stepper.count ≠ 0)
  | _ => false

/-- An inverted stepper is not stopped between the two edges of a step, and the position stays below
`2 ^ 30` in magnitude. -/
def Legal (s : State) (a : Action) : Prop :=
  (stops s a = true → (s.board.stepper.invertStep && s.board.midPulse) = false) ∧
    (step s a).all (fun s' => decide (s'.net.natAbs < 2 ^ 30)) = true

instance decidableLegal (s : State) (a : Action) : Decidable (Legal s a) := instDecidableAnd

structure Inv (axis : Axis) (start : UInt32) (s : State) : Prop where
  follows : Follows axis start s.board s.net
  scheduled : s.board.stepper.scheduled = true → s.board.stepper.count ≠ 0
  net_lt : s.net.natAbs < 2 ^ 30

variable {s s' : State}

lemma owed_of_not (h : (b.stepper.invertStep && b.midPulse) = false) : b.owed = 0 := by
  rw [Board.owed, h]
  rfl

lemma inv_shutdown (h : Follows axis start b s.net) (howed : b.owed = 0)
    (hnet : s.net.natAbs < 2 ^ 30) : Inv axis start { s with board := stepperShutdown b } := by
  have hcleared : Follows axis start { b with stepper := { b.stepper with mq := [] } } s.net :=
    h.congr rfl rfl rfl rfl rfl rfl
  exact ⟨hcleared.stepperStop howed hnet, fun hs => Bool.noConfusion hs, hnet⟩

lemma stepperLoadNext_of_ne (h : b.stepper.mq ≠ []) : (stepperLoadNext b).2 = .reschedule := by
  obtain ⟨m, mq, hq⟩ := List.exists_cons_of_ne_nil h
  rw [stepperLoadNext_cons hq]

lemma inv_loadFirst (h : Follows axis start b s.net) (hzero : b.stepper.count = 0)
    (hne : b.stepper.mq ≠ []) (hnet : s.net.natAbs < 2 ^ 30) :
    Inv axis start { s with board := { (stepperLoadNext b).1 with
      stepper := { (stepperLoadNext b).1.stepper with scheduled := true } } } where
  follows := (h.stepperLoadNext hzero).congr rfl rfl rfl rfl rfl rfl
  scheduled := fun _ => (stepperLoadNext_result h.bound).mp (stepperLoadNext_of_ne hne)
  net_lt := hnet

lemma Inv.queueMove {interval : UInt32} {add : Int16} {count : UInt16} (h : Inv axis start s)
    (hc : count ≠ 0) : Inv axis start { s with board := queueMove s.board interval add count hc } := by
  have hqueued (last : Bool) (mq : List StepperMove) : Follows axis start
      { s.board with stepper := { s.board.stepper with lastDir := last, mq := mq } } s.net :=
    h.follows.congr rfl rfl rfl rfl rfl rfl
  unfold MotorStepper.queueMove
  dsimp only
  split
  · rename_i hne
    exact ⟨hqueued _ _, fun _ => hne, h.net_lt⟩
  split
  · exact h
  · rename_i hzero _
    apply inv_loadFirst
    · exact hqueued _ _
    · exact not_not.mp hzero
    · exact List.append_ne_nil_of_right_ne_nil _ (List.cons_ne_nil _ _)
    · exact h.net_lt

lemma countStep_net (s : State) : s.countStep.net = Motion.netAfter s.board.toMotion s.net := by
  rw [netAfter_toMotion, State.countStep, Board.midPulse]
  by_cases h : s.board.stepper.count &&& 1 = 0
  · cases s.board.gpio.level s.board.stepper.dirPin <;> simp [h, State.net] <;> omega
  · simp [h]

lemma Inv.event {curtime : UInt32} (h : Inv axis start s) (hs : s.board.stepper.scheduled = true)
    (hnet : (s.countStep.leave (eventStep s.board curtime)).net.natAbs < 2 ^ 30) :
    Inv axis start (s.countStep.leave (eventStep s.board curtime)) := by
  obtain ⟨hok, herror⟩ := h.follows.event (h.scheduled hs) curtime
  rw [← countStep_net] at hok herror
  unfold eventStep at hnet ⊢
  cases hevent : stepperEventFull s.board curtime with
  | ok r =>
    obtain ⟨hfollows, hresult⟩ := hok r hevent
    rw [hevent] at hnet
    exact ⟨hfollows.congr rfl rfl rfl rfl rfl rfl, fun hr => hresult.mp (of_decide_eq_true hr), hnet⟩
  | error e =>
    obtain ⟨hfollows, hmid⟩ := herror e hevent
    rw [hevent] at hnet
    exact inv_shutdown hfollows (owed_of_midPulse hmid) hnet

lemma Inv.step {a : Action} (h : Inv axis start s) (hl : Legal s a) (hs : step s a = some s') :
    Inv axis start s' := by
  obtain ⟨hstops, hnet⟩ := hl
  rw [hs, Option.all_some, decide_eq_true_eq] at hnet
  cases a with
  | setNextStepDir dir =>
    cases hs
    exact ⟨h.follows.congr rfl rfl rfl rfl rfl rfl, h.scheduled, h.net_lt⟩
  | queueStep interval count add =>
    cases hs
    unfold commandQueueStep
    split
    · rename_i hcount
      exact inv_shutdown h.follows (owed_of_not (hstops (decide_eq_true hcount))) h.net_lt
    · exact h.queueMove _
  | event curtime =>
    obtain ⟨hscheduled, hs⟩ := Option.ite_none_right_eq_some.mp hs
    cases hs
    exact h.event hscheduled hnet
  | resetStepClock clock =>
    cases hs
    unfold commandResetStepClock
    split
    · rename_i hcount
      exact inv_shutdown h.follows (owed_of_not (hstops (decide_eq_true hcount))) h.net_lt
    · exact ⟨h.follows.congr rfl rfl rfl rfl rfl rfl, h.scheduled, h.net_lt⟩
  | stop =>
    cases hs
    exact ⟨h.follows.stepperStop (owed_of_not (hstops rfl)) h.net_lt,
      fun hs => Bool.noConfusion hs, h.net_lt⟩
  | shutdown =>
    cases hs
    exact inv_shutdown h.follows (owed_of_not (hstops rfl)) h.net_lt
  | tick counter =>
    cases hs
    have hf := h.follows
    exact ⟨⟨hf.bound.congr rfl rfl, hf.inhibits, hf.direction, hf.level, hf.motor, hf.position⟩,
      h.scheduled, h.net_lt⟩

lemma follows_config {g : Gpio} (hfree : g.stepInhibit72 = false ∧ g.stepInhibit73 = false)
    {invertStep : Int} {stepPulseTicks : UInt32}
    (hb : b = commandConfigStepper g axis.stepPin axis.dirPin invertStep stepPulseTicks) :
    Follows axis (g.motor axis).stepPosition b 0 := by
  have hmid : b.midPulse = false := midPulse_of_count (by rw [hb]; rfl)
  have hmotor : b.gpio.motor axis = mclibGpioDirection 0 (g.motor axis) := by
    simp [hb, commandConfigStepper, gpioOutReset, Gpio.onAxis, Gpio.setLevel]
  have hdir : b.gpio.level b.stepper.dirPin = false := by
    simp [hb, commandConfigStepper, gpioOutReset, Gpio.onAxis, Gpio.setLevel]
  have hstep : b.gpio.level b.stepper.stepPin = b.stepper.invertStep := by
    by_cases h : 0 < invertStep <;>
      simp [hb, commandConfigStepper, gpioOutReset, Gpio.onAxis, Gpio.setLevel, h,
        stepPin_ne_dirPin]
  constructor
  · rw [hb]
    exact ⟨rfl, rfl⟩
  · rw [hb]
    exact hfree
  · rw [hmotor, hdir]
    rfl
  · rw [hmid, hstep, Bool.bne_false]
  · rw [hmotor, owed_of_midPulse hmid]
    change ((g.motor axis).stepPosition.toNat - ((g.motor axis).stepPosition.toNat + 0 - 0) : Int) %
      2 ^ 32 = 0
    omega
  · have hmotion : b.toMotion =
        Motion.commandConfigStepper (if 0 < invertStep then 1 else 0) stepPulseTicks := by
      rw [Board.toMotion, hstep, hdir]
      by_cases h : 0 < invertStep <;>
        simp [hb, Motion.commandConfigStepper, commandConfigStepper, h]
    rw [hmotion]
    exact (Motion.inv_config _ _).position

/-- Whenever no step is in progress the motor has moved by the position that the stepper reports. -/
theorem motor_position_of_run {g : Gpio} {invertStep : Int} {stepPulseTicks : UInt32}
    {actions : List Action} (hfree : g.stepInhibit72 = false ∧ g.stepInhibit73 = false)
    (h : Run step Legal (config g axis invertStep stepPulseTicks) actions s)
    (hmid : s.board.midPulse = false) :
    (s.board.gpio.motor axis).stepPosition - (g.motor axis).stepPosition =
      stepperGetPosition s.board - positionBias := by
  have hinv : Inv axis (g.motor axis).stepPosition s := by
    apply h.invariant
    · exact ⟨follows_config hfree rfl, fun h => Bool.noConfusion h, by
        change (0 : Int).natAbs < 2 ^ 30
        decide⟩
    · intro s a s' hinv hl hs
      exact hinv.step hl hs
  have hget := Motion.stepperGetPosition_eq hinv.follows.position hinv.net_lt
  have hmotor := hinv.follows.motor
  rw [owed_of_midPulse hmid] at hmotor
  change ((stepperGetPosition s.board).toNat : Int) = _ at hget
  have hbias : positionBias.toNat = 2 ^ 30 := rfl
  rw [← UInt32.toNat_inj, UInt32.toNat_sub, UInt32.toNat_sub, hbias]
  have hstart := (g.motor axis).stepPosition.toNat_lt
  have hpos := (s.board.gpio.motor axis).stepPosition.toNat_lt
  have hlt := (stepperGetPosition s.board).toNat_lt
  omega

/-- A motor that has made seven steps before. -/
def enabledMotor : Motor where
  direction := 0
  stepPosition := 7
  stepPhase := 8192
  angleIncrement := 64
  microstepExponent := 8
  previousStepTime := 0
  stepInterval := 0
  idleThreshold := 0x007f2815
  stallGateCount := 0
  mode := 1
  rawStall := 0
  stallOutput := 0
  stallTimingGate := 0
  idleStallGate := 0

def enabledGpio : Gpio where
  level := fun _ => false
  motor := fun _ => enabledMotor
  stepInhibit72 := false
  stepInhibit73 := false
  counter := 0

/-- An inverted stepper is stopped after two of three steps, and makes one step back. -/
def stopAndBack : List Action :=
  [.resetStepClock 1000, .setNextStepDir 1, .queueStep 100 3 0, .event 1100, .tick 5, .event 1110,
    .event 1200, .event 1210, .stop, .resetStepClock 5000, .queueStep 100 1 0, .event 5100,
    .event 5110]

theorem motor_position_of_run_stopAndBack :
    ∃ s, Run step Legal (config enabledGpio .z 1 10) stopAndBack s ∧ s.high = 2 ∧ s.low = 1 ∧
      (s.board.gpio.motor .z).stepPosition = 8 ∧
      (s.board.gpio.motor .z).stepPosition - (enabledGpio.motor .z).stepPosition =
        stepperGetPosition s.board - positionBias := by
  obtain ⟨s, hrun, hs⟩ : ∃ s, Run step Legal (config enabledGpio .z 1 10) stopAndBack s ∧
      decide (s.high = 2 ∧ s.low = 1 ∧ (s.board.gpio.motor .z).stepPosition = 8 ∧
        s.board.midPulse = false) = true :=
    Run.exists_of_exec stopAndBack _ (by decide +kernel)
  obtain ⟨hhigh, hlow, hmotor, hmid⟩ := of_decide_eq_true hs
  exact ⟨s, hrun, hhigh, hlow, hmotor, motor_position_of_run ⟨rfl, rfl⟩ hrun hmid⟩

/-- An inverted stepper is stopped between the edges of its only step. The stepper reports the step
and the motor has not made it. -/
theorem motor_misses_step :
    ∃ actions s, Run step (fun _ _ => True) (config enabledGpio .z 1 10) actions s ∧
      s.board.midPulse = false ∧
      (s.board.gpio.motor .z).stepPosition - (enabledGpio.motor .z).stepPosition = 0 ∧
      stepperGetPosition s.board - positionBias = -1 := by
  obtain ⟨s, hrun, hs⟩ : ∃ s, Run step (fun _ _ => True) (config enabledGpio .z 1 10)
      [.resetStepClock 1000, .queueStep 100 1 0, .event 1100, .stop] s ∧
      decide (s.board.midPulse = false ∧
        (s.board.gpio.motor .z).stepPosition - (enabledGpio.motor .z).stepPosition = 0 ∧
        stepperGetPosition s.board - positionBias = -1) = true :=
    Run.exists_of_exec _ _ (by decide +kernel)
  exact ⟨_, s, hrun, of_decide_eq_true hs⟩

end KlipperMcu.MotorStepper
