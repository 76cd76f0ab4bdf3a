import Mathlib.Tactic.SplitIfs

/-!
# The motor pins of the main board

On the main board the step, direction and enable pins of the motors are pins of a port without
wires. gpio_output.c sets them as other pins, and then calls the motor controller: mclib_commands.c
counts the steps of each motor. Its currents and angles, which are floating-point numbers, and the
configuration registers of the ports are left out.
-/

namespace KlipperMcu.MotorPins

inductive Axis where
  | y
  | x
  | z
  | extruder
deriving DecidableEq, Repr

/-- The fields of `struct mclib_motor` that the calls for pins use. -/
structure Motor where
  direction : UInt8
  stepPosition : UInt32
  stepPhase : UInt16
  angleIncrement : UInt16
  microstepExponent : UInt16
  previousStepTime : UInt32
  stepInterval : UInt32
  idleThreshold : UInt32
  stallGateCount : UInt8
  mode : UInt8
  rawStall : UInt8
  stallOutput : UInt8
  stallTimingGate : UInt8
  idleStallGate : UInt8
deriving DecidableEq, Repr

def mclibGpioDirection (value : UInt32) (m : Motor) : Motor :=
  { m with direction := value.toUInt8 }

def mclibGpioDisable (m : Motor) : Motor :=
  { m with
    stepPosition := 0
    mode := 0
    rawStall := 0
    stallOutput := 0
    stallTimingGate := 1
    idleStallGate := 0 }

/-- `mclib_gpio_enable` when the counter of the timer is `sampled`. -/
def mclibGpioEnable (sampled : UInt32) (m : Motor) : Motor :=
  { m with
    previousStepTime := sampled
    stepPhase := 8192
    angleIncrement := 1 <<< (14 - m.microstepExponent)
    mode := 1 }

/-- `mclib_gpio_step` when the counter of the timer is `sampled`. -/
def mclibGpioStep (sampled : UInt32) (m : Motor) : Motor :=
  let m := { m with previousStepTime := sampled, stepInterval := sampled - m.previousStepTime }
  let m :=
    if m.direction ≠ 0 then
      { m with
        stepPosition := m.stepPosition + 1
        stepPhase := m.stepPhase + m.angleIncrement }
    else
      { m with
        stepPosition := m.stepPosition - 1
        stepPhase := m.stepPhase - m.angleIncrement }
  let m :=
    if m.stepPhase &&& 0x3fff = 0 ∧ m.stallGateCount ≠ 255 then
      { m with stallGateCount := m.stallGateCount + 1 }
    else m
  if m.mode = 1 then { m with idleStallGate := 0, stepInterval := m.idleThreshold, mode := 2 } else m

lemma direction_mclibGpioStep (sampled : UInt32) (m : Motor) :
    (mclibGpioStep sampled m).direction = m.direction := by
  unfold mclibGpioStep
  dsimp only
  split_ifs <;> rfl

lemma stepPosition_mclibGpioStep (sampled : UInt32) (m : Motor) :
    (mclibGpioStep sampled m).stepPosition =
      if m.direction ≠ 0 then m.stepPosition + 1 else m.stepPosition - 1 := by
  unfold mclibGpioStep
  dsimp only
  split_ifs <;> rfl

def Axis.stepPin : Axis → UInt8
  | .y => 0x90
  | .x => 0x94
  | .z => 0x98
  | .extruder => 0x9c

def Axis.dirPin : Axis → UInt8
  | .y => 0x91
  | .x => 0x95
  | .z => 0x99
  | .extruder => 0x9d

def Axis.enablePin : Axis → UInt8
  | .y => 0x92
  | .x => 0x96
  | .z => 0x9a
  | .extruder => 0x9e

/-- The motor that `pin` belongs to among `pins`, in the order of the tests of gpio_output.c. -/
def axisAt (pins : Axis → UInt8) (pin : UInt8) : Option Axis :=
  [Axis.y, .x, .z, .extruder].find? fun a => pin == pins a

/-- The output levels, the motors, the two flags that inhibit steps, and the counter of the timer
that a motor samples. -/
structure Gpio where
  level : UInt8 → Bool
  motor : Axis → Motor
  stepInhibit72 : Bool
  stepInhibit73 : Bool
  counter : UInt32

def Gpio.setLevel (g : Gpio) (pin : UInt8) (value : Bool) : Gpio :=
  { g with level := fun p => if p = pin then value else g.level p }

/-- Calls `f` for the motor of an axis, if there is one. -/
def Gpio.onAxis (g : Gpio) (axis : Option Axis) (f : Motor → Motor) : Gpio :=
  { g with motor := fun a => if axis = some a then f (g.motor a) else g.motor a }

def gpioOutReset (g : Gpio) (pin : UInt8) (value : UInt32) : Gpio :=
  (g.setLevel pin (decide (value ≠ 0))).onAxis (axisAt Axis.dirPin pin) (mclibGpioDirection value)

/-- The motor is called after the level was read back. -/
def gpioOutToggleNoirq (g : Gpio) (pin : UInt8) : Gpio :=
  let high := !g.level pin
  let g := g.setLevel pin high
  let g :=
    if !g.stepInhibit72 && !g.stepInhibit73 && high then
      g.onAxis (axisAt Axis.stepPin pin) (mclibGpioStep g.counter)
    else g
  g.onAxis (axisAt Axis.dirPin pin) (mclibGpioDirection (if high then 1 else 0))

def gpioOutWrite (g : Gpio) (pin : UInt8) (value : UInt32) : Gpio :=
  let g := g.setLevel pin (decide (value ≠ 0))
  let g := g.onAxis (axisAt Axis.enablePin pin)
    (if value ≠ 0 then mclibGpioDisable else mclibGpioEnable g.counter)
  let g := g.onAxis (axisAt Axis.dirPin pin) (mclibGpioDirection value)
  { g with
    stepInhibit72 := if pin = 0x72 then decide (value ≠ 0) else g.stepInhibit72
    stepInhibit73 := if pin = 0x73 then decide (value ≠ 0) else g.stepInhibit73 }

/-! ### The pins of one motor -/

section Pins

variable (g : Gpio) (axis : Axis) (value : UInt32)

@[simp] lemma axisAt_stepPin : axisAt Axis.stepPin axis.stepPin = some axis := by
  cases axis <;> rfl

@[simp] lemma axisAt_dirPin : axisAt Axis.dirPin axis.dirPin = some axis := by
  cases axis <;> rfl

@[simp] lemma axisAt_stepPin_dirPin : axisAt Axis.stepPin axis.dirPin = none := by
  cases axis <;> rfl

@[simp] lemma axisAt_dirPin_stepPin : axisAt Axis.dirPin axis.stepPin = none := by
  cases axis <;> rfl

@[simp] lemma axisAt_enablePin_stepPin : axisAt Axis.enablePin axis.stepPin = none := by
  cases axis <;> rfl

@[simp] lemma axisAt_enablePin_dirPin : axisAt Axis.enablePin axis.dirPin = none := by
  cases axis <;> rfl

lemma stepPin_ne_dirPin : axis.stepPin ≠ axis.dirPin := by
  cases axis <;> decide

lemma level_toggle (pin p : UInt8) :
    (gpioOutToggleNoirq g pin).level p = if p = pin then !g.level pin else g.level p := by
  unfold gpioOutToggleNoirq
  dsimp only
  split <;> rfl

lemma inhibits_toggle (pin : UInt8) :
    (gpioOutToggleNoirq g pin).stepInhibit72 = g.stepInhibit72 ∧
      (gpioOutToggleNoirq g pin).stepInhibit73 = g.stepInhibit73 := by
  unfold gpioOutToggleNoirq
  dsimp only
  split <;> exact ⟨rfl, rfl⟩

lemma motor_toggle_stepPin (h : g.stepInhibit72 = false ∧ g.stepInhibit73 = false) :
    (gpioOutToggleNoirq g axis.stepPin).motor axis =
      if g.level axis.stepPin then g.motor axis else mclibGpioStep g.counter (g.motor axis) := by
  cases hl : g.level axis.stepPin <;>
    simp [gpioOutToggleNoirq, Gpio.onAxis, Gpio.setLevel, h.1, h.2, hl]

lemma motor_toggle_dirPin :
    (gpioOutToggleNoirq g axis.dirPin).motor axis =
      mclibGpioDirection (if !g.level axis.dirPin then 1 else 0) (g.motor axis) := by
  unfold gpioOutToggleNoirq
  dsimp only
  split <;> simp [Gpio.onAxis, Gpio.setLevel]

lemma level_write (pin p : UInt8) :
    (gpioOutWrite g pin value).level p = if p = pin then decide (value ≠ 0) else g.level p :=
  rfl

lemma motor_write_stepPin : (gpioOutWrite g axis.stepPin value).motor axis = g.motor axis := by
  simp [gpioOutWrite, Gpio.onAxis, Gpio.setLevel]

lemma motor_write_dirPin :
    (gpioOutWrite g axis.dirPin value).motor axis = mclibGpioDirection value (g.motor axis) := by
  simp [gpioOutWrite, Gpio.onAxis, Gpio.setLevel]

lemma inhibits_write {pin : UInt8} (hpin : pin ≠ 0x72 ∧ pin ≠ 0x73) :
    (gpioOutWrite g pin value).stepInhibit72 = g.stepInhibit72 ∧
      (gpioOutWrite g pin value).stepInhibit73 = g.stepInhibit73 :=
  ⟨if_neg hpin.1, if_neg hpin.2⟩

end Pins

end KlipperMcu.MotorPins
