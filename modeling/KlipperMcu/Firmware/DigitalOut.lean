import KlipperMcu.Firmware.Sched

/-!
# Digital outputs

The functions of gpiocmds.c on one `struct digital_out_s`. Its queue of updates is kept by the
caller: the functions take the update that they pop and the one that is then first on the queue.
A call that shuts down returns the memory it leaves behind.
-/

namespace KlipperMcu.Gpio

open Sched

/-- `struct digital_move`. -/
structure DigitalMove where
  waketime : UInt32
  onDuration : UInt32
deriving DecidableEq, Repr, Inhabited

/-- The callbacks of the timer of a digital output. -/
inductive DigitalFunc where
  | load
  | toggle
deriving DecidableEq, Repr

/-- `struct digital_out_s` with the flags of its `flags` field, the level of its pin and whether
its timer is on the timer list. -/
structure DigitalOut where
  waketime : UInt32
  func : DigitalFunc
  scheduled : Bool
  onDuration : UInt32
  offDuration : UInt32
  endTime : UInt32
  pin : Bool
  maxDuration : UInt32
  cycleTime : UInt32
  on : Bool
  toggling : Bool
  checkEnd : Bool
  defaultOn : Bool
deriving DecidableEq, Repr

def digitalToggleEvent (d : DigitalOut) : DigitalOut × SchedResult :=
  let on := !d.on
  let waketime := d.waketime + if on then d.onDuration else d.offDuration
  let d := { d with pin := !d.pin, on := on }
  if d.checkEnd && !timerIsBefore waketime d.endTime then
    ({ d with func := .load, waketime := d.endTime }, .reschedule)
  else ({ d with waketime := waketime }, .reschedule)

/-- `digital_load_event` after it has popped `m`, with `next` the first update left. -/
def digitalLoadEvent (d : DigitalOut) (m : DigitalMove) (next : Option DigitalMove) :
    Except DigitalOut (DigitalOut × SchedResult) :=
  let on := decide (m.onDuration ≠ 0)
  let d := { d with pin := on }
  let toggling := on && decide (m.onDuration < d.cycleTime)
  let limited := (toggling || on != d.defaultOn) && decide (d.maxDuration ≠ 0)
  let limit := if limited then d.waketime + d.maxDuration else 0
  if limited && next.any fun n => timerIsBefore limit n.waketime then .error d
  else
    let endTime := next.elim limit DigitalMove.waketime
    let checkEnd := limited || next.isSome
    let d := { d with endTime := endTime, on := on, toggling := toggling, checkEnd := checkEnd }
    let waketime := d.waketime + m.onDuration
    if !toggling then
      if !checkEnd then .ok (d, .done) else .ok ({ d with waketime := endTime }, .reschedule)
    else if checkEnd && !timerIsBefore waketime endTime then
      .ok ({ d with waketime := endTime }, .reschedule)
    else
      .ok ({ d with
        func := .toggle
        waketime := waketime
        onDuration := m.onDuration
        offDuration := d.cycleTime - m.onDuration }, .reschedule)

/-- `command_config_digital_out`. The fields that it leaves alone are zero. -/
def commandConfigDigitalOut (value defaultValue maxDuration : UInt32) : DigitalOut where
  waketime := 0
  func := .load
  scheduled := false
  onDuration := 0
  offDuration := 0
  endTime := 0
  pin := decide (value ≠ 0)
  maxDuration := maxDuration
  cycleTime := 0
  on := decide (value ≠ 0)
  toggling := false
  checkEnd := false
  defaultOn := decide (defaultValue ≠ 0)

/-- `command_set_digital_out_pwm_cycle` with the state of its queue. -/
def commandSetDigitalOutPwmCycle (d : DigitalOut) (empty : Bool) (cycleTicks : UInt32) :
    Except DigitalOut DigitalOut :=
  if !empty then .error d else .ok { d with cycleTime := cycleTicks }

/-- `command_queue_digital_out` after it has pushed `m`, for `first` telling whether `m` is the
first update on the queue. `close` tells whether the time has passed when the timer is added. -/
def commandQueueDigitalOut (d : DigitalOut) (m : DigitalMove) (first close : Bool) :
    Except DigitalOut DigitalOut :=
  if !first then .ok d
  else if d.checkEnd && timerIsBefore d.endTime m.waketime then .error d
  else
    let d' := { d with endTime := m.waketime, checkEnd := true }
    if d.toggling && timerIsBefore d.waketime m.waketime then .ok d'
    else
      let d' := { d' with waketime := m.waketime, func := .load, scheduled := !close }
      if close then .error d' else .ok d'

/-- `command_update_digital_out` at time `cur`, with the state of its queue. -/
def commandUpdateDigitalOut (d : DigitalOut) (empty : Bool) (value : UInt32) (cur : UInt32)
    (close : Bool) : Except DigitalOut DigitalOut :=
  let d := { d with scheduled := false }
  if !empty then .error d
  else
    let on := decide (value.toUInt8 ≠ 0)
    let d := { d with pin := on, on := on, toggling := false, checkEnd := false }
    if on != d.defaultOn && decide (d.maxDuration ≠ 0) then
      let endTime := cur + d.maxDuration
      let d := { d with
        waketime := endTime, endTime := endTime, func := .load, checkEnd := true
        scheduled := !close }
      if close then .error d else .ok d
    else .ok d

/-- `digital_out_shutdown` on one output, its queue apart. -/
def digitalOutShutdown (d : DigitalOut) : DigitalOut :=
  { d with pin := d.defaultOn, on := d.defaultOn, toggling := false, checkEnd := false }

end KlipperMcu.Gpio
