import KlipperMcu.Firmware.Sched

/-!
# Hardware PWM outputs

The functions of pwmcmds.c on one `struct pwm_out_s`. Its queue of updates is kept by the caller:
the functions take the update that they pop and the one that is then first on the queue. A call
that shuts down returns the memory it leaves behind.
-/

namespace KlipperMcu.Pwm

open Sched

/-- `struct pwm_move`. -/
structure PwmMove where
  waketime : UInt32
  value : UInt16
deriving DecidableEq, Repr, Inhabited

/-- The callbacks of the timer of a pwm output. -/
inductive PwmFunc where
  | event
  | endEvent
deriving DecidableEq, Repr

/-- `struct pwm_out_s` with the value of its pin and whether its timer is on the timer list. -/
structure PwmOut where
  waketime : UInt32
  func : PwmFunc
  scheduled : Bool
  pin : UInt16
  maxDuration : UInt32
  defaultValue : UInt16
deriving DecidableEq, Repr

/-- `pwm_event` after it has popped `m`, with `next` the first update left. -/
def pwmEvent (p : PwmOut) (m : PwmMove) (next : Option PwmMove) :
    Except PwmOut (PwmOut × SchedResult) :=
  let p := { p with pin := m.value }
  let limited := m.value != p.defaultValue && decide (p.maxDuration ≠ 0)
  match next with
  | none =>
    if limited then
      .ok ({ p with waketime := p.waketime + p.maxDuration, func := .endEvent }, .reschedule)
    else .ok (p, .done)
  | some n =>
    if limited && timerIsBefore (p.waketime + p.maxDuration) n.waketime then .error p
    else .ok ({ p with waketime := n.waketime }, .reschedule)

/-- `command_config_pwm_out`. -/
def commandConfigPwmOut (value defaultValue maxDuration : UInt32) : PwmOut where
  waketime := 0
  func := .event
  scheduled := false
  pin := value.toUInt16
  maxDuration := maxDuration
  defaultValue := defaultValue.toUInt16

/-- The part of `command_queue_pwm_out` after it has removed the timer, for the update `m` that is
the only one on the queue. `close` tells whether the time has passed when the timer is added. -/
def commandQueuePwmOut (p : PwmOut) (m : PwmMove) (close : Bool) : Except PwmOut PwmOut :=
  if p.func = .endEvent ∧ timerIsBefore p.waketime m.waketime = true then .error p
  else
    let p := { p with func := .event, waketime := m.waketime, scheduled := !close }
    if close then .error p else .ok p

/-- `pwm_shutdown` on one output, its queue apart. -/
def pwmShutdown (p : PwmOut) : PwmOut := { p with pin := p.defaultValue, func := .event }

end KlipperMcu.Pwm
