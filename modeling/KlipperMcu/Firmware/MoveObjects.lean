import KlipperMcu.Firmware.MoveQueue
import KlipperMcu.Firmware.DigitalOut
import KlipperMcu.Firmware.PwmOut
import KlipperMcu.Firmware.Stepper

/-!
# Objects with move queues

Steppers, digital outputs and pwm outputs that share one pool of moves. The commands run in task
context and can be interrupted by timer events wherever interrupts are enabled, so a command is a
sequence of steps. A shutdown abandons the command and runs the shutdown functions.
-/

namespace KlipperMcu.Moves

open Motion Gpio Pwm Sched

/-- A stepper whose moves are in the pool; the list in `regs` is not used. -/
structure StepperObj where
  regs : Stepper
  mq : Head

structure DigitalObj where
  regs : DigitalOut
  mq : Head

structure PwmObj where
  regs : PwmOut
  mq : Head

/-- The types of configured objects that use the move queue. -/
inductive Kind where
  | stepper
  | digitalOut
  | pwmOut
deriving DecidableEq, Repr

inductive Obj where
  | stepper (s : StepperObj)
  | digitalOut (d : DigitalObj)
  | pwmOut (p : PwmObj)

def Obj.kind : Obj → Kind
  | .stepper _ => .stepper
  | .digitalOut _ => .digitalOut
  | .pwmOut _ => .pwmOut

def Obj.mq : Obj → Head
  | .stepper s => s.mq
  | .digitalOut d => d.mq
  | .pwmOut p => p.mq

def Obj.scheduled : Obj → Bool
  | .stepper s => s.regs.scheduled
  | .digitalOut d => d.regs.scheduled
  | .pwmOut p => p.regs.scheduled

/-- The timer of the object is no longer on the timer list. -/
def Obj.unschedule : Obj → Obj
  | .stepper s => .stepper { s with regs := { s.regs with scheduled := false } }
  | .digitalOut d => .digitalOut { d with regs := { d.regs with scheduled := false } }
  | .pwmOut p => .pwmOut { p with regs := { p.regs with scheduled := false } }

/-- The pool with the contents of its nodes, and the objects by object id. -/
structure World where
  pool : Pool
  stepMove : Nat → StepperMove
  digitalMove : Nat → DigitalMove
  pwmMove : Nat → PwmMove
  objs : List Obj

def World.heads (w : World) : List Head := w.objs.map Obj.mq

def World.setObj (w : World) (oid : Nat) (o : Obj) : World := { w with objs := w.objs.set oid o }

/-- How a call ends. A shutdown leaves memory behind, a fault follows a null pointer or does not
return. -/
inductive Result (α : Type) where
  | ok (a : α)
  | shutdown (a : α)
  | fault

def stepperLoadNext (w : World) (s : StepperObj) : Option (Pool × StepperObj × SchedResult) :=
  if moveQueueEmpty s.mq then
    some (w.pool, { s with regs := { s.regs with count := 0 } }, .done)
  else
    (moveQueuePop w.pool s.mq).map fun (m, mq) =>
      (moveFree w.pool m, ⟨loadMove s.regs (w.stepMove m), mq⟩, .reschedule)

/-- `stepper_event` at time `curtime`. It does not touch the queue while steps of the loaded move
are left. -/
def stepperEvent (w : World) (s : StepperObj) (curtime : UInt32) :
    Result (Pool × StepperObj × SchedResult) :=
  if s.regs.count - 1 ≠ 0 then
    match Motion.stepperEvent s.regs curtime with
    | .error regs => .shutdown (w.pool, { s with regs := regs }, .done)
    | .ok (regs, ret) => .ok (w.pool, { s with regs := regs }, ret)
  else
    let minNextTime := curtime + s.regs.stepPulseTicks
    match stepperLoadNext w { s with regs := { s.regs with stepPin := !s.regs.stepPin } } with
    | none => .fault
    | some (pool, s, ret) =>
      if s.regs.singleSched ∨ ret = .done ∨ timerIsBefore s.regs.waketime minNextTime = false then
        .ok (pool, s, ret)
      else if (s.regs.waketime - minNextTime).toInt32 < (-timerFromUs 1000).toInt32 then
        .shutdown (pool, s, ret)
      else .ok (pool, { s with regs := { s.regs with waketime := minNextTime } }, .reschedule)

/-- `command_queue_step` with interrupts disabled, for the allocated node `m`. -/
def commandQueueStep (w : World) (s : StepperObj) (m : Nat) (move : StepperMove) (close : Bool) :
    Result (World × StepperObj) :=
  let flip := s.regs.lastDir != s.regs.nextDir
  let flipped := { s with regs := { s.regs with lastDir := s.regs.nextDir } }
  let w := { w with stepMove := Function.update w.stepMove m { move with dir := flip } }
  if s.regs.count = 0 ∧ s.regs.needReset then .ok ({ w with pool := moveFree w.pool m }, s)
  else
    match moveQueuePush w.pool m s.mq with
    | none => .fault
    | some (pool, mq, _) =>
      let w := { w with pool := pool }
      let flipped := { flipped with mq := mq }
      if s.regs.count ≠ 0 then .ok (w, flipped)
      else
        match stepperLoadNext w flipped with
        | none => .fault
        | some (pool, s, _) =>
          let s := { s with regs := { s.regs with scheduled := !close } }
          if close then .shutdown ({ w with pool := pool }, s) else .ok ({ w with pool := pool }, s)

/-- `stepper_stop`. -/
def stepperStop (p : Pool) (s : StepperObj) : Option (Pool × StepperObj) :=
  (freeQueue p.count p s.mq).map fun (p, mq) => (p, ⟨Motion.stepperStop s.regs, mq⟩)

/-- The timer event of a digital output. -/
def digitalEvent (w : World) (d : DigitalObj) : Result (Pool × DigitalObj × SchedResult) :=
  match d.regs.func with
  | .toggle =>
    let (regs, ret) := digitalToggleEvent d.regs
    .ok (w.pool, { d with regs := regs }, ret)
  | .load =>
    if moveQueueEmpty d.mq then .shutdown (w.pool, d, .done)
    else
      match moveQueuePop w.pool d.mq with
      | none => .fault
      | some (m, mq) =>
        let pool := moveFree w.pool m
        match digitalLoadEvent d.regs (w.digitalMove m) (mq.first.map w.digitalMove) with
        | .error regs => .shutdown (pool, ⟨regs, mq⟩, .done)
        | .ok (regs, ret) => .ok (pool, ⟨regs, mq⟩, ret)

/-- The timer event of a pwm output. `pwm_event` does not check for an empty queue. -/
def pwmTimerEvent (w : World) (p : PwmObj) : Result (Pool × PwmObj × SchedResult) :=
  match p.regs.func with
  | .endEvent => .shutdown (w.pool, p, .done)
  | .event =>
    match moveQueuePop w.pool p.mq with
    | none => .fault
    | some (m, mq) =>
      let pool := moveFree w.pool m
      match pwmEvent p.regs (w.pwmMove m) (mq.first.map w.pwmMove) with
      | .error regs => .shutdown (pool, ⟨regs, mq⟩, .done)
      | .ok (regs, ret) => .ok (pool, ⟨regs, mq⟩, ret)

/-- The timer list after a callback returned `ret`. -/
def Obj.rescheduled (o : Obj) (ret : SchedResult) : Obj :=
  if ret = .done then o.unschedule else o

def Result.map {α β : Type} (f : α → β) : Result α → Result β
  | .ok a => .ok (f a)
  | .shutdown a => .shutdown (f a)
  | .fault => .fault

/-- The dispatch of the timer of an object. -/
def timerEvent (w : World) (oid : Nat) (curtime : UInt32) : Obj → Result World
  | .stepper s => (stepperEvent w s curtime).map fun (pool, s, ret) =>
      { w with pool := pool }.setObj oid ((Obj.stepper s).rescheduled ret)
  | .digitalOut d => (digitalEvent w d).map fun (pool, d, ret) =>
      { w with pool := pool }.setObj oid ((Obj.digitalOut d).rescheduled ret)
  | .pwmOut p => (pwmTimerEvent w p).map fun (pool, p, ret) =>
      { w with pool := pool }.setObj oid ((Obj.pwmOut p).rescheduled ret)

end KlipperMcu.Moves
