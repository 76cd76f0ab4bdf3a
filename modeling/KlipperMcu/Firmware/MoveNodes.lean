import KlipperMcu.Firmware.MoveObjects
import KlipperMcu.Lib.Run

/-!
# Where the move nodes are

In every run of commands, timer events and stops, each node of the pool is on the free list, on
exactly one queue or held by the running command. After a shutdown at any point all nodes are on
the free list again.
-/

namespace KlipperMcu.Moves

open Lib Motion Gpio Pwm Sched

/-- The commands on objects with move queues, with the arguments that the host sends. -/
inductive Command where
  | queueStep (interval count add : UInt32)
  | setNextStepDir (dir : UInt32)
  | resetStepClock (clock : UInt32)
  | queueDigitalOut (clock onTicks : UInt32)
  | setDigitalOutPwmCycle (cycleTicks : UInt32)
  | updateDigitalOut (value cur : UInt32) (close : Bool)
  | queuePwmOut (clock value : UInt32)

/-- A command that has enabled interrupts after it allocated the node `m`: the queue commands
before the push, and `queue_pwm_out` before and after it removes the timer. -/
inductive Pending where
  | queueStep (oid m : Nat) (move : StepperMove)
  | queueDigitalOut (oid m : Nat)
  | queuePwmOut (oid m : Nat)
  | delPwmTimer (oid m : Nat)
  | addPwmTimer (oid m : Nat)

/-- The shutdown functions. -/
inductive Handler where
  | moveReset
  | stepperShutdown
  | digitalOutShutdown
  | pwmShutdown
deriving DecidableEq, Repr

inductive Status where
  | running
  | down (done : List Handler)
  | stopped
  | fault

structure State where
  world : World
  cmd : Option Pending
  status : Status

inductive Action where
  | command (oid : Nat) (c : Command)
  | proceed (close : Bool)
  | event (oid : Nat) (curtime : UInt32)
  | stop (oid : Nat)
  | shutdown
  | handler (h : Handler)
  | finish
  | clearShutdown

/-- The start of `run_shutdown`. -/
def State.shutdown (w : World) : State :=
  ⟨{ w with objs := w.objs.map Obj.unschedule }, none, .down []⟩

/-- The state after a call on `w` that leaves the command `cmd` running. -/
def State.after (w : World) (cmd : Option Pending) : Result World → State
  | .ok w => ⟨w, cmd, .running⟩
  | .shutdown w => State.shutdown w
  | .fault => ⟨w, none, .fault⟩

def Except.result {α : Type} (f : α → World) : Except α α → Result World
  | .ok a => .ok (f a)
  | .error a => .shutdown (f a)

/-- A queue command allocates a node and then goes on with `next`. -/
def allocNode (w : World) (next : Nat → World → State) : State :=
  match moveAlloc w.pool with
  | none => State.shutdown w
  | some (m, pool) => next m { w with pool := pool }

/-- The start of a command. A command for an object of another type shuts down. -/
def startCommand (w : World) (oid : Nat) : Obj → Command → State
  | .stepper _, .queueStep interval count add =>
    allocNode w fun m w =>
      if h : count.toUInt16 = 0 then State.shutdown w
      else ⟨w, some (.queueStep oid m ⟨interval, add.toUInt16.toInt16, count.toUInt16, false, h⟩),
        .running⟩
  | .stepper s, .setNextStepDir dir =>
    ⟨w.setObj oid (.stepper { s with regs := commandSetNextStepDir s.regs dir }), none, .running⟩
  | .stepper s, .resetStepClock clock =>
    State.after w none (Except.result (fun regs => w.setObj oid (.stepper { s with regs := regs }))
      (commandResetStepClock s.regs clock))
  | .digitalOut _, .queueDigitalOut clock onTicks =>
    allocNode w fun m w =>
      ⟨{ w with digitalMove := Function.update w.digitalMove m ⟨clock, onTicks⟩ },
        some (.queueDigitalOut oid m), .running⟩
  | .digitalOut d, .setDigitalOutPwmCycle cycleTicks =>
    State.after w none (Except.result (fun regs => w.setObj oid (.digitalOut { d with regs := regs }))
      (commandSetDigitalOutPwmCycle d.regs (moveQueueEmpty d.mq) cycleTicks))
  | .digitalOut d, .updateDigitalOut value cur close =>
    State.after w none (Except.result (fun regs => w.setObj oid (.digitalOut { d with regs := regs }))
      (commandUpdateDigitalOut d.regs (moveQueueEmpty d.mq) value cur close))
  | .pwmOut _, .queuePwmOut clock value =>
    allocNode w fun m w =>
      ⟨{ w with pwmMove := Function.update w.pwmMove m ⟨clock, value.toUInt16⟩ },
        some (.queuePwmOut oid m), .running⟩
  | _, _ => State.shutdown w

/-- The next part of the running command. `close` tells whether a timer that it adds is too
close. -/
def proceed (w : World) (close : Bool) : Pending → Option State
  | .queueStep oid m move =>
    match w.objs[oid]? with
    | some (.stepper s) =>
      some (State.after w none ((commandQueueStep w s m move close).map fun (w, s) =>
        w.setObj oid (.stepper s)))
    | _ => none
  | .queueDigitalOut oid m =>
    match w.objs[oid]? with
    | some (.digitalOut d) =>
      match moveQueuePush w.pool m d.mq with
      | none => some (State.after w none .fault)
      | some (pool, mq, first) =>
        some (State.after w none (Except.result
          (fun regs => { w with pool := pool }.setObj oid (.digitalOut ⟨regs, mq⟩))
          (commandQueueDigitalOut d.regs (w.digitalMove m) first close)))
    | _ => none
  | .queuePwmOut oid m =>
    match w.objs[oid]? with
    | some (.pwmOut p) =>
      match moveQueuePush w.pool m p.mq with
      | none => some (State.after w none .fault)
      | some (pool, mq, first) =>
        some ⟨{ w with pool := pool }.setObj oid (.pwmOut { p with mq := mq }),
          if first then some (.delPwmTimer oid m) else none, .running⟩
    | _ => none
  | .delPwmTimer oid m =>
    match w.objs[oid]? with
    | some (.pwmOut p) =>
      some ⟨w.setObj oid (Obj.unschedule (.pwmOut p)), some (.addPwmTimer oid m), .running⟩
    | _ => none
  | .addPwmTimer oid m =>
    match w.objs[oid]? with
    | some (.pwmOut p) =>
      some (State.after w none (Except.result
        (fun regs => w.setObj oid (.pwmOut { p with regs := regs }))
        (commandQueuePwmOut p.regs (w.pwmMove m) close)))
    | _ => none

/-- `stepper_shutdown` on the objects from the list, one after the other. -/
def stepperShutdown : Pool → List Obj → Option (Pool × List Obj)
  | p, [] => some (p, [])
  | p, .stepper s :: objs =>
    (stepperStop p { s with mq := moveQueueClear s.mq }).bind fun (p, s) =>
      (stepperShutdown p objs).map fun (p, objs) => (p, .stepper s :: objs)
  | p, o :: objs => (stepperShutdown p objs).map fun (p, objs) => (p, o :: objs)

/-- `digital_out_shutdown` on one object. -/
def Obj.digitalOutShutdown : Obj → Obj
  | .digitalOut d => .digitalOut ⟨Gpio.digitalOutShutdown d.regs, moveQueueClear d.mq⟩
  | o => o

/-- `pwm_shutdown` on one object. -/
def Obj.pwmShutdown : Obj → Obj
  | .pwmOut p => .pwmOut ⟨Pwm.pwmShutdown p.regs, moveQueueClear p.mq⟩
  | o => o

def runHandler (w : World) : Handler → Option World
  | .moveReset => some { w with pool := moveReset w.pool }
  | .stepperShutdown =>
    (stepperShutdown w.pool w.objs).map fun (pool, objs) => { w with pool := pool, objs := objs }
  | .digitalOutShutdown => some { w with objs := w.objs.map Obj.digitalOutShutdown }
  | .pwmShutdown => some { w with objs := w.objs.map Obj.pwmShutdown }

def step (s : State) : Action → Option State
  | .command oid c =>
    match s.status, s.cmd with
    | .running, none =>
      match s.world.objs[oid]? with
      | none => some (State.shutdown s.world)
      | some o => some (startCommand s.world oid o c)
    | _, _ => none
  | .proceed close =>
    match s.status with
    | .running => s.cmd.bind (proceed s.world close)
    | _ => none
  | .event oid curtime =>
    match s.status, s.world.objs[oid]? with
    | .running, some o =>
      if o.scheduled then some (State.after s.world s.cmd (timerEvent s.world oid curtime o)) else none
    | _, _ => none
  | .stop oid =>
    match s.status, s.world.objs[oid]? with
    | .running, some (.stepper st) =>
      match stepperStop s.world.pool st with
      | none => some (State.after s.world none .fault)
      | some (pool, st) =>
        some { s with world := { s.world with pool := pool }.setObj oid (.stepper st) }
    | _, _ => none
  | .shutdown =>
    match s.status with
    | .running => some (State.shutdown s.world)
    | .stopped => some (State.shutdown s.world)
    | _ => none
  | .handler h =>
    match s.status with
    | .down done =>
      if h ∈ done then none
      else
        match runHandler s.world h with
        | none => some (State.after s.world none .fault)
        | some w => some { s with world := w, status := .down (done ++ [h]) }
    | _ => none
  | .finish =>
    match s.status with
    | .down done =>
      if .moveReset ∈ done ∧ .stepperShutdown ∈ done ∧ .digitalOutShutdown ∈ done ∧
          .pwmShutdown ∈ done then some { s with status := .stopped }
      else none
    | _ => none
  | .clearShutdown =>
    match s.status with
    | .stopped => some { s with status := .running }
    | _ => none

def Pending.oid : Pending → Nat
  | .queueStep oid _ _ => oid
  | .queueDigitalOut oid _ => oid
  | .queuePwmOut oid _ => oid
  | .delPwmTimer oid _ => oid
  | .addPwmTimer oid _ => oid

/-- The node that a command holds. -/
def heldBy : Option Pending → List Nat
  | some (.queueStep _ m _) => [m]
  | some (.queueDigitalOut _ m) => [m]
  | some (.queuePwmOut _ m) => [m]
  | _ => []

/-- The object of a command with its queue. The timer of a pwm output whose only update was just
queued does not run `pwm_event`. -/
def Pending.Suits (q : List Nat) : Pending → Obj → Prop
  | .queueStep _ _ _, .stepper _ => True
  | .queueDigitalOut _ _, .digitalOut _ => True
  | .queuePwmOut _ _, .pwmOut _ => True
  | .delPwmTimer _ _, .pwmOut p =>
    q ≠ [] ∧ (p.regs.scheduled = true → p.regs.func = .endEvent)
  | .addPwmTimer _ _, .pwmOut p => q ≠ [] ∧ p.regs.scheduled = false
  | _, _ => False

/-- `pwm_event` is only scheduled for a queue that is not empty. -/
def Obj.Fed (q : List Nat) : Obj → Prop
  | .pwmOut p => p.regs.scheduled = true → p.regs.func = .event → q ≠ []
  | _ => True

/-- The nodes of the pool while the firmware runs. -/
structure Good (w : World) (cmd : Option Pending) (free : List Nat) (queues : List (List Nat)) :
    Prop where
  owned : Owned w.pool w.heads (heldBy cmd) free queues
  fed : ∀ (oid : Nat) o q, w.objs[oid]? = some o → queues[oid]? = some q → o.Fed q
  suits : ∀ c, cmd = some c → ∃ o q, w.objs[c.oid]? = some o ∧ queues[c.oid]? = some q ∧
    c.Suits q o

section Good

variable {w w' : World} {cmd cmd' : Option Pending} {free free' : List Nat}
  {queues : List (List Nat)} {q q' : List Nat} {oid : Nat} {o o' : Obj} {pool : Pool}

lemma heads_getElem? (ho : w.objs[oid]? = some o) : w.heads[oid]? = some o.mq := by
  unfold World.heads
  rw [List.getElem?_map, ho]
  rfl

lemma Good.update (h : Good w cmd free queues) (ho : w.objs[oid]? = some o)
    (hobjs : w'.objs = w.objs.set oid o')
    (hnew : Owned w'.pool (w.heads.set oid o'.mq) (heldBy cmd') free' (queues.set oid q'))
    (hfed : o'.Fed q')
    (hcmd : ∀ c, cmd' = some c → c.oid = oid ∧ c.Suits q' o' ∨ c.oid ≠ oid ∧ cmd = some c) :
    Good w' cmd' free' (queues.set oid q') := by
  obtain ⟨hlt, -⟩ := List.getElem?_eq_some_iff.mp ho
  have hlen : w.objs.length = queues.length := by
    have := h.owned.length
    rwa [World.heads, List.length_map] at this
  have hself : (w.objs.set oid o')[oid]? = some o' := List.getElem?_set_self hlt
  have hqself : (queues.set oid q')[oid]? = some q' := List.getElem?_set_self (hlen ▸ hlt)
  refine ⟨?_, ?_, ?_⟩
  · have hheads : w'.heads = w.heads.set oid o'.mq := by
      unfold World.heads
      rw [hobjs, List.map_set]
    rw [hheads]
    exact hnew
  · intro j oj qj hoj hqj
    rw [hobjs] at hoj
    by_cases hj : j = oid
    · subst hj
      rw [hself] at hoj
      rw [hqself] at hqj
      cases hoj
      cases hqj
      exact hfed
    · rw [List.getElem?_set_ne (Ne.symm hj)] at hoj hqj
      exact h.fed j oj qj hoj hqj
  · intro c hc
    rw [hobjs]
    rcases hcmd c hc with ⟨rfl, hsuits⟩ | ⟨hne, hold⟩
    · exact ⟨o', q', hself, hqself, hsuits⟩
    · obtain ⟨oc, qc, hoc, hqc, hsuits⟩ := h.suits c hold
      refine ⟨oc, qc, ?_, ?_, hsuits⟩
      · exact (List.getElem?_set_ne (Ne.symm hne)).trans hoc
      · exact (List.getElem?_set_ne (Ne.symm hne)).trans hqc

lemma Good.keep (h : Good w cmd free queues) (ho : w.objs[oid]? = some o)
    (hq : queues[oid]? = some q) (hnew : Owned pool (w.heads.set oid o'.mq) (heldBy cmd) free'
      (queues.set oid q')) (hfed : o'.Fed q')
    (hsuits : ∀ c, cmd = some c → c.Suits q o → c.Suits q' o') :
    Good ({ w with pool := pool }.setObj oid o') cmd free' (queues.set oid q') := by
  refine h.update ho rfl hnew hfed fun c hc => ?_
  by_cases hoid : c.oid = oid
  · obtain ⟨oc, qc, hoc, hqc, hs⟩ := h.suits c hc
    rw [hoid, ho] at hoc
    rw [hoid, hq] at hqc
    cases hoc
    cases hqc
    exact Or.inl ⟨hoid, hsuits c hc hs⟩
  · exact Or.inr ⟨hoid, hc⟩

end Good

/-- The shutdown function that clears the queues of objects of a type. -/
def Kind.handler : Kind → Handler
  | .stepper => .stepperShutdown
  | .digitalOut => .digitalOutShutdown
  | .pwmOut => .pwmShutdown

/-- The memory during a shutdown, after the shutdown functions `done`. -/
structure Down (w : World) (done : List Handler) : Prop where
  empty : w.pool.count = 0 → w.pool.freeList = none
  unscheduled : ∀ o ∈ w.objs, o.scheduled = false
  allFree : .moveReset ∈ done → AllFree w.pool
  cleared : ∀ o ∈ w.objs, o.kind.handler ∈ done → moveQueueEmpty o.mq = true

def Inv (s : State) : Prop :=
  match s.status with
  | .running => ∃ free queues, Good s.world s.cmd free queues
  | .down done => s.cmd = none ∧ Down s.world done
  | .stopped => s.cmd = none ∧
    Down s.world [.moveReset, .stepperShutdown, .digitalOutShutdown, .pwmShutdown]
  | .fault => False

section Events

variable {w : World} {cmd : Option Pending} {held free : List Nat} {queues : List (List Nat)}
  {q q' : List Nat} {oid : Nat} {o : Obj} {heads : List Head}

lemma unschedule_scheduled (o : Obj) : o.unschedule.scheduled = false := by
  cases o <;> rfl

lemma inv_shutdown (h : w.pool.count = 0 → w.pool.freeList = none) : Inv (State.shutdown w) := by
  refine ⟨rfl, h, ?_, by simp, by simp⟩
  intro o ho
  obtain ⟨o', -, rfl⟩ := List.mem_map.mp ho
  exact unschedule_scheduled o'

lemma stepperLoadNext_spec {s : StepperObj} (h : Owned w.pool heads held free queues)
    (hmh : heads[oid]? = some s.mq) :
    ∃ pool s' ret free' q', stepperLoadNext w s = some (pool, s', ret) ∧
      Owned pool (heads.set oid s'.mq) held free' (queues.set oid q') := by
  unfold stepperLoadNext
  by_cases he : moveQueueEmpty s.mq = true
  · obtain ⟨q, hq, -⟩ := h.getElem? hmh
    rw [if_pos he]
    exact ⟨_, _, _, free, q, rfl, h.set_self hmh hq⟩
  · obtain ⟨m, hpop⟩ := @moveQueuePop_of_not_empty w.pool s.mq (Bool.eq_false_iff.mpr he)
    obtain ⟨q, -, hown⟩ := h.popFree hmh hpop
    rw [if_neg he, hpop]
    exact ⟨_, _, _, _, q, rfl, hown⟩

lemma stepperEvent_spec {s : StepperObj} (h : Owned w.pool heads held free queues)
    (hmh : heads[oid]? = some s.mq) (curtime : UInt32) :
    ∃ pool s' ret free' q', (stepperEvent w s curtime = .ok (pool, s', ret) ∨
      stepperEvent w s curtime = .shutdown (pool, s', ret)) ∧
      Owned pool (heads.set oid s'.mq) held free' (queues.set oid q') := by
  unfold stepperEvent
  by_cases hcount : s.regs.count - 1 = 0
  · simp only [hcount, ne_eq, not_true_eq_false, if_false]
    obtain ⟨pool, s', ret, free', q', hload, hown⟩ := @stepperLoadNext_spec w held free queues oid
      heads { s with regs := { s.regs with stepPin := !s.regs.stepPin } } h hmh
    rw [hload]
    simp only []
    split
    · exact ⟨_, _, _, _, _, Or.inl rfl, hown⟩
    · split
      · exact ⟨_, _, _, _, _, Or.inr rfl, hown⟩
      · exact ⟨pool, { s' with regs := { s'.regs with waketime := _ } }, _, _, _, Or.inl rfl, hown⟩
  · obtain ⟨q, hq, -⟩ := h.getElem? hmh
    have hself := h.set_self hmh hq
    simp only [ne_eq, hcount, not_false_eq_true, if_true]
    split
    · exact ⟨_, { s with regs := _ }, _, _, _, Or.inr rfl, hself⟩
    · exact ⟨_, { s with regs := _ }, _, _, _, Or.inl rfl, hself⟩

lemma digitalEvent_spec {d : DigitalObj} (h : Owned w.pool heads held free queues)
    (hmh : heads[oid]? = some d.mq) :
    ∃ pool d' ret free' q', (digitalEvent w d = .ok (pool, d', ret) ∨
      digitalEvent w d = .shutdown (pool, d', ret)) ∧
      Owned pool (heads.set oid d'.mq) held free' (queues.set oid q') := by
  obtain ⟨q, hq, -⟩ := h.getElem? hmh
  have hself := h.set_self hmh hq
  unfold digitalEvent
  split
  · exact ⟨_, { d with regs := _ }, _, _, _, Or.inl rfl, hself⟩
  · by_cases he : moveQueueEmpty d.mq = true
    · rw [if_pos he]
      exact ⟨_, _, _, _, _, Or.inr rfl, hself⟩
    · obtain ⟨m, hpop⟩ := @moveQueuePop_of_not_empty w.pool d.mq (Bool.eq_false_iff.mpr he)
      obtain ⟨q', -, hown⟩ := h.popFree hmh hpop
      rw [if_neg he, hpop]
      simp only []
      split
      · exact ⟨_, ⟨_, _⟩, _, _, _, Or.inr rfl, hown⟩
      · exact ⟨_, ⟨_, _⟩, _, _, _, Or.inl rfl, hown⟩

lemma pwmTimerEvent_spec {p : PwmObj} (h : Owned w.pool heads held free queues)
    (hmh : heads[oid]? = some p.mq) (hq : queues[oid]? = some q)
    (hfed : p.regs.func = .event → q ≠ []) :
    ∃ pool p' ret free' q', (pwmTimerEvent w p = .ok (pool, p', ret) ∧ p.regs.func = .event ∧
        (ret = .done ∨ p'.regs.func = .endEvent ∨ q' ≠ []) ∨
      pwmTimerEvent w p = .shutdown (pool, p', ret)) ∧
      Owned pool (heads.set oid p'.mq) held free' (queues.set oid q') := by
  unfold pwmTimerEvent
  split
  · exact ⟨_, _, _, _, _, Or.inr rfl, h.set_self hmh hq⟩
  · rename_i hfunc
    have hqi := h.queue oid _ _ hmh hq
    have hne : moveQueueEmpty p.mq = false := by
      unfold moveQueueEmpty
      rcases hf : p.mq.first with _ | m
      · exact absurd (hqi.first_eq_none.mp hf) (hfed hfunc)
      · rfl
    obtain ⟨m, hpop⟩ := @moveQueuePop_of_not_empty w.pool p.mq hne
    obtain ⟨q', hq', hown⟩ := h.popFree hmh hpop
    obtain ⟨hlt, -⟩ := List.getElem?_eq_some_iff.mp hmh
    obtain ⟨hlt', -⟩ := List.getElem?_eq_some_iff.mp hq
    have hrest := hown.queue oid _ _ (List.getElem?_set_self hlt) (List.getElem?_set_self hlt')
    rw [hpop]
    simp only []
    split
    · exact ⟨_, ⟨_, _⟩, _, _, _, Or.inr rfl, hown⟩
    · rename_i regs ret hev
      refine ⟨_, ⟨regs, _⟩, ret, _, q', Or.inl ⟨rfl, hfunc, ?_⟩, hown⟩
      unfold pwmEvent at hev
      rcases hnext : w.pool.next m with _ | m'
      · simp only [hnext, Option.map_none] at hev
        split at hev
        · exact Or.inr (Or.inl (by cases hev; rfl))
        · exact Or.inl (by cases hev; rfl)
      · refine Or.inr (Or.inr fun hnil => ?_)
        have hfirst := hrest.first_eq_none.mpr hnil
        simp only [hnext] at hfirst
        cases hfirst

lemma rescheduled_stepper (s : StepperObj) (ret : SchedResult) :
    ∃ s', (Obj.stepper s).rescheduled ret = .stepper s' ∧ s'.mq = s.mq := by
  unfold Obj.rescheduled
  split <;> exact ⟨_, rfl, rfl⟩

lemma rescheduled_digitalOut (d : DigitalObj) (ret : SchedResult) :
    ∃ d', (Obj.digitalOut d).rescheduled ret = .digitalOut d' ∧ d'.mq = d.mq := by
  unfold Obj.rescheduled
  split <;> exact ⟨_, rfl, rfl⟩

lemma suits_stepper {c : Pending} {s s' : StepperObj} (h : c.Suits q (.stepper s)) :
    c.Suits q' (.stepper s') := by
  cases c <;> exact h

lemma suits_digitalOut {c : Pending} {d d' : DigitalObj} (h : c.Suits q (.digitalOut d)) :
    c.Suits q' (.digitalOut d') := by
  cases c <;> exact h

lemma rescheduled_pwmOut {p : PwmObj} {ret : SchedResult}
    (hret : ret = .done ∨ p.regs.func = .endEvent ∨ q ≠ []) :
    ∃ p', (Obj.pwmOut p).rescheduled ret = .pwmOut p' ∧ p'.mq = p.mq ∧ (Obj.pwmOut p').Fed q := by
  unfold Obj.rescheduled
  split
  · exact ⟨_, rfl, rfl, fun hsch => by cases hsch⟩
  · rename_i hnd
    refine ⟨_, rfl, rfl, fun _ hevent => ?_⟩
    rcases hret with hd | hend | hne
    · exact absurd hd hnd
    · rw [hend] at hevent
      cases hevent
    · exact hne

lemma suits_pwmOut {c : Pending} {p p' : PwmObj} (hs : (Obj.pwmOut p).scheduled = true)
    (hfunc : p.regs.func = .event) (h : c.Suits q (.pwmOut p)) : c.Suits q' (.pwmOut p') := by
  cases c with
  | queuePwmOut => trivial
  | delPwmTimer =>
    have hend := h.2 hs
    rw [hfunc] at hend
    cases hend
  | addPwmTimer =>
    have hoff := h.2
    change p.regs.scheduled = true at hs
    rw [hs] at hoff
    cases hoff
  | queueStep => exact h
  | queueDigitalOut => exact h

lemma Good.timerEvent (h : Good w cmd free queues) (ho : w.objs[oid]? = some o)
    (hs : o.scheduled = true) (curtime : UInt32) :
    Inv (State.after w cmd (timerEvent w oid curtime o)) := by
  have hmh := heads_getElem? ho
  obtain ⟨q, hq, -⟩ := h.owned.getElem? hmh
  cases o with
  | stepper s =>
    obtain ⟨pool, s', ret, free', q', hev, hown⟩ := stepperEvent_spec h.owned hmh curtime
    obtain ⟨s'', hres, hmq⟩ := rescheduled_stepper s' ret
    rw [Moves.timerEvent]
    rcases hev with hev | hev
    · rw [hev]
      simp only [Result.map, State.after, hres]
      exact ⟨free', _, h.keep ho hq (hmq ▸ hown) trivial fun c _ => suits_stepper⟩
    · rw [hev]
      exact inv_shutdown hown.freeList_eq_none
  | digitalOut d =>
    obtain ⟨pool, d', ret, free', q', hev, hown⟩ := digitalEvent_spec h.owned hmh
    obtain ⟨d'', hres, hmq⟩ := rescheduled_digitalOut d' ret
    rw [Moves.timerEvent]
    rcases hev with hev | hev
    · rw [hev]
      simp only [Result.map, State.after, hres]
      exact ⟨free', _, h.keep ho hq (hmq ▸ hown) trivial fun c _ => suits_digitalOut⟩
    · rw [hev]
      exact inv_shutdown hown.freeList_eq_none
  | pwmOut p =>
    obtain ⟨pool, p', ret, free', q', hev, hown⟩ :=
      pwmTimerEvent_spec h.owned hmh hq (h.fed oid _ q ho hq hs)
    rw [Moves.timerEvent]
    rcases hev with ⟨hev, hfunc, hret⟩ | hev
    · rw [hev]
      simp only [Result.map, State.after]
      obtain ⟨p'', hres, hmq, hfed⟩ := rescheduled_pwmOut hret
      rw [hres]
      rw [← hmq] at hown
      exact ⟨free', _, h.keep ho hq hown hfed fun c _ => suits_pwmOut hs hfunc⟩
    · rw [hev]
      exact inv_shutdown hown.freeList_eq_none

lemma Good.stop (h : Good w cmd free queues) {s : StepperObj}
    (ho : w.objs[oid]? = some (.stepper s)) :
    ∃ pool s' free' queues', stepperStop w.pool s = some (pool, s') ∧
      Good ({ w with pool := pool }.setObj oid (.stepper s')) cmd free' queues' := by
  have hmh := heads_getElem? ho
  obtain ⟨q, hq, -⟩ := h.owned.getElem? hmh
  obtain ⟨pool, mq, free', heq, hown⟩ := h.owned.freeQueue hmh hq (h.owned.length_le hq)
  refine ⟨pool, ⟨Motion.stepperStop s.regs, mq⟩, free', queues.set oid [], ?_, ?_⟩
  · unfold stepperStop
    rw [show freeQueue w.pool.count w.pool s.mq = some (pool, mq) from heq]
    rfl
  · exact h.keep ho hq hown trivial fun c _ => suits_stepper

end Events

section Commands

variable {w : World} {free : List Nat} {queues : List (List Nat)} {oid : Nat} {o : Obj}

lemma Good.setRegs (h : Good w none free queues) (ho : w.objs[oid]? = some o) {o' : Obj}
    (hmq : o'.mq = o.mq) (hfed : ∀ q, o'.Fed q) : ∃ free queues, Good (w.setObj oid o') none free
      queues := by
  have hmh := heads_getElem? ho
  obtain ⟨q, hq, -⟩ := h.owned.getElem? hmh
  refine ⟨free, queues.set oid q, ?_⟩
  exact h.update ho rfl (hmq ▸ h.owned.set_self hmh hq) (hfed q) (by simp)

lemma Good.setRegs_result (h : Good w none free queues) (ho : w.objs[oid]? = some o) {α : Type}
    (f : α → Obj) (hmq : ∀ a, (f a).mq = o.mq) (hfed : ∀ a q, (f a).Fed q) (e : Except α α) :
    Inv (State.after w none (Except.result (fun a => w.setObj oid (f a)) e)) := by
  cases e with
  | ok a => exact h.setRegs ho (hmq a) (hfed a)
  | error a => exact inv_shutdown h.owned.freeList_eq_none

lemma Good.allocNode (h : Good w none free queues) {next : Nat → World → State}
    (hnext : ∀ m pool free', Owned pool w.heads [m] free' queues →
      Inv (next m { w with pool := pool })) : Inv (allocNode w next) := by
  unfold Moves.allocNode
  split
  · exact inv_shutdown h.owned.freeList_eq_none
  · rename_i m pool halloc
    obtain ⟨free', hown⟩ := h.owned.moveAlloc halloc
    exact hnext m pool free' hown

lemma Good.hold (h : Good w none free queues) (ho : w.objs[oid]? = some o) {w' : World}
    {c : Pending} {free' : List Nat} (hobjs : w'.objs = w.objs)
    (hown : Owned w'.pool w.heads (heldBy (some c)) free' queues) (hoid : c.oid = oid)
    (hsuits : ∀ q, c.Suits q o) : Inv ⟨w', some c, .running⟩ := by
  obtain ⟨q, hq, -⟩ := h.owned.getElem? (heads_getElem? ho)
  refine ⟨free', queues, ?_, ?_, ?_⟩
  · unfold World.heads at hown ⊢
    rw [hobjs]
    exact hown
  · rw [hobjs]
    exact h.fed
  · rintro c' hc'
    cases hc'
    rw [hobjs, hoid]
    exact ⟨o, q, ho, hq, hsuits q⟩

lemma Good.startCommand (h : Good w none free queues) (ho : w.objs[oid]? = some o) (c : Command) :
    Inv (startCommand w oid o c) := by
  have hdown : Inv (State.shutdown w) := inv_shutdown h.owned.freeList_eq_none
  cases o with
  | stepper s =>
    cases c with
    | queueStep interval count add =>
      rw [Moves.startCommand]
      refine h.allocNode fun m pool free' hown => ?_
      split
      · exact inv_shutdown hown.freeList_eq_none
      · exact h.hold ho rfl hown rfl fun _ => trivial
    | setNextStepDir dir => exact h.setRegs ho rfl fun _ => trivial
    | resetStepClock clock =>
      exact h.setRegs_result ho (fun regs => .stepper { s with regs := regs }) (fun _ => rfl)
        (fun _ _ => trivial) _
    | queueDigitalOut => exact hdown
    | setDigitalOutPwmCycle => exact hdown
    | updateDigitalOut => exact hdown
    | queuePwmOut => exact hdown
  | digitalOut d =>
    cases c with
    | queueDigitalOut clock onTicks =>
      rw [Moves.startCommand]
      exact h.allocNode fun m pool free' hown => h.hold ho rfl hown rfl fun _ => trivial
    | setDigitalOutPwmCycle cycleTicks =>
      exact h.setRegs_result ho (fun regs => .digitalOut { d with regs := regs }) (fun _ => rfl)
        (fun _ _ => trivial) _
    | updateDigitalOut value cur close =>
      exact h.setRegs_result ho (fun regs => .digitalOut { d with regs := regs }) (fun _ => rfl)
        (fun _ _ => trivial) _
    | queueStep => exact hdown
    | setNextStepDir => exact hdown
    | resetStepClock => exact hdown
    | queuePwmOut => exact hdown
  | pwmOut p =>
    cases c with
    | queuePwmOut clock value =>
      rw [Moves.startCommand]
      exact h.allocNode fun m pool free' hown => h.hold ho rfl hown rfl fun _ => trivial
    | queueStep => exact hdown
    | setNextStepDir => exact hdown
    | resetStepClock => exact hdown
    | queueDigitalOut => exact hdown
    | setDigitalOutPwmCycle => exact hdown
    | updateDigitalOut => exact hdown

lemma commandQueueStep_spec {heads : List Head} {s : StepperObj} {m : Nat} {move : StepperMove}
    (h : Owned w.pool heads [m] free queues) (hmh : heads[oid]? = some s.mq) (close : Bool) :
    ∃ w' s' free' q', (commandQueueStep w s m move close = .ok (w', s') ∨
      commandQueueStep w s m move close = .shutdown (w', s')) ∧ w'.objs = w.objs ∧
      Owned w'.pool (heads.set oid s'.mq) [] free' (queues.set oid q') := by
  obtain ⟨q, hq, -⟩ := h.getElem? hmh
  obtain ⟨hlt, -⟩ := List.getElem?_eq_some_iff.mp hmh
  unfold Moves.commandQueueStep
  simp only []
  by_cases hreset : s.regs.count = 0 ∧ s.regs.needReset = true
  · rw [if_pos hreset]
    exact ⟨_, _, _, q, Or.inl rfl, rfl, h.moveFree.set_self hmh hq⟩
  · rw [if_neg hreset]
    obtain ⟨pool, mq, first, q₁, hpush, -, -, hown⟩ := h.exists_moveQueuePush hmh
    rw [hpush]
    simp only []
    split
    · exact ⟨_, ⟨_, mq⟩, _, _, Or.inl rfl, rfl, hown⟩
    · obtain ⟨pool', s', ret, free', q', hload, hown'⟩ := @stepperLoadNext_spec
        { w with
          stepMove := Function.update w.stepMove m
            { move with dir := s.regs.lastDir != s.regs.nextDir }
          pool := pool } [] free (queues.set oid (q₁ ++ [m])) oid (heads.set oid mq)
        ⟨{ s.regs with lastDir := s.regs.nextDir }, mq⟩ hown (List.getElem?_set_self hlt)
      rw [List.set_set, List.set_set] at hown'
      rw [hload]
      simp only []
      split
      · exact ⟨_, ⟨_, s'.mq⟩, _, _, Or.inr rfl, rfl, hown'⟩
      · exact ⟨_, ⟨_, s'.mq⟩, _, _, Or.inl rfl, rfl, hown'⟩

lemma Good.complete {cmd : Option Pending} {w' : World} {o' : Obj} {free' q' : List Nat}
    (h : Good w cmd free queues) (ho : w.objs[oid]? = some o) (hobjs : w'.objs = w.objs.set oid o')
    (hnew : Owned w'.pool (w.heads.set oid o'.mq) [] free' (queues.set oid q')) (hfed : o'.Fed q') :
    Inv ⟨w', none, .running⟩ :=
  ⟨free', _, h.update ho hobjs hnew hfed fun c hc => by cases hc⟩

lemma Good.object {α : Type} {f : α → Obj} {c : Pending} (h : Good w (some c) free queues)
    (hc : ∀ q o, c.Suits q o → ∃ a, o = f a) : ∃ a q, w.objs[c.oid]? = some (f a) ∧
      w.heads[c.oid]? = some (f a).mq ∧ queues[c.oid]? = some q ∧ c.Suits q (f a) := by
  obtain ⟨o, q, ho, hq, hsuits⟩ := h.suits c rfl
  obtain ⟨a, rfl⟩ := hc q o hsuits
  exact ⟨a, q, ho, heads_getElem? ho, hq, hsuits⟩

variable {m : Nat}

lemma Good.queueStep {move : StepperMove} (h : Good w (some (.queueStep oid m move)) free queues)
    (close : Bool) : ∃ s, proceed w close (.queueStep oid m move) = some s ∧ Inv s := by
  obtain ⟨s, q, ho, hmh, -, -⟩ := h.object (f := .stepper) fun q o hs => by
    cases o <;> first | exact ⟨_, rfl⟩ | exact hs.elim
  obtain ⟨w', s', free', q', hres, hobjs, hown⟩ :=
    @commandQueueStep_spec w free queues oid w.heads s m move h.owned hmh close
  rw [Moves.proceed, show w.objs[oid]? = _ from ho]
  refine ⟨_, rfl, ?_⟩
  rcases hres with hres | hres
  · rw [hres]
    exact h.complete ho (congrArg (List.set · oid _) hobjs) hown trivial
  · rw [hres]
    exact inv_shutdown hown.freeList_eq_none

lemma Good.queueDigitalOut (h : Good w (some (.queueDigitalOut oid m)) free queues) (close : Bool) :
    ∃ s, proceed w close (.queueDigitalOut oid m) = some s ∧ Inv s := by
  obtain ⟨d, q, ho, hmh, -, -⟩ := h.object (f := .digitalOut) fun q o hs => by
    cases o <;> first | exact ⟨_, rfl⟩ | exact hs.elim
  obtain ⟨pool, mq, first, q₁, hpush, -, -, hown⟩ := h.owned.exists_moveQueuePush hmh
  rw [Moves.proceed, show w.objs[oid]? = _ from ho]
  simp only [show moveQueuePush w.pool m d.mq = _ from hpush]
  refine ⟨_, rfl, ?_⟩
  cases commandQueueDigitalOut d.regs (w.digitalMove m) first close with
  | ok regs => exact h.complete ho rfl hown trivial
  | error regs => exact inv_shutdown hown.freeList_eq_none

lemma Good.queuePwmOut (h : Good w (some (.queuePwmOut oid m)) free queues) (close : Bool) :
    ∃ s, proceed w close (.queuePwmOut oid m) = some s ∧ Inv s := by
  obtain ⟨p, q, ho, hmh, -, -⟩ := h.object (f := .pwmOut) fun q o hs => by
    cases o <;> first | exact ⟨_, rfl⟩ | exact hs.elim
  obtain ⟨pool, mq, first, q₁, hpush, hq₁, hfirst, hown⟩ := h.owned.exists_moveQueuePush hmh
  have hfed : (Obj.pwmOut { p with mq := mq }).Fed (q₁ ++ [m]) := fun _ _ => by simp
  rw [Moves.proceed, show w.objs[oid]? = _ from ho]
  simp only [show moveQueuePush w.pool m p.mq = _ from hpush]
  refine ⟨_, rfl, ?_⟩
  cases first with
  | false => exact h.complete ho rfl hown hfed
  | true =>
    refine ⟨free, _, h.update ho rfl hown hfed fun c hc => ?_⟩
    cases hc
    refine Or.inl ⟨rfl, by simp, fun hsch => ?_⟩
    -- the queue was empty, so the timer can only be waiting for the end of the duration
    have hold := h.fed oid _ q₁ ho hq₁ hsch
    cases hf : p.regs.func with
    | event => exact absurd (hfirst.mp rfl) (hold hf)
    | endEvent => rfl

lemma Good.delPwmTimer (h : Good w (some (.delPwmTimer oid m)) free queues) (close : Bool) :
    ∃ s, proceed w close (.delPwmTimer oid m) = some s ∧ Inv s := by
  obtain ⟨p, q, ho, hmh, hq, hsuits⟩ := h.object (f := .pwmOut) fun q o hs => by
    cases o <;> first | exact ⟨_, rfl⟩ | exact hs.elim
  rw [Moves.proceed, show w.objs[oid]? = _ from ho]
  refine ⟨_, rfl, free, _, h.update ho rfl (h.owned.set_self hmh hq) ?_ fun c hc => ?_⟩
  · exact fun hsch => by cases hsch
  · cases hc
    exact Or.inl ⟨rfl, hsuits.1, rfl⟩

lemma Good.addPwmTimer (h : Good w (some (.addPwmTimer oid m)) free queues) (close : Bool) :
    ∃ s, proceed w close (.addPwmTimer oid m) = some s ∧ Inv s := by
  obtain ⟨p, q, ho, hmh, hq, hsuits⟩ := h.object (f := .pwmOut) fun q o hs => by
    cases o <;> first | exact ⟨_, rfl⟩ | exact hs.elim
  rw [Moves.proceed, show w.objs[oid]? = _ from ho]
  refine ⟨_, rfl, ?_⟩
  cases commandQueuePwmOut p.regs (w.pwmMove m) close with
  | ok regs => exact h.complete ho rfl (h.owned.set_self hmh hq) fun _ _ => hsuits.1
  | error regs => exact inv_shutdown h.owned.freeList_eq_none

lemma Good.proceed {c : Pending} (h : Good w (some c) free queues) (close : Bool) :
    ∃ s, proceed w close c = some s ∧ Inv s := by
  cases c with
  | queueStep => exact h.queueStep close
  | queueDigitalOut => exact h.queueDigitalOut close
  | queuePwmOut => exact h.queuePwmOut close
  | delPwmTimer => exact h.delPwmTimer close
  | addPwmTimer => exact h.addPwmTimer close

end Commands

/-- `stepper_shutdown` on one object. -/
def Obj.stepperShutdown : Obj → Obj
  | .stepper s => .stepper ⟨Motion.stepperStop s.regs, moveQueueClear s.mq⟩
  | o => o

section Shutdown

variable {w : World} {done : List Handler}

lemma stepperShutdown_eq (p : Pool) (objs : List Obj) :
    stepperShutdown p objs = some (p, objs.map Obj.stepperShutdown) := by
  induction objs with
  | nil => rfl
  | cons o objs ih =>
    cases o with
    | stepper s =>
      have hfree : freeQueue p.count p (moveQueueClear s.mq) = some (p, moveQueueClear s.mq) := by
        rw [freeQueue]
        rfl
      rw [stepperShutdown, stepperStop, hfree, Option.map_some, Option.bind_some]
      dsimp only
      rw [ih]
      rfl
    | digitalOut d =>
      rw [stepperShutdown, ih]
      · rfl
      · simp
    | pwmOut p =>
      rw [stepperShutdown, ih]
      · rfl
      · simp

lemma Down.mapObjs (h : Down w done) {f : Obj → Obj} {hd : Handler} (hne : hd ≠ .moveReset)
    (hkind : ∀ o, (f o).kind = o.kind) (hsched : ∀ o, o.scheduled = false → (f o).scheduled = false)
    (hkeep : ∀ o, moveQueueEmpty o.mq = true → moveQueueEmpty (f o).mq = true)
    (hclear : ∀ o, o.kind.handler = hd → moveQueueEmpty (f o).mq = true) :
    Down { w with objs := w.objs.map f } (done ++ [hd]) := by
  refine ⟨h.empty, ?_, ?_, ?_⟩
  · intro o ho
    obtain ⟨o', ho', rfl⟩ := List.mem_map.mp ho
    exact hsched o' (h.unscheduled o' ho')
  · intro hmem
    rcases List.mem_append.mp hmem with hold | hnew
    · exact h.allFree hold
    · exact absurd (List.mem_singleton.mp hnew).symm hne
  · intro o ho hmem
    obtain ⟨o', ho', rfl⟩ := List.mem_map.mp ho
    rw [hkind] at hmem
    rcases List.mem_append.mp hmem with hold | hnew
    · exact hkeep o' (h.cleared o' ho' hold)
    · exact hclear o' (List.mem_singleton.mp hnew)

lemma Down.runHandler (h : Down w done) (hd : Handler) :
    ∃ w', runHandler w hd = some w' ∧ Down w' (done ++ [hd]) := by
  cases hd with
  | moveReset =>
    refine ⟨_, rfl, ?_, h.unscheduled, fun _ => allFree_moveReset w.pool h.empty, ?_⟩
    · change (moveReset w.pool).count = 0 → (moveReset w.pool).freeList = none
      unfold moveReset
      split
      · exact h.empty
      · rename_i hne
        exact fun hz => absurd hz hne
    · intro o ho hmem
      rcases List.mem_append.mp hmem with hold | hnew
      · exact h.cleared o ho hold
      · cases hk : o.kind <;> rw [hk] at hnew <;> cases List.mem_singleton.mp hnew
  | stepperShutdown =>
    rw [Moves.runHandler, stepperShutdown_eq]
    refine ⟨_, rfl, h.mapObjs (by decide) ?_ ?_ ?_ ?_⟩ <;> intro o <;> cases o <;>
      simp [Obj.stepperShutdown, Obj.kind, Obj.mq, Obj.scheduled, Kind.handler, moveQueueEmpty,
        moveQueueClear, Motion.stepperStop]
  | digitalOutShutdown =>
    refine ⟨_, rfl, h.mapObjs (by decide) ?_ ?_ ?_ ?_⟩ <;> intro o <;> cases o <;>
      simp [Obj.digitalOutShutdown, Obj.kind, Obj.mq, Obj.scheduled, Kind.handler, moveQueueEmpty,
        moveQueueClear, Gpio.digitalOutShutdown]
  | pwmShutdown =>
    refine ⟨_, rfl, h.mapObjs (by decide) ?_ ?_ ?_ ?_⟩ <;> intro o <;> cases o <;>
      simp [Obj.pwmShutdown, Obj.kind, Obj.mq, Obj.scheduled, Kind.handler, moveQueueEmpty,
        moveQueueClear, Pwm.pwmShutdown]

lemma good_of_allFree (hfree : AllFree w.pool)
    (hempty : ∀ o ∈ w.objs, moveQueueEmpty o.mq = true)
    (hsched : ∀ o ∈ w.objs, o.scheduled = false) : ∃ free queues, Good w none free queues := by
  obtain ⟨free, hseg, hperm⟩ := hfree
  refine ⟨free, w.objs.map fun _ => [], ⟨hseg, ?_, ?_, ?_⟩, ?_, fun c hc => by cases hc⟩
  · simp [World.heads]
  · intro i mh q hmh hq
    obtain ⟨o, ho, rfl⟩ := List.mem_map.mp (List.mem_of_getElem? hmh)
    obtain ⟨o', -, rfl⟩ := List.mem_map.mp (List.mem_of_getElem? hq)
    refine ⟨?_, fun hne => absurd rfl hne⟩
    exact Option.isNone_iff_eq_none.mp (hempty o ho)
  · have hflat : (w.objs.map fun _ => ([] : List Nat)).flatten = [] := by
      rw [List.flatten_eq_nil_iff]
      intro l hl
      obtain ⟨-, -, rfl⟩ := List.mem_map.mp hl
      rfl
    rw [hflat, List.append_nil]
    exact hperm
  · intro oid o q ho _
    have hoff := hsched o (List.mem_of_getElem? ho)
    cases o with
    | pwmOut p => exact fun hon => by rw [show p.regs.scheduled = false from hoff] at hon; cases hon
    | stepper s => trivial
    | digitalOut d => trivial

end Shutdown

/-- After `finalize_config`: all nodes are free and no configured object is in use. -/
structure Configured (s : State) : Prop where
  running : s.status = .running
  cmd : s.cmd = none
  pool : ∃ p, s.world.pool = moveReset p ∧ (p.count = 0 → p.freeList = none)
  mq : ∀ o ∈ s.world.objs, o.mq = ⟨none, none⟩
  unscheduled : ∀ o ∈ s.world.objs, o.scheduled = false

/-- Every action may happen at every point of a run. -/
def Legal (_ : State) (_ : Action) : Prop := True

instance (s : State) (a : Action) : Decidable (Legal s a) := isTrue trivial

section Runs

variable {s s' : State}

lemma Configured.inv (h : Configured s) : Inv s := by
  obtain ⟨p, hp, hz⟩ := h.pool
  unfold Inv
  rw [h.running, h.cmd]
  refine good_of_allFree ?_ ?_ h.unscheduled
  · rw [hp]
    exact allFree_moveReset p hz
  · intro o ho
    rw [h.mq o ho]
    rfl

lemma Inv.running (h : Inv s) (hs : s.status = .running) :
    ∃ free queues, Good s.world s.cmd free queues := by
  unfold Inv at h
  rwa [hs] at h

lemma Inv.down {done : List Handler} (h : Inv s) (hs : s.status = .down done) :
    s.cmd = none ∧ Down s.world done := by
  unfold Inv at h
  rwa [hs] at h

lemma Inv.stopped (h : Inv s) (hs : s.status = .stopped) :
    s.cmd = none ∧
      Down s.world [.moveReset, .stepperShutdown, .digitalOutShutdown, .pwmShutdown] := by
  unfold Inv at h
  rwa [hs] at h

lemma Down.all_empty {w : World}
    (h : Down w [.moveReset, .stepperShutdown, .digitalOutShutdown, .pwmShutdown]) :
    ∀ o ∈ w.objs, moveQueueEmpty o.mq = true := by
  intro o ho
  apply h.cleared o ho
  cases o.kind <;> simp [Kind.handler]

lemma Inv.command {oid : Nat} {c : Command} (h : Inv s)
    (hs : step s (.command oid c) = some s') : Inv s' := by
  rw [Moves.step] at hs
  split at hs
  · rename_i hrun hcmd
    obtain ⟨free, queues, hgood⟩ := h.running hrun
    rw [hcmd] at hgood
    split at hs
    · obtain rfl := Option.some.inj hs
      exact inv_shutdown hgood.owned.freeList_eq_none
    · rename_i o ho
      obtain rfl := Option.some.inj hs
      exact hgood.startCommand ho c
  · cases hs

lemma Inv.proceed {close : Bool} (h : Inv s) (hs : step s (.proceed close) = some s') : Inv s' := by
  rw [Moves.step] at hs
  split at hs
  · rename_i hrun
    obtain ⟨free, queues, hgood⟩ := h.running hrun
    obtain ⟨c, hc, hp⟩ := Option.bind_eq_some_iff.mp hs
    rw [hc] at hgood
    obtain ⟨t, ht, hinv⟩ := hgood.proceed close
    obtain rfl := Option.some.inj (hp.symm.trans ht)
    exact hinv
  · cases hs

lemma Inv.event {oid : Nat} {curtime : UInt32} (h : Inv s)
    (hs : step s (.event oid curtime) = some s') : Inv s' := by
  rw [Moves.step] at hs
  split at hs
  · rename_i o hrun ho
    obtain ⟨free, queues, hgood⟩ := h.running hrun
    split at hs
    · rename_i hsched
      obtain rfl := Option.some.inj hs
      exact hgood.timerEvent ho hsched curtime
    · cases hs
  · cases hs

lemma Inv.stop {oid : Nat} (h : Inv s) (hs : step s (.stop oid) = some s') : Inv s' := by
  rw [Moves.step] at hs
  split at hs
  · rename_i st hrun ho
    obtain ⟨free, queues, hgood⟩ := h.running hrun
    obtain ⟨pool, st', free', queues', hstop, hgood'⟩ := hgood.stop ho
    rw [hstop] at hs
    obtain rfl := Option.some.inj hs
    unfold Inv
    simp only [hrun]
    exact ⟨free', queues', hgood'⟩
  · cases hs

lemma Inv.shutdown (h : Inv s) (hs : step s .shutdown = some s') : Inv s' := by
  rw [Moves.step] at hs
  split at hs
  · rename_i hrun
    obtain ⟨free, queues, hgood⟩ := h.running hrun
    obtain rfl := Option.some.inj hs
    exact inv_shutdown hgood.owned.freeList_eq_none
  · rename_i hstop
    obtain rfl := Option.some.inj hs
    exact inv_shutdown (h.stopped hstop).2.empty
  · cases hs

lemma Inv.handler {hd : Handler} (h : Inv s) (hs : step s (.handler hd) = some s') : Inv s' := by
  rw [Moves.step] at hs
  split at hs
  · rename_i done hdown
    obtain ⟨hcmd, hd'⟩ := h.down hdown
    obtain ⟨w', hw', hnew⟩ := hd'.runHandler hd
    split at hs
    · cases hs
    · rw [hw'] at hs
      obtain rfl := Option.some.inj hs
      exact ⟨hcmd, hnew⟩
  · cases hs

lemma Inv.finish (h : Inv s) (hs : step s .finish = some s') : Inv s' := by
  rw [Moves.step] at hs
  split at hs
  · rename_i done hdown
    obtain ⟨hcmd, hd'⟩ := h.down hdown
    split at hs
    · rename_i hall
      obtain rfl := Option.some.inj hs
      refine ⟨hcmd, hd'.empty, hd'.unscheduled, fun _ => hd'.allFree hall.1, fun o ho _ => ?_⟩
      apply hd'.cleared o ho
      cases o.kind
      · exact hall.2.1
      · exact hall.2.2.1
      · exact hall.2.2.2
    · cases hs
  · cases hs

lemma Inv.clearShutdown (h : Inv s) (hs : step s .clearShutdown = some s') : Inv s' := by
  rw [Moves.step] at hs
  split at hs
  · rename_i hstop
    obtain ⟨hcmd, hd'⟩ := h.stopped hstop
    obtain rfl := Option.some.inj hs
    unfold Inv
    simp only [hcmd]
    exact good_of_allFree (hd'.allFree (by simp)) hd'.all_empty hd'.unscheduled
  · cases hs

lemma Inv.step {a : Action} (h : Inv s) (hs : step s a = some s') : Inv s' := by
  cases a with
  | command => exact h.command hs
  | proceed => exact h.proceed hs
  | event => exact h.event hs
  | stop => exact h.stop hs
  | shutdown => exact h.shutdown hs
  | handler => exact h.handler hs
  | finish => exact h.finish hs
  | clearShutdown => exact h.clearShutdown hs

end Runs

/-- While the firmware runs, the free list, the queues and the node of a command in progress
partition the pool. Once the shutdown functions have run, in whatever order, every node is on the
free list and every queue is empty. No call follows a null pointer or fails to return. -/
theorem nodes_of_run {s₀ s : State} {actions : List Action} (h₀ : Configured s₀)
    (h : Run step Legal s₀ actions s) :
    s.status ≠ .fault ∧
      (s.status = .running → Partition s.world.pool s.world.heads (heldBy s.cmd)) ∧
      (s.status = .stopped → AllFree s.world.pool ∧
        ∀ o ∈ s.world.objs, moveQueueEmpty o.mq = true) := by
  have hi : Inv s := h.invariant h₀.inv fun _ _ _ hi _ hs => hi.step hs
  refine ⟨fun hf => ?_, fun hr => ?_, fun hs => ?_⟩
  · unfold Inv at hi
    rwa [hf] at hi
  · obtain ⟨free, queues, hgood⟩ := hi.running hr
    exact ⟨free, queues, hgood.owned⟩
  · obtain ⟨-, hd⟩ := hi.stopped hs
    exact ⟨hd.allFree (by simp), hd.all_empty⟩

/-- A stepper, a digital output and a pwm output with a pool of four nodes. -/
def threeObjects : State :=
  { world :=
      { pool := moveReset ⟨4, fun _ => none, none⟩
        stepMove := fun _ => ⟨0, 0, 1, false, by decide⟩
        digitalMove := fun _ => default
        pwmMove := fun _ => default
        objs :=
          [.stepper ⟨⟨0, false, 0, 0, 0, 0, 0, false, false, positionBias, [], false, false, false,
              false, true⟩, ⟨none, none⟩⟩,
            .digitalOut ⟨⟨0, .load, false, 0, 0, 0, false, 0, 0, false, false, false, false⟩,
              ⟨none, none⟩⟩,
            .pwmOut ⟨⟨0, .event, false, 0, 0, 0⟩, ⟨none, none⟩⟩] }
    cmd := none
    status := .running }

lemma configured_threeObjects : Configured threeObjects := by
  refine ⟨rfl, rfl, ⟨⟨4, fun _ => none, none⟩, rfl, fun _ => rfl⟩, ?_, ?_⟩ <;>
    simp [threeObjects, Obj.mq, Obj.scheduled]

/-- Two moves of the stepper and an update of each output, with the second update of the pwm output
interrupted after it has allocated its node. -/
def updates : List Action :=
  [.command 0 (.queueStep 100 2 0), .proceed false, .command 0 (.queueStep 90 1 0), .proceed false,
    .command 1 (.queueDigitalOut 500 7), .proceed false, .command 2 (.queuePwmOut 600 9),
    .proceed false, .proceed false, .proceed false, .event 0 100, .command 2 (.queuePwmOut 700 0)]

theorem nodes_of_run_threeObjects :
    (∃ s, Run step Legal threeObjects updates s ∧ heldBy s.cmd = [3] ∧
      s.world.heads.map Head.first = [some 0, some 1, some 2] ∧
      Partition s.world.pool s.world.heads [3]) ∧
    ∃ s, Run step Legal threeObjects
        (updates ++ [.shutdown, .handler .pwmShutdown, .handler .stepperShutdown,
          .handler .moveReset, .handler .digitalOutShutdown, .finish]) s ∧
      AllFree s.world.pool ∧ ∀ o ∈ s.world.objs, moveQueueEmpty o.mq = true := by
  constructor
  · obtain ⟨s, hs, hp⟩ : ∃ s, Run step Legal threeObjects updates s ∧
        (s.status matches .running && decide (heldBy s.cmd = [3] ∧
          s.world.heads.map Head.first = [some 0, some 1, some 2])) = true :=
      Run.exists_of_exec updates _ (by decide +kernel)
    obtain ⟨hrun, hrest⟩ := Bool.and_eq_true_iff.mp hp
    obtain ⟨hheld, hfirst⟩ := of_decide_eq_true hrest
    have hstatus : s.status = .running := by
      split at hrun
      · assumption
      · cases hrun
    refine ⟨s, hs, hheld, hfirst, ?_⟩
    have hpart := (nodes_of_run configured_threeObjects hs).2.1 hstatus
    rwa [hheld] at hpart
  · obtain ⟨s, hs, hp⟩ : ∃ s, Run step Legal threeObjects _ s ∧
        (s.status matches .stopped) = true :=
      Run.exists_of_exec (updates ++ [.shutdown, .handler .pwmShutdown, .handler .stepperShutdown,
        .handler .moveReset, .handler .digitalOutShutdown, .finish]) _ (by decide +kernel)
    have hstatus : s.status = .stopped := by
      split at hp
      · assumption
      · cases hp
    exact ⟨s, hs, (nodes_of_run configured_threeObjects hs).2.2 hstatus⟩

end KlipperMcu.Moves
