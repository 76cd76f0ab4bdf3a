import KlipperMcu.Lib.Chain
import KlipperMcu.Lib.WrapOrder

/-!
# The timer list of sched.c

The memory holds the `next` and `waketime` fields of every `struct timer` and the static
variables of sched.c. A call that leaves by `longjmp` returns the memory it leaves behind, and
a null pointer access is a fault.
-/

namespace KlipperMcu.Sched

open Lib

/-- The `struct timer` objects of the image: the three of sched.c, the eddy sampling timer,
and those embedded in configured objects. -/
inductive TimerId where
  | periodic
  | sentinel
  | deleted
  | ffEddy
  | user (n : Nat)
deriving DecidableEq, Repr

/-- The timers that `sched_add_timer` and `sched_del_timer` can be called with. The three timers
of sched.c are static to that file. -/
def TimerId.IsCaller : TimerId → Prop
  | .ffEddy => True
  | .user _ => True
  | _ => False

instance (t : TimerId) : Decidable t.IsCaller := by
  cases t <;> unfold TimerId.IsCaller <;> infer_instance

inductive TasksStatus where
  | idle
  | requested
  | running
deriving DecidableEq, Repr

/-- The shutdown requests of the scheduler, and those made by other code. -/
inductive Reason where
  | sentinelTimerCalled
  | timerTooClose
  | rescheduledTimerInThePast
  | shutdownClearedWhenNotShutdown
  | callback (id : UInt8)
deriving DecidableEq, Repr

structure Mem where
  users : Nat
  next : TimerId → Option TimerId
  waketime : TimerId → UInt32
  timerList : TimerId
  lastInsert : TimerId
  tasksStatus : TasksStatus
  shutdownStatus : UInt8
  shutdownReason : Option Reason
  ffTimerClose : UInt8
  ffCloseNum : UInt32
  ffTempWaketime : UInt32
  kicked : Bool

/-- All timers of an image whose configured objects hold `users` timers. -/
def Mem.timers (m : Mem) : List TimerId :=
  [.periodic, .sentinel, .deleted, .ffEddy] ++ (List.range m.users).map .user

inductive Exit where
  | fault
  | shutdown (m : Mem) (reason : Reason)

inductive SchedResult where
  | done
  | reschedule
deriving DecidableEq, Repr

abbrev timerIsBefore (time1 time2 : UInt32) : Bool := wrapBefore time1 time2

/-- Ticks per microsecond of the 128 MHz board. -/
def timerFromUs (us : UInt32) : UInt32 := us * 128

def timerKick (m : Mem) : Mem := { m with kicked := true }

/-- The loop of `insert_timer`, from `prev` on. -/
def insertSearch (m : Mem) (waketime : UInt32) : Nat → TimerId → Option (TimerId × TimerId)
  | 0, _ => none
  | fuel + 1, prev =>
    match m.next prev with
    | none => none
    | some pos =>
      if timerIsBefore waketime (m.waketime pos) then some (prev, pos)
      else insertSearch m waketime fuel pos

def insertTimer (m : Mem) (pos t : TimerId) (waketime : UInt32) : Except Exit Mem :=
  match insertSearch m waketime m.timers.length pos with
  | none => .error .fault
  | some (prev, pos) =>
    .ok { m with next := Function.update (Function.update m.next t (some pos)) prev (some t) }

/-- The search loop of `sched_del_timer`, from `pos` on. -/
def delSearch (m : Mem) (del : TimerId) : Nat → TimerId → Except Exit Mem
  | 0, _ => .error .fault
  | fuel + 1, pos =>
    match m.next pos with
    | none => .ok m
    | some p =>
      if p = del then .ok { m with next := Function.update m.next pos (m.next del) }
      else delSearch m del fuel p

/-- `sched_del_timer` before it looks at `last_insert`. -/
def unlinkTimer (m : Mem) (del : TimerId) : Except Exit Mem :=
  if m.timerList = del then
    .ok { m with
      waketime := Function.update m.waketime .deleted (m.waketime del)
      next := Function.update m.next .deleted (m.next del)
      timerList := .deleted }
  else delSearch m del m.timers.length m.timerList

def schedDelTimer (m : Mem) (del : TimerId) : Except Exit Mem :=
  match unlinkTimer m del with
  | .error e => .error e
  | .ok m => .ok { m with lastInsert := if m.lastInsert = del then .periodic else m.lastInsert }

/-- The record of a late request that `ff_report_close` sends. -/
def noteLate (m : Mem) (waketime cur : UInt32) (tag : UInt8) : Mem :=
  { m with ffTempWaketime := waketime, ffCloseNum := cur, ffTimerClose := tag }

/-- Links `add` in front of the list, behind `deleted_timer`, and kicks the hardware timer. -/
def linkAtHead (m : Mem) (add : TimerId) (waketime : UInt32) : Mem :=
  timerKick { m with
    next := Function.update (Function.update m.next add
      (if m.timerList = .deleted then m.next .deleted else some m.timerList)) .deleted (some add)
    waketime := Function.update m.waketime .deleted waketime
    timerList := .deleted }

/-- `sched_add_timer` at time `cur`. -/
def schedAddTimer (m : Mem) (cur : UInt32) (add : TimerId) (tag : UInt8) : Except Exit Mem :=
  let waketime := m.waketime add
  if timerIsBefore waketime (m.waketime m.timerList) then
    if timerIsBefore waketime cur then
      if m.shutdownStatus = 0 then .error (.shutdown (noteLate m waketime cur tag) .timerTooClose)
      else .ok (linkAtHead (noteLate m waketime cur tag) add waketime)
    else .ok (linkAtHead m add waketime)
  else insertTimer m m.timerList add waketime

/-- What the callback of a configured object's timer does: the timers it deletes, whether it
shuts down, the waketime it leaves in its own timer and its return value. -/
structure Callback where
  dels : List TimerId
  shutdown : Option UInt8
  waketime : UInt32
  result : SchedResult
deriving Repr

/-- A sequence of `sched_del_timer` calls. -/
def delTimers (m : Mem) : List TimerId → Except Exit Mem
  | [] => .ok m
  | del :: dels =>
    match schedDelTimer m del with
    | .error e => .error e
    | .ok m => delTimers m dels

def userEvent (m : Mem) (t : TimerId) (cb : Callback) : Except Exit (Mem × SchedResult) :=
  match delTimers m cb.dels with
  | .error e => .error e
  | .ok m =>
    match cb.shutdown with
    | some id => .error (.shutdown m (.callback id))
    | none => .ok ({ m with waketime := Function.update m.waketime t cb.waketime }, cb.result)

def periodicEvent (m : Mem) : Mem × SchedResult :=
  let waketime := m.waketime .periodic + timerFromUs 100000
  ({ m with
    tasksStatus := .requested
    waketime := Function.update (Function.update m.waketime .periodic waketime) .sentinel
      (waketime + 0x80000000) }, .reschedule)

def ffEddyTimerEvent (m : Mem) : Mem × SchedResult :=
  ({ m with
    waketime := Function.update m.waketime .ffEddy (m.waketime .ffEddy + timerFromUs 500) },
    .reschedule)

/-- `t->func(t)`. -/
def timerFunc (m : Mem) (t : TimerId) (cb : Callback) : Except Exit (Mem × SchedResult) :=
  match t with
  | .periodic => .ok (periodicEvent m)
  | .sentinel => .error (.shutdown m .sentinelTimerCalled)
  | .deleted => .ok (m, .done)
  | .ffEddy => .ok (ffEddyTimerEvent m)
  | .user n => userEvent m (.user n) cb

/-- Where the search for a rescheduled timer's place starts, `n` being the new head. -/
def insertStart (m : Mem) (n : TimerId) (updatedWaketime : UInt32) : TimerId :=
  if timerIsBefore updatedWaketime (m.waketime m.lastInsert) then n else m.lastInsert

/-- The second half of `sched_timer_dispatch`, after the callback of `t` returned `res`. -/
def updateTimerList (m : Mem) (t : TimerId) (res : SchedResult) : Except Exit (Mem × UInt32) :=
  let updatedWaketime := m.waketime t
  match m.next t with
  | none => .error .fault
  | some n =>
    match res with
    | .done =>
      .ok ({ m with
        timerList := n
        lastInsert := if m.lastInsert = t then n else m.lastInsert }, m.waketime n)
    | .reschedule =>
      if timerIsBefore updatedWaketime (m.waketime n) then .ok (m, updatedWaketime)
      else
        let pos := insertStart m n updatedWaketime
        match insertTimer { m with timerList := n } pos t updatedWaketime with
        | .error e => .error e
        | .ok m' => .ok ({ m' with lastInsert := t }, m.waketime n)

def schedTimerDispatch (m : Mem) (cb : Callback) : Except Exit (Mem × UInt32) :=
  match timerFunc m m.timerList cb with
  | .error e => .error e
  | .ok (m', res) => updateTimerList m' m.timerList res

def schedTimerReset (m : Mem) : Mem :=
  timerKick { m with
    timerList := .deleted
    waketime := Function.update m.waketime .deleted (m.waketime .periodic)
    next := Function.update (Function.update m.next .deleted (some .periodic)) .periodic
      (some .sentinel)
    lastInsert := .periodic }

/-- `run_shutdown` up to the shutdown functions. -/
def runShutdown (m : Mem) (reason : Reason) : Mem :=
  schedTimerReset { m with
    shutdownReason := if m.shutdownStatus = 0 then some reason else m.shutdownReason
    shutdownStatus := 2 }

/-- `run_shutdown` after the shutdown functions. -/
def shutdownDone (m : Mem) : Mem := { m with shutdownStatus := 1 }

def schedClearShutdown (m : Mem) : Except Exit Mem :=
  if m.shutdownStatus = 0 then .error (.shutdown m .shutdownClearedWhenNotShutdown)
  else if m.shutdownStatus = 2 then .ok m
  else .ok { m with shutdownStatus := 0 }

/-- The static initialisers of sched.c. -/
def bootMem (users : Nat) : Mem where
  users := users
  next := Function.update (fun _ => none) .periodic (some .sentinel)
  waketime := Function.update (fun _ => 0) .sentinel 0x80000000
  timerList := .periodic
  lastInsert := .periodic
  tasksStatus := .requested
  shutdownStatus := 0
  shutdownReason := none
  ffTimerClose := 0
  ffCloseNum := 0
  ffTempWaketime := 0
  kicked := false

end KlipperMcu.Sched
