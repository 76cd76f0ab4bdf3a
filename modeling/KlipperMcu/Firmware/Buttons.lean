import KlipperMcu.Lib.Buffer

/-!
# Buttons

One object of buttons.c. The timer queues a report when a pin has changed for good. `buttons_task`
sends the reports that are queued, and a report stays queued until the host acknowledges it.
-/

namespace KlipperMcu.Input

open Lib

def bfNoRetransmit : UInt8 := 0x80

def bfPending : UInt8 := 0xff

def bfAcked : UInt8 := 0xfe

def reportsSize : Nat := 8

structure Buttons where
  waketime : UInt32
  restTicks : UInt32
  pressed : UInt8
  lastPressed : UInt8
  reportCount : Nat
  reports : Nat → UInt8
  ackCount : UInt8
  retransmitState : UInt8
  retransmitCount : UInt8

/-- `command_buttons_query` of an object. It shuts down for a retransmit count that is too large. -/
def commandButtonsQuery (b : Buttons) (clock restTicks : UInt32) (retransmitCount invert : UInt8) :
    Option Buttons :=
  if retransmitCount ≥ bfNoRetransmit then none
  else
    some { b with
      waketime := clock
      restTicks := restTicks
      pressed := invert
      lastPressed := invert
      ackCount := 0
      reportCount := 0
      retransmitState := bfAcked
      retransmitCount := retransmitCount }

/-- The status bits of the levels of the pins. -/
def readPins (levels : List Bool) : UInt8 :=
  let (status, _) := levels.foldl (fun (status, bit) level =>
    (if level then status ||| bit else status, bit <<< 1)) ((0, 1) : UInt8 × UInt8)
  status

/-- What the timer has done: the object, whether it wakes the task, and the report it has queued. -/
structure Timed where
  b : Buttons
  wake : Bool
  report : Option UInt8

/-- The debouncing of `buttons_event`. -/
def debounce (b : Buttons) (status : UInt8) : Timed :=
  let diff := status ^^^ b.pressed
  let debounced := ~~~(status ^^^ b.lastPressed)
  if diff ≠ 0 ∧ diff &&& debounced ≠ 0 then
    let b := { b with pressed := (b.pressed &&& ~~~debounced) ||| (status &&& debounced) }
    if b.reportCount < reportsSize then
      ⟨{ b with
          reports := Function.update b.reports b.reportCount b.pressed
          reportCount := b.reportCount + 1
          retransmitState := bfPending },
        true, some b.pressed⟩
    else ⟨b, false, none⟩
  else ⟨b, false, none⟩

/-- The timeout of `buttons_event`. -/
def checkRetransmit (b : Buttons) : Buttons × Bool :=
  if b.retransmitState &&& bfNoRetransmit = 0 then
    let retransmitState := b.retransmitState - 1
    ({ b with retransmitState := retransmitState }, retransmitState &&& bfNoRetransmit ≠ 0)
  else (b, false)

def buttonsEvent (b : Buttons) (levels : List Bool) : Timed :=
  let status := readPins levels
  let t := debounce b status
  let (b, timeout) := checkRetransmit { t.b with lastPressed := status }
  ⟨{ b with waketime := b.waketime + b.restTicks }, t.wake || timeout, t.report⟩

/-- The loop of `command_buttons_ack` that moves the reports that are left. -/
def shiftReports (reports : Nat → UInt8) (count pending : Nat) : Nat → UInt8 :=
  (List.range pending).foldl (fun r i => Function.update r i (r (i + count))) reports

/-- The part of `command_buttons_ack` with interrupts disabled. -/
def ackReports (b : Buttons) (count : UInt8) : Buttons :=
  if count.toNat ≥ b.reportCount then { b with reportCount := 0, retransmitState := bfAcked }
  else
    let pending := b.reportCount - count.toNat
    { b with reports := shiftReports b.reports count.toNat pending, reportCount := pending }

/-- The parameters of a `buttons_state` message. -/
structure ButtonsState where
  ackCount : UInt8
  state : List UInt8
deriving DecidableEq, Repr

/-- The main program: `buttons_task`, with the bytes of the message encoded so far, and
`command_buttons_ack`. -/
inductive Main where
  | idle
  | woken
  | test
  | pending
  | send (ackCount : UInt8) (count : Nat) (state : List UInt8)
  | ack (count : UInt8)
deriving DecidableEq, Repr

structure Mcu where
  b : Buttons
  wake : Bool
  main : Main

/-- The next step of the main program, and the message it sends. -/
def Mcu.run (c : Mcu) : Option (Mcu × Option ButtonsState) :=
  match c.main with
  | .idle => if c.wake then some ({ c with main := .woken }, none) else none
  | .woken => some ({ c with wake := false, main := .test }, none)
  | .test =>
    some ({ c with main := if c.b.retransmitState ≠ bfPending then .idle else .pending }, none)
  | .pending =>
    if c.b.reportCount = 0 then some ({ c with main := .idle }, none)
    else
      some ({ c with
        b := { c.b with retransmitState := c.b.retransmitCount }
        main := .send c.b.ackCount c.b.reportCount [] }, none)
  | .send ackCount count state =>
    if state.length < count then
      some ({ c with main := .send ackCount count (state ++ [c.b.reports state.length]) }, none)
    else some ({ c with main := .idle }, some ⟨ackCount, state⟩)
  | .ack count => some ({ c with b := ackReports c.b count, main := .idle }, none)

/-- The start of `command_buttons_ack`. -/
def Mcu.startAck (c : Mcu) (count : UInt8) : Option Mcu :=
  if c.main = .idle then
    some { c with b := { c.b with ackCount := c.b.ackCount + count }, main := .ack count }
  else none

def Mcu.timer (c : Mcu) (levels : List Bool) : Mcu :=
  let t := buttonsEvent c.b levels
  { c with b := t.b, wake := c.wake || t.wake }

section Reports

variable {b : Buttons}

/-- The reports that are queued. -/
def Buttons.queue (b : Buttons) : List UInt8 := Buffer.slice b.reports 0 b.reportCount

lemma checkRetransmit_eq (b : Buttons) :
    (checkRetransmit b).1 = { b with retransmitState := (checkRetransmit b).1.retransmitState } := by
  unfold checkRetransmit
  split <;> rfl

lemma buttonsEvent_eq (b : Buttons) (levels : List Bool) :
    (buttonsEvent b levels).b.ackCount = b.ackCount ∧
      ((buttonsEvent b levels).report = none ∧
          (buttonsEvent b levels).b.reportCount = b.reportCount ∧
          (buttonsEvent b levels).b.reports = b.reports ∨
        ∃ r, (buttonsEvent b levels).report = some r ∧ b.reportCount < reportsSize ∧
          (buttonsEvent b levels).b.reportCount = b.reportCount + 1 ∧
          (buttonsEvent b levels).b.reports = Function.update b.reports b.reportCount r) := by
  unfold buttonsEvent
  dsimp only
  rw [checkRetransmit_eq]
  dsimp only
  unfold debounce
  dsimp only
  split
  · split
    · rename_i hroom
      exact ⟨rfl, Or.inr ⟨_, rfl, hroom, rfl, rfl⟩⟩
    · exact ⟨rfl, Or.inl ⟨rfl, rfl, rfl⟩⟩
  · exact ⟨rfl, Or.inl ⟨rfl, rfl, rfl⟩⟩

lemma queue_snoc {b' : Buttons} {r : UInt8} (hcount : b'.reportCount = b.reportCount + 1)
    (hreports : b'.reports = Function.update b.reports b.reportCount r) :
    b'.queue = b.queue ++ [r] := by
  unfold Buttons.queue
  rw [hcount, hreports, Buffer.slice_add, Buffer.slice_update_of_le (by omega), Buffer.slice_succ,
    Nat.zero_add, Function.update_self]
  rfl

lemma shiftReports_apply (reports : Nat → UInt8) (count pending i : Nat) :
    shiftReports reports count pending i = if i < pending then reports (i + count) else reports i := by
  induction pending generalizing i with
  | zero => rfl
  | succ pending ih =>
    have hsucc : shiftReports reports count (pending + 1) =
        Function.update (shiftReports reports count pending) pending
          (shiftReports reports count pending (pending + count)) := by
      unfold shiftReports
      rw [List.range_succ, List.foldl_append]
      rfl
    rw [hsucc, ih, if_neg (by omega)]
    rcases Nat.lt_trichotomy i pending with hlt | rfl | hgt
    · rw [Function.update_of_ne (Nat.ne_of_lt hlt), ih, if_pos hlt, if_pos (by omega)]
    · rw [Function.update_self, if_pos (Nat.lt_succ_self i)]
    · rw [Function.update_of_ne (Nat.ne_of_gt hgt), ih, if_neg (by omega), if_neg (by omega)]

lemma queue_ackReports (b : Buttons) (count : UInt8) :
    (ackReports b count).queue = b.queue.drop count.toNat := by
  unfold ackReports Buttons.queue
  split
  · rename_i hall
    rw [List.drop_of_length_le (by rw [Buffer.length_slice]; exact hall)]
    rfl
  · rename_i hsome
    have hsum : count.toNat + (b.reportCount - count.toNat) = b.reportCount := by omega
    have hmoved : Buffer.slice (shiftReports b.reports count.toNat (b.reportCount - count.toNat)) 0
        (b.reportCount - count.toNat) =
        Buffer.slice b.reports count.toNat (b.reportCount - count.toNat) := by
      apply List.map_congr_left
      intro i hi
      rw [shiftReports_apply, if_pos (by simpa using hi), Nat.zero_add, Nat.add_comm]
    dsimp only
    rw [hmoved, ← hsum, Buffer.slice_add, Nat.add_sub_cancel_left, Nat.zero_add,
      List.drop_left' (Buffer.length_slice _ _ _)]

lemma ackCount_ackReports (b : Buttons) (count : UInt8) :
    (ackReports b count).ackCount = b.ackCount := by
  unfold ackReports
  split <;> rfl

end Reports

end KlipperMcu.Input
