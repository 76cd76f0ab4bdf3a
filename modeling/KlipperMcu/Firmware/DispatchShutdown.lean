import KlipperMcu.Firmware.Console
import KlipperMcu.Firmware.Dispatch

/-!
# A shutdown while a block is dispatched

`sched_shutdown` makes a long jump to `sched_main`, which runs the shutdown handlers and starts the
tasks again. A block that was being dispatched is still in the receive buffer then. What remains of
the firmware is a state that the handlers of commands, the timers and the other tasks change.
-/

namespace KlipperMcu.LongJump

open Lib Wire Uart

/-- What happens to a block at offset `off` of the received stream. -/
inductive Event where
  | accept (off : Nat) (block : List UInt8)
  /-- The handler of the command at position `start` of the block is called. -/
  | call (off start : Nat)
  /-- The firmware is shut down while the block is dispatched. -/
  | halt (off : Nat) (block : List UInt8)
  /-- A pass of `console_task` looks at the bytes of the buffer. -/
  | pass (buf : List UInt8)
  | nak (seq : UInt8)
  | remove (off len : Nat)
deriving DecidableEq, Repr

/-- The firmware: the console, the rest of the state, `in_sendf`, whether a long jump was made and
`run_shutdown` has not run yet, and the position in the block in `command_dispatch`. -/
structure Machine (σ : Type) where
  console : Console
  state : σ
  inSendf : Bool
  halted : Bool
  p : Nat
  log : List Event

inductive Action (σ : Type) where
  | rx (data : UInt8)
  | task
  | reboot
  /-- Timers or other tasks change the state. -/
  | other (state : σ)
  /-- A timer shuts the firmware down, perhaps while a message is sent. -/
  | shutdown (state : σ) (inSendf : Bool)
  /-- A timer shuts the firmware down while the handler of the next command runs. -/
  | shutdownInCall (state : σ) (inSendf : Bool)
  | runShutdown
deriving DecidableEq, Repr

variable {σ φ : Type}

def Machine.note (m : Machine σ) (events : List Event) : Machine σ :=
  { m with log := m.log ++ events }

/-- `sched_shutdown`. -/
def schedShutdown (m : Machine σ) : Machine σ :=
  { m with
    halted := true
    console := { m.console with pc := .idle }
    log := m.log ++
      match m.console.pc with
      | .dispatch len => [.halt m.console.popped (m.console.bytes len)]
      | _ => [] }

/-- `command_sendf` of a nak. The request is dropped if the guard is set. -/
def commandSendf (m : Machine σ) : Machine σ :=
  if m.inSendf then m else m.note [.nak m.console.sync.nextSequence]

/-- `command_find_block` in a pass of `console_task`. -/
def findBlock (m : Machine σ) (rpos : Nat) : Option (Machine σ) :=
  let f := commandFindBlock m.console.sync (m.console.bytes rpos)
  (consoleTask m.console).map fun console =>
    let m' := { m with console := console, p := messageHeaderSize }.note
      [.pass (m.console.bytes rpos)]
    match f.ret with
    | .block => m'.note [.accept m.console.popped (m.console.bytes f.popCount)]
    | _ => if f.nak then commandSendf m' else m'

section Step

variable (env : Env σ φ) (index : List (CommandParser φ)) (base : UInt32) (runShutdown : σ → σ)

/-- The round of the loop of `command_dispatch` at the position `m.p` of a block of `len` bytes. -/
def Machine.round (m : Machine σ) (len : Nat) : Round σ φ :=
  dispatchRound env index base (m.console.bytes len) (len - messageTrailerSize) m.p m.state

/-- The calls of a round. -/
def callEvents (off : Nat) (r : Round σ φ) : List Event := r.calls.map fun c => .call off c.start

/-- A round of `command_dispatch`. An error in the block or in the handler is a shutdown. -/
def dispatchCommand (m : Machine σ) (len : Nat) : Machine σ :=
  let r := m.round env index base len
  let m' := { m with state := r.state }.note (callEvents m.console.popped r)
  match r.next with
  | .ok q => { m' with p := q }
  | .error _ => schedShutdown m'

/-- The next step of `console_task`. -/
def task (m : Machine σ) : Option (Machine σ) :=
  match m.console.pc with
  | .find rpos => findBlock m rpos
  | .dispatch len =>
    if m.p < len - messageTrailerSize then some (dispatchCommand env index base m len)
    else (consoleTask m.console).map fun console => { m with console := console }
  | .check _ len _ rpos =>
    (consoleTask m.console).map fun console =>
      { m with console := console }.note
        (if rpos = m.console.readPos then [.remove m.console.popped len] else [])
  | _ => (consoleTask m.console).map fun console => { m with console := console }

def step (m : Machine σ) : Action σ → Option (Machine σ)
  | .rx data =>
    if m.halted then none else some { m with console := serialRxByte m.console data }
  | .task => if m.halted then none else task env index base m
  | .reboot =>
    if m.halted then none
    else (Uart.step m.console .reboot).map fun console => { m with console := console }
  | .other state => some { m with state := state }
  | .shutdown state inSendf =>
    if m.halted then none
    else some (schedShutdown { m with state := state, inSendf := inSendf })
  | .shutdownInCall state inSendf =>
    match m.console.pc with
    | .dispatch len =>
      if m.p < len - messageTrailerSize then
        some (schedShutdown ({ m with state := state, inSendf := inSendf }.note
          (callEvents m.console.popped (m.round env index base len))))
      else none
    | _ => none
  | .runShutdown =>
    if m.halted then
      some { m with state := runShutdown m.state, inSendf := false, halted := false }
    else none

end Step

/-- At most 255 bytes are buffered, and no pass is shut down between its look at the buffer and the
end of `console_pop_input`. -/
def Legal (m : Machine σ) : Action σ → Prop
  | .rx _ => m.console.receivePos < 255
  | .shutdown _ _ =>
    match m.console.pc with
    | .skip _ => False
    | .pop _ _ _ => False
    | .move _ _ _ _ => False
    | .check _ _ _ _ => False
    | _ => True
  | _ => True

/-- The tasks run with `receivePos` bytes in the buffer. -/
def running (buf : Nat → UInt8) (receivePos : Nat) (sync : Sync) (state : σ) : Machine σ where
  console :=
    { start buf sync with
      receivePos := receivePos
      received := (List.range receivePos).map buf }
  state := state
  inSendf := false
  halted := false
  p := 0
  log := []

/-- The sequence number behind that of a block. -/
def nextSeq (block : List UInt8) : UInt8 := ((block.getD 1 0 + 1) &&& messageSeqMask) ||| messageDest

/-- What the console does with a block that it does not accept. -/
def answer (off : Nat) (block seen : List UInt8) : List Event :=
  [.pass seen, .nak (nextSeq block), .remove off block.length]

/-! ## A block that is in the way -/

/-- The next bytes are a block whose sequence number has been counted. -/
structure Pending (c : Console) (block : List UInt8) : Prop where
  next : block <+: c.received.drop c.popped
  valid : checkBlock block = .valid block.length
  needSync : c.sync.needSync = false
  nextSequence : c.sync.nextSequence = nextSeq block

lemma nextSeq_ne (block : List UInt8) : block.getD 1 0 ≠ nextSeq block := by
  have hall : ∀ b : UInt8, b ≠ ((b + 1) &&& messageSeqMask) ||| messageDest :=
    forall_byte (by decide +kernel)
  exact hall _

lemma commandFindBlock_of_counted {s : Sync} {block buf : List UInt8} (hbuf : block <+: buf)
    (hvalid : checkBlock block = .valid block.length) (hsync : s.needSync = false)
    (hseq : s.nextSequence = nextSeq block) :
    commandFindBlock s buf = ⟨.skip, block.length, true, { s with needValid := false }⟩ := by
  obtain ⟨rest, rfl⟩ := hbuf
  obtain ⟨hmin, -, -⟩ := length_of_checkBlock_valid hvalid
  have hlen : 1 < block.length := Nat.lt_of_lt_of_le (by decide) hmin
  have hcheck : checkBlock (block ++ rest) = .valid block.length := by
    rw [checkBlock_append (by rw [hvalid]; simp), hvalid]
  rw [commandFindBlock_eq_of_valid hsync hcheck, if_pos]
  rw [List.getD_append _ _ _ _ hlen, hseq]
  exact nextSeq_ne block

section Bytes

variable {c : Console} {block : List UInt8} {n : Nat}

lemma bytes_rx (hn : n ≤ c.receivePos) (hpos : c.receivePos < rxBufferSize) (data : UInt8) :
    (serialRxByte c data).bytes n = c.bytes n := by
  rw [serialRxByte_of_lt hpos]
  apply List.map_congr_left
  intro i hi
  apply Function.update_of_ne
  have := List.mem_range.mp hi
  omega

lemma Pending.rx (h : Pending c block) (hpos : c.receivePos < rxBufferSize) (data : UInt8) :
    Pending (serialRxByte c data) block := by
  rw [serialRxByte_of_lt hpos]
  refine ⟨?_, h.valid, h.needSync, h.nextSequence⟩
  apply h.next.trans
  rw [List.drop_append]
  exact List.prefix_append _ _

lemma Pending.length_le (h : Pending c block) (hst : Stored c) : block.length ≤ c.receivePos := by
  have hle := h.next.length_le
  rw [List.length_drop, hst.received] at hle
  omega

lemma Pending.length_pos (h : Pending c block) : 0 < block.length := by
  obtain ⟨hmin, -, -⟩ := length_of_checkBlock_valid h.valid
  exact Nat.lt_of_lt_of_le (by decide) hmin

lemma Pending.prefix_bytes (h : Pending c block) (hholds : c.HoldsFrom 0) (hn : n ≤ c.receivePos)
    (hlen : block.length ≤ n) : block <+: c.bytes n := by
  rw [hholds.bytes hn, List.prefix_take_iff]
  exact ⟨h.next, hlen⟩

lemma pending_of_block (hholds : c.HoldsFrom 0) (hn : n ≤ c.receivePos)
    (h : (commandFindBlock c.sync (c.bytes n)).ret = .block) (pc : Pc) :
    Pending { c with sync := (commandFindBlock c.sync (c.bytes n)).sync, pc := pc }
      (c.bytes (commandFindBlock c.sync (c.bytes n)).popCount) := by
  obtain ⟨hsync, hvalid, hseq, -, hnext⟩ := commandFindBlock_block h
  obtain ⟨hmin, -, hle⟩ := length_of_checkBlock_valid hvalid
  have hfind := commandFindBlock_eq_of_valid hsync hvalid
  rw [if_neg (not_not.mpr hseq)] at hfind
  generalize (commandFindBlock c.sync (c.bytes n)).popCount = k at hvalid hmin hle hfind ⊢
  rw [c.length_bytes] at hle
  have hblock : c.bytes k = (c.bytes n).take k := by
    rw [hholds.bytes (Nat.le_trans hle hn), hholds.bytes hn, List.take_take, Nat.min_eq_left hle]
  refine ⟨?_, ?_, ?_, ?_⟩
  · exact hholds.prefix_bytes (Nat.le_trans hle hn)
  · rw [c.length_bytes, hblock]
    exact checkBlock_take hvalid
  · rw [hfind]
    exact hsync
  · have hone : 1 < k := Nat.lt_of_lt_of_le (by decide) hmin
    rw [hfind, hblock, nextSeq, getD_take hone]

end Bytes

/-! ## The log -/

/-- The block has been answered and removed. -/
def Answered (c : Console) (off : Nat) (block : List UInt8) (later : List Event) : Prop :=
  off < c.popped ∧ ∃ seen, block <+: seen ∧ answer off block seen <+: later

/-- The block was looked at and `len` bytes are about to be removed. -/
def Refused (block : List UInt8) (later : List Event) (len : Nat) : Prop :=
  len = block.length ∧ ∃ seen, block <+: seen ∧ later = [.pass seen, .nak (nextSeq block)]

/-- How far the pass is that removes the block. -/
def Stage (block : List UInt8) (later : List Event) : Pc → Prop
  | .idle => later = []
  | .find rpos => later = [] ∧ block.length ≤ rpos
  | .skip len => Refused block later len
  | .pop _ len _ => Refused block later len
  | .move _ len _ _ => Refused block later len
  | .check _ len _ _ => Refused block later len
  | _ => False

/-- The block is still in the buffer. -/
structure Waiting (c : Console) (off : Nat) (block : List UInt8) (later : List Event) : Prop where
  off : off = c.popped
  pending : Pending c block
  stage : Stage block later c.pc

/-- The events after a shutdown in the dispatching of the block. -/
structure After (c : Console) (off : Nat) (block : List UInt8) (later : List Event) : Prop where
  calls : ∀ start, .call off start ∉ later
  answer : Answered c off block later ∨ Waiting c off block later

/-- Every shutdown came while an accepted block was dispatched and has the right consequences. -/
def Settled (c : Console) (log : List Event) : Prop :=
  ∀ earlier off block later, log = earlier ++ .halt off block :: later →
    .accept off block ∈ earlier ∧ After c off block later

section Log

variable {c c' : Console} {log events later : List Event} {off : Nat} {block : List UInt8}

lemma Answered.append (h : Answered c off block later) (hle : c.popped ≤ c'.popped)
    (events : List Event) : Answered c' off block (later ++ events) := by
  obtain ⟨hoff, seen, hseen, hans⟩ := h
  exact ⟨Nat.lt_of_lt_of_le hoff hle, seen, hseen, hans.trans (List.prefix_append _ _)⟩

lemma After.append (h : After c off block later) (hle : c.popped ≤ c'.popped)
    (hcalls : ∀ start, .call off start ∉ events)
    (hw : Waiting c off block later →
      Answered c' off block (later ++ events) ∨ Waiting c' off block (later ++ events)) :
    After c' off block (later ++ events) := by
  constructor
  · intro start hmem
    rcases List.mem_append.mp hmem with hmem | hmem
    · exact h.calls start hmem
    · exact hcalls start hmem
  · rcases h.answer with hans | hwait
    · exact Or.inl (hans.append hle events)
    · exact hw hwait

lemma Settled.append (h : Settled c log) (hhalt : ∀ off block, .halt off block ∉ events)
    (hafter : ∀ off block later, After c off block later → After c' off block (later ++ events)) :
    Settled c' (log ++ events) := by
  intro earlier off block later hlog
  rcases List.append_eq_append_iff.mp hlog with ⟨mid, rfl, hevents⟩ | ⟨mid, rfl, hmid⟩
  · exact absurd (by rw [hevents]; simp) (hhalt off block)
  · cases mid with
    | nil => exact absurd (by rw [← List.nil_append events, ← hmid]; simp) (hhalt off block)
    | cons e mid =>
      cases hmid
      obtain ⟨hacc, hlater⟩ := h earlier off block mid rfl
      exact ⟨hacc, hafter off block mid hlater⟩

lemma Settled.keep (h : Settled c log)
    (hafter : ∀ off block later, After c off block later → After c' off block later) :
    Settled c' log := by
  intro earlier off block later hlog
  obtain ⟨hacc, hlater⟩ := h earlier off block later hlog
  exact ⟨hacc, hafter off block later hlater⟩

lemma After.answered {len : Nat} (h : After c off block later) (hpc : c.pc = .dispatch len) :
    Answered c off block later := by
  apply h.answer.resolve_right
  intro hwait
  have hstage := hwait.stage
  rw [hpc] at hstage
  exact hstage

lemma Waiting.congr (h : Waiting c off block later) (hreceived : c'.received = c.received)
    (hpopped : c'.popped = c.popped) (hsync : c'.sync = c.sync)
    (hstage : Pending c block → Stage block later c.pc → Stage block later c'.pc) :
    Waiting c' off block later := by
  refine ⟨h.off.trans hpopped.symm, ⟨?_, h.pending.valid, ?_, ?_⟩, hstage h.pending h.stage⟩
  · rw [hreceived, hpopped]
    exact h.pending.next
  · rw [hsync]
    exact h.pending.needSync
  · rw [hsync]
    exact h.pending.nextSequence

lemma After.congr (h : After c off block later) (hreceived : c'.received = c.received)
    (hpopped : c'.popped = c.popped) (hsync : c'.sync = c.sync)
    (hstage : Pending c block → Stage block later c.pc → Stage block later c'.pc) :
    After c' off block later := by
  refine ⟨h.calls, ?_⟩
  rcases h.answer with ⟨hoff, hans⟩ | hwait
  · exact Or.inl ⟨by rwa [hpopped], hans⟩
  · exact Or.inr (hwait.congr hreceived hpopped hsync hstage)

end Log

/-! ## Steps -/

structure Inv (m : Machine σ) : Prop where
  stored : Stored m.console
  byte : m.console.receivePos < 2 ^ 8
  accepted : ∀ len, m.console.pc = .dispatch len → Pending m.console (m.console.bytes len) ∧
    .accept m.console.popped (m.console.bytes len) ∈ m.log
  settled : Settled m.console m.log

section Steps

variable {env : Env σ φ} {index : List (CommandParser φ)} {base : UInt32} {runShutdown : σ → σ}
  {m m' : Machine σ} {len copied rpos : Nat} {ack : Bool}

lemma Inv.congr (h : Inv m) {c : Console} (hstored : Stored c)
    (hreceived : c.received = m.console.received) (hpopped : c.popped = m.console.popped)
    (hsync : c.sync = m.console.sync) (hpos : c.receivePos = m.console.receivePos)
    (hpc : ∀ len, c.pc ≠ .dispatch len)
    (hstage : ∀ block later, Pending m.console block → Stage block later m.console.pc →
      Stage block later c.pc) : Inv { m with console := c } where
  stored := hstored
  byte := by
    rw [hpos]
    exact h.byte
  accepted len hlen := absurd hlen (hpc len)
  settled := h.settled.keep fun off block later hafter =>
    hafter.congr hreceived hpopped hsync (hstage block later)

lemma Inv.advance (h : Inv m) {pc : Pc} {c : Console} (hpc : m.console.pc = pc) (hstored : Stored c)
    (hreceived : c.received = m.console.received) (hpopped : c.popped = m.console.popped)
    (hsync : c.sync = m.console.sync) (hpos : c.receivePos = m.console.receivePos)
    (hne : ∀ len, c.pc ≠ .dispatch len)
    (hstage : ∀ block later, Stage block later pc → Stage block later c.pc) :
    Inv { m with console := c } := by
  apply h.congr hstored hreceived hpopped hsync hpos hne
  intro block later _ hold
  rw [hpc] at hold
  exact hstage block later hold

lemma Inv.rx (h : Inv m) (hpos : m.console.receivePos < 255) (data : UInt8) :
    Inv { m with console := serialRxByte m.console data } := by
  have hsize : m.console.receivePos < rxBufferSize := Nat.lt_trans hpos (by decide)
  have hrx := serialRxByte_of_lt hsize data
  have hpc : (serialRxByte m.console data).pc = m.console.pc := by rw [hrx]
  have hpopped : (serialRxByte m.console data).popped = m.console.popped := by rw [hrx]
  refine ⟨h.stored.rx hsize data, ?_, fun len hlen => ?_, ?_⟩
  · rw [hrx]
    dsimp only
    omega
  · rw [hpc] at hlen
    obtain ⟨hpend, hacc⟩ := h.accepted len hlen
    have hl := h.stored.layout
    unfold Console.Layout at hl
    rw [hlen] at hl
    dsimp only
    rw [bytes_rx hl.2 hsize, hpopped]
    exact ⟨hpend.rx hsize data, hacc⟩
  · apply h.settled.keep
    intro off block later hafter
    refine ⟨hafter.calls, ?_⟩
    rcases hafter.answer with ⟨hoff, hans⟩ | hwait
    · exact Or.inl ⟨by rwa [hpopped], hans⟩
    · refine Or.inr ⟨hwait.off.trans hpopped.symm, hwait.pending.rx hsize data, ?_⟩
      rw [hpc]
      exact hwait.stage

lemma schedShutdown_of_ne (h : ∀ len, m.console.pc ≠ .dispatch len) :
    schedShutdown m = { m with halted := true, console := { m.console with pc := .idle } } := by
  rw [schedShutdown]
  split
  · rename_i len hpc
    exact absurd hpc (h len)
  · rw [List.append_nil]

lemma Inv.schedShutdown (h : Inv m) (hpc : m.console.pc = .dispatch len) :
    Inv (schedShutdown m) := by
  obtain ⟨hpend, hacc⟩ := h.accepted len hpc
  have hl := h.stored.layout
  unfold Console.Layout at hl
  rw [hpc] at hl
  have hlog : (LongJump.schedShutdown m).log =
      m.log ++ [.halt m.console.popped (m.console.bytes len)] := by
    rw [LongJump.schedShutdown, hpc]
  refine ⟨⟨h.stored.received, hl.1⟩, h.byte, nofun, ?_⟩
  rw [hlog]
  intro earlier off block later hsplit
  rcases List.eq_nil_or_concat later with rfl | ⟨mid, e, rfl⟩
  · obtain ⟨rfl, he⟩ := List.append_inj' hsplit rfl
    cases he
    exact ⟨hacc, fun _ => List.not_mem_nil,
      Or.inr ⟨rfl, ⟨hpend.next, hpend.valid, hpend.needSync, hpend.nextSequence⟩, rfl⟩⟩
  · rw [List.concat_eq_append, ← List.cons_append, ← List.append_assoc] at hsplit
    obtain ⟨hlog', he⟩ := List.append_inj' hsplit rfl
    cases he
    obtain ⟨hacc', hlater⟩ := h.settled earlier off block mid hlog'
    rw [List.concat_eq_append]
    refine ⟨hacc', hlater.append (Nat.le_refl _) ?_ ?_⟩
    · intro start hmem
      cases List.mem_singleton.mp hmem
    · intro hwait
      have hstage := hwait.stage
      rw [hpc] at hstage
      exact hstage.elim

lemma Inv.callEvents (h : Inv m) (hpc : m.console.pc = .dispatch len) (r : Round σ φ)
    (state : σ) (inSendf : Bool) : Inv ({ m with state := state, inSendf := inSendf }.note
      (callEvents m.console.popped r)) := by
  refine ⟨h.stored, h.byte, fun len' hlen => ?_, ?_⟩
  · obtain ⟨hpend, hacc⟩ := h.accepted len' hlen
    exact ⟨hpend, List.mem_append_left _ hacc⟩
  · apply h.settled.append
    · intro off block hmem
      obtain ⟨c, -, hc⟩ := List.mem_map.mp hmem
      cases hc
    · intro off block later hafter
      have hans := hafter.answered hpc
      refine ⟨fun start hmem => ?_, Or.inl (hans.append (Nat.le_refl _) _)⟩
      rcases List.mem_append.mp hmem with hmem | hmem
      · exact hafter.calls start hmem
      · obtain ⟨c, -, hc⟩ := List.mem_map.mp hmem
        cases hc
        exact absurd hans.1 (Nat.lt_irrefl _)

lemma Inv.setP (h : Inv m) (p : Nat) : Inv { m with p := p } :=
  ⟨h.stored, h.byte, h.accepted, h.settled⟩

lemma Inv.dispatchCommand (h : Inv m) (hpc : m.console.pc = .dispatch len) :
    Inv (dispatchCommand env index base m len) := by
  have hcalls := h.callEvents hpc (m.round env index base len)
    (m.round env index base len).state m.inSendf
  rw [LongJump.dispatchCommand]
  split
  · exact hcalls.setP _
  · exact hcalls.schedShutdown hpc

/-- Where `console_task` goes on. -/
def afterFind (f : Found) : Pc :=
  match f.ret with
  | .block => .dispatch f.popCount
  | .needMore => .idle
  | .skip => .skip f.popCount

/-- The events of a look at the buffer. -/
def findEvents (m : Machine σ) (rpos : Nat) (f : Found) : List Event :=
  .pass (m.console.bytes rpos) ::
    match f.ret with
    | .block => [.accept m.console.popped (m.console.bytes f.popCount)]
    | _ => if f.nak = true ∧ m.inSendf = false then [.nak f.sync.nextSequence] else []

lemma findBlock_eq (hpc : m.console.pc = .find rpos) {f : Found}
    (hf : commandFindBlock m.console.sync (m.console.bytes rpos) = f) :
    findBlock m rpos = some ({ m with
      console := { m.console with sync := f.sync, pc := afterFind f }
      p := messageHeaderSize }.note (findEvents m rpos f)) := by
  rw [findBlock, consoleTask, hpc]
  dsimp only
  rw [hf, Option.map_some, afterFind, findEvents]
  obtain ⟨ret, popCount, nak, sync⟩ := f
  cases ret <;> cases nak <;> cases m.inSendf <;> simp [Machine.note, commandSendf]

lemma Waiting.find {c : Console} {off : Nat} {block : List UInt8} {later : List Event}
    (h : Waiting c off block later) (hst : Stored c) (hpc : c.pc = .find rpos) :
    later = [] ∧ block <+: c.bytes rpos ∧ commandFindBlock c.sync (c.bytes rpos) =
      ⟨.skip, block.length, true, { c.sync with needValid := false }⟩ := by
  have hl := hst.layout
  have hstage := h.stage
  unfold Console.Layout at hl
  rw [hpc] at hl hstage
  have hseen := h.pending.prefix_bytes hl.1 hl.2 hstage.2
  exact ⟨hstage.1, hseen, commandFindBlock_of_counted hseen h.pending.valid h.pending.needSync
    h.pending.nextSequence⟩

lemma call_notMem_findEvents (m : Machine σ) (rpos : Nat) (f : Found) (off start : Nat) :
    .call off start ∉ findEvents m rpos f := by
  rw [findEvents]
  cases f.ret <;> simp

lemma halt_notMem_findEvents (m : Machine σ) (rpos : Nat) (f : Found) (off : Nat)
    (block : List UInt8) : .halt off block ∉ findEvents m rpos f := by
  rw [findEvents]
  cases f.ret <;> simp

lemma Inv.findBlock (h : Inv m) (hpc : m.console.pc = .find rpos) (hsendf : m.inSendf = false)
    (hs : findBlock m rpos = some m') : Inv m' := by
  have hl := h.stored.layout
  unfold Console.Layout at hl
  rw [hpc] at hl
  have htask : consoleTask m.console = some { m.console with
      sync := (commandFindBlock m.console.sync (m.console.bytes rpos)).sync
      pc := afterFind (commandFindBlock m.console.sync (m.console.bytes rpos)) } := by
    rw [consoleTask, hpc]
    rfl
  have hstored := h.stored.task (by rw [ReadsByte, hpc]; trivial) htask
  generalize hf : commandFindBlock m.console.sync (m.console.bytes rpos) = f at hstored
  rw [findBlock_eq hpc hf] at hs
  obtain rfl := Option.some.inj hs
  refine ⟨hstored, h.byte, fun len hlen => ?_, ?_⟩
  · change afterFind f = .dispatch len at hlen
    cases hret : f.ret <;> rw [afterFind, hret] at hlen <;> cases hlen
    subst hf
    refine ⟨pending_of_block hl.1 hl.2 hret _, List.mem_append_right _ ?_⟩
    rw [findEvents, hret]
    exact List.mem_cons_of_mem _ (List.mem_singleton.mpr rfl)
  · apply h.settled.append (halt_notMem_findEvents m rpos f)
    intro off block later hafter
    refine hafter.append ?_ (call_notMem_findEvents m rpos f off) fun hwait => ?_
    · exact Nat.le_refl _
    obtain ⟨rfl, hseen, hfind⟩ := hwait.find h.stored hpc
    rw [hf] at hfind
    subst hfind
    refine Or.inr ⟨hwait.off, ⟨hwait.pending.next, hwait.pending.valid, hwait.pending.needSync,
      hwait.pending.nextSequence⟩, rfl, m.console.bytes rpos, hseen, ?_⟩
    rw [findEvents]
    dsimp only
    rw [if_pos ⟨rfl, hsendf⟩, hwait.pending.nextSequence]
    rfl

lemma Inv.popCheck (h : Inv m) (hpc : m.console.pc = .check ack len copied rpos) :
    Inv ({ m with console := popCheck m.console ack len copied rpos }.note
      (if rpos = m.console.readPos then [.remove m.console.popped len] else [])) := by
  have hstored := h.stored.popCheck hpc h.byte
  have hl := h.stored.layout
  unfold Console.Layout at hl
  rw [hpc] at hl
  rw [Uart.popCheck] at hstored ⊢
  by_cases hraced : rpos = m.console.readPos
  · rw [if_neg (not_not.mpr hraced)] at hstored ⊢
    rw [if_pos hraced]
    refine ⟨hstored, ?_, fun len' hlen => ?_, ?_⟩
    · exact Nat.lt_of_le_of_lt (Nat.sub_le _ _) (Nat.lt_of_le_of_lt (Nat.le_of_eq hraced)
        (Nat.mod_lt _ (by decide)))
    · cases ack <;> cases hlen
    · apply h.settled.append
      · intro off block hmem
        cases List.mem_singleton.mp hmem
      · intro off block later hafter
        refine hafter.append ?_ ?_ fun hwait => Or.inl ?_
        · exact Nat.le_add_right _ _
        · intro start hmem
          cases List.mem_singleton.mp hmem
        · have hpos := hwait.pending.length_pos
          have hoff := hwait.off
          have hstage := hwait.stage
          rw [hpc] at hstage
          obtain ⟨rfl, seen, hseen, rfl⟩ := hstage
          refine ⟨?_, seen, hseen, ?_⟩
          · change off < m.console.popped + block.length
            omega
          · rw [hoff]
            exact List.prefix_refl _
  · rw [if_pos hraced] at hstored ⊢
    rw [if_neg hraced, Machine.note, List.append_nil]
    exact h.advance hpc hstored rfl rfl rfl rfl (by simp) fun _ _ hstage => hstage

lemma Inv.popMove (h : Inv m) (hpc : m.console.pc = .move ack len copied rpos) :
    Inv { m with console := popMove m.console ack len copied rpos } := by
  have hstored := h.stored.popMove hpc
  have hl := h.stored.layout
  unfold Console.Layout at hl
  rw [hpc] at hl
  obtain ⟨-, hle, -⟩ := hl
  rw [Uart.popMove] at hstored ⊢
  rw [if_neg (by omega)] at hstored ⊢
  split at hstored
  · rename_i hzero
    rw [if_pos hzero]
    exact h.advance hpc hstored rfl rfl rfl rfl (by simp) fun _ _ hstage => hstage
  · rename_i hne
    rw [if_neg hne]
    rw [if_neg (by omega)] at hstored ⊢
    exact h.advance hpc hstored rfl rfl rfl rfl (by simp) fun _ _ hstage => hstage

lemma Inv.task (h : Inv m) (hsendf : m.inSendf = false) (hs : task env index base m = some m') :
    Inv m' := by
  have hl := h.stored.layout
  unfold Console.Layout at hl
  rw [LongJump.task] at hs
  cases hpc : m.console.pc <;> rw [hpc] at hl <;> simp only [hpc] at hs
  case find rpos => exact h.findBlock hpc hsendf hs
  case dispatch len =>
    split at hs
    · obtain rfl := Option.some.inj hs
      exact h.dispatchCommand hpc
    · obtain ⟨c, hc, rfl⟩ := Option.map_eq_some_iff.mp hs
      have hstored := h.stored.task (legal_task h.byte).2 hc
      rw [consoleTask, hpc] at hc
      obtain rfl := Option.some.inj hc
      exact h.advance hpc hstored rfl rfl rfl rfl (by simp) fun _ _ hstage => hstage.elim
  all_goals
    obtain ⟨c, hc, rfl⟩ := Option.map_eq_some_iff.mp hs
    have hstored := h.stored.task (legal_task h.byte).2 hc
    rw [consoleTask, hpc] at hc
  case idle =>
    obtain rfl := Option.some.inj hc
    apply h.congr hstored rfl rfl rfl rfl (by simp)
    intro block later hpend hstage
    rw [hpc] at hstage
    have hle := hpend.length_le h.stored
    rw [← readPos_eq h.byte] at hle
    exact ⟨hstage, hle⟩
  case skip len =>
    obtain rfl := Option.some.inj hc
    exact h.advance hpc hstored rfl rfl rfl rfl (by simp) fun _ _ hstage => hstage
  case pop ack len copied =>
    obtain rfl := Option.some.inj hc
    exact h.advance hpc hstored rfl rfl rfl rfl (by simp) fun _ _ hstage => hstage
  case move ack len copied rpos =>
    obtain rfl := Option.some.inj hc
    exact h.popMove hpc
  case check ack len copied rpos =>
    obtain rfl := Option.some.inj hc
    exact h.popCheck hpc
  case sendAck =>
    obtain rfl := Option.some.inj hc
    exact h.advance hpc hstored rfl rfl rfl rfl (by simp) fun _ _ hstage => hstage.elim
  case fault => cases hc
  case bootloader => cases hc

lemma checkBlock_requestText : checkBlock requestText = .bad := by
  decide +kernel

lemma Inv.reboot (h : Inv m) {c : Console} (hc : Uart.step m.console .reboot = some c) :
    Inv { m with console := c } := by
  have hstored := h.stored.reboot hc
  have hl := h.stored.layout
  unfold Console.Layout at hl
  rw [Uart.step] at hc
  split at hc
  · rename_i len hpc
    rw [hpc] at hl
    obtain ⟨⟨-, htext⟩, hc⟩ := Option.ite_none_right_eq_some.mp hc
    cases hc
    apply h.congr hstored rfl rfl rfl rfl (by simp)
    intro block later hpend hstage
    rw [hpc] at hstage
    obtain ⟨rfl, -⟩ := hstage
    have hblock := hpend.prefix_bytes hl.1 hl.2 (Nat.le_refl _)
    have heq : block = requestText := by
      rw [← htext]
      exact hblock.eq_of_length (m.console.length_bytes _).symm
    have hvalid := hpend.valid
    rw [heq, checkBlock_requestText] at hvalid
    cases hvalid
  · cases hc

lemma Inv.schedShutdown_between (h : Inv m) (hne : ∀ len, m.console.pc ≠ .dispatch len)
    (hholds : m.console.HoldsFrom 0)
    (hstage : ∀ block later, Stage block later m.console.pc → later = []) :
    Inv (LongJump.schedShutdown m) := by
  rw [schedShutdown_of_ne hne]
  have hstored : Stored { m.console with pc := .idle } := ⟨h.stored.received, hholds⟩
  have hidle : Inv { m with console := { m.console with pc := .idle } } := by
    apply h.congr hstored rfl rfl rfl rfl (by simp)
    intro block later _ hs
    exact hstage block later hs
  exact ⟨hidle.stored, hidle.byte, hidle.accepted, hidle.settled⟩

lemma Inv.shutdown (h : Inv m) {state : σ} {inSendf : Bool} (hl : Legal m (.shutdown state inSendf)) :
    Inv (LongJump.schedShutdown { m with state := state, inSendf := inSendf }) := by
  have hm : Inv { m with state := state, inSendf := inSendf } :=
    ⟨h.stored, h.byte, h.accepted, h.settled⟩
  have hlay := h.stored.layout
  unfold Console.Layout at hlay
  rw [Legal] at hl
  cases hpc : m.console.pc <;> rw [hpc] at hlay <;> simp only [hpc] at hl
  case dispatch len => exact hm.schedShutdown hpc
  case fault => exact hlay.elim
  all_goals
    apply hm.schedShutdown_between
    · intro len
      change m.console.pc ≠ .dispatch len
      rw [hpc]
      simp
  case idle.hholds => exact hlay
  case find.hholds => exact hlay.1
  case sendAck.hholds => exact hlay
  case bootloader.hholds => exact hlay.1
  all_goals
    intro block later hstage
    change Stage block later m.console.pc at hstage
    rw [hpc] at hstage
  case idle => exact hstage
  case find => exact hstage.1
  case sendAck => exact hstage.elim
  case bootloader => exact hstage.elim

lemma task_inSendf (hs : task env index base m = some m') : m'.inSendf = m.inSendf := by
  rw [task] at hs
  split at hs
  · rename_i rpos hpc
    rw [findBlock_eq hpc rfl] at hs
    cases hs
    rfl
  · split at hs
    · cases hs
      rw [dispatchCommand]
      split
      · rfl
      · rfl
    · obtain ⟨c, -, rfl⟩ := Option.map_eq_some_iff.mp hs
      rfl
  · obtain ⟨c, -, rfl⟩ := Option.map_eq_some_iff.mp hs
    rfl
  · obtain ⟨c, -, rfl⟩ := Option.map_eq_some_iff.mp hs
    rfl

/-- What every step keeps. The guard of `command_sendf` is off while the tasks run. -/
structure Sound (m : Machine σ) : Prop where
  inv : Inv m
  guard : m.halted = false → m.inSendf = false

lemma Sound.step {a : Action σ} (h : Sound m) (hl : Legal m a)
    (hs : step env index base runShutdown m a = some m') : Sound m' := by
  cases a with
  | rx data =>
    obtain ⟨hhalted, hs⟩ := Option.ite_none_left_eq_some.mp hs
    cases hs
    exact ⟨h.inv.rx hl data, h.guard⟩
  | task =>
    obtain ⟨hhalted, hs⟩ := Option.ite_none_left_eq_some.mp hs
    have hoff := h.guard (Bool.eq_false_of_not_eq_true hhalted)
    exact ⟨h.inv.task hoff hs, fun _ => (task_inSendf hs).trans hoff⟩
  | reboot =>
    obtain ⟨hhalted, hs⟩ := Option.ite_none_left_eq_some.mp hs
    obtain ⟨c, hc, rfl⟩ := Option.map_eq_some_iff.mp hs
    exact ⟨h.inv.reboot hc, h.guard⟩
  | other state =>
    cases hs
    exact ⟨⟨h.inv.stored, h.inv.byte, h.inv.accepted, h.inv.settled⟩, h.guard⟩
  | shutdown state inSendf =>
    obtain ⟨hhalted, hs⟩ := Option.ite_none_left_eq_some.mp hs
    cases hs
    exact ⟨h.inv.shutdown hl, nofun⟩
  | shutdownInCall state inSendf =>
    rw [LongJump.step] at hs
    split at hs
    · rename_i len hpc
      obtain ⟨-, hs⟩ := Option.ite_none_right_eq_some.mp hs
      cases hs
      exact ⟨(h.inv.callEvents hpc _ state inSendf).schedShutdown hpc, nofun⟩
    · cases hs
  | runShutdown =>
    obtain ⟨-, hs⟩ := Option.ite_none_right_eq_some.mp hs
    cases hs
    exact ⟨⟨h.inv.stored, h.inv.byte, h.inv.accepted, h.inv.settled⟩, fun _ => rfl⟩

lemma step_task (hhalted : m.halted = false) :
    step env index base runShutdown m .task = task env index base m := by
  rw [step, hhalted]
  rfl

lemma run_pop (hhalted : m.halted = false) (hpc : m.console.pc = .skip len)
    (hst : Stored m.console) (hbyte : m.console.receivePos < 2 ^ 8) :
    ∃ m', Run (step env index base runShutdown) Legal m (List.replicate 4 .task) m' ∧
      m'.log = m.log ++ [.remove m.console.popped len] := by
  obtain ⟨c, state, inSendf, halted, p, log⟩ := m
  dsimp only at hhalted hpc hst hbyte ⊢
  subst hhalted
  have hl := hst.layout
  unfold Console.Layout at hl
  rw [hpc] at hl
  have hread := readPos_eq hbyte
  have h₁ : step env index base runShutdown ⟨c, state, inSendf, false, p, log⟩ .task =
      some ⟨{ c with pc := .pop false len 0 }, state, inSendf, false, p, log⟩ := by
    rw [step_task rfl, task, hpc]
    dsimp only
    rw [consoleTask, hpc]
    rfl
  have h₂ : step env index base runShutdown
      ⟨{ c with pc := .pop false len 0 }, state, inSendf, false, p, log⟩ .task =
      some ⟨{ c with pc := .move false len 0 c.readPos }, state, inSendf, false, p, log⟩ := rfl
  have h₃ : step env index base runShutdown
      ⟨{ c with pc := .move false len 0 c.readPos }, state, inSendf, false, p, log⟩ .task =
      some ⟨popMove { c with pc := .move false len 0 c.readPos } false len 0 c.readPos, state,
        inSendf, false, p, log⟩ := rfl
  obtain ⟨buf, wake, copied, hmove⟩ : ∃ buf wake copied,
      popMove { c with pc := .move false len 0 c.readPos } false len 0 c.readPos =
        { c with
          receiveBuf := buf
          tasksRequested := wake
          pc := .check false len copied c.readPos } := by
    rw [popMove, if_neg (by omega)]
    split
    · exact ⟨_, _, _, rfl⟩
    · rw [if_neg (by omega)]
      exact ⟨_, _, _, rfl⟩
  rw [hmove] at h₃
  have h₄ : step env index base runShutdown
      ⟨{ c with
          receiveBuf := buf
          tasksRequested := wake
          pc := .check false len copied c.readPos }, state, inSendf, false, p, log⟩ .task =
      some ⟨{ c with
          receiveBuf := buf
          tasksRequested := wake
          receivePos := c.readPos - len
          popped := c.popped + len
          pc := .idle }, state, inSendf, false, p, log ++ [.remove c.popped len]⟩ := by
    rw [step_task rfl]
    simp [task, consoleTask, popCheck, Machine.note, Console.readPos]
  exact ⟨_, (((Run.nil.snoc trivial h₁).snoc trivial h₂).snoc trivial h₃).snoc trivial h₄, rfl⟩

lemma step_refuse {off : Nat} {block : List UInt8} (h : Sound m) (hhalted : m.halted = false)
    (hpc : m.console.pc = .find rpos) (hwait : Waiting m.console off block []) :
    ∃ m' seen, step env index base runShutdown m .task = some m' ∧ block <+: seen ∧
      m'.halted = false ∧ m'.console.pc = .skip block.length ∧
      m'.console.popped = m.console.popped ∧
      m'.log = m.log ++ [.pass seen, .nak (nextSeq block)] := by
  obtain ⟨-, hseen, hfind⟩ := hwait.find h.inv.stored hpc
  rw [step_task hhalted, task, hpc]
  refine ⟨_, _, findBlock_eq hpc hfind, hseen, hhalted, rfl, rfl, ?_⟩
  rw [Machine.note, findEvents]
  dsimp only
  rw [if_pos ⟨rfl, h.guard hhalted⟩, hwait.pending.nextSequence]

lemma run_pass {off : Nat} {block : List UInt8} (h : Sound m) (hhalted : m.halted = false)
    (hpc : m.console.pc = .idle) (hwait : Waiting m.console off block []) :
    ∃ m' seen, Run (step env index base runShutdown) Legal m (List.replicate 6 .task) m' ∧
      block <+: seen ∧ m'.log = m.log ++ answer off block seen := by
  have hlegal : ∀ m : Machine σ, Legal m .task := fun _ => trivial
  have h₁ : step env index base runShutdown m .task =
      some { m with console := { m.console with pc := .find m.console.readPos } } := by
    rw [step_task hhalted, task, hpc]
    dsimp only
    rw [consoleTask, hpc]
    rfl
  have hsound₁ := h.step (hlegal _) h₁
  have hwait₁ : Waiting { m.console with pc := .find m.console.readPos } off block [] := by
    have hle := hwait.pending.length_le h.inv.stored
    rw [← readPos_eq h.inv.byte] at hle
    exact ⟨hwait.off, ⟨hwait.pending.next, hwait.pending.valid, hwait.pending.needSync,
      hwait.pending.nextSequence⟩, rfl, hle⟩
  obtain ⟨m₂, seen, h₂, hseen, hhalted₂, hpc₂, hpopped, hlog₂⟩ :=
    step_refuse hsound₁ hhalted rfl hwait₁
  have hsound₂ := hsound₁.step (hlegal _) h₂
  obtain ⟨m₃, h₃, hlog₃⟩ := run_pop hhalted₂ hpc₂ hsound₂.inv.stored hsound₂.inv.byte
  refine ⟨m₃, seen, ((Run.nil.snoc (hlegal _) h₁).snoc (hlegal _) h₂).append h₃, hseen, ?_⟩
  rw [hlog₃, hlog₂, hpopped, hwait.off, List.append_assoc]
  rfl

end Steps

lemma sound_running {buf : Nat → UInt8} {receivePos : Nat} (hpos : receivePos < 2 ^ 8) (sync : Sync)
    (state : σ) : Sound (running buf receivePos sync state) := by
  refine ⟨⟨⟨?_, ?_⟩, hpos, nofun, ?_⟩, fun _ => rfl⟩
  · change ((List.range receivePos).map buf).length = 0 + receivePos
    rw [List.length_map, List.length_range, Nat.zero_add]
  · intro i _ hi
    change i < receivePos at hi
    change ((List.range receivePos).map buf)[0 + i]? = some (buf i)
    rw [Nat.zero_add, List.getElem?_map, List.getElem?_range hi]
    rfl
  · intro earlier off block later hlog
    exact absurd hlog.symm (List.append_ne_nil_of_right_ne_nil _ (List.cons_ne_nil _ _))

section Run

variable {env : Env σ φ} {index : List (CommandParser φ)} {base : UInt32} {runShutdown : σ → σ}
  {buf : Nat → UInt8} {receivePos : Nat} {sync : Sync} {state : σ} {actions : List (Action σ)}
  {m : Machine σ}

/-- A block that was accepted and whose dispatching was ended by a shutdown is not executed again.
The next pass of `console_task` sees the block at the start of the buffer, requests a nak with the
sequence number behind that of the block, and removes the block. -/
theorem shutdown_block_refused (hpos : receivePos < 2 ^ 8)
    (h : Run (step env index base runShutdown) Legal (running buf receivePos sync state) actions m)
    {earlier later : List Event} {off : Nat} {block : List UInt8}
    (hlog : m.log = earlier ++ .halt off block :: later) :
    .accept off block ∈ earlier ∧ (∀ start, .call off start ∉ later) ∧
      (∃ seen, block <+: seen ∧
        (later <+: answer off block seen ∨ answer off block seen <+: later)) ∧
      (later = [] → m.halted = false → m.console.pc = .idle →
        ∃ m' seen, Run (step env index base runShutdown) Legal m (List.replicate 6 .task) m' ∧
          block <+: seen ∧ m'.log = m.log ++ answer off block seen) := by
  have hsound : Sound m := by
    apply h.invariant
    · exact sound_running hpos sync state
    · intro s a s' hs hl hstep
      exact hs.step hl hstep
  obtain ⟨hacc, hafter⟩ := hsound.inv.settled earlier off block later hlog
  refine ⟨hacc, hafter.calls, ?_, ?_⟩
  · rcases hafter.answer with ⟨-, seen, hseen, hans⟩ | hwait
    · exact ⟨seen, hseen, Or.inr hans⟩
    · have hstage := hwait.stage
      cases hpc : m.console.pc <;> rw [hpc] at hstage
      case idle => exact ⟨block, List.prefix_refl _, Or.inl (by rw [hstage]; exact List.nil_prefix)⟩
      case find => exact ⟨block, List.prefix_refl _, Or.inl (by rw [hstage.1]; exact List.nil_prefix)⟩
      case dispatch => exact hstage.elim
      case sendAck => exact hstage.elim
      case fault => exact hstage.elim
      case bootloader => exact hstage.elim
      all_goals
        obtain ⟨-, seen, hseen, rfl⟩ := hstage
        exact ⟨seen, hseen, Or.inl (List.prefix_append _ [Event.remove off block.length])⟩
  · rintro rfl hhalted hpc
    rcases hafter.answer with ⟨-, seen, -, hans⟩ | hwait
    · exact absurd (List.prefix_nil.mp hans) (List.cons_ne_nil _ _)
    · exact run_pass hsound hhalted hpc hwait

end Run

instance (m : Machine σ) (a : Action σ) : Decidable (Legal m a) := by
  unfold Legal
  cases a <;> cases m.console.pc <;> infer_instance

/-- Handler 0 counts its calls and handler 1 shuts the firmware down. -/
def countOrStop : Env Nat Nat where
  isShutdown _ := false
  reportShutdown s := s
  irqPoll s := s
  func f _ s := if f = 0 then (s + 1, true) else (s, false)

def twoCommands : List (CommandParser Nat) :=
  [buildCommandParser [] false 0, buildCommandParser [] false 0, buildCommandParser [] false 1]

/-- Three commands, of which the second shuts the firmware down. -/
def stopBlock : List UInt8 := commandAddFrame 0x10 [1, 2, 1]

/-- The block is dispatched up to the second command, and a byte arrives behind it before the tasks
run again. -/
def stopInBlock : List (Action Nat) :=
  stopBlock.map Action.rx ++ List.replicate 4 Action.task ++ [Action.runShutdown, .rx 5] ++
    List.replicate 3 Action.task ++ [Action.rx 0x11] ++ List.replicate 3 Action.task

theorem shutdown_block_refused_stopInBlock :
    ∃ m, Run (step countOrStop twoCommands 0 id) Legal
        (running (fun _ => 0) 0 ⟨false, false, messageDest⟩ 0) stopInBlock m ∧
      m.state = 1 ∧ m.console.receivePos = 2 ∧
      m.log = [.pass stopBlock, .accept 0 stopBlock, .call 0 2, .call 0 3, .halt 0 stopBlock] ++
        answer 0 stopBlock (stopBlock ++ [5]) ∧
      ∀ start, .call 0 start ∉ answer 0 stopBlock (stopBlock ++ [5]) := by
  obtain ⟨m, hm, hp⟩ : ∃ m, Run (step countOrStop twoCommands 0 id) Legal
      (running (fun _ => 0) 0 ⟨false, false, messageDest⟩ 0) stopInBlock m ∧
      decide (m.state = 1 ∧ m.console.receivePos = 2 ∧
        m.log = [.pass stopBlock, .accept 0 stopBlock, .call 0 2, .call 0 3, .halt 0 stopBlock] ++
          answer 0 stopBlock (stopBlock ++ [5])) = true :=
    Run.exists_of_exec stopInBlock _ (by decide +kernel)
  obtain ⟨hstate, hpos, hlog⟩ := of_decide_eq_true hp
  have hsplit : m.log = [.pass stopBlock, .accept 0 stopBlock, .call 0 2, .call 0 3] ++
      .halt 0 stopBlock :: answer 0 stopBlock (stopBlock ++ [5]) := hlog
  exact ⟨m, hm, hstate, hpos, hlog, (shutdown_block_refused (by decide) hm hsplit).2.1⟩

end KlipperMcu.LongJump
