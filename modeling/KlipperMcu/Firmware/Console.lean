import KlipperMcu.Firmware.FindBlock
import KlipperMcu.Lib.Run

/-!
# Console input

The receive side of serial_irq.c. Bytes arrive in an interrupt, also while `console_task` looks at
the buffer or removes a block from it. The steps of the task are its accesses to `receive_pos` and
to the buffer.
-/

namespace KlipperMcu.Uart

open Lib Wire

def rxBufferSize : Nat := 384

/-- Where `console_task` is. The variables of `console_pop_input` are `len`, `copied` and `rpos`,
and `ack` tells whether a block was dispatched. -/
inductive Pc where
  | idle
  | find (rpos : Nat)
  | dispatch (len : Nat)
  | skip (len : Nat)
  | pop (ack : Bool) (len copied : Nat)
  | move (ack : Bool) (len copied rpos : Nat)
  | check (ack : Bool) (len copied rpos : Nat)
  | sendAck
  | fault
  | bootloader (len : Nat)
deriving DecidableEq, Repr

/-- The receive buffer and the state of the task, with the bytes received so far, how many of them
were popped, and the blocks dispatched. -/
structure Console where
  receiveBuf : Nat → UInt8
  receivePos : Nat
  tasksRequested : Bool
  sync : Sync
  pc : Pc
  acks : Nat
  received : List UInt8
  popped : Nat
  dispatched : List (List UInt8)

inductive Action where
  | rx (data : UInt8)
  | task
  | reboot
deriving DecidableEq, Repr

/-- The first `n` bytes of the buffer. -/
def Console.bytes (s : Console) (n : Nat) : List UInt8 := (List.range n).map s.receiveBuf

/-- `readb(&receive_pos)`. -/
def Console.readPos (s : Console) : Nat := s.receivePos % 2 ^ 8

def memmove (buf : Nat → UInt8) (dst src n : Nat) : Nat → UInt8 := fun i =>
  if dst ≤ i ∧ i < dst + n then buf (src + (i - dst)) else buf i

/-- `serial_rx_byte`. -/
def serialRxByte (s : Console) (data : UInt8) : Console :=
  let s := { s with
    tasksRequested := s.tasksRequested || data == messageSync
    received := s.received ++ [data] }
  if s.receivePos ≥ rxBufferSize then s
  else
    { s with
      receiveBuf := Function.update s.receiveBuf s.receivePos data
      receivePos := s.receivePos + 1 }

def requestText : List UInt8 :=
  [0x20, 0x1c, 0x20] ++ "Request Serial Bootloader!! ~".toList.map fun c => UInt8.ofNat c.toNat

/-- The copy of `console_pop_input`. A size that wraps below zero runs over all memory. -/
def popMove (s : Console) (ack : Bool) (len copied rpos : Nat) : Console :=
  let needcopy := rpos - len
  if rpos < len then { s with pc := .fault }
  else if needcopy = 0 then { s with pc := .check ack len copied rpos }
  else if needcopy < copied then { s with pc := .fault }
  else
    { s with
      receiveBuf := memmove s.receiveBuf copied (copied + len) (needcopy - copied)
      tasksRequested := true
      pc := .check ack len needcopy rpos }

/-- The end of a round of `console_pop_input`, with interrupts disabled. -/
def popCheck (s : Console) (ack : Bool) (len copied rpos : Nat) : Console :=
  if rpos ≠ s.readPos then { s with pc := .pop ack len copied }
  else
    { s with
      receivePos := rpos - len
      popped := s.popped + len
      pc := if ack then .sendAck else .idle }

/-- The next step of `console_task`. -/
def consoleTask (s : Console) : Option Console :=
  match s.pc with
  | .idle => some { s with pc := .find s.readPos }
  | .find rpos =>
    let f := commandFindBlock s.sync (s.bytes rpos)
    some { s with
      sync := f.sync
      pc :=
        match f.ret with
        | .block => .dispatch f.popCount
        | .needMore => .idle
        | .skip => .skip f.popCount }
  | .dispatch len =>
    some { s with dispatched := s.dispatched ++ [s.bytes len], pc := .pop true len 0 }
  | .skip len => some { s with pc := .pop false len 0 }
  | .pop ack len copied => some { s with pc := .move ack len copied s.readPos }
  | .move ack len copied rpos => some (popMove s ack len copied rpos)
  | .check ack len copied rpos => some (popCheck s ack len copied rpos)
  | .sendAck => some { s with acks := s.acks + 1, pc := .idle }
  | .fault => none
  | .bootloader _ => none

def step (s : Console) : Action → Option Console
  | .rx data => some (serialRxByte s data)
  | .task => consoleTask s
  | .reboot =>
    match s.pc with
    | .skip len =>
      if len = 32 ∧ s.bytes len = requestText then some { s with pc := .bootloader len } else none
    | _ => none

def start (buf : Nat → UInt8) (sync : Sync) : Console where
  receiveBuf := buf
  receivePos := 0
  tasksRequested := false
  sync := sync
  pc := .idle
  acks := 0
  received := []
  popped := 0
  dispatched := []

/-- The sender respects the receive window. -/
def InWindow (s : Console) : Action → Prop
  | .rx _ => s.received.length - s.popped < rxBufferSize
  | _ => True

/-- `console_task` and `console_pop_input` do not read `receive_pos` while it is larger than a byte. -/
def ReadsByte (s : Console) : Action → Prop
  | .task =>
    match s.pc with
    | .idle => s.receivePos < 2 ^ 8
    | .pop _ _ _ => s.receivePos < 2 ^ 8
    | .check _ _ _ _ => s.receivePos < 2 ^ 8
    | _ => True
  | _ => True

def Legal (s : Console) (a : Action) : Prop := InWindow s a ∧ ReadsByte s a

/-- The buffer from `lo` on holds the bytes that were received last. -/
def Console.HoldsFrom (s : Console) (lo : Nat) : Prop :=
  ∀ i, lo ≤ i → i < s.receivePos → s.received[s.popped + i]? = some (s.receiveBuf i)

/-- The first `copied` bytes behind a block of `len` bytes have been moved to the front. -/
structure Console.Moved (s : Console) (len copied : Nat) : Prop where
  le : len + copied ≤ s.receivePos
  holds : s.HoldsFrom (len + copied)
  front : ∀ i, i < copied → s.received[s.popped + len + i]? = some (s.receiveBuf i)

/-- What is in the buffer. -/
def Console.Layout (s : Console) : Prop :=
  match s.pc with
  | .idle => s.HoldsFrom 0
  | .find rpos => s.HoldsFrom 0 ∧ rpos ≤ s.receivePos
  | .dispatch len => s.HoldsFrom 0 ∧ len ≤ s.receivePos
  | .skip len => s.HoldsFrom 0 ∧ len ≤ s.receivePos
  | .pop _ len copied => s.Moved len copied
  | .move _ len copied rpos => s.Moved len copied ∧ len + copied ≤ rpos ∧ rpos ≤ s.receivePos
  | .check _ len copied rpos => s.Moved len copied ∧ len + copied = rpos
  | .sendAck => s.HoldsFrom 0
  | .fault => False
  | .bootloader len => s.HoldsFrom 0 ∧ len ≤ s.receivePos

/-- The bytes that were looked at and are not popped yet. -/
def Pc.taken : Pc → Nat
  | .dispatch len => len
  | .skip len => len
  | .pop _ len _ => len
  | .move _ len _ _ => len
  | .check _ len _ _ => len
  | .bootloader len => len
  | _ => 0

/-- A block that was found and is not dispatched yet. -/
def Console.undispatched (s : Console) : List (List UInt8) :=
  match s.pc with
  | .dispatch len => [(s.received.drop s.popped).take len]
  | _ => []

/-- The parser has seen the first `n` bytes of the stream, and `found` are the blocks in them. -/
def Parsed (sync₀ : Sync) (received : List UInt8) (n : Nat) (sync : Sync)
    (found : List (List UInt8)) : Prop :=
  ∃ events, blocks events = found ∧ ∀ more, blockFinder.feed sync₀ (received ++ more) =
    (blockFinder.feed sync (received.drop n ++ more)).after events

/-- The buffer holds the bytes that were received and not popped. -/
structure Stored (s : Console) : Prop where
  received : s.received.length = s.popped + s.receivePos
  layout : s.Layout

structure Inv (sync₀ : Sync) (s : Console) : Prop where
  received : s.received.length = s.popped + s.receivePos
  layout : s.Layout
  parsed : Parsed sync₀ s.received (s.popped + s.pc.taken) s.sync (s.dispatched ++ s.undispatched)

section Parsed

variable {sync₀ sync : Sync} {received : List UInt8} {n : Nat} {found : List (List UInt8)}

lemma Parsed.append (h : Parsed sync₀ received n sync found) (hn : n ≤ received.length)
    (data : List UInt8) : Parsed sync₀ (received ++ data) n sync found := by
  obtain ⟨events, hb, hfeed⟩ := h
  refine ⟨events, hb, fun more => ?_⟩
  rw [List.append_assoc, hfeed, List.drop_append_of_le_length hn, List.append_assoc]

lemma blocks_append (a b : List Event) : blocks (a ++ b) = blocks a ++ blocks b :=
  List.filterMap_append

lemma Parsed.find (h : Parsed sync₀ received n sync found) {buf : List UInt8}
    (hbuf : buf <+: received.drop n) (hret : (commandFindBlock sync buf).ret ≠ .needMore) :
    Parsed sync₀ received (n + (commandFindBlock sync buf).popCount) (commandFindBlock sync buf).sync
      (found ++ blocks ((commandFindBlock sync buf).events buf)) := by
  obtain ⟨events, hb, hfeed⟩ := h
  obtain ⟨rest, hrest⟩ := hbuf
  obtain ⟨-, hle⟩ := popCount_commandFindBlock hret
  refine ⟨events ++ (commandFindBlock sync buf).events buf, ?_, fun more => ?_⟩
  · rw [blocks_append, hb]
  · rw [hfeed, ← List.drop_drop, ← hrest, List.append_assoc,
      blockFinder_coherent (find_blockFinder hret), List.drop_append_of_le_length hle,
      List.append_assoc, Fed.after_after]

lemma Parsed.blocks_eq (h : Parsed sync₀ received n sync found) :
    blocks (blockFinder.feed sync₀ received).out =
      found ++ blocks (blockFinder.feed sync (received.drop n)).out := by
  obtain ⟨events, hb, hfeed⟩ := h
  have hall := hfeed []
  rw [List.append_nil, List.append_nil] at hall
  rw [hall, ← hb]
  exact blocks_append _ _

end Parsed

section Rx

variable {s : Console} {sync₀ : Sync} {lo len copied : Nat}

lemma serialRxByte_of_lt (h : s.receivePos < rxBufferSize) (data : UInt8) :
    serialRxByte s data = { s with
      tasksRequested := s.tasksRequested || data == messageSync
      received := s.received ++ [data]
      receiveBuf := Function.update s.receiveBuf s.receivePos data
      receivePos := s.receivePos + 1 } := by
  unfold serialRxByte
  rw [if_neg (Nat.not_le.mpr h)]

lemma getElem?_received {i : Nat} {b : UInt8} (h : s.received[i]? = some b) (data : UInt8) :
    (s.received ++ [data])[i]? = some b := by
  obtain ⟨hi, -⟩ := List.getElem?_eq_some_iff.mp h
  rw [List.getElem?_append_left hi, h]

lemma Console.HoldsFrom.rx (h : s.HoldsFrom lo) (hlen : s.received.length = s.popped + s.receivePos)
    (hpos : s.receivePos < rxBufferSize) (data : UInt8) : (serialRxByte s data).HoldsFrom lo := by
  rw [serialRxByte_of_lt hpos]
  intro i hlo hi
  dsimp only at hi ⊢
  rcases Nat.lt_succ_iff_lt_or_eq.mp hi with hlt | rfl
  · rw [Function.update_of_ne (Nat.ne_of_lt hlt)]
    exact getElem?_received (h i hlo hlt) data
  · rw [Function.update_self, ← hlen, List.getElem?_append_right (Nat.le_refl _), Nat.sub_self]
    rfl

lemma Console.Moved.rx (h : s.Moved len copied) (hlen : s.received.length = s.popped + s.receivePos)
    (hpos : s.receivePos < rxBufferSize) (data : UInt8) :
    (serialRxByte s data).Moved len copied := by
  refine ⟨?_, h.holds.rx hlen hpos data, fun i hi => ?_⟩
  · rw [serialRxByte_of_lt hpos]
    exact Nat.le_succ_of_le h.le
  · have hne : i ≠ s.receivePos := by
      have := h.le
      omega
    rw [serialRxByte_of_lt hpos]
    dsimp only
    rw [Function.update_of_ne hne]
    exact getElem?_received (h.front i hi) data

lemma Console.Moved.taken_le (h : s.Moved len copied)
    (hlen : s.received.length = s.popped + s.receivePos) : s.popped + len ≤ s.received.length := by
  have := h.le
  omega

lemma Inv.stored (h : Inv sync₀ s) : Stored s := ⟨h.received, h.layout⟩

lemma Stored.taken_le (h : Stored s) : s.popped + s.pc.taken ≤ s.received.length := by
  have hlen := h.received
  have hl := h.layout
  unfold Console.Layout at hl
  cases hpc : s.pc <;> rw [hpc] at hl <;> simp only [Pc.taken]
  case dispatch len => have := hl.2; omega
  case skip len => have := hl.2; omega
  case bootloader len => have := hl.2; omega
  case pop => exact hl.taken_le hlen
  case move => exact hl.1.taken_le hlen
  case check => exact hl.1.taken_le hlen
  all_goals omega

lemma Stored.rx (h : Stored s) (hpos : s.receivePos < rxBufferSize) (data : UInt8) :
    Stored (serialRxByte s data) := by
  have hlen := h.received
  have hl := h.layout
  constructor
  · rw [serialRxByte_of_lt hpos]
    simp only [List.length_append, List.length_singleton]
    omega
  · have hpc : (serialRxByte s data).pc = s.pc := by rw [serialRxByte_of_lt hpos]
    have hle : s.receivePos ≤ (serialRxByte s data).receivePos := by
      rw [serialRxByte_of_lt hpos]
      exact Nat.le_succ _
    unfold Console.Layout at hl ⊢
    rw [hpc]
    cases hs : s.pc <;> rw [hs] at hl
    case idle => exact hl.rx hlen hpos data
    case find rpos => exact ⟨hl.1.rx hlen hpos data, Nat.le_trans hl.2 hle⟩
    case dispatch len => exact ⟨hl.1.rx hlen hpos data, Nat.le_trans hl.2 hle⟩
    case skip len => exact ⟨hl.1.rx hlen hpos data, Nat.le_trans hl.2 hle⟩
    case pop => exact hl.rx hlen hpos data
    case move => exact ⟨hl.1.rx hlen hpos data, hl.2.1, Nat.le_trans hl.2.2 hle⟩
    case check => exact ⟨hl.1.rx hlen hpos data, hl.2⟩
    case sendAck => exact hl.rx hlen hpos data
    case fault => exact hl
    case bootloader len => exact ⟨hl.1.rx hlen hpos data, Nat.le_trans hl.2 hle⟩

lemma Inv.rx (h : Inv sync₀ s) (hpos : s.receivePos < rxBufferSize) (data : UInt8) :
    Inv sync₀ (serialRxByte s data) := by
  have hst := h.stored.rx hpos data
  have htaken := h.stored.taken_le
  refine ⟨hst.received, hst.layout, ?_⟩
  have hund : (serialRxByte s data).undispatched = s.undispatched := by
    rw [serialRxByte_of_lt hpos]
    unfold Console.undispatched
    cases hs : s.pc <;> try rfl
    case dispatch len =>
      have hle := htaken
      rw [hs] at hle
      simp only [Pc.taken] at hle
      dsimp only
      rw [List.drop_append_of_le_length (by omega), List.take_append_of_le_length]
      rw [List.length_drop]
      omega
  rw [hund, serialRxByte_of_lt hpos]
  exact h.parsed.append htaken [data]

end Rx

section Task

variable {s s' : Console} {sync₀ : Sync} {len copied rpos n : Nat} {ack : Bool}

lemma readPos_le (s : Console) : s.readPos ≤ s.receivePos := Nat.mod_le _ _

lemma readPos_eq (h : s.receivePos < 2 ^ 8) : s.readPos = s.receivePos := Nat.mod_eq_of_lt h

lemma Console.HoldsFrom.mono {lo lo' : Nat} (h : s.HoldsFrom lo) (hle : lo ≤ lo') :
    s.HoldsFrom lo' :=
  fun i hi => h i (Nat.le_trans hle hi)

lemma Console.HoldsFrom.bytes (h : s.HoldsFrom 0) (hn : n ≤ s.receivePos) :
    s.bytes n = (s.received.drop s.popped).take n := by
  apply List.ext_getElem?
  intro i
  unfold Console.bytes
  rw [List.getElem?_map, List.getElem?_take, List.getElem?_drop]
  by_cases hi : i < n
  · rw [if_pos hi, h i (Nat.zero_le i) (Nat.lt_of_lt_of_le hi hn), List.getElem?_range hi]
    rfl
  · rw [if_neg hi, List.getElem?_eq_none (by rw [List.length_range]; omega)]
    rfl

lemma Console.HoldsFrom.moved (h : s.HoldsFrom 0) (hlen : len ≤ s.receivePos) : s.Moved len 0 :=
  ⟨hlen, h.mono (Nat.zero_le _), fun _ hi => absurd hi (Nat.not_lt_zero _)⟩

lemma Console.Moved.setPc (h : s.Moved len copied) (pc : Pc) (dispatched : List (List UInt8)) :
    ({ s with pc := pc, dispatched := dispatched } : Console).Moved len copied :=
  ⟨h.le, h.holds, h.front⟩

lemma Console.length_bytes (s : Console) (n : Nat) : (s.bytes n).length = n := by
  unfold Console.bytes
  rw [List.length_map, List.length_range]

lemma popCount_le (hret : (commandFindBlock s.sync (s.bytes rpos)).ret ≠ .needMore)
    (hrpos : rpos ≤ s.receivePos) :
    (commandFindBlock s.sync (s.bytes rpos)).popCount ≤ s.receivePos := by
  obtain ⟨-, hle⟩ := popCount_commandFindBlock hret
  rw [s.length_bytes] at hle
  exact Nat.le_trans hle hrpos

lemma Console.HoldsFrom.prefix_bytes (h : s.HoldsFrom 0) (hn : n ≤ s.receivePos) :
    s.bytes n <+: s.received.drop s.popped := by
  rw [h.bytes hn]
  exact List.take_prefix _ _

lemma Console.Moved.memmove (h : s.Moved len copied) (hle : len + copied ≤ rpos)
    (hpos : rpos ≤ s.receivePos) (wake : Bool) (pc : Pc) :
    ({ s with
      receiveBuf := Uart.memmove s.receiveBuf copied (copied + len) (rpos - len - copied)
      tasksRequested := wake
      pc := pc } : Console).Moved len (rpos - len) := by
  refine ⟨?_, fun i hlo hi => ?_, fun i hi => ?_⟩
  · change len + (rpos - len) ≤ s.receivePos
    omega
  · have hsame : Uart.memmove s.receiveBuf copied (copied + len) (rpos - len - copied) i =
        s.receiveBuf i := if_neg (by omega)
    change s.received[s.popped + i]? = some (Uart.memmove _ _ _ _ i)
    rw [hsame]
    exact h.holds i (by omega) hi
  · change s.received[s.popped + len + i]? = some (Uart.memmove _ _ _ _ i)
    by_cases hfront : i < copied
    · rw [show Uart.memmove s.receiveBuf copied (copied + len) (rpos - len - copied) i =
        s.receiveBuf i from if_neg (by omega)]
      exact h.front i hfront
    · rw [show Uart.memmove s.receiveBuf copied (copied + len) (rpos - len - copied) i =
        s.receiveBuf (copied + len + (i - copied)) from if_pos (by omega),
        show copied + len + (i - copied) = len + i by omega, Nat.add_assoc]
      exact h.holds (len + i) (by omega) (by omega)

lemma Stored.popMove (h : Stored s) (hpc : s.pc = .move ack len copied rpos) :
    Stored (popMove s ack len copied rpos) := by
  have hl := h.layout
  unfold Console.Layout at hl
  rw [hpc] at hl
  obtain ⟨hmoved, hle, hpos⟩ := hl
  unfold Uart.popMove
  dsimp only
  rw [if_neg (by omega)]
  split
  · exact ⟨h.received, hmoved.setPc _ _, by omega⟩
  · rw [if_neg (by omega)]
    exact ⟨h.received, hmoved.memmove hle hpos _ _, by omega⟩

lemma Stored.popCheck (h : Stored s) (hpc : s.pc = .check ack len copied rpos)
    (hpos : s.receivePos < 2 ^ 8) : Stored (popCheck s ack len copied rpos) := by
  have hlen := h.received
  have hl := h.layout
  unfold Console.Layout at hl
  rw [hpc] at hl
  obtain ⟨hmoved, hle⟩ := hl
  unfold Uart.popCheck
  split
  · exact ⟨hlen, hmoved.setPc _ _⟩
  · rename_i hsame
    rw [readPos_eq hpos] at hsame
    have heq : rpos = s.receivePos := not_not.mp hsame
    have hholds : ({ s with
        receivePos := rpos - len
        popped := s.popped + len
        pc := if ack then .sendAck else .idle } : Console).HoldsFrom 0 := by
      intro i _ hi
      exact hmoved.front i (by dsimp only at hi; omega)
    constructor
    · dsimp only
      omega
    · cases ack
      · exact hholds
      · exact hholds

lemma Stored.task (h : Stored s) (hread : ReadsByte s .task) (hs : consoleTask s = some s') :
    Stored s' := by
  have hlen := h.received
  have hl := h.layout
  unfold ReadsByte at hread
  unfold Console.Layout at hl
  cases hpc : s.pc <;> rw [hpc] at hl <;> simp only [hpc] at hread <;> rw [consoleTask, hpc] at hs
  case idle =>
    obtain rfl := Option.some.inj hs
    exact ⟨hlen, hl, readPos_le s⟩
  case find rpos =>
    obtain rfl := Option.some.inj hs
    refine ⟨hlen, ?_⟩
    unfold Console.Layout
    dsimp only
    cases hret : (commandFindBlock s.sync (s.bytes rpos)).ret with
    | needMore => exact hl.1
    | block => exact ⟨hl.1, popCount_le (by rw [hret]; decide) hl.2⟩
    | skip => exact ⟨hl.1, popCount_le (by rw [hret]; decide) hl.2⟩
  case dispatch len =>
    obtain rfl := Option.some.inj hs
    exact ⟨hlen, (hl.1.moved hl.2).setPc _ _⟩
  case skip len =>
    obtain rfl := Option.some.inj hs
    exact ⟨hlen, (hl.1.moved hl.2).setPc _ _⟩
  case pop ack len copied =>
    obtain rfl := Option.some.inj hs
    have hle := hl.le
    rw [← readPos_eq hread] at hle
    exact ⟨hlen, hl.setPc _ _, hle, readPos_le s⟩
  case move ack len copied rpos =>
    obtain rfl := Option.some.inj hs
    exact h.popMove hpc
  case check ack len copied rpos =>
    obtain rfl := Option.some.inj hs
    exact h.popCheck hpc hread
  case sendAck =>
    obtain rfl := Option.some.inj hs
    exact ⟨hlen, hl⟩
  case fault => cases hs
  case bootloader => cases hs

lemma Stored.reboot (h : Stored s) (hs : step s .reboot = some s') : Stored s' := by
  rw [step] at hs
  split at hs
  · rename_i len hpc
    split at hs
    · obtain rfl := Option.some.inj hs
      have hl := h.layout
      unfold Console.Layout at hl
      rw [hpc] at hl
      exact ⟨h.received, hl⟩
    · cases hs
  · cases hs

lemma Inv.parsed_find (h : Inv sync₀ s) (hpc : s.pc = .find rpos)
    (hs : consoleTask s = some s') :
    Parsed sync₀ s'.received (s'.popped + s'.pc.taken) s'.sync (s'.dispatched ++ s'.undispatched) := by
  have hl := h.layout
  have hp := h.parsed
  unfold Console.Layout at hl
  unfold Console.undispatched at hp
  rw [hpc] at hl
  simp only [hpc, Pc.taken, Nat.add_zero, List.append_nil] at hp
  have hbuf := hl.1.prefix_bytes hl.2
  rw [consoleTask, hpc] at hs
  obtain rfl := Option.some.inj hs
  dsimp only
  cases hret : (commandFindBlock s.sync (s.bytes rpos)).ret with
  | needMore =>
    rw [sync_of_needMore hret]
    simpa [Console.undispatched, Pc.taken] using hp
  | block =>
    have hne : (commandFindBlock s.sync (s.bytes rpos)).ret ≠ .needMore := by rw [hret]; decide
    obtain ⟨-, hle⟩ := popCount_commandFindBlock hne
    have hnew := hp.find hbuf hne
    obtain ⟨rest, hrest⟩ := hbuf
    rw [blocks_events, if_pos hret, ← List.take_append_of_le_length hle, hrest] at hnew
    exact hnew
  | skip =>
    have hne : (commandFindBlock s.sync (s.bytes rpos)).ret ≠ .needMore := by rw [hret]; decide
    have hnew := hp.find hbuf hne
    rw [blocks_events, if_neg (by rw [hret]; decide)] at hnew
    exact hnew

lemma Inv.parsed_pop (h : Inv sync₀ s) (hpc : s.pc = .move ack len copied rpos) :
    Parsed sync₀ (popMove s ack len copied rpos).received
      ((popMove s ack len copied rpos).popped + (popMove s ack len copied rpos).pc.taken)
      (popMove s ack len copied rpos).sync
      ((popMove s ack len copied rpos).dispatched ++
        (popMove s ack len copied rpos).undispatched) := by
  have hl := h.layout
  have hp := h.parsed
  unfold Console.Layout at hl
  unfold Console.undispatched at hp
  rw [hpc] at hl
  simp only [hpc, Pc.taken, List.append_nil] at hp
  obtain ⟨-, hle, -⟩ := hl
  unfold popMove
  dsimp only
  rw [if_neg (by omega)]
  split
  · simpa [Console.undispatched, Pc.taken] using hp
  · rw [if_neg (by omega)]
    simpa [Console.undispatched, Pc.taken] using hp

lemma Inv.task (h : Inv sync₀ s) (hread : ReadsByte s .task) (hs : consoleTask s = some s') :
    Inv sync₀ s' := by
  have hst := h.stored.task hread hs
  refine ⟨hst.received, hst.layout, ?_⟩
  have hl := h.layout
  have hp := h.parsed
  unfold Console.Layout at hl
  unfold Console.undispatched at hp
  cases hpc : s.pc <;> rw [hpc] at hl <;> simp only [hpc, Pc.taken] at hp
  case find rpos => exact h.parsed_find hpc hs
  all_goals
    rw [consoleTask, hpc] at hs
  case idle =>
    obtain rfl := Option.some.inj hs
    exact hp
  case dispatch len =>
    obtain rfl := Option.some.inj hs
    dsimp only
    rw [hl.1.bytes hl.2]
    simpa [Console.undispatched, Pc.taken] using hp
  case skip len =>
    obtain rfl := Option.some.inj hs
    exact hp
  case pop ack len copied =>
    obtain rfl := Option.some.inj hs
    exact hp
  case move ack len copied rpos =>
    obtain rfl := Option.some.inj hs
    exact h.parsed_pop hpc
  case check ack len copied rpos =>
    obtain rfl := Option.some.inj hs
    rw [popCheck]
    split
    · exact hp
    · cases ack
      · simpa [Console.undispatched, Pc.taken] using hp
      · simpa [Console.undispatched, Pc.taken] using hp
  case sendAck =>
    obtain rfl := Option.some.inj hs
    exact hp
  case fault => cases hs
  case bootloader => cases hs

lemma Inv.step {a : Action} (h : Inv sync₀ s) (ha : Legal s a) (hs : step s a = some s') :
    Inv sync₀ s' := by
  have hlen := h.received
  cases a with
  | rx data =>
    obtain rfl := Option.some.inj hs
    have hwin : s.received.length - s.popped < rxBufferSize := ha.1
    exact h.rx (by omega) data
  | task => exact h.task ha.2 hs
  | reboot =>
    have hst := h.stored.reboot hs
    refine ⟨hst.received, hst.layout, ?_⟩
    rw [Uart.step] at hs
    split at hs
    · rename_i len hpc
      split at hs
      · obtain rfl := Option.some.inj hs
        have hp := h.parsed
        unfold Console.undispatched at hp
        rw [hpc] at hp
        exact hp
      · cases hs
    · cases hs

end Task

lemma inv_start (buf : Nat → UInt8) (sync₀ : Sync) : Inv sync₀ (start buf sync₀) := by
  refine ⟨rfl, fun i _ hi => absurd hi (Nat.not_lt_zero i), [], rfl, fun more => ?_⟩
  rfl

section Drain

variable {s t : Console} {sync₀ : Sync} {len copied rpos pos : Nat} {ack : Bool}

/-- The task goes on without interrupts to the end of its call, and leaves `pos` bytes. -/
def Returns (s : Console) (pos : Nat) : Prop :=
  ∃ n s', Run step Legal s (List.replicate n .task) s' ∧ s'.pc = .idle ∧
    s'.received = s.received ∧ s'.receivePos = pos

lemma legal_task (h : s.receivePos < 2 ^ 8) : Legal s .task := by
  refine ⟨trivial, ?_⟩
  unfold ReadsByte
  cases s.pc <;> first | exact h | trivial

lemma run_cons {n : Nat} {s' : Console} (hpos : s.receivePos < 2 ^ 8) (ht : consoleTask s = some t)
    (h : Run step Legal t (List.replicate n .task) s') :
    Run step Legal s (List.replicate (n + 1) .task) s' := by
  have hfirst : Run step Legal s ([] ++ [.task]) t := Run.nil.snoc (legal_task hpos) ht
  rw [List.replicate_succ]
  exact hfirst.append h

lemma Returns.cons (hpos : s.receivePos < 2 ^ 8) (ht : consoleTask s = some t)
    (hreceived : t.received = s.received) (h : Returns t pos) : Returns s pos := by
  obtain ⟨n, s', hrun, hpc, hr, hp⟩ := h
  exact ⟨n + 1, s', run_cons hpos ht hrun, hpc, hr.trans hreceived, hp⟩

lemma returns_idle (hpc : s.pc = .idle) : Returns s s.receivePos := ⟨0, s, .nil, hpc, rfl, rfl⟩

lemma returns_sendAck (hpos : s.receivePos < 2 ^ 8) (hpc : s.pc = .sendAck) :
    Returns s s.receivePos := by
  have ht : consoleTask s = some { s with acks := s.acks + 1, pc := .idle } := by
    rw [consoleTask, hpc]
  exact (returns_idle (s := { s with acks := s.acks + 1, pc := .idle }) rfl).cons hpos ht rfl

lemma returns_check (hpos : s.receivePos < 2 ^ 8) (hpc : s.pc = .check ack len copied rpos)
    (hrpos : rpos = s.receivePos) : Returns s (s.receivePos - len) := by
  subst hrpos
  have ht : consoleTask s = some { s with
      receivePos := s.receivePos - len
      popped := s.popped + len
      pc := if ack then .sendAck else .idle } := by
    rw [consoleTask, hpc]
    simp only [popCheck, readPos_eq hpos, ne_eq, not_true_eq_false, if_false]
  refine Returns.cons hpos ht rfl ?_
  cases ack with
  | false => exact returns_idle rfl
  | true => exact returns_sendAck (Nat.lt_of_le_of_lt (Nat.sub_le _ _) hpos) rfl

lemma pc_popMove (h : Stored s) (hpc : s.pc = .move ack len copied rpos) :
    ∃ copied', (popMove s ack len copied rpos).pc = .check ack len copied' rpos ∧
      (popMove s ack len copied rpos).receivePos = s.receivePos ∧
      (popMove s ack len copied rpos).received = s.received := by
  have hl := h.layout
  unfold Console.Layout at hl
  rw [hpc] at hl
  obtain ⟨-, hle, -⟩ := hl
  unfold popMove
  dsimp only
  rw [if_neg (by omega)]
  split
  · exact ⟨copied, rfl, rfl, rfl⟩
  · rw [if_neg (by omega)]
    exact ⟨_, rfl, rfl, rfl⟩

lemma returns_move (h : Stored s) (hpos : s.receivePos < 2 ^ 8)
    (hpc : s.pc = .move ack len copied s.receivePos) : Returns s (s.receivePos - len) := by
  have ht : consoleTask s = some (popMove s ack len copied s.receivePos) := by rw [consoleTask, hpc]
  obtain ⟨copied', hcheck, hp, hr⟩ := pc_popMove h hpc
  have hreturns := returns_check (by rwa [hp]) hcheck hp.symm
  rw [hp] at hreturns
  exact hreturns.cons hpos ht hr

lemma returns_pop (h : Stored s) (hpos : s.receivePos < 2 ^ 8) (hpc : s.pc = .pop ack len copied) :
    Returns s (s.receivePos - len) := by
  have ht : consoleTask s = some { s with pc := .move ack len copied s.receivePos } := by
    rw [consoleTask, hpc, readPos_eq hpos]
  have hstored := h.task (legal_task hpos).2 ht
  exact (returns_move hstored hpos rfl).cons hpos ht rfl

/-- A round of `console_pop_input` that an interrupt has overtaken is made again. -/
lemma returns_check_stale (h : Stored s) (hpos : s.receivePos < 2 ^ 8)
    (hpc : s.pc = .check ack len copied rpos) : Returns s (s.receivePos - len) := by
  by_cases hrpos : rpos = s.receivePos
  · exact returns_check hpos hpc hrpos
  · have ht : consoleTask s = some { s with pc := .pop ack len copied } := by
      rw [consoleTask, hpc]
      simp only [popCheck, readPos_eq hpos, ne_eq, hrpos, not_false_eq_true, if_true]
    exact (returns_pop (h.task (legal_task hpos).2 ht) hpos rfl).cons hpos ht rfl

lemma returns_move_stale (h : Stored s) (hpos : s.receivePos < 2 ^ 8)
    (hpc : s.pc = .move ack len copied rpos) : Returns s (s.receivePos - len) := by
  have ht : consoleTask s = some (popMove s ack len copied rpos) := by rw [consoleTask, hpc]
  have hstored := h.task (legal_task hpos).2 ht
  obtain ⟨copied', hcheck, hp, hr⟩ := pc_popMove h hpc
  have hreturns := returns_check_stale hstored (by rwa [hp]) hcheck
  rw [hp] at hreturns
  exact hreturns.cons hpos ht hr

lemma returns_found (h : Stored s) (hpos : s.receivePos < 2 ^ 8)
    (hpc : s.pc = .dispatch len ∨ s.pc = .skip len) : Returns s (s.receivePos - len) := by
  rcases hpc with hpc | hpc
  · have ht : consoleTask s = some { s with
        dispatched := s.dispatched ++ [s.bytes len], pc := .pop true len 0 } := by
      rw [consoleTask, hpc]
    exact (returns_pop (h.task (legal_task hpos).2 ht) hpos rfl).cons hpos ht rfl
  · have ht : consoleTask s = some { s with pc := .pop false len 0 } := by rw [consoleTask, hpc]
    exact (returns_pop (h.task (legal_task hpos).2 ht) hpos rfl).cons hpos ht rfl

lemma returns_find (h : Stored s) (hpos : s.receivePos < 2 ^ 8) (hpc : s.pc = .find rpos) :
    ((commandFindBlock s.sync (s.bytes rpos)).ret = .needMore → Returns s s.receivePos) ∧
    ((commandFindBlock s.sync (s.bytes rpos)).ret ≠ .needMore →
      Returns s (s.receivePos - (commandFindBlock s.sync (s.bytes rpos)).popCount)) := by
  obtain ⟨t, ht, hp, hr, htpc⟩ : ∃ t, consoleTask s = some t ∧ t.receivePos = s.receivePos ∧
      t.received = s.received ∧ t.pc =
        match (commandFindBlock s.sync (s.bytes rpos)).ret with
        | .block => .dispatch (commandFindBlock s.sync (s.bytes rpos)).popCount
        | .needMore => .idle
        | .skip => .skip (commandFindBlock s.sync (s.bytes rpos)).popCount := by
    rw [consoleTask, hpc]
    exact ⟨_, rfl, rfl, rfl, rfl⟩
  have hstored := h.task (legal_task hpos).2 ht
  rw [← hp]
  constructor
  · intro hret
    rw [hret] at htpc
    exact (returns_idle htpc).cons hpos ht hr
  · intro hret
    refine (returns_found hstored (by rwa [hp]) ?_).cons hpos ht hr
    cases hcase : (commandFindBlock s.sync (s.bytes rpos)).ret with
    | needMore => exact absurd hcase hret
    | block =>
      rw [hcase] at htpc
      exact Or.inl htpc
    | skip =>
      rw [hcase] at htpc
      exact Or.inr htpc

lemma returns_of_stored (h : Stored s) (hpos : s.receivePos < 2 ^ 8)
    (hboot : ∀ len, s.pc ≠ .bootloader len) : ∃ pos ≤ s.receivePos, Returns s pos := by
  cases hpc : s.pc with
  | idle => exact ⟨_, Nat.le_refl _, returns_idle hpc⟩
  | find rpos =>
    obtain ⟨hmore, hfound⟩ := returns_find h hpos hpc
    by_cases hret : (commandFindBlock s.sync (s.bytes rpos)).ret = .needMore
    · exact ⟨_, Nat.le_refl _, hmore hret⟩
    · exact ⟨_, Nat.sub_le _ _, hfound hret⟩
  | dispatch len => exact ⟨_, Nat.sub_le _ _, returns_found h hpos (Or.inl hpc)⟩
  | skip len => exact ⟨_, Nat.sub_le _ _, returns_found h hpos (Or.inr hpc)⟩
  | pop ack len copied => exact ⟨_, Nat.sub_le _ _, returns_pop h hpos hpc⟩
  | move ack len copied rpos => exact ⟨_, Nat.sub_le _ _, returns_move_stale h hpos hpc⟩
  | check ack len copied rpos => exact ⟨_, Nat.sub_le _ _, returns_check_stale h hpos hpc⟩
  | sendAck => exact ⟨_, Nat.le_refl _, returns_sendAck hpos hpc⟩
  | fault =>
    have hl := h.layout
    unfold Console.Layout at hl
    rw [hpc] at hl
    exact hl.elim
  | bootloader len => exact absurd hpc (hboot len)

lemma Inv.bytes_eq (h : Inv sync₀ s) (hpc : s.pc = .idle) :
    s.bytes s.receivePos = s.received.drop s.popped := by
  have hl := h.layout
  unfold Console.Layout at hl
  rw [hpc] at hl
  rw [hl.bytes (Nat.le_refl _), List.take_of_length_le]
  rw [List.length_drop, h.received]
  omega

lemma Inv.all_dispatched (h : Inv sync₀ s) (hpc : s.pc = .idle)
    (hmore : (commandFindBlock s.sync (s.bytes s.receivePos)).ret = .needMore) :
    s.dispatched = blocks (blockFinder.feed sync₀ s.received).out := by
  have hnone : blockFinder.find s.sync (s.bytes s.receivePos) = none := if_pos hmore
  have hund : s.undispatched = [] := by
    unfold Console.undispatched
    rw [hpc]
  rw [h.parsed.blocks_eq, hund, hpc, List.append_nil, Pc.taken, Nat.add_zero, ← h.bytes_eq hpc,
    Finder.feed_of_none hnone]
  exact (List.append_nil _).symm
  all_goals exact nofun

lemma Inv.drain_idle (h : Inv sync₀ s) (hpos : s.receivePos < 2 ^ 8) (hpc : s.pc = .idle) :
    ∃ n s', Run Uart.step Legal s (List.replicate n .task) s' ∧ s'.received = s.received ∧
      s'.dispatched = blocks (blockFinder.feed sync₀ s.received).out := by
  induction hsize : s.receivePos using Nat.strong_induction_on generalizing s with
  | _ size ih =>
    by_cases hmore : (commandFindBlock s.sync (s.bytes s.receivePos)).ret = .needMore
    · exact ⟨0, s, .nil, rfl, h.all_dispatched hpc hmore⟩
    · have ht : consoleTask s = some { s with pc := .find s.receivePos } := by
        rw [consoleTask, hpc, readPos_eq hpos]
      have hstored := h.stored.task (legal_task hpos).2 ht
      obtain ⟨n, t, hrun, htpc, hreceived, htpos⟩ :=
        ((returns_find hstored hpos rfl).2 hmore).cons hpos ht rfl
      obtain ⟨hpop, -⟩ := popCount_commandFindBlock hmore
      have hlen := popCount_le hmore (Nat.le_refl _)
      have hinv : Inv sync₀ t := hrun.invariant h fun _ _ _ hi ha hs => hi.step ha hs
      have hless : t.receivePos < size := by
        rw [htpos]
        change s.receivePos - (commandFindBlock s.sync (s.bytes s.receivePos)).popCount < size
        omega
      obtain ⟨m, s', hrest, hr, hd⟩ := ih t.receivePos hless hinv (by omega) htpc rfl
      rw [hreceived] at hr hd
      refine ⟨n + m, s', ?_, hr, hd⟩
      rw [List.replicate_add]
      exact hrun.append hrest

lemma Inv.drain (h : Inv sync₀ s) (hpos : s.receivePos < 2 ^ 8)
    (hboot : ∀ len, s.pc ≠ .bootloader len) :
    ∃ n s', Run Uart.step Legal s (List.replicate n .task) s' ∧ s'.received = s.received ∧
      s'.dispatched = blocks (blockFinder.feed sync₀ s.received).out := by
  obtain ⟨pos, hle, n, t, hrun, hpc, hreceived, rfl⟩ := returns_of_stored h.stored hpos hboot
  have hinv : Inv sync₀ t := hrun.invariant h fun _ _ _ hi ha hs => hi.step ha hs
  obtain ⟨m, s', hrest, hr, hd⟩ := hinv.drain_idle (Nat.lt_of_le_of_lt hle hpos) hpc
  rw [hreceived] at hr hd
  refine ⟨n + m, s', ?_, hr, hd⟩
  rw [List.replicate_add]
  exact hrun.append hrest

end Drain

/-- As long as the sender respects the receive window and the task never reads `receive_pos` while
there are more than 255 bytes in the buffer, the task dispatches blocks of the received stream in
order. A call that finds no block has dispatched all of them, and at any time the task dispatches the
rest without further bytes. Between two calls the buffer holds the bytes that were not popped. -/
theorem dispatched_of_run {buf : Nat → UInt8} {sync₀ : Sync} {actions : List Action} {s : Console}
    (h : Run step Legal (start buf sync₀) actions s) :
    s.pc ≠ .fault ∧
      s.dispatched <+: blocks (blockFinder.feed sync₀ s.received).out ∧
      (s.pc = .idle → s.bytes s.receivePos = s.received.drop s.popped ∧
        (Legal s .task → (commandFindBlock s.sync (s.bytes s.readPos)).ret = .needMore →
          s.dispatched = blocks (blockFinder.feed sync₀ s.received).out)) ∧
      (s.receivePos < 2 ^ 8 → (∀ len, s.pc ≠ .bootloader len) →
        ∃ n s', Run step Legal s (List.replicate n .task) s' ∧ s'.received = s.received ∧
          s'.dispatched = blocks (blockFinder.feed sync₀ s.received).out) := by
  have hi : Inv sync₀ s := h.invariant (inv_start buf sync₀) fun _ _ _ hi hl hs => hi.step hl hs
  refine ⟨fun hpc => ?_, ?_, fun hpc => ⟨hi.bytes_eq hpc, fun hlegal hmore => ?_⟩, hi.drain⟩
  · have hl := hi.layout
    unfold Console.Layout at hl
    rwa [hpc] at hl
  · rw [hi.parsed.blocks_eq, List.append_assoc]
    exact List.prefix_append _ _
  · have hpos := hlegal.2
    unfold ReadsByte at hpos
    rw [hpc] at hpos
    rw [readPos_eq hpos] at hmore
    exact hi.all_dispatched hpc hmore

instance (s : Console) (a : Action) : Decidable (InWindow s a) := by
  cases a <;> unfold InWindow <;> infer_instance

instance (s : Console) (a : Action) : Decidable (Legal s a) := by
  unfold Legal ReadsByte
  cases a <;> cases s.pc <;> infer_instance

/-- The bytes of a second block arrive while the first one is removed. -/
def raced : List Action :=
  (commandAddFrame 0x10 []).map Action.rx ++ List.replicate 4 Action.task ++
    ((commandAddFrame 0x11 []).take 3).map Action.rx ++ List.replicate 3 Action.task ++
    (((commandAddFrame 0x11 []).drop 3).take 1).map Action.rx ++ List.replicate 6 Action.task ++
    ((commandAddFrame 0x11 []).drop 4).map Action.rx ++ List.replicate 7 Action.task

theorem dispatched_of_run_raced :
    ∃ s, Run step Legal (start (fun _ => 0) ⟨false, false, messageDest⟩) raced s ∧
      s.dispatched = [commandAddFrame 0x10 [], commandAddFrame 0x11 []] ∧
      s.dispatched = blocks (blockFinder.feed ⟨false, false, messageDest⟩ s.received).out := by
  obtain ⟨s, hs, hp⟩ : ∃ s, Run step Legal (start (fun _ => 0) ⟨false, false, messageDest⟩) raced s ∧
      decide (s.pc = .idle ∧ Legal s .task ∧
        (commandFindBlock s.sync (s.bytes s.readPos)).ret = .needMore ∧
        s.dispatched = [commandAddFrame 0x10 [], commandAddFrame 0x11 []]) = true :=
    Run.exists_of_exec raced _ (by decide +kernel)
  obtain ⟨hpc, hlegal, hmore, hd⟩ := of_decide_eq_true hp
  exact ⟨s, hs, hd, ((dispatched_of_run hs).2.2.1 hpc).2 hlegal hmore⟩

/-- An empty block and four full ones. -/
def fiveBlocks : List (List UInt8) :=
  commandAddFrame 0x10 [] :: [0x11, 0x12, 0x13, 0x14].map fun seq =>
    commandAddFrame seq (List.replicate 59 0)

/-- Five blocks that arrive before the task runs. Then the first one is dispatched and popped. -/
def burst : List Action := fiveBlocks.flatten.map Action.rx ++ List.replicate 7 Action.task

theorem dispatched_of_burst :
    ∃ s, Run step InWindow (start (fun _ => 0) ⟨false, false, messageDest⟩) burst s ∧
      s.received.length = 261 ∧ s.pc = .idle ∧ s.receivePos = 0 ∧
      s.dispatched = [commandAddFrame 0x10 []] ∧
      blocks (blockFinder.feed ⟨false, false, messageDest⟩ s.received).out = fiveBlocks := by
  obtain ⟨s, hs, hp⟩ : ∃ s, Run step InWindow (start (fun _ => 0) ⟨false, false, messageDest⟩) burst s ∧
      decide (s.received.length = 261 ∧ s.pc = .idle ∧ s.receivePos = 0 ∧
      s.dispatched = [commandAddFrame 0x10 []] ∧
      blocks (blockFinder.feed ⟨false, false, messageDest⟩ s.received).out = fiveBlocks) = true :=
    Run.exists_of_exec burst _ (by decide +kernel)
  exact ⟨s, hs, of_decide_eq_true hp⟩

end KlipperMcu.Uart
