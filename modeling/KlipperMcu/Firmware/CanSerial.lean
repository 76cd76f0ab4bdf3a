import KlipperMcu.Firmware.Console
import KlipperMcu.Lib.Buffer

/-!
# Console input over CAN

The receive side of canserial.c. Frames are stored in the interrupt, whole or not at all, also while
`canserial_rx_task` removes a block from the buffer. The steps of the task are its accesses to what
it shares with the interrupt.
-/

namespace KlipperMcu.CanSerial

open Lib Wire

def receiveSize : Nat := 192

def adminSize : Nat := 8

def canbusIdAdmin : UInt32 := 0x3f0

def canbusIdAdminResp : UInt32 := 0x3f1

structure CanMsg where
  id : UInt32
  dlc : Nat
  data : Vector UInt8 8
deriving DecidableEq, Repr

/-- `CANMSG_DATA_LEN`. -/
def CanMsg.dataLen (msg : CanMsg) : Nat := if msg.dlc > 8 then 8 else msg.dlc

def CanMsg.payload (msg : CanMsg) : List UInt8 := msg.data.toList.take msg.dataLen

/-- Where `canserial_rx_task` is. The variables of `console_pop_input` are `len`, `copied` and
`rpos`, and `ack` tells whether a block was dispatched. -/
inductive Pc where
  | idle
  | clearWake
  | readPush
  | admin (pushp : UInt32)
  | pull (pullp : UInt32)
  | readPos
  | find (rpos : Nat)
  | dispatch (len : Nat)
  | pop (ack : Bool) (len copied : Nat)
  | move (ack : Bool) (len copied rpos : Nat)
  | check (ack : Bool) (len copied rpos : Nat)
  | sendAck
  | fault
  | bootloader
deriving DecidableEq, Repr

/-- A frame for this node that the interrupt was called with, and the free space at that time. -/
structure Arrival where
  payload : List UInt8
  room : Nat
deriving DecidableEq, Repr

/-- A call of `command_find_block`. -/
structure Look where
  sync : Sync
  seen : List UInt8
deriving DecidableEq, Repr

/-- The bytes that are removed after the call. -/
def Look.taken (l : Look) : List UInt8 := l.seen.take (commandFindBlock l.sync l.seen).popCount

/-- What a chip is built with. -/
structure Config where
  uuid : Vector UInt8 6
  haveBootloaderRequest : Bool

/-- `CanData` as far as it is received with and the state of the task, with what was sent, the
frames that arrived, the calls of `command_find_block` and the blocks that were dispatched. -/
structure CanData where
  assignedId : UInt32
  rxWake : Bool
  receivePos : Nat
  receiveBuf : Nat → UInt8
  adminPullPos : UInt32
  adminPushPos : UInt32
  adminQueue : Nat → CanMsg
  sync : Sync
  pc : Pc
  acks : Nat
  responses : List CanMsg
  arrivals : List Arrival
  looks : List Look
  dispatched : List (List UInt8)

inductive Action where
  /-- The interrupt receives a frame. -/
  | rx (msg : CanMsg)
  | task
  /-- `canserial_notify_rx` from elsewhere. -/
  | notify
deriving DecidableEq, Repr

/-- `canserial_process_data`. -/
def canserialProcessData (s : CanData) (msg : CanMsg) : CanData :=
  if s.assignedId ≠ 0 ∧ msg.id = s.assignedId then
    let s := { s with arrivals := s.arrivals ++ [⟨msg.payload, receiveSize - s.receivePos⟩] }
    if msg.dataLen > receiveSize - s.receivePos then s
    else
      { s with
        receiveBuf := Buffer.store s.receiveBuf s.receivePos msg.payload
        receivePos := s.receivePos + msg.dataLen
        rxWake := true }
  else if msg.id = canbusIdAdmin ∨ s.assignedId ≠ 0 ∧ msg.id = s.assignedId + 1 then
    if s.adminPushPos ≥ s.adminPullPos + UInt32.ofNat adminSize then s
    else
      { s with
        adminQueue := Function.update s.adminQueue (s.adminPushPos.toNat % adminSize) msg
        adminPushPos := s.adminPushPos + 1
        rxWake := true }
  else s

/-- `can_check_uuid`. -/
def canCheckUuid (c : Config) (msg : CanMsg) : Bool :=
  decide (msg.dlc ≥ 7) && (msg.data.toList.drop 1).take 6 == c.uuid.toList

def canDecodeNodeid (nodeid : UInt8) : UInt32 := (nodeid.toUInt32 <<< 1) + 0x100

/-- The answer of `can_process_query_unassigned`. -/
def needNodeid (c : Config) : CanMsg :=
  ⟨canbusIdAdminResp, 8,
    ⟨#[0x20, c.uuid[0], c.uuid[1], c.uuid[2], c.uuid[3], c.uuid[4], c.uuid[5], 0x01], rfl⟩⟩

/-- `can_id_conflict`. The shutdown leaves the task, and `canserial_shutdown` wakes it again. -/
def canIdConflict (s : CanData) : CanData :=
  { s with assignedId := 0, rxWake := true, pc := .idle }

/-- `can_process_admin`, which goes on with `next` if it returns. -/
def canProcessAdmin (c : Config) (s : CanData) (msg : CanMsg) (next : Pc) : CanData :=
  if msg.dlc = 0 then { s with pc := next }
  else if msg.data[0] = 0x00 then
    { s with
      responses := if s.assignedId ≠ 0 then s.responses else s.responses ++ [needNodeid c]
      pc := next }
  else if msg.data[0] = 0x01 then
    if msg.dlc < 8 then { s with pc := next }
    else if canCheckUuid c msg then
      { s with assignedId := canDecodeNodeid msg.data[7], pc := next }
    else if canDecodeNodeid msg.data[7] = s.assignedId then canIdConflict s
    else { s with pc := next }
  else if msg.data[0] = 0x02 then
    if !c.haveBootloaderRequest || !canCheckUuid c msg then { s with pc := next }
    else { s with pc := .bootloader }
  else { s with pc := next }

/-- A round of the loop over the admin messages. -/
def adminRound (c : Config) (s : CanData) (pushp : UInt32) : CanData :=
  let pullp := s.adminPullPos
  if pushp = pullp then { s with pc := .readPos }
  else
    let msg := s.adminQueue (pullp.toNat % adminSize)
    if s.assignedId ≠ 0 ∧ msg.id = s.assignedId + 1 then canIdConflict s
    else if msg.id = canbusIdAdmin then canProcessAdmin c s msg (.pull pullp)
    else { s with pc := .pull pullp }

/-- The call of `command_find_block`. -/
def findBlock (s : CanData) (rpos : Nat) : CanData :=
  let seen := Buffer.slice s.receiveBuf 0 rpos
  let f := commandFindBlock s.sync seen
  { s with
    sync := f.sync
    looks := s.looks ++ [⟨s.sync, seen⟩]
    pc :=
      match f.ret with
      | .block => .dispatch f.popCount
      | .needMore => .idle
      | .skip => .pop false f.popCount 0 }

/-- The copy of `console_pop_input`. -/
def popMove (s : CanData) (ack : Bool) (len copied rpos : Nat) : CanData :=
  let needcopy := rpos - len
  if rpos < len then { s with pc := .fault }
  else if needcopy = 0 then { s with pc := .check ack len copied rpos }
  else if needcopy < copied ∨ rpos > receiveSize then { s with pc := .fault }
  else
    { s with
      receiveBuf := Buffer.copy s.receiveBuf copied (copied + len) (needcopy - copied)
      rxWake := true
      pc := .check ack len needcopy rpos }

/-- The end of a round of `console_pop_input`, with interrupts disabled. -/
def popCheck (s : CanData) (ack : Bool) (len copied rpos : Nat) : CanData :=
  if rpos ≠ s.receivePos then { s with pc := .pop ack len copied }
  else { s with receivePos := rpos - len, pc := if ack then .sendAck else .idle }

/-- The next step of `canserial_rx_task`. -/
def canserialRxTask (c : Config) (s : CanData) : Option CanData :=
  match s.pc with
  | .idle => some { s with pc := if s.rxWake then .clearWake else .idle }
  | .clearWake => some { s with rxWake := false, pc := .readPush }
  | .readPush => some { s with pc := .admin s.adminPushPos }
  | .admin pushp => some (adminRound c s pushp)
  | .pull pullp => some { s with adminPullPos := pullp + 1, pc := .readPush }
  | .readPos => some { s with pc := .find s.receivePos }
  | .find rpos => some (findBlock s rpos)
  | .dispatch len =>
    some { s with
      dispatched := s.dispatched ++ [Buffer.slice s.receiveBuf 0 len]
      pc := .pop true len 0 }
  | .pop ack len copied => some { s with pc := .move ack len copied s.receivePos }
  | .move ack len copied rpos => some (popMove s ack len copied rpos)
  | .check ack len copied rpos => some (popCheck s ack len copied rpos)
  | .sendAck => some { s with acks := s.acks + 1, pc := .idle }
  | .fault => none
  | .bootloader => none

def step (c : Config) (s : CanData) : Action → Option CanData
  | .rx msg => some (canserialProcessData s msg)
  | .task => canserialRxTask c s
  | .notify => some { s with rxWake := true }

def Legal (_ : CanData) (_ : Action) : Prop := True

instance (s : CanData) (a : Action) : Decidable (Legal s a) := isTrue trivial

/-- Nothing has been received. The id may have been assigned before. -/
def start (assignedId : UInt32) (buf : Nat → UInt8) (queue : Nat → CanMsg) (sync : Sync) :
    CanData where
  assignedId := assignedId
  rxWake := false
  receivePos := 0
  receiveBuf := buf
  adminPullPos := 0
  adminPushPos := 0
  adminQueue := queue
  sync := sync
  pc := .idle
  acks := 0
  responses := []
  arrivals := []
  looks := []
  dispatched := []

/-- The payload stream without the frames that there was no room for. -/
def CanData.kept (s : CanData) : List UInt8 :=
  (s.arrivals.filter fun a => decide (a.payload.length ≤ a.room)).flatMap (·.payload)

/-- The bytes that were removed, or are going to be after the current call. -/
def CanData.taken (s : CanData) : List UInt8 := s.looks.flatMap (·.taken)

/-- Each call sees the start of what the calls before it have left. -/
def Sees : List Look → List UInt8 → Prop
  | [], _ => True
  | l :: ls, stream => l.seen <+: stream ∧ Sees ls (stream.drop l.taken.length)

/-- The bytes in the buffer that are not going to be removed after the current call. -/
def CanData.rest (s : CanData) : List UInt8 :=
  match s.pc with
  | .dispatch len => Buffer.behindGap s.receiveBuf len 0 s.receivePos
  | .pop _ len copied => Buffer.behindGap s.receiveBuf len copied s.receivePos
  | .move _ len copied _ => Buffer.behindGap s.receiveBuf len copied s.receivePos
  | .check _ len copied _ => Buffer.behindGap s.receiveBuf len copied s.receivePos
  | _ => Buffer.slice s.receiveBuf 0 s.receivePos

/-- What the task knows at each point. -/
def CanData.Bounds (s : CanData) : Prop :=
  match s.pc with
  | .find rpos => rpos ≤ s.receivePos
  | .dispatch len => len ≤ s.receivePos
  | .pop _ len copied => len + copied ≤ s.receivePos
  | .move _ len copied rpos => len + copied ≤ rpos ∧ rpos ≤ s.receivePos
  | .check _ len copied rpos => len + copied = rpos ∧ rpos ≤ s.receivePos
  | .fault => False
  | _ => True

/-- A block that was found and is not dispatched yet. -/
def CanData.undispatched (s : CanData) : List (List UInt8) :=
  match s.pc with
  | .dispatch len => [Buffer.slice s.receiveBuf 0 len]
  | _ => []

/-- Nothing is left to do unless the task is going to look again. -/
def CanData.Settled (s : CanData) : Prop :=
  match s.pc with
  | .idle =>
    (commandFindBlock s.sync (Buffer.slice s.receiveBuf 0 s.receivePos)).ret = .needMore
  | .sendAck =>
    (commandFindBlock s.sync (Buffer.slice s.receiveBuf 0 s.receivePos)).ret = .needMore
  | .find rpos => rpos = s.receivePos
  | .check _ len _ rpos => rpos = len
  | _ => True

structure Inv (sync₀ : Sync) (s : CanData) : Prop where
  fits : s.receivePos ≤ receiveSize
  bounds : s.Bounds
  stream : s.taken ++ s.rest = s.kept
  sees : Sees s.looks s.kept
  parsed : Uart.Parsed sync₀ s.kept s.taken.length s.sync (s.dispatched ++ s.undispatched)
  settled : s.rxWake = false → s.Settled

section Streams

variable {ls : List Look} {stream more : List UInt8} {l : Look}

lemma Look.taken_prefix (l : Look) : l.taken <+: l.seen := List.take_prefix _ _

lemma Sees.append (h : Sees ls stream) (more : List UInt8) : Sees ls (stream ++ more) := by
  induction ls generalizing stream with
  | nil => trivial
  | cons l ls ih =>
    obtain ⟨hseen, hrest⟩ := h
    have hle : l.taken.length ≤ stream.length := (l.taken_prefix.trans hseen).length_le
    refine ⟨hseen.trans (List.prefix_append _ _), ?_⟩
    rw [List.drop_append_of_le_length hle]
    exact ih hrest

lemma Sees.snoc (h : Sees ls stream)
    (hl : l.seen <+: stream.drop (ls.flatMap (·.taken)).length) : Sees (ls ++ [l]) stream := by
  induction ls generalizing stream with
  | nil => exact ⟨hl, trivial⟩
  | cons l' ls ih =>
    obtain ⟨hseen, hrest⟩ := h
    refine ⟨hseen, ih hrest ?_⟩
    rwa [List.flatMap_cons, List.length_append, ← List.drop_drop] at hl

end Streams

section Rx

variable {s : CanData} {sync₀ : Sync} {msg : CanMsg}

lemma CanMsg.length_payload (msg : CanMsg) : msg.payload.length = msg.dataLen := by
  have hle : msg.dataLen ≤ 8 := by
    unfold CanMsg.dataLen
    split <;> omega
  rw [CanMsg.payload, List.length_take, Vector.length_toList]
  exact Nat.min_eq_left hle

lemma kept_rx (arrivals : List Arrival) (a : Arrival) :
    ((arrivals ++ [a]).filter fun a => decide (a.payload.length ≤ a.room)).flatMap (·.payload) =
      (arrivals.filter fun a => decide (a.payload.length ≤ a.room)).flatMap (·.payload) ++
        if a.payload.length ≤ a.room then a.payload else [] := by
  rw [List.filter_append, List.flatMap_append]
  congr 1
  by_cases hroom : a.payload.length ≤ a.room
  · rw [if_pos hroom, List.filter_cons_of_pos (by simpa using hroom)]
    exact List.append_nil _
  · rw [if_neg hroom, List.filter_cons_of_neg (by simpa using hroom)]
    rfl

lemma CanData.rest_store (hb : s.Bounds) (data : List UInt8) (arrivals : List Arrival) :
    CanData.rest { s with
      receiveBuf := Buffer.store s.receiveBuf s.receivePos data
      receivePos := s.receivePos + data.length
      arrivals := arrivals
      rxWake := true } = s.rest ++ data := by
  unfold CanData.Bounds at hb
  unfold CanData.rest
  dsimp only
  have hslice : Buffer.slice (Buffer.store s.receiveBuf s.receivePos data) 0
      (s.receivePos + data.length) = Buffer.slice s.receiveBuf 0 s.receivePos ++ data :=
    Buffer.slice_store_end data (Nat.zero_le s.receivePos)
  cases hpc : s.pc <;> rw [hpc] at hb
  case dispatch len => exact Buffer.behindGap_store data hb
  case pop ack len copied => exact Buffer.behindGap_store data hb
  case move ack len copied rpos => exact Buffer.behindGap_store data (Nat.le_trans hb.1 hb.2)
  case check ack len copied rpos =>
    exact Buffer.behindGap_store data (Nat.le_trans (Nat.le_of_eq hb.1) hb.2)
  all_goals exact hslice

lemma CanData.undispatched_store (hb : s.Bounds) (data : List UInt8) (arrivals : List Arrival) :
    CanData.undispatched { s with
      receiveBuf := Buffer.store s.receiveBuf s.receivePos data
      receivePos := s.receivePos + data.length
      arrivals := arrivals
      rxWake := true } = s.undispatched := by
  unfold CanData.Bounds at hb
  unfold CanData.undispatched
  dsimp only
  cases hpc : s.pc <;> try rfl
  case dispatch len =>
    rw [hpc] at hb
    dsimp only
    rw [Buffer.slice_store_of_le (by dsimp only at hb; omega)]

lemma CanData.Bounds.mono (hb : s.Bounds) (buf : Nat → UInt8) {pos : Nat} (h : s.receivePos ≤ pos)
    (arrivals : List Arrival) :
    CanData.Bounds { s with
      receiveBuf := buf, receivePos := pos, arrivals := arrivals, rxWake := true } := by
  unfold CanData.Bounds at hb ⊢
  dsimp only
  cases hpc : s.pc <;> rw [hpc] at hb
  case find rpos => exact Nat.le_trans hb h
  case dispatch len => exact Nat.le_trans hb h
  case pop ack len copied => exact Nat.le_trans hb h
  case move ack len copied rpos => exact ⟨hb.1, Nat.le_trans hb.2 h⟩
  case check ack len copied rpos => exact ⟨hb.1, Nat.le_trans hb.2 h⟩
  case fault => exact hb
  all_goals trivial

lemma Inv.taken_le (h : Inv sync₀ s) : s.taken.length ≤ s.kept.length := by
  rw [← h.stream]
  exact (List.prefix_append _ _).length_le

lemma Inv.store (h : Inv sync₀ s) (hroom : msg.dataLen ≤ receiveSize - s.receivePos) :
    Inv sync₀ { s with
      arrivals := s.arrivals ++ [⟨msg.payload, receiveSize - s.receivePos⟩]
      receiveBuf := Buffer.store s.receiveBuf s.receivePos msg.payload
      receivePos := s.receivePos + msg.dataLen
      rxWake := true } := by
  have hfits := h.fits
  have hlen := msg.length_payload
  have hkept : CanData.kept { s with
      arrivals := s.arrivals ++ [⟨msg.payload, receiveSize - s.receivePos⟩] } =
      s.kept ++ msg.payload := by
    rw [← hlen] at hroom
    exact (kept_rx _ _).trans (congrArg (s.kept ++ ·) (if_pos hroom))
  rw [← hlen] at hroom ⊢
  refine ⟨?_, h.bounds.mono _ (Nat.le_add_right _ _) _, ?_, ?_, ?_, nofun⟩
  · dsimp only
    omega
  · rw [CanData.rest_store h.bounds]
    refine Eq.trans ?_ hkept.symm
    rw [← List.append_assoc]
    exact congrArg (· ++ msg.payload) h.stream
  · exact hkept ▸ h.sees.append msg.payload
  · rw [CanData.undispatched_store h.bounds]
    exact hkept ▸ h.parsed.append h.taken_le msg.payload

lemma Inv.drop (h : Inv sync₀ s) (hroom : ¬msg.dataLen ≤ receiveSize - s.receivePos) :
    Inv sync₀ { s with
      arrivals := s.arrivals ++ [⟨msg.payload, receiveSize - s.receivePos⟩] } := by
  have hkept : CanData.kept { s with
      arrivals := s.arrivals ++ [⟨msg.payload, receiveSize - s.receivePos⟩] } = s.kept := by
    rw [← msg.length_payload] at hroom
    exact (kept_rx _ _).trans ((congrArg (s.kept ++ ·) (if_neg hroom)).trans (List.append_nil _))
  exact ⟨h.fits, h.bounds, h.stream.trans hkept.symm, hkept ▸ h.sees, hkept ▸ h.parsed, h.settled⟩

lemma Inv.rx (h : Inv sync₀ s) (msg : CanMsg) : Inv sync₀ (canserialProcessData s msg) := by
  unfold canserialProcessData
  dsimp only
  split
  · split
    · rename_i hlong
      exact h.drop (Nat.not_le.mpr hlong)
    · rename_i hlong
      exact h.store (Nat.not_lt.mp hlong)
  · split
    · split
      · exact h
      · exact ⟨h.fits, h.bounds, h.stream, h.sees, h.parsed, nofun⟩
    · exact h

end Rx

section Task

variable {s s' : CanData} {c : Config} {sync₀ : Sync} {pc : Pc} {len copied rpos : Nat} {ack : Bool}

lemma Inv.at_pc (h : Inv sync₀ s) (hpc : s.pc = pc) : Inv sync₀ { s with pc := pc } := by
  cases hpc
  exact h

lemma Inv.adminRound (h : Inv sync₀ s) {pushp : UInt32} (hpc : s.pc = .admin pushp) :
    Inv sync₀ (adminRound c s pushp) := by
  have h := h.at_pc hpc
  have hidle : Inv sync₀ (canIdConflict s) :=
    ⟨h.fits, trivial, h.stream, h.sees, h.parsed, nofun⟩
  have hpull : ∀ pullp assignedId responses,
      Inv sync₀ { s with pc := .pull pullp, assignedId := assignedId, responses := responses } :=
    fun _ _ _ => ⟨h.fits, trivial, h.stream, h.sees, h.parsed, fun _ => trivial⟩
  have hboot : Inv sync₀ { s with pc := .bootloader } :=
    ⟨h.fits, trivial, h.stream, h.sees, h.parsed, fun _ => trivial⟩
  unfold CanSerial.adminRound
  dsimp only
  split
  · exact ⟨h.fits, trivial, h.stream, h.sees, h.parsed, fun _ => trivial⟩
  · split
    · exact hidle
    · split
      · unfold canProcessAdmin
        split_ifs
        all_goals first | exact hpull _ _ _ | exact hidle | exact hboot
      · exact hpull _ _ _

lemma commandFindBlock_nil (sync : Sync) : (commandFindBlock sync []).ret = .needMore := by
  unfold commandFindBlock
  rw [if_neg (fun hne => hne.1 rfl)]
  rfl

lemma Inv.seen_prefix (h : Inv sync₀ s) (hpc : s.pc = .find rpos) :
    Buffer.slice s.receiveBuf 0 rpos <+: s.kept.drop s.taken.length := by
  have h := h.at_pc hpc
  have hstream : s.taken ++ Buffer.slice s.receiveBuf 0 s.receivePos = s.kept := h.stream
  rw [← hstream, List.drop_left]
  exact Buffer.slice_isPrefix _ _ h.bounds

lemma Inv.found (h : Inv sync₀ s) (hpc : s.pc = .find rpos)
    (hret : (commandFindBlock s.sync (Buffer.slice s.receiveBuf 0 rpos)).ret ≠ .needMore) :
    let f := commandFindBlock s.sync (Buffer.slice s.receiveBuf 0 rpos)
    let taken := s.taken ++ Buffer.slice s.receiveBuf 0 f.popCount
    Look.taken ⟨s.sync, Buffer.slice s.receiveBuf 0 rpos⟩ = Buffer.slice s.receiveBuf 0 f.popCount ∧
      f.popCount ≤ s.receivePos ∧
      taken ++ Buffer.behindGap s.receiveBuf f.popCount 0 s.receivePos = s.kept ∧
      Uart.Parsed sync₀ s.kept taken.length f.sync
        (s.dispatched ++ blocks (f.events (Buffer.slice s.receiveBuf 0 rpos))) := by
  have hat := h.at_pc hpc
  have hle := (popCount_commandFindBlock hret).2
  rw [Buffer.length_slice] at hle
  have hpos := Nat.le_trans hle hat.bounds
  have hparsed : Uart.Parsed sync₀ s.kept s.taken.length s.sync s.dispatched :=
    List.append_nil s.dispatched ▸ hat.parsed
  refine ⟨Buffer.take_slice _ _ hle, hpos, ?_, ?_⟩
  · rw [List.append_assoc, Buffer.slice_append_behindGap hpos]
    exact hat.stream
  · rw [List.length_append, Buffer.length_slice]
    exact hparsed.find (h.seen_prefix hpc) hret

lemma Inv.findBlock (h : Inv sync₀ s) (hpc : s.pc = .find rpos) : Inv sync₀ (findBlock s rpos) := by
  have hat := h.at_pc hpc
  have hsees : Sees (s.looks ++ [⟨s.sync, Buffer.slice s.receiveBuf 0 rpos⟩]) s.kept :=
    h.sees.snoc (h.seen_prefix hpc)
  have htaken : ∀ l : Look, (s.looks ++ [l]).flatMap (·.taken) = s.taken ++ l.taken := by
    intro l
    rw [List.flatMap_append, List.flatMap_singleton]
    rfl
  unfold CanSerial.findBlock
  dsimp only
  cases hret : (commandFindBlock s.sync (Buffer.slice s.receiveBuf 0 rpos)).ret with
  | needMore =>
    have hf := commandFindBlock_needMore hret
    have hnil : Look.taken ⟨s.sync, Buffer.slice s.receiveBuf 0 rpos⟩ = [] := by
      rw [Look.taken, hf]
      rfl
    have htaken := (htaken _).trans ((congrArg (s.taken ++ ·) hnil).trans (List.append_nil _))
    rw [hf]
    refine ⟨h.fits, trivial, ?_, hsees, ?_, ?_⟩
    · exact (congrArg (· ++ _) htaken).trans hat.stream
    · exact (congrArg List.length htaken) ▸ hat.parsed
    · intro hw
      have hall : rpos = s.receivePos := hat.settled hw
      exact hall ▸ hret
  | block =>
    have hne : (commandFindBlock s.sync (Buffer.slice s.receiveBuf 0 rpos)).ret ≠ .needMore := by
      rw [hret]
      exact nofun
    obtain ⟨hlook, hle, hstream, hparsed⟩ := h.found hpc hne
    rw [blocks_events, if_pos hret] at hparsed
    have htaken := (htaken _).trans (congrArg (s.taken ++ ·) hlook)
    unfold Look.taken at hlook
    rw [hlook] at hparsed
    refine ⟨h.fits, hle, ?_, hsees, ?_, fun _ => trivial⟩
    · exact (congrArg (· ++ _) htaken).trans hstream
    · exact (congrArg List.length htaken) ▸ hparsed
  | skip =>
    have hne : (commandFindBlock s.sync (Buffer.slice s.receiveBuf 0 rpos)).ret ≠ .needMore := by
      rw [hret]
      exact nofun
    obtain ⟨hlook, hle, hstream, hparsed⟩ := h.found hpc hne
    rw [blocks_events, if_neg (by rw [hret]; exact nofun)] at hparsed
    have htaken := (htaken _).trans (congrArg (s.taken ++ ·) hlook)
    refine ⟨h.fits, hle, ?_, hsees, ?_, fun _ => trivial⟩
    · exact (congrArg (· ++ _) htaken).trans hstream
    · exact (congrArg List.length htaken) ▸ hparsed

lemma Inv.popMove (h : Inv sync₀ s) (hpc : s.pc = .move ack len copied rpos) :
    Inv sync₀ (popMove s ack len copied rpos) := by
  have h := h.at_pc hpc
  obtain ⟨hle, hpos⟩ := h.bounds
  have hfits := h.fits
  dsimp only at hpos hfits
  unfold CanSerial.popMove
  dsimp only
  rw [if_neg (by omega)]
  split
  · rename_i hzero
    exact ⟨hfits, ⟨by omega, hpos⟩, h.stream, h.sees, h.parsed,
      fun _ => (by omega : rpos = len)⟩
  · rw [if_neg (by omega)]
    refine ⟨hfits, ⟨by omega, hpos⟩, ?_, h.sees, h.parsed, nofun⟩
    refine Eq.trans ?_ h.stream
    exact congrArg (s.taken ++ ·) (Buffer.behindGap_copy hle hpos)

lemma Inv.popCheck (h : Inv sync₀ s) (hpc : s.pc = .check ack len copied rpos) :
    Inv sync₀ (popCheck s ack len copied rpos) := by
  have h := h.at_pc hpc
  obtain ⟨hle, hpos⟩ := h.bounds
  have hfits := h.fits
  dsimp only at hpos hfits
  unfold CanSerial.popCheck
  split
  · exact ⟨hfits, Nat.le_trans (Nat.le_of_eq hle) hpos, h.stream, h.sees, h.parsed,
      fun _ => trivial⟩
  · rename_i hsame
    obtain rfl : rpos = s.receivePos := not_not.mp hsame
    have hclosed : Buffer.behindGap s.receiveBuf len copied s.receivePos =
        Buffer.slice s.receiveBuf 0 (s.receivePos - len) := Buffer.behindGap_closed hle
    have hstream : s.taken ++ Buffer.slice s.receiveBuf 0 (s.receivePos - len) = s.kept :=
      hclosed ▸ h.stream
    have hempty : s.rxWake = false →
        (commandFindBlock s.sync (Buffer.slice s.receiveBuf 0 (s.receivePos - len))).ret =
          .needMore := by
      intro hw
      have hlen : s.receivePos = len := h.settled hw
      rw [hlen, Nat.sub_self]
      exact commandFindBlock_nil s.sync
    cases ack
    · exact ⟨Nat.le_trans (Nat.sub_le _ _) hfits, trivial, hstream, h.sees, h.parsed, hempty⟩
    · exact ⟨Nat.le_trans (Nat.sub_le _ _) hfits, trivial, hstream, h.sees, h.parsed, hempty⟩

lemma Inv.task (h : Inv sync₀ s) (hs : canserialRxTask c s = some s') : Inv sync₀ s' := by
  unfold canserialRxTask at hs
  cases hpc : s.pc <;> rw [hpc] at hs <;> cases hs
  all_goals have hat := h.at_pc hpc
  case idle =>
    cases hw : s.rxWake
    · exact ⟨h.fits, trivial, hat.stream, h.sees, hat.parsed, fun _ => hat.settled hw⟩
    · exact ⟨h.fits, trivial, hat.stream, h.sees, hat.parsed, fun _ => trivial⟩
  case clearWake => exact ⟨h.fits, trivial, hat.stream, h.sees, hat.parsed, fun _ => trivial⟩
  case readPush => exact ⟨h.fits, trivial, hat.stream, h.sees, hat.parsed, fun _ => trivial⟩
  case admin pushp => exact h.adminRound hpc
  case pull pullp => exact ⟨h.fits, trivial, hat.stream, h.sees, hat.parsed, fun _ => trivial⟩
  case readPos =>
    exact ⟨h.fits, Nat.le_refl _, hat.stream, h.sees, hat.parsed, fun _ => rfl⟩
  case find rpos => exact h.findBlock hpc
  case dispatch len =>
    refine ⟨h.fits, hat.bounds, hat.stream, h.sees, ?_, fun _ => trivial⟩
    exact (List.append_nil _).symm ▸ hat.parsed
  case pop ack len copied =>
    exact ⟨h.fits, ⟨hat.bounds, Nat.le_refl _⟩, hat.stream, h.sees, hat.parsed, fun _ => trivial⟩
  case move ack len copied rpos => exact h.popMove hpc
  case check ack len copied rpos => exact h.popCheck hpc
  case sendAck => exact ⟨h.fits, trivial, hat.stream, h.sees, hat.parsed, hat.settled⟩

lemma Inv.step {a : Action} (h : Inv sync₀ s) (hs : CanSerial.step c s a = some s') :
    Inv sync₀ s' := by
  cases a with
  | rx msg =>
    cases hs
    exact h.rx msg
  | task => exact h.task hs
  | notify =>
    cases hs
    exact ⟨h.fits, h.bounds, h.stream, h.sees, h.parsed, nofun⟩

end Task

/-- The calls of `command_find_block` see the payload stream without the frames that there was no
room for. Each of them sees the start of what is left, what they take is removed, and the buffer
holds the rest. The blocks that are dispatched are those of this stream, and there are no more of
them when the task has nothing to do. -/
theorem sees_kept {c : Config} {assignedId : UInt32} {buf : Nat → UInt8} {queue : Nat → CanMsg}
    {sync₀ : Sync} {actions : List Action} {s : CanData}
    (h : Run (step c) Legal (start assignedId buf queue sync₀) actions s) :
    s.pc ≠ .fault ∧ s.receivePos ≤ receiveSize ∧
      Sees s.looks s.kept ∧ s.taken <+: s.kept ∧
      s.dispatched <+: blocks (blockFinder.feed sync₀ s.kept).out ∧
      (s.pc = .idle →
        s.taken ++ Buffer.slice s.receiveBuf 0 s.receivePos = s.kept ∧
        (s.rxWake = false →
          (commandFindBlock s.sync (Buffer.slice s.receiveBuf 0 s.receivePos)).ret = .needMore ∧
          s.dispatched = blocks (blockFinder.feed sync₀ s.kept).out)) := by
  have hinv : Inv sync₀ s := by
    apply h.invariant
    · exact ⟨Nat.zero_le _, trivial, rfl, trivial, ⟨[], rfl, fun _ => rfl⟩,
        fun _ => commandFindBlock_nil sync₀⟩
    · intro s a s' hi _ hs
      exact hi.step hs
  have hblocks := hinv.parsed.blocks_eq
  refine ⟨?_, hinv.fits, hinv.sees, ⟨s.rest, hinv.stream⟩, ?_, ?_⟩
  · intro hpc
    exact (hinv.at_pc hpc).bounds
  · rw [hblocks, List.append_assoc]
    exact List.prefix_append _ _
  · intro hpc
    have hstream : s.taken ++ Buffer.slice s.receiveBuf 0 s.receivePos = s.kept :=
      (hinv.at_pc hpc).stream
    refine ⟨hstream, fun hw => ?_⟩
    have hmore : (commandFindBlock s.sync (Buffer.slice s.receiveBuf 0 s.receivePos)).ret =
        .needMore := (hinv.at_pc hpc).settled hw
    have hund : s.undispatched = [] := by
      unfold CanData.undispatched
      rw [hpc]
    have hnone : blockFinder.find s.sync (s.kept.drop s.taken.length) = none := by
      rw [← hstream, List.drop_left]
      exact if_pos hmore
    rw [hblocks, hund, List.append_nil, Finder.feed_of_none hnone]
    exact ⟨hmore, (List.append_nil _).symm⟩

/-- A frame to the first node id. -/
def toNode (bytes : List UInt8) : Action :=
  .rx ⟨0x100, bytes.length,
    ⟨#[bytes.getD 0 0, bytes.getD 1 0, bytes.getD 2 0, bytes.getD 3 0, bytes.getD 4 0,
      bytes.getD 5 0, bytes.getD 6 0, bytes.getD 7 0], rfl⟩⟩

/-- Three full blocks fill the buffer, so that the frame of a fourth one is dropped. It is sent again
while the second block is removed. -/
def fullBuffer : List Action :=
  (([0x10, 0x11, 0x12].flatMap fun seq => commandAddFrame seq (List.replicate 59 0)).toChunks 8).map
      toNode ++
    [toNode (commandAddFrame 0x13 [])] ++ List.replicate 22 Action.task ++
    [toNode (commandAddFrame 0x13 [])] ++ List.replicate 28 Action.task

theorem sees_kept_fullBuffer : ∃ s, Run (step ⟨⟨#[0, 0, 0, 0, 0, 0], rfl⟩, false⟩) Legal
      (start 0x100 (fun _ => 0) (fun _ => ⟨0, 0, ⟨#[0, 0, 0, 0, 0, 0, 0, 0], rfl⟩⟩)
        ⟨false, false, messageDest⟩) fullBuffer s ∧
      s.arrivals.length = 26 ∧ s.kept.length = 197 ∧ s.taken = s.kept ∧ s.dispatched.length = 4 := by
  obtain ⟨s, hs, hp⟩ : ∃ s, Run (step ⟨⟨#[0, 0, 0, 0, 0, 0], rfl⟩, false⟩) Legal
      (start 0x100 (fun _ => 0) (fun _ => ⟨0, 0, ⟨#[0, 0, 0, 0, 0, 0, 0, 0], rfl⟩⟩)
        ⟨false, false, messageDest⟩) fullBuffer s ∧
      decide (s.pc = .idle ∧ s.receivePos = 0 ∧ s.arrivals.length = 26 ∧ s.kept.length = 197 ∧
        s.dispatched.length = 4) = true :=
    Run.exists_of_exec fullBuffer _ (by decide +kernel)
  obtain ⟨hpc, hpos, ha, hk, hd⟩ := of_decide_eq_true hp
  have hall := ((sees_kept hs).2.2.2.2.2 hpc).1
  rw [hpos, Buffer.slice_zero, List.append_nil] at hall
  exact ⟨s, hs, ha, hk, hall, hd⟩

end KlipperMcu.CanSerial
