import KlipperMcu.Firmware.FindBlock

/-!
# The host side of the serial protocol

The functions of serialqueue.c that build message blocks, send them again and take the messages of
the micro-controller. Times are floating point numbers in the source and only decide when an event
runs; the clocks that are computed from them are arguments here.
-/

namespace KlipperMcu.Serial

open Wire

def maxPendingBlocks : UInt64 := 12
def maxClock : UInt64 := 0x7fffffffffffffff
def backgroundPriorityClock : UInt64 := 0x7fffffff00000000
def messagePayloadMax : Nat := messageMax - messageMin

/-- `struct queue_message` on a command queue or on the notify queue. -/
structure QueueMessage where
  msg : List UInt8
  minClock : UInt64
  reqClock : UInt64
  notifyId : UInt64
deriving DecidableEq, Repr

structure CommandQueue where
  ready : List QueueMessage
  upcoming : List QueueMessage
deriving DecidableEq, Repr

/-- What is passed on to the receiver thread. -/
inductive Received where
  | data (msg : List UInt8)
  | notify (notifyId : UInt64)
deriving DecidableEq, Repr

/-- The retransmit timer: `PR_NOW`, `PR_NEVER` or a time. -/
inductive Timer where
  | now
  | never
  | later
deriving DecidableEq, Repr

/-- `struct serialqueue`. The command queues are numbered, and `pendingQueues` lists those that are
linked. -/
structure SerialQueue where
  needSync : Bool
  receiveWindow : Int
  sendSeq : UInt64
  receiveSeq : UInt64
  ignoreNakSeq : UInt64
  lastAckSeq : UInt64
  retransmitSeq : UInt64
  sentQueue : List (List UInt8)
  retransmitTimer : Timer
  commandQueue : Nat → CommandQueue
  pendingQueues : List Nat
  readyBytes : Int
  upcomingBytes : Int
  needAckBytes : Int
  lastAckBytes : Int
  needKickClock : UInt64
  notifyQueue : List QueueMessage
  receiveQueue : List Received

/-- Removes messages from the sent queue, whose first one has the sequence number `sentSeq`. The
results are what is left and the message that `rseq` acknowledges. -/
def removeSent (rseq : UInt64) : UInt64 → List (List UInt8) → List (List UInt8) × Option (List UInt8)
  | _, [] => ([], none)
  | sentSeq, sent :: queue =>
    if rseq = sentSeq + 1 then (queue, some sent) else removeSent rseq (sentSeq + 1) queue

def sumLength (msgs : List (List UInt8)) : Int := ((msgs.map List.length).sum : Nat)

def updateReceiveSeq (sq : SerialQueue) (rseq : UInt64) : SerialQueue :=
  let (queue, found) := removeSent rseq sq.receiveSeq sq.sentQueue
  { sq with
    sentQueue := queue
    needAckBytes := sq.needAckBytes - (sumLength sq.sentQueue - sumLength queue)
    sendSeq := if found.isNone then rseq else sq.sendSeq
    lastAckBytes := (found.map fun sent => (sent.length : Int)).getD sq.lastAckBytes
    receiveSeq := rseq
    retransmitTimer := if queue = [] then .never else .later }

/-- The sequence number in a message, expanded to 64 bits. -/
def expandSeq (receiveSeq : UInt64) (msgseq : UInt8) : UInt64 :=
  receiveSeq + ((msgseq.toUInt64 - receiveSeq) &&& messageSeqMask.toUInt64)

/-- The messages of the notify queue that are complete at `wakeSeq`. -/
def completed (wakeSeq : UInt64) (qm : QueueMessage) : Bool := !(qm.reqClock > wakeSeq)

/-- The part of `handle_message` that follows the update of the sequence number. -/
def takeMessage (sq : SerialQueue) (rseq : UInt64) (msg : List UInt8) : SerialQueue :=
  let wakeSeq := rseq - 1 - if msg.length > messageMin then 1 else 0
  let done := sq.notifyQueue.takeWhile (completed wakeSeq)
  let sq : SerialQueue := { sq with
    notifyQueue := sq.notifyQueue.dropWhile (completed wakeSeq)
    receiveQueue := sq.receiveQueue ++ done.map fun qm => .notify qm.notifyId }
  if msg.length = messageMin then
    if sq.lastAckSeq < rseq then { sq with lastAckSeq := rseq }
    else if rseq > sq.ignoreNakSeq ∧ sq.sentQueue ≠ [] then { sq with retransmitTimer := .now }
    else sq
  else { sq with receiveQueue := sq.receiveQueue ++ [.data msg] }

/-- `handle_message` for the well formed message `msg`. -/
def handleMessage (sq : SerialQueue) (msg : List UInt8) : SerialQueue :=
  let rseq := expandSeq sq.receiveSeq (msg.getD 1 0)
  if rseq ≠ sq.receiveSeq then
    if rseq > sq.sendSeq ∧ sq.receiveSeq ≠ 1 then sq
    else takeMessage (updateReceiveSeq sq rseq) rseq msg
  else takeMessage sq rseq msg

/-- The result of `msgblock_check`: 0, a length, or minus the bytes to skip. -/
inductive Checked where
  | needMore
  | message (len : Nat)
  | skip (len : Nat)
deriving DecidableEq, Repr

/-- `msgblock_check` with the new value of `need_sync`. -/
def msgblockCheck (needSync : Bool) (buf : List UInt8) : Bool × Checked :=
  let error :=
    match buf.findIdx? (· == messageSync) with
    | some i => (false, Checked.skip (i + 1))
    | none => (true, Checked.skip buf.length)
  if buf.length < messageMin then (needSync, .needMore)
  else if needSync then error
  else
    match checkBlock buf with
    | .more => (needSync, .needMore)
    | .bad => error
    | .valid msglen => (needSync, .message msglen)

/-- `retransmit_event`. All blocks of the sent queue are written again, behind a SYNC. -/
def retransmitEvent (sq : SerialQueue) : SerialQueue :=
  let ignoreNakSeq :=
    if sq.retransmitTimer = .now then
      if sq.receiveSeq < sq.retransmitSeq then sq.retransmitSeq else sq.receiveSeq
    else sq.sendSeq
  { sq with
    ignoreNakSeq := ignoreNakSeq
    retransmitSeq := sq.sendSeq
    retransmitTimer := .later }

/-- The first ready message of a pending queue with the lowest `req_clock` below `minClock`. -/
def findReady (commandQueue : Nat → CommandQueue) (minClock : UInt64) (best : Option (Nat × QueueMessage)) :
    List Nat → Option (Nat × QueueMessage)
  | [] => best
  | q :: queues =>
    match (commandQueue q).ready with
    | [] => findReady commandQueue minClock best queues
    | m :: _ =>
      if m.reqClock < minClock then findReady commandQueue m.reqClock (some (q, m)) queues
      else findReady commandQueue minClock best queues

/-- Removes the first ready message `qm` from queue `q`. -/
def takeReady (sq : SerialQueue) (q : Nat) (qm : QueueMessage) : SerialQueue :=
  let cq := { sq.commandQueue q with ready := (sq.commandQueue q).ready.tail }
  { sq with
    commandQueue := Function.update sq.commandQueue q cq
    pendingQueues :=
      if cq.ready = [] ∧ cq.upcoming = [] then sq.pendingQueues.erase q else sq.pendingQueues
    readyBytes := sq.readyBytes - qm.msg.length
    notifyQueue :=
      if qm.notifyId ≠ 0 then sq.notifyQueue ++ [{ qm with reqClock := sq.sendSeq }]
      else sq.notifyQueue }

/-- The loop of `build_and_send_command` with the payload so far. It is `none` when it follows the
null pointer of a message that it has not found, or does not end within `fuel` rounds. -/
def packMessages : Nat → SerialQueue → List UInt8 → Option (SerialQueue × List UInt8)
  | fuel, sq, payload =>
    if sq.readyBytes = 0 then some (sq, payload)
    else
      match findReady sq.commandQueue maxClock none sq.pendingQueues with
      | none => none
      | some (q, qm) =>
        if messageHeaderSize + payload.length + qm.msg.length > messageMax - messageTrailerSize then
          some (sq, payload)
        else
          match fuel with
          | 0 => none
          | fuel + 1 => packMessages fuel (takeReady sq q qm) (payload ++ qm.msg)

def SerialQueue.readyCount (sq : SerialQueue) : Nat :=
  (sq.pendingQueues.map fun q => (sq.commandQueue q).ready.length).sum

def seqByte (seq : UInt64) : UInt8 := messageDest ||| (seq &&& messageSeqMask.toUInt64).toUInt8

/-- `build_and_send_command` with the block that it builds. -/
def buildAndSendCommand (sq : SerialQueue) : Option (SerialQueue × List UInt8) :=
  (packMessages sq.readyCount sq []).map fun (sq, payload) =>
    let out := commandAddFrame (seqByte sq.sendSeq) payload
    ({ sq with
      retransmitTimer := if sq.sentQueue = [] then .later else sq.retransmitTimer
      sendSeq := sq.sendSeq + 1
      needAckBytes := sq.needAckBytes + out.length
      sentQueue := sq.sentQueue ++ [out] }, out)

/-- The clocks that `check_send_command` computes from times: when a message sent now arrives, the
deadline of background messages, and how long before its `req_clock` a message is sent, if the
frequency of the micro-controller is known. -/
structure SendClocks where
  ackClock : UInt64
  bgClock : UInt64
  reqclockDelta : Option UInt64
deriving DecidableEq, Repr

/-- Why no more messages can be sent before an ack. -/
def windowFull (sq : SerialQueue) : Bool :=
  (sq.sendSeq - sq.receiveSeq ≥ maxPendingBlocks && sq.receiveSeq != -1) ||
    (sq.sendSeq > sq.receiveSeq && sq.receiveWindow != 0 &&
      sq.needAckBytes + messageMax +
        (if sq.lastAckSeq < sq.receiveSeq then sq.lastAckBytes else 0) > sq.receiveWindow)

/-- The upcoming messages of a queue that are ready at `ackClock`. -/
def stalledReady (ackClock : UInt64) (qm : QueueMessage) : Bool := !(ackClock < qm.minClock)

/-- Moves messages of queue `q` from the upcoming to the ready queue. -/
def moveStalled (ackClock : UInt64) (sq : SerialQueue) (q : Nat) : SerialQueue :=
  let cq := sq.commandQueue q
  let moved := cq.upcoming.takeWhile (stalledReady ackClock)
  let len := sumLength (moved.map QueueMessage.msg)
  { sq with
    commandQueue := Function.update sq.commandQueue q
      ⟨cq.ready ++ moved, cq.upcoming.dropWhile (stalledReady ackClock)⟩
    upcomingBytes := sq.upcomingBytes - len
    readyBytes := sq.readyBytes + len }

/-- The lowest clock in a list, or `maxClock`. -/
def minClockOf (clocks : List UInt64) : UInt64 := clocks.foldl min maxClock

def minStalledClock (sq : SerialQueue) : UInt64 :=
  minClockOf (sq.pendingQueues.filterMap fun q =>
    (sq.commandQueue q).upcoming.head?.map QueueMessage.minClock)

def minReadyClock (sq : SerialQueue) (bgClock : UInt64) : UInt64 :=
  minClockOf (sq.pendingQueues.filterMap fun q =>
    (sq.commandQueue q).ready.head?.map fun qm =>
      if qm.reqClock = backgroundPriorityClock then bgClock else qm.reqClock)

/-- `check_send_command` with whether it returns `PR_NOW`. -/
def checkSendCommand (sq : SerialQueue) (clocks : SendClocks) : SerialQueue × Bool :=
  if windowFull sq then (sq, false)
  else
    let sq := sq.pendingQueues.foldl (moveStalled clocks.ackClock) sq
    if sq.readyBytes ≥ messagePayloadMax then (sq, true)
    else
      match clocks.reqclockDelta with
      | none =>
        if sq.readyBytes ≠ 0 then (sq, true) else ({ sq with needKickClock := maxClock }, false)
      | some delta =>
        if minReadyClock sq clocks.bgClock ≤ clocks.ackClock + delta then (sq, true)
        else
          ({ sq with
            needKickClock := min (minReadyClock sq clocks.bgClock - delta) (minStalledClock sq) },
            false)

/-- One round of the loop of `command_event` that sends a block. -/
def commandEventRound (sq : SerialQueue) (clocks : SendClocks) : Option (SerialQueue × List UInt8) :=
  match checkSendCommand sq clocks with
  | (sq, true) => buildAndSendCommand sq
  | (_, false) => none

/-- `min_clock` as `serialqueue_send_batch` sets it. -/
def limitMinClock (qm : QueueMessage) : QueueMessage :=
  if qm.minClock + 0x80000000 < qm.reqClock ∧ qm.reqClock ≠ backgroundPriorityClock then
    { qm with minClock := qm.reqClock - 0x80000000 }
  else qm

/-- `serialqueue_send_batch` on queue `q`. -/
def serialqueueSendBatch (sq : SerialQueue) (q : Nat) (msgs : List QueueMessage) : SerialQueue :=
  let msgs := msgs.map limitMinClock
  let len := sumLength (msgs.map QueueMessage.msg)
  if len = 0 then sq
  else
    let cq := sq.commandQueue q
    let kick := (msgs.head?.map fun qm => decide (qm.minClock < sq.needKickClock)).getD false
    { sq with
      pendingQueues :=
        if cq.ready = [] ∧ cq.upcoming = [] then sq.pendingQueues ++ [q] else sq.pendingQueues
      commandQueue := Function.update sq.commandQueue q { cq with upcoming := cq.upcoming ++ msgs }
      upcomingBytes := sq.upcomingBytes + len
      needKickClock := if kick then 0 else sq.needKickClock }

/-- The state of the sliding window: `send_seq`, `receive_seq` and the sent queue. -/
structure Outstanding where
  sendSeq : UInt64
  receiveSeq : UInt64
  sentQueue : List (List UInt8)

def SerialQueue.outstanding (sq : SerialQueue) : Outstanding :=
  ⟨sq.sendSeq, sq.receiveSeq, sq.sentQueue⟩

section Outstanding

variable {sq sq' : SerialQueue} {payload payload' : List UInt8}

lemma takeMessage_eq (sq : SerialQueue) (rseq : UInt64) (msg : List UInt8) :
    ∃ notifyQueue receiveQueue lastAckSeq retransmitTimer, takeMessage sq rseq msg = { sq with
      notifyQueue := notifyQueue
      receiveQueue := receiveQueue
      lastAckSeq := lastAckSeq
      retransmitTimer := retransmitTimer } := by
  unfold takeMessage
  dsimp only
  split_ifs
  all_goals exact ⟨_, _, _, _, rfl⟩

@[simp] lemma outstanding_takeMessage (sq : SerialQueue) (rseq : UInt64) (msg : List UInt8) :
    (takeMessage sq rseq msg).outstanding = sq.outstanding := by
  obtain ⟨notifyQueue, receiveQueue, lastAckSeq, retransmitTimer, heq⟩ := takeMessage_eq sq rseq msg
  rw [heq]
  rfl

lemma handleMessage_cases (sq : SerialQueue) (msg : List UInt8) :
    let rseq := expandSeq sq.receiveSeq (msg.getD 1 0)
    handleMessage sq msg = sq ∨ handleMessage sq msg = takeMessage sq rseq msg ∨
      rseq ≠ sq.receiveSeq ∧
        handleMessage sq msg = takeMessage (updateReceiveSeq sq rseq) rseq msg := by
  unfold handleMessage
  dsimp only
  split
  · rename_i hne
    split
    · exact Or.inl rfl
    · exact Or.inr (Or.inr ⟨hne, rfl⟩)
  · exact Or.inr (Or.inl rfl)

@[simp] lemma outstanding_retransmitEvent (sq : SerialQueue) :
    (retransmitEvent sq).outstanding = sq.outstanding := rfl

@[simp] lemma outstanding_serialqueueSendBatch (sq : SerialQueue) (q : Nat)
    (msgs : List QueueMessage) : (serialqueueSendBatch sq q msgs).outstanding = sq.outstanding := by
  unfold serialqueueSendBatch
  dsimp only
  split <;> rfl

lemma outstanding_foldl_moveStalled (ackClock : UInt64) (queues : List Nat) (sq : SerialQueue) :
    (queues.foldl (moveStalled ackClock) sq).outstanding = sq.outstanding := by
  induction queues generalizing sq with
  | nil => rfl
  | cons q queues ih => exact ih _

@[simp] lemma outstanding_checkSendCommand (sq : SerialQueue) (clocks : SendClocks) :
    (checkSendCommand sq clocks).1.outstanding = sq.outstanding := by
  have hmove := outstanding_foldl_moveStalled clocks.ackClock sq.pendingQueues sq
  unfold checkSendCommand
  split
  · rfl
  · dsimp only
    split
    · exact hmove
    · split <;> split <;> exact hmove

lemma packMessages_spec {fuel : Nat} (h : packMessages fuel sq payload = some (sq', payload'))
    (hlen : payload.length ≤ messagePayloadMax) :
    sq'.outstanding = sq.outstanding ∧ payload'.length ≤ messagePayloadMax := by
  induction fuel generalizing sq payload with
  | zero =>
    rw [packMessages] at h
    split at h
    · cases h
      exact ⟨rfl, hlen⟩
    · split at h
      · cases h
      · split at h <;> cases h
        exact ⟨rfl, hlen⟩
  | succ fuel ih =>
    rw [packMessages] at h
    split at h
    · cases h
      exact ⟨rfl, hlen⟩
    · split at h
      · cases h
      · rename_i q qm _
        split at h
        · cases h
          exact ⟨rfl, hlen⟩
        · rename_i hfit
          have hnew : (payload ++ qm.msg).length ≤ messagePayloadMax := by
            rw [List.length_append]
            unfold messagePayloadMax messageMin
            unfold messageHeaderSize messageTrailerSize at hfit
            omega
          obtain ⟨hsame, hle⟩ := ih h hnew
          exact ⟨hsame, hle⟩

lemma buildAndSendCommand_spec {out : List UInt8} (h : buildAndSendCommand sq = some (sq', out)) :
    ∃ payload, payload.length ≤ messagePayloadMax ∧
      out = commandAddFrame (seqByte sq.sendSeq) payload ∧
      sq'.outstanding = ⟨sq.sendSeq + 1, sq.receiveSeq, sq.sentQueue ++ [out]⟩ := by
  obtain ⟨⟨sq₁, payload⟩, hpack, hout⟩ := Option.map_eq_some_iff.mp h
  obtain ⟨hsame, hlen⟩ := packMessages_spec hpack (Nat.zero_le _)
  have hsend : sq₁.sendSeq = sq.sendSeq := congrArg Outstanding.sendSeq hsame
  have hrecv : sq₁.receiveSeq = sq.receiveSeq := congrArg Outstanding.receiveSeq hsame
  have hsent : sq₁.sentQueue = sq.sentQueue := congrArg Outstanding.sentQueue hsame
  cases hout
  refine ⟨payload, hlen, by rw [hsend], ?_⟩
  simp only [SerialQueue.outstanding, hsend, hrecv, hsent]

lemma commandEventRound_spec {clocks : SendClocks} {out : List UInt8}
    (h : commandEventRound sq clocks = some (sq', out)) :
    windowFull sq = false ∧ ∃ payload, payload.length ≤ messagePayloadMax ∧
      out = commandAddFrame (seqByte sq.sendSeq) payload ∧
      sq'.outstanding = ⟨sq.sendSeq + 1, sq.receiveSeq, sq.sentQueue ++ [out]⟩ := by
  have hsame := outstanding_checkSendCommand sq clocks
  unfold commandEventRound at h
  split at h
  · rename_i sq₁ hcheck
    rw [hcheck] at hsame
    obtain ⟨payload, hlen, hout, hnew⟩ := buildAndSendCommand_spec h
    have hsend : sq₁.sendSeq = sq.sendSeq := congrArg Outstanding.sendSeq hsame
    have hrecv : sq₁.receiveSeq = sq.receiveSeq := congrArg Outstanding.receiveSeq hsame
    have hsent : sq₁.sentQueue = sq.sentQueue := congrArg Outstanding.sentQueue hsame
    rw [hsend, hrecv, hsent] at hnew
    rw [hsend] at hout
    refine ⟨?_, payload, hlen, hout, hnew⟩
    unfold checkSendCommand at hcheck
    split at hcheck
    · cases hcheck
    · rename_i hfull
      exact eq_false_of_ne_true hfull
  · cases h

end Outstanding

section Sequence

lemma toNat_seqByte (seq : UInt64) : (seqByte seq).toNat = 16 + seq.toNat % 16 := by
  have hor : ∀ n, n < 16 → 16 ||| n = 16 + n := by decide
  have hmask : seq.toNat &&& 15 = seq.toNat % 16 := Nat.and_two_pow_sub_one_eq_mod _ 4
  unfold seqByte messageDest messageSeqMask
  rw [UInt8.toNat_or, UInt64.toNat_toUInt8, UInt64.toNat_and]
  change 16 ||| (seq.toNat &&& 15) % 2 ^ 8 = _
  rw [hmask, hor _ (by omega)]
  omega

lemma seqByte_dest (seq : UInt64) : seqByte seq &&& ~~~messageSeqMask = messageDest := by
  have hall : ∀ n < 16, UInt8.ofNat (16 + n) &&& ~~~messageSeqMask = messageDest := by decide
  have hseq : seqByte seq = UInt8.ofNat (16 + seq.toNat % 16) := by
    rw [← toNat_seqByte, UInt8.ofNat_toNat]
  rw [hseq]
  exact hall _ (Nat.mod_lt _ (by decide))

lemma seqByte_eq_iff (x y : UInt64) : seqByte x = seqByte y ↔ x.toNat % 16 = y.toNat % 16 := by
  rw [← UInt8.toNat_inj, toNat_seqByte, toNat_seqByte]
  omega

lemma seqByte_add_one (seq : UInt64) :
    ((seqByte seq + 1) &&& messageSeqMask) ||| messageDest = seqByte (seq + 1) := by
  have hor : ∀ n, n < 16 → n ||| 16 = 16 + n := by decide
  have hmask : ∀ n, n &&& 15 = n % 16 := fun n => Nat.and_two_pow_sub_one_eq_mod n 4
  rw [← UInt8.toNat_inj, toNat_seqByte, UInt8.toNat_or, UInt8.toNat_and, UInt8.toNat_add,
    toNat_seqByte, UInt64.toNat_add]
  change (16 + seq.toNat % 16 + 1) % 2 ^ 8 &&& 15 ||| 16 = 16 + (seq.toNat + 1) % 2 ^ 64 % 16
  rw [hmask, hor _ (by omega)]
  omega

lemma expandSeq_seqByte {receiveSeq seq : UInt64} (h : (seq - receiveSeq).toNat < 16) :
    expandSeq receiveSeq (seqByte seq) = seq := by
  have hr := receiveSeq.toNat_lt
  have hs := seq.toNat_lt
  have hmask : ∀ n, n &&& 15 = n % 16 := fun n => Nat.and_two_pow_sub_one_eq_mod n 4
  unfold expandSeq
  rw [UInt64.toNat_sub] at h
  rw [← UInt64.toNat_inj, UInt64.toNat_add, UInt64.toNat_and, UInt64.toNat_sub,
    UInt8.toNat_toUInt64, toNat_seqByte]
  change (receiveSeq.toNat + ((2 ^ 64 - receiveSeq.toNat + (16 + seq.toNat % 16)) % 2 ^ 64 &&& 15)) %
    2 ^ 64 = seq.toNat
  rw [hmask]
  omega

lemma removeSent_eq (seq : UInt64) {k : Nat} {queue : List (List UInt8)} (hk : k < queue.length)
    (hlen : queue.length < 2 ^ 64) :
    removeSent (seq + UInt64.ofNat (k + 1)) seq queue = (queue.drop (k + 1), queue[k]?) := by
  induction k generalizing seq queue with
  | zero =>
    cases queue with
    | nil => exact absurd hk (Nat.not_lt_zero _)
    | cons b queue =>
      rw [removeSent, if_pos (show seq + UInt64.ofNat (0 + 1) = seq + 1 from rfl)]
      rfl
  | succ k ih =>
    cases queue with
    | nil => exact absurd hk (Nat.not_lt_zero _)
    | cons b queue =>
      rw [List.length_cons] at hk hlen
      have hne : seq + UInt64.ofNat (k + 1 + 1) ≠ seq + 1 := by
        rw [ne_eq, ← UInt64.toNat_inj, UInt64.toNat_add, UInt64.toNat_add, UInt64.toNat_ofNat']
        have := seq.toNat_lt
        change ¬(seq.toNat + (k + 1 + 1) % 2 ^ 64) % 2 ^ 64 = (seq.toNat + 1) % 2 ^ 64
        omega
      have hseq : seq + UInt64.ofNat (k + 1 + 1) = seq + 1 + UInt64.ofNat (k + 1) := by
        rw [← UInt64.toNat_inj, UInt64.toNat_add, UInt64.toNat_add, UInt64.toNat_add,
          UInt64.toNat_ofNat', UInt64.toNat_ofNat']
        change (seq.toNat + (k + 1 + 1) % 2 ^ 64) % 2 ^ 64 =
          ((seq.toNat + 1) % 2 ^ 64 + (k + 1) % 2 ^ 64) % 2 ^ 64
        omega
      rw [removeSent, if_neg hne, hseq, ih (seq + 1) (by omega) (by omega)]
      rfl

lemma outstanding_updateReceiveSeq {sq : SerialQueue} {k : Nat} (hk : k < sq.sentQueue.length)
    (hlen : sq.sentQueue.length < 2 ^ 64) :
    (updateReceiveSeq sq (sq.receiveSeq + UInt64.ofNat (k + 1))).outstanding =
      ⟨sq.sendSeq, sq.receiveSeq + UInt64.ofNat (k + 1), sq.sentQueue.drop (k + 1)⟩ := by
  unfold updateReceiveSeq
  rw [removeSent_eq _ hk hlen, List.getElem?_eq_getElem hk]
  rfl

lemma outstanding_handleMessage (sq : SerialQueue) (msg : List UInt8) :
    (handleMessage sq msg).outstanding = sq.outstanding ∨
      expandSeq sq.receiveSeq (msg.getD 1 0) ≠ sq.receiveSeq ∧
        (handleMessage sq msg).outstanding =
          (updateReceiveSeq sq (expandSeq sq.receiveSeq (msg.getD 1 0))).outstanding := by
  rcases handleMessage_cases sq msg with hsame | htake | ⟨hne, htake⟩
  · rw [hsame]
    exact Or.inl rfl
  · rw [htake]
    exact Or.inl (outstanding_takeMessage _ _ _)
  · rw [htake]
    exact Or.inr ⟨hne, outstanding_takeMessage _ _ _⟩

lemma msgblockCheck_message {needSync : Bool} {buf : List UInt8} {b : Bool} {len : Nat}
    (h : msgblockCheck needSync buf = (b, .message len)) :
    needSync = false ∧ checkBlock buf = .valid len := by
  unfold msgblockCheck at h
  dsimp only at h
  split at h
  · cases h
  · cases needSync with
    | true =>
      rw [if_pos rfl] at h
      split at h <;> cases h
    | false =>
      rw [if_neg (by decide)] at h
      split at h
      · cases h
      · split at h <;> cases h
      · rename_i hvalid
        cases h
        exact ⟨rfl, hvalid⟩

end Sequence

end KlipperMcu.Serial
