import KlipperMcu.Host.SerialQueueRun
import KlipperMcu.Link.SerialLink
import Mathlib.Data.List.TakeWhile

/-!
# Completed messages

The serial link together with the console task of the micro-controller, which dispatches a block that
it has found and then sends an ack. The host tells the sender of a message with a `notify_id` that it
is complete.
-/

namespace KlipperMcu.Serial

open Lib Wire

/-- Where the console task is: it calls `command_find_block`, `command_dispatch` and
`command_send_ack` in turn. -/
inductive Phase where
  | finding
  | dispatching
  | acking
deriving DecidableEq, Repr

/-- A link with the console task, the blocks whose dispatch has ended, and the messages in each of
the blocks that were built. -/
structure DispatchLink where
  link : Link
  phase : Phase
  dispatched : List (List UInt8)
  packed : List (List (Nat × QueueMessage))

inductive DispatchAction where
  | link (a : Action)
  | dispatchEnd
  | sendAck

def DispatchLink.step (s : DispatchLink) : DispatchAction → Option DispatchLink
  | .link (.build clocks) =>
    (Serial.step s.link (.build clocks)).map fun link =>
      let sq := (checkSendCommand s.link.sq clocks).1
      { s with link := link, packed := s.packed ++ [packedMessages sq.readyCount sq []] }
  | .link (.find k) =>
    let f := commandFindBlock s.link.sync ((Channel.bytes s.link.down).take k)
    if s.phase = .finding then
      some { s with
        link := s.link.find k
        phase := if f.ret = .block then .dispatching else .finding }
    else none
  | .link a => (Serial.step s.link a).map fun link => { s with link := link }
  | .dispatchEnd =>
    if s.phase = .dispatching then some { s with phase := .acking, dispatched := s.link.accepted }
    else none
  | .sendAck =>
    if s.phase = .acking then some { s with phase := .finding, link := s.link.respond [] } else none

/-- Channels lose blocks but do not damage them, messages of the micro-controller fit into a block,
and `send_seq` does not wrap around. -/
def Lossy (s : Link) : Action → Prop
  | .build _ => s.sq.sendSeq ≠ -1
  | .respond payload => payload.length ≤ messagePayloadMax
  | .damageDown _ bytes => bytes = []
  | .damageUp _ bytes => bytes = []
  | _ => True

/-- Only acks and naks are without data. -/
def DispatchLink.Legal (s : DispatchLink) : DispatchAction → Prop
  | .link (.respond payload) => payload ≠ [] ∧ Lossy s.link (.respond payload)
  | .link a => Lossy s.link a
  | .dispatchEnd => True
  | .sendAck => True

/-- Both sides are idle, agree on the next sequence number and look for the start of a block. -/
structure DispatchLink.Idle (s : DispatchLink) : Prop where
  synchronised : Synchronised s.link
  host : s.link.sq.needSync = false
  mcu : s.link.sync.needSync = false
  notifyQueue : s.link.sq.notifyQueue = []
  receiveQueue : s.link.sq.receiveQueue = []
  phase : s.phase = .finding
  dispatched : s.dispatched = []
  packed : s.packed = []

/-- The messages among these that ask for a notification. -/
def notifyIds (msgs : List (Nat × QueueMessage)) : List UInt64 :=
  (msgs.map fun e => e.2.notifyId).filter (· ≠ 0)

/-- The notifications that are asked for, each with the number of its block, in the order in which
the messages entered the blocks. -/
def notices (packed : List (List (Nat × QueueMessage))) : List (Nat × UInt64) :=
  packed.zipIdx.flatMap fun (msgs, i) => (notifyIds msgs).map fun id => (i, id)

/-- The messages that the host has reported to be complete. -/
def completedIds (queue : List Received) : List UInt64 :=
  queue.filterMap fun
    | .data _ => none
    | .notify id => some id

/-! ## The notify queue -/

/-- What the host waits for: `req_clock` is the sequence number of the block. -/
def QueueMessage.awaited (qm : QueueMessage) : UInt64 × UInt64 := (qm.reqClock, qm.notifyId)

section NotifyQueue

variable {sq sq' : SerialQueue} {payload payload' out : List UInt8} {fuel : Nat}

lemma packMessages_notify (hpack : packMessages fuel sq payload = some (sq', payload')) :
    sq'.needSync = sq.needSync ∧ sq'.receiveQueue = sq.receiveQueue ∧
      sq'.notifyQueue.map QueueMessage.awaited = sq.notifyQueue.map QueueMessage.awaited ++
        (notifyIds (packedMessages fuel sq payload)).map fun id => (sq.sendSeq, id) := by
  apply packMessages_induction
    (motive := fun sq _ msgs => sq'.needSync = sq.needSync ∧ sq'.receiveQueue = sq.receiveQueue ∧
      sq'.notifyQueue.map QueueMessage.awaited = sq.notifyQueue.map QueueMessage.awaited ++
        (notifyIds msgs).map fun id => (sq.sendSeq, id)) hpack
  · exact ⟨rfl, rfl, (List.append_nil _).symm⟩
  · rintro sq _ q qm msgs _ _ ⟨hsync, hreceive, hnotify⟩
    refine ⟨hsync, hreceive, ?_⟩
    rw [hnotify]
    by_cases hid : qm.notifyId = 0
    · simp [takeReady, notifyIds, hid]
    · simp [takeReady, notifyIds, hid, QueueMessage.awaited]

lemma checkSendCommand_notify (sq : SerialQueue) (clocks : SendClocks) :
    (checkSendCommand sq clocks).1.needSync = sq.needSync ∧
      (checkSendCommand sq clocks).1.receiveQueue = sq.receiveQueue ∧
      (checkSendCommand sq clocks).1.notifyQueue = sq.notifyQueue := by
  have hfold : ∀ (queues : List Nat) (sq : SerialQueue),
      (queues.foldl (moveStalled clocks.ackClock) sq).needSync = sq.needSync ∧
        (queues.foldl (moveStalled clocks.ackClock) sq).receiveQueue = sq.receiveQueue ∧
        (queues.foldl (moveStalled clocks.ackClock) sq).notifyQueue = sq.notifyQueue := by
    intro queues
    induction queues with
    | nil => exact fun sq => ⟨rfl, rfl, rfl⟩
    | cons q queues ih => exact fun sq => ih _
  rcases checkSendCommand_eq sq clocks with heq | ⟨kick, heq⟩
  · rw [heq]
    exact ⟨rfl, rfl, rfl⟩
  · rw [heq]
    exact hfold _ _

lemma commandEventRound_notify {clocks : SendClocks}
    (hround : commandEventRound sq clocks = some (sq', out)) :
    let msgs := packedMessages (checkSendCommand sq clocks).1.readyCount
      (checkSendCommand sq clocks).1 []
    out = commandAddFrame (seqByte sq.sendSeq) (msgs.flatMap fun e => e.2.msg) ∧
      sq'.needSync = sq.needSync ∧ sq'.receiveQueue = sq.receiveQueue ∧
      sq'.notifyQueue.map QueueMessage.awaited = sq.notifyQueue.map QueueMessage.awaited ++
        (notifyIds msgs).map fun id => (sq.sendSeq, id) := by
  obtain ⟨hsync, hreceive, hnotify⟩ := checkSendCommand_notify sq clocks
  have hsend := (sameWindow_checkSendCommand sq clocks).sendSeq
  unfold commandEventRound at hround
  split at hround
  · rename_i sq₁ hcheck
    rw [hcheck] at hsync hreceive hnotify hsend ⊢
    obtain ⟨⟨sq₂, payload⟩, hpack, hout⟩ := Option.map_eq_some_iff.mp hround
    obtain ⟨hsync₂, hreceive₂, hnotify₂⟩ := packMessages_notify hpack
    have hsend₂ := (sameWindow_packMessages hpack).sendSeq
    cases hout
    refine ⟨?_, hsync₂.trans hsync, hreceive₂.trans hreceive, ?_⟩
    · rw [hsend₂, hsend, packMessages_payload hpack]
      rfl
    · rw [← hnotify, ← hsend]
      exact hnotify₂
  · cases hround

/-- A received message completes the messages in front of the notify queue whose blocks have numbers
up to `wake_seq`. -/
lemma takeMessage_notify (sq : SerialQueue) (rseq : UInt64) (msg : List UInt8) :
    ∃ done, sq.notifyQueue = done ++ (takeMessage sq rseq msg).notifyQueue ∧
      completedIds (takeMessage sq rseq msg).receiveQueue =
        completedIds sq.receiveQueue ++ done.map QueueMessage.notifyId ∧
      ∀ qm ∈ done, qm.reqClock ≤ rseq - 1 - if msg.length > messageMin then 1 else 0 := by
  generalize hwake : (rseq - 1 - if msg.length > messageMin then 1 else 0) = wakeSeq
  refine ⟨sq.notifyQueue.takeWhile (completed wakeSeq), ?_, ?_, fun qm hqm => ?_⟩
  · have hqueue : (takeMessage sq rseq msg).notifyQueue =
        sq.notifyQueue.dropWhile (completed wakeSeq) := by
      unfold takeMessage
      rw [hwake]
      dsimp only
      split_ifs <;> rfl
    rw [hqueue, List.takeWhile_append_dropWhile]
  · unfold takeMessage
    rw [hwake]
    dsimp only
    split_ifs <;> simp [completedIds]
  · have hdone := List.mem_takeWhile_imp hqm
    simpa [completed] using hdone

lemma handleMessage_notify (sq : SerialQueue) (msg : List UInt8) :
    ∃ done, sq.notifyQueue = done ++ (handleMessage sq msg).notifyQueue ∧
      completedIds (handleMessage sq msg).receiveQueue =
        completedIds sq.receiveQueue ++ done.map QueueMessage.notifyId ∧
      ∀ qm ∈ done, qm.reqClock ≤
        expandSeq sq.receiveSeq (msg.getD 1 0) - 1 - if msg.length > messageMin then 1 else 0 := by
  rcases handleMessage_cases sq msg with hsame | htake | ⟨-, htake⟩
  · rw [hsame]
    exact ⟨[], rfl, (List.append_nil _).symm, nofun⟩
  · rw [htake]
    exact takeMessage_notify sq _ msg
  · rw [htake]
    exact takeMessage_notify (updateReceiveSeq sq _) _ msg

end NotifyQueue

/-! ## Channels without damage -/

/-- Whole blocks, and the SYNC bytes in front of retransmissions. -/
def Whole (c : List (Segment Nat UInt8)) : Prop :=
  ∀ segment ∈ c,
    match segment with
    | .frame _ bytes => checkBlock bytes = .valid bytes.length
    | .loose byte => byte = messageSync

section Whole

variable {c : List (Segment Nat UInt8)} {k : Nat}

lemma checkBlock_take_append {block : List UInt8} (h : checkBlock block = .valid block.length)
    (rest : List UInt8) (k : Nat) :
    checkBlock ((block ++ rest).take k) =
      if block.length ≤ k then .valid block.length else .more := by
  split
  · rename_i hle
    rw [List.take_append, List.take_of_length_le hle, checkBlock_append (by rw [h]; nofun), h]
  · rename_i hlt
    rw [List.take_append_of_le_length (by omega)]
    by_contra hne
    have hwhole := checkBlock_append hne (block.drop k)
    rw [List.take_append_drop, h] at hwhole
    obtain ⟨-, -, hlen⟩ := length_of_checkBlock_valid hwhole.symm
    rw [List.length_take] at hlen
    omega

lemma checkBlock_sync (rest : List UInt8) :
    checkBlock (messageSync :: rest) = .more ∨ checkBlock (messageSync :: rest) = .bad := by
  unfold checkBlock
  split
  · exact Or.inl rfl
  · right
    rfl

lemma Whole.view (h : Whole c) (k : Nat) :
    checkBlock ((Channel.bytes c).take k) = .more ∨
    (checkBlock ((Channel.bytes c).take k) = .bad ∧
      ((Channel.bytes c).take k).head? = some messageSync ∧ Whole (Channel.pop c 1)) ∨
    ∃ len, checkBlock ((Channel.bytes c).take k) = .valid len ∧
      Channel.StartsWith c (((Channel.bytes c).take k).take len) ∧ Whole (Channel.pop c len) := by
  cases c with
  | nil =>
    rw [Channel.bytes, List.flatMap_nil, List.take_nil]
    exact Or.inl rfl
  | cons segment c =>
    have hrest : Whole c := fun segment' hmem => h segment' (List.mem_cons_of_mem _ hmem)
    have hfirst := h segment List.mem_cons_self
    rw [Channel.bytes, List.flatMap_cons]
    cases segment with
    | frame tag block =>
      change checkBlock block = .valid block.length at hfirst
      have hcheck := checkBlock_take_append hfirst (c.flatMap Channel.segmentBytes) k
      have hpos := (length_of_checkBlock_valid hfirst).1
      split at hcheck
      · rename_i hle
        refine Or.inr (Or.inr ⟨block.length, hcheck, ?_, ?_⟩)
        · change block = ((block ++ _).take k).take block.length
          rw [List.take_take, Nat.min_eq_left hle, List.take_left]
        · have hne : block.length ≠ 0 := fun hzero => by
            rw [hzero] at hpos
            exact absurd hpos (by decide)
          rw [Channel.pop, if_neg hne, if_pos (Nat.le_refl _), Nat.sub_self, Channel.pop_zero]
          exact hrest
      · exact Or.inl hcheck
    | loose byte =>
      obtain rfl : byte = messageSync := hfirst
      cases k with
      | zero => exact Or.inl rfl
      | succ k =>
        change checkBlock (messageSync :: List.take k _) = _ ∨ _
        rcases checkBlock_sync ((c.flatMap Channel.segmentBytes).take k) with hmore | hbad
        · exact Or.inl hmore
        · refine Or.inr (Or.inl ⟨hbad, rfl, ?_⟩)
          rw [Channel.pop, if_neg Nat.one_ne_zero, Nat.sub_self, Channel.pop_zero]
          exact hrest

lemma Whole.detected (h : Whole c) (needSync : Bool) (k : Nat) : Detected needSync c k := by
  unfold Detected
  split
  · rename_i len hvalid
    rcases h.view k with hmore | ⟨hbad, -⟩ | ⟨len', hvalid', hstarts, -⟩
    · rw [hmore] at hvalid
      cases hvalid
    · rw [hbad] at hvalid
      cases hvalid
    · rw [hvalid'] at hvalid
      cases hvalid
      exact hstarts
  · trivial

lemma Whole.find (h : Whole c) {sync : Sync} (hsync : sync.needSync = false) (k : Nat) :
    (commandFindBlock sync ((Channel.bytes c).take k)).sync.needSync = false ∧
      Whole (Channel.pop c (commandFindBlock sync ((Channel.bytes c).take k)).popCount) := by
  have hneed : ∀ buf : List UInt8, ¬(buf ≠ [] ∧ sync.needSync = true) := by simp [hsync]
  rcases h.view k with hmore | ⟨hbad, hhead, hpop⟩ | ⟨len, hvalid, -, hpop⟩
  · rw [commandFindBlock, if_neg (hneed _), hmore]
    rw [Channel.pop_zero]
    exact ⟨hsync, h⟩
  · rw [commandFindBlock, if_neg (hneed _), hbad]
    dsimp only
    rw [if_pos hhead]
    exact ⟨hsync, hpop⟩
  · rw [commandFindBlock_eq_of_valid hsync hvalid]
    split
    · exact ⟨hsync, hpop⟩
    · exact ⟨hsync, hpop⟩

lemma Whole.check (h : Whole c) (k : Nat) :
    msgblockCheck false ((Channel.bytes c).take k) = (false, .needMore) ∨
    (msgblockCheck false ((Channel.bytes c).take k) = (false, .skip 1) ∧ Whole (Channel.pop c 1)) ∨
    ∃ len, msgblockCheck false ((Channel.bytes c).take k) = (false, .message len) ∧
      Whole (Channel.pop c len) := by
  unfold msgblockCheck
  dsimp only
  rw [if_neg Bool.false_ne_true]
  rcases h.view k with hmore | ⟨hbad, hhead, hpop⟩ | ⟨len, hvalid, -, hpop⟩
  · rw [hmore]
    left
    split <;> rfl
  · have hlen := length_of_checkBlock_bad hbad
    obtain ⟨rest, hbuf⟩ := List.head?_eq_some_iff.mp hhead
    right
    left
    rw [hbad, if_neg (Nat.not_lt.mpr hlen), hbuf]
    exact ⟨rfl, hpop⟩
  · obtain ⟨hmin, -, hlen⟩ := length_of_checkBlock_valid hvalid
    right
    right
    rw [hvalid, if_neg (Nat.not_lt.mpr (Nat.le_trans hmin hlen))]
    exact ⟨len, rfl, hpop⟩

lemma Whole.append {c' : List (Segment Nat UInt8)} (h : Whole c) (h' : Whole c') :
    Whole (c ++ c') := by
  intro segment hmem
  rcases List.mem_append.mp hmem with hmem | hmem
  · exact h segment hmem
  · exact h' segment hmem

lemma Whole.frame {tag : Nat} {block : List UInt8} (h : checkBlock block = .valid block.length) :
    Whole [.frame tag block] := by
  intro segment hmem
  rw [List.mem_singleton.mp hmem]
  exact h

lemma Whole.lose (h : Whole c) (i : Nat) : Whole (Channel.damage c i []) := by
  intro segment hmem
  apply h
  unfold Channel.damage at hmem
  rw [List.map_nil, List.append_nil] at hmem
  rcases List.mem_append.mp hmem with hmem | hmem
  · exact List.mem_of_mem_take hmem
  · exact List.mem_of_mem_drop hmem

lemma checkBlock_frame (seq : UInt64) {payload : List UInt8}
    (h : payload.length ≤ messagePayloadMax) :
    checkBlock (commandAddFrame (seqByte seq) payload) =
      .valid (commandAddFrame (seqByte seq) payload).length := by
  rw [length_commandAddFrame]
  apply checkBlock_commandAddFrame
  · unfold messagePayloadMax at h
    unfold messageMin messageMax at h ⊢
    omega
  · exact seqByte_dest seq

/-- Without damage both sides stay aligned to blocks. -/
structure Aligned (s : Link) : Prop where
  host : s.sq.needSync = false
  mcu : s.sync.needSync = false
  sent : ∀ block ∈ s.sq.sentQueue, checkBlock block = .valid block.length
  down : Whole s.down
  up : Whole s.up

variable {s s' : Link} {start : UInt64}

lemma Aligned.setSq (h : Aligned s) {sq : SerialQueue} (hsync : sq.needSync = s.sq.needSync)
    (hsent : sq.sentQueue ⊆ s.sq.sentQueue) : Aligned { s with sq := sq } :=
  ⟨hsync.trans h.host, h.mcu, fun block hblock => h.sent block (hsent hblock), h.down, h.up⟩

lemma Aligned.respond (h : Aligned s) {n : UInt64} (hnext : s.sync.nextSequence = seqByte n)
    {payload : List UInt8} (hlen : payload.length ≤ messagePayloadMax) :
    Aligned (s.respond payload) := by
  refine ⟨h.host, h.mcu, h.sent, h.down, h.up.append (Whole.frame ?_)⟩
  rw [hnext]
  exact checkBlock_frame n hlen

lemma Aligned.build (h : Aligned s) {clocks : SendClocks} {sq : SerialQueue} {out : List UInt8}
    (hround : commandEventRound s.sq clocks = some (sq, out)) :
    Aligned { s with
      sq := sq
      down := s.down ++ [.frame s.built.length out]
      built := s.built ++ [out] } := by
  obtain ⟨-, hsync, -, -⟩ := commandEventRound_notify hround
  obtain ⟨-, payload, hlen, hout, hnew⟩ := commandEventRound_spec hround
  have hvalid : checkBlock out = .valid out.length := by
    rw [hout]
    exact checkBlock_frame _ hlen
  have hsent : sq.sentQueue = s.sq.sentQueue ++ [out] := congrArg Outstanding.sentQueue hnew
  refine ⟨hsync.trans h.host, h.mcu, ?_, h.down.append (Whole.frame hvalid), h.up⟩
  change ∀ block ∈ sq.sentQueue, _
  rw [hsent]
  intro block hblock
  rcases List.mem_append.mp hblock with hblock | hblock
  · exact h.sent block hblock
  · rw [List.mem_singleton.mp hblock]
    exact hvalid

lemma Aligned.retransmit (h : Aligned s) :
    Aligned { s with
      sq := retransmitEvent s.sq
      down := s.down ++ .loose messageSync :: s.resent } := by
  refine ⟨h.host, h.mcu, h.sent, h.down.append ?_, h.up⟩
  intro segment hmem
  rcases List.mem_cons.mp hmem with rfl | hmem
  · rfl
  · obtain ⟨⟨block, i⟩, hblock, rfl⟩ := List.mem_map.mp hmem
    exact h.sent block (List.fst_mem_of_mem_zipIdx hblock)

lemma Aligned.find (h : Aligned s) {n : UInt64} (hnext : s.sync.nextSequence = seqByte n) (k : Nat) :
    Aligned (s.find k) := by
  obtain ⟨hsync, hdown⟩ := h.down.find h.mcu k
  unfold Link.find
  dsimp only
  have htaken : Aligned { s with
      sync := (commandFindBlock s.sync ((Channel.bytes s.down).take k)).sync
      down := Channel.pop s.down
        (commandFindBlock s.sync ((Channel.bytes s.down).take k)).popCount } :=
    ⟨h.host, hsync, h.sent, hdown, h.up⟩
  split
  · exact ⟨h.host, hsync, h.sent, hdown, h.up⟩
  · rename_i hret
    split
    · exact htaken.respond ((nextSequence_of_ne_block hret).trans hnext) (Nat.zero_le _)
    · exact htaken

lemma Aligned.input (h : Aligned s) (k : Nat) : Aligned (s.input k) := by
  unfold Link.input
  dsimp only
  rw [h.host]
  rcases h.up.check k with hcheck | ⟨hcheck, hpop⟩ | ⟨len, hcheck, hpop⟩
  · rw [hcheck]
    exact h
  · rw [hcheck]
    exact ⟨rfl, h.mcu, h.sent, h.down, hpop⟩
  · rw [hcheck]
    have hsync := (sameQueues_handleMessage s.sq (((Channel.bytes s.up).take k).take len)).needSync
    have hsent := handleMessage_sentQueue s.sq (((Channel.bytes s.up).take k).take len)
    exact ⟨hsync.trans h.host, h.mcu, fun block hblock => h.sent block (hsent.subset hblock),
      h.down, hpop⟩

lemma Aligned.step (h : Aligned s) (hc : Coupled start s) {a : Action} (ha : Lossy s a)
    (hs : step s a = some s') : Aligned s' := by
  cases a with
  | sendBatch q msgs =>
    obtain rfl := Option.some.inj hs
    have hsent : (serialqueueSendBatch s.sq q msgs).sentQueue = s.sq.sentQueue :=
      congrArg Outstanding.sentQueue (outstanding_serialqueueSendBatch s.sq q msgs)
    have hsync : (serialqueueSendBatch s.sq q msgs).needSync = s.sq.needSync := by
      unfold serialqueueSendBatch
      dsimp only
      split <;> rfl
    exact h.setSq hsync (by rw [hsent]; exact List.Subset.refl _)
  | check clocks =>
    obtain ⟨hsync, -, -⟩ := checkSendCommand_notify s.sq clocks
    have hsent : (checkSendCommand s.sq clocks).1.sentQueue = s.sq.sentQueue :=
      congrArg Outstanding.sentQueue (outstanding_checkSendCommand s.sq clocks)
    rw [eq_of_step_check hs]
    exact h.setSq hsync (by rw [hsent]; exact List.Subset.refl _)
  | build clocks =>
    obtain ⟨⟨sq, out⟩, hround, rfl⟩ := Option.map_eq_some_iff.mp hs
    exact h.build hround
  | retransmit =>
    obtain rfl := Option.some.inj hs
    exact h.retransmit
  | find k =>
    obtain rfl := Option.some.inj hs
    exact h.find hc.next k
  | respond payload =>
    obtain rfl := Option.some.inj hs
    exact h.respond hc.next ha
  | input k =>
    obtain rfl := Option.some.inj hs
    exact h.input k
  | damageDown i bytes =>
    obtain rfl := Option.some.inj hs
    obtain rfl : bytes = [] := ha
    exact ⟨h.host, h.mcu, h.sent, h.down.lose i, h.up⟩
  | damageUp i bytes =>
    obtain rfl := Option.some.inj hs
    obtain rfl : bytes = [] := ha
    exact ⟨h.host, h.mcu, h.sent, h.down, h.up.lose i⟩

lemma Aligned.detected (h : Aligned s) (a : Action) : DamageDetected s a := by
  cases a with
  | find k => exact h.down.detected _ k
  | input k => exact h.up.detected _ k
  | _ => trivial

end Whole

/-! ## Dispatching -/

/-- The link of an undamaged run from the sequence number `start`. -/
structure Sound (start : UInt64) (s : Link) : Prop where
  window : s.window.Inv 12
  coupled : Coupled start s
  aligned : Aligned s
  noWrap : start.toNat + s.built.length < 2 ^ 64

/-- The notifications that were asked for are reported in order, those of the first `n` blocks at
most, and the others are awaited. -/
def Noted (start : UInt64) (packed : List (List (Nat × QueueMessage))) (n : Nat)
    (sq : SerialQueue) : Prop :=
  ∃ done rest, notices packed = done ++ rest ∧ completedIds sq.receiveQueue = done.map Prod.snd ∧
    sq.notifyQueue.map QueueMessage.awaited = rest.map (fun e => (start + UInt64.ofNat e.1, e.2)) ∧
    ∀ e ∈ done, e.1 < n

/-- A message without data comes after the dispatch of the blocks that it acknowledges. -/
structure DispatchLink.Inv (start : UInt64) (s : DispatchLink) : Prop where
  sound : Sound start s.link
  packed : s.packed.length = s.link.built.length
  blocks : ∀ (i : Nat) block msgs, s.link.built[i]? = some block → s.packed[i]? = some msgs →
    block = commandAddFrame (seqByte (start + UInt64.ofNat i)) (msgs.flatMap fun e => e.2.msg)
  dispatched : s.dispatched <+: s.link.accepted
  count : s.link.accepted.length = s.dispatched.length + if s.phase = .dispatching then 1 else 0
  up : ∀ f ∈ Channel.frames s.link.up,
    f.1 ≤ s.dispatched.length + if f.2.length > messageMin then 1 else 0
  noted : 2 ≤ start.toNat → Noted start s.packed s.dispatched.length s.link.sq

section Dispatch

variable {start : UInt64} {s s' : Link} {d d' : DispatchLink}

lemma Sound.toNat_add (h : Sound start s) {n : Nat} (hn : n ≤ s.built.length) :
    (start + UInt64.ofNat n).toNat = start.toNat + n := by
  have hlt := h.noWrap
  rw [toNat_add_ofNat]
  omega

lemma built_find (s : Link) (k : Nat) : (s.find k).built = s.built := by
  unfold Link.find
  dsimp only
  split
  · rfl
  · split <;> rfl

lemma built_input (s : Link) (k : Nat) : (s.input k).built = s.built := by
  unfold Link.input
  dsimp only
  split <;> rfl

lemma built_of_step {a : Action} (hs : step s a = some s') :
    s'.built = s.built ∨ ∃ clocks out, a = .build clocks ∧ s'.built = s.built ++ [out] := by
  cases a with
  | build clocks =>
    obtain ⟨⟨sq, out⟩, -, rfl⟩ := Option.map_eq_some_iff.mp hs
    exact Or.inr ⟨clocks, out, rfl, rfl⟩
  | check clocks =>
    rw [eq_of_step_check hs]
    exact Or.inl rfl
  | find k =>
    obtain rfl := Option.some.inj hs
    exact Or.inl (built_find s k)
  | input k =>
    obtain rfl := Option.some.inj hs
    exact Or.inl (built_input s k)
  | _ =>
    obtain rfl := Option.some.inj hs
    exact Or.inl rfl

lemma Sound.lt_of_send (h : Sound start s) (hsend : s.sq.sendSeq ≠ -1) :
    start.toNat + s.built.length + 1 < 2 ^ 64 := by
  have hnum := h.toNat_add (Nat.le_refl s.built.length)
  have hlt := h.noWrap
  rw [← h.coupled.send] at hnum
  have hne : s.sq.sendSeq.toNat ≠ 2 ^ 64 - 1 := fun heq => hsend (UInt64.toNat.inj heq)
  omega

lemma Sound.step (h : Sound start s) {a : Action} (ha : Lossy s a) (hs : step s a = some s') :
    Sound start s' := by
  have hlimited : Limited s a := by
    cases a with
    | build clocks =>
      intro hlast
      have hlt := h.lt_of_send ha
      have hle : s.acknowledged.length ≤ s.built.length :=
        Nat.le_trans h.window.acked_le h.window.accepted_le
      have hrecv := h.toNat_add hle
      rw [← h.coupled.receive, hlast] at hrecv
      change 2 ^ 64 - 1 = _ at hrecv
      omega
    | _ => trivial
  obtain ⟨hsteps, hcoupled⟩ := h.coupled.step h.window ⟨h.aligned.detected a, hlimited⟩ hs
  refine ⟨h.window.steps hsteps, hcoupled, h.aligned.step h.coupled ha hs, ?_⟩
  rcases built_of_step hs with hbuilt | ⟨clocks, out, rfl, hbuilt⟩
  · rw [hbuilt]
    exact h.noWrap
  · rw [hbuilt, List.length_append, ← Nat.add_assoc]
    exact h.lt_of_send ha

/-! ### Notifications -/

lemma notices_append (packed : List (List (Nat × QueueMessage))) (msgs : List (Nat × QueueMessage)) :
    notices (packed ++ [msgs]) =
      notices packed ++ (notifyIds msgs).map fun id => (packed.length, id) := by
  simp [notices, List.zipIdx_append]

lemma lt_of_mem_notices {packed : List (List (Nat × QueueMessage))} {e : Nat × UInt64}
    (h : e ∈ notices packed) : e.1 < packed.length := by
  obtain ⟨⟨msgs, i⟩, hmem, he⟩ := List.mem_flatMap.mp h
  obtain ⟨id, -, rfl⟩ := List.mem_map.mp he
  exact List.snd_lt_of_mem_zipIdx hmem

lemma Noted.mono {packed : List (List (Nat × QueueMessage))} {n m : Nat} {sq : SerialQueue}
    (h : Noted start packed n sq) (hle : n ≤ m) : Noted start packed m sq := by
  obtain ⟨done, rest, hnotices, hreceive, hnotify, hdone⟩ := h
  exact ⟨done, rest, hnotices, hreceive, hnotify, fun e he => Nat.lt_of_lt_of_le (hdone e he) hle⟩

lemma Noted.congr {packed : List (List (Nat × QueueMessage))} {n : Nat} {sq sq' : SerialQueue}
    (h : Noted start packed n sq) (hnotify : sq'.notifyQueue = sq.notifyQueue)
    (hreceive : sq'.receiveQueue = sq.receiveQueue) : Noted start packed n sq' := by
  unfold Noted at h ⊢
  rw [hnotify, hreceive]
  exact h

lemma Noted.build {packed : List (List (Nat × QueueMessage))} {n : Nat} {sq sq' : SerialQueue}
    (h : Noted start packed n sq) {msgs : List (Nat × QueueMessage)}
    (hseq : sq.sendSeq = start + UInt64.ofNat packed.length)
    (hreceive : sq'.receiveQueue = sq.receiveQueue)
    (hnotify : sq'.notifyQueue.map QueueMessage.awaited = sq.notifyQueue.map QueueMessage.awaited ++
      (notifyIds msgs).map fun id => (sq.sendSeq, id)) :
    Noted start (packed ++ [msgs]) n sq' := by
  obtain ⟨done, rest, hnotices, hids, hawaited, hdone⟩ := h
  refine ⟨done, rest ++ (notifyIds msgs).map fun id => (packed.length, id), ?_, ?_, ?_, hdone⟩
  · rw [notices_append, hnotices, List.append_assoc]
  · rw [hreceive, hids]
  · rw [hnotify, hawaited, hseq, List.map_append, List.map_map]
    rfl

/-- A block up to `wake_seq` is before the one that is counted, and with data before the last one. -/
lemma lt_of_le_wakeSeq {i a n len : Nat} (hstart : 2 ≤ start.toNat) (hi : start.toNat + i < 2 ^ 64)
    (hn : a ≤ n + if len > messageMin then 1 else 0)
    (hle : start + UInt64.ofNat i ≤ start + UInt64.ofNat a - 1 - if len > messageMin then 1 else 0) :
    i < n := by
  have hone : (1 : UInt64).toNat = 1 := rfl
  have hzero : (0 : UInt64).toNat = 0 := rfl
  rw [UInt64.le_iff_toNat_le, UInt64.toNat_sub, UInt64.toNat_sub, toNat_add_ofNat, toNat_add_ofNat,
    hone] at hle
  split at hle
  · rename_i hdata
    rw [if_pos hdata] at hn
    rw [hone] at hle
    omega
  · rename_i hdata
    rw [if_neg hdata] at hn
    rw [hzero] at hle
    omega

/-- A message from the micro-controller reports messages of the blocks before the one that it
counts. -/
lemma Noted.handleMessage {packed : List (List (Nat × QueueMessage))} {n a : Nat} {sq : SerialQueue}
    {msg : List UInt8} (h : Noted start packed n sq) (hstart : 2 ≤ start.toNat)
    (hwrap : start.toNat + packed.length < 2 ^ 64)
    (hrseq : expandSeq sq.receiveSeq (msg.getD 1 0) = start + UInt64.ofNat a)
    (hn : a ≤ n + if msg.length > messageMin then 1 else 0) :
    Noted start packed n (handleMessage sq msg) := by
  obtain ⟨done, rest, hnotices, hids, hawaited, hdone⟩ := h
  obtain ⟨ended, hqueue, hreceive, hwake⟩ := handleMessage_notify sq msg
  rw [hrseq] at hwake
  rw [hqueue, List.map_append] at hawaited
  obtain ⟨rest₁, rest₂, rfl, hended, hleft⟩ := List.map_eq_append_iff.mp hawaited.symm
  refine ⟨done ++ rest₁, rest₂, ?_, ?_, hleft.symm, fun e he => ?_⟩
  · rw [hnotices, List.append_assoc]
  · have hid := congrArg (List.map Prod.snd) hended
    rw [List.map_map, List.map_map] at hid
    rw [hreceive, hids, List.map_append]
    exact congrArg _ hid.symm
  · rcases List.mem_append.mp he with he | he
    · exact hdone e he
    · have hmem : e ∈ notices packed := by
        rw [hnotices]
        exact List.mem_append_right _ (List.mem_append_left _ he)
      have hlt := lt_of_mem_notices hmem
      obtain ⟨qm, hqm, hkey⟩ : ∃ qm ∈ ended, qm.awaited = (start + UInt64.ofNat e.1, e.2) := by
        rw [← List.mem_map, ← hended]
        exact List.mem_map_of_mem he
      have hclock : qm.reqClock = start + UInt64.ofNat e.1 := congrArg Prod.fst hkey
      have hle := hwake qm hqm
      rw [hclock] at hle
      exact lt_of_le_wakeSeq hstart (by omega) hn hle

/-! ### Steps -/

lemma DispatchLink.Inv.congr (h : d.Inv start) {link : Link} (hsound : Sound start link)
    (hbuilt : link.built = d.link.built) (haccepted : link.accepted = d.link.accepted)
    (hup : ∀ f ∈ Channel.frames link.up,
      f.1 ≤ d.dispatched.length + if f.2.length > messageMin then 1 else 0)
    (hnoted : 2 ≤ start.toNat → Noted start d.packed d.dispatched.length link.sq) :
    DispatchLink.Inv start { d with link := link } where
  sound := hsound
  packed := h.packed.trans (congrArg List.length hbuilt.symm)
  blocks := by
    change ∀ (i : Nat) block msgs, link.built[i]? = some block → _
    rw [hbuilt]
    exact h.blocks
  dispatched := by
    change d.dispatched <+: link.accepted
    rw [haccepted]
    exact h.dispatched
  count := by
    change link.accepted.length = _
    rw [haccepted]
    exact h.count
  up := hup
  noted := hnoted

lemma DispatchLink.Inv.up_respond (h : d.Inv start) {payload : List UInt8}
    (hcount : d.link.accepted.length ≤ d.dispatched.length + if payload ≠ [] then 1 else 0)
    (seq : UInt8) :
    ∀ f ∈ Channel.frames
        (d.link.up ++ [.frame d.link.accepted.length (commandAddFrame seq payload)]),
      f.1 ≤ d.dispatched.length + if f.2.length > messageMin then 1 else 0 := by
  intro f hf
  rw [Channel.frames_append] at hf
  rcases List.mem_append.mp hf with hf | hf
  · exact h.up f hf
  · obtain rfl := List.mem_singleton.mp hf
    dsimp only
    rw [length_commandAddFrame]
    have hdata : payload.length + messageMin > messageMin ↔ payload ≠ [] := by
      rw [← List.length_pos_iff]
      omega
    simp only [hdata]
    exact hcount

lemma DispatchLink.Inv.build (h : d.Inv start) {clocks : SendClocks} {sq : SerialQueue}
    {out : List UInt8} (hsend : d.link.sq.sendSeq ≠ -1)
    (hround : commandEventRound d.link.sq clocks = some (sq, out)) :
    DispatchLink.Inv start { d with
      link := { d.link with
        sq := sq
        down := d.link.down ++ [.frame d.link.built.length out]
        built := d.link.built ++ [out] }
      packed := d.packed ++ [packedMessages (checkSendCommand d.link.sq clocks).1.readyCount
        (checkSendCommand d.link.sq clocks).1 []] } := by
  obtain ⟨hout, -, hreceive, hnotify⟩ := commandEventRound_notify hround
  have hstep : Serial.step d.link (.build clocks) = some { d.link with
      sq := sq
      down := d.link.down ++ [.frame d.link.built.length out]
      built := d.link.built ++ [out] } := by
    rw [Serial.step, hround]
    rfl
  have hseq : d.link.sq.sendSeq = start + UInt64.ofNat d.packed.length := by
    rw [h.packed]
    exact h.sound.coupled.send
  have hlen := h.packed
  refine ⟨h.sound.step (a := .build clocks) hsend hstep, ?_, ?_, h.dispatched, h.count, h.up,
    fun hstart => (h.noted hstart).build hseq hreceive hnotify⟩
  · change (d.packed ++ _).length = (d.link.built ++ _).length
    rw [List.length_append, List.length_append, hlen]
    rfl
  · intro i block msgs hblock hmsgs
    rcases Nat.lt_or_ge i d.packed.length with hlt | hge
    · rw [List.getElem?_append_left (by omega)] at hblock hmsgs
      exact h.blocks i block msgs hblock hmsgs
    · rw [List.getElem?_append_right (by omega)] at hblock
      rw [List.getElem?_append_right hge] at hmsgs
      obtain ⟨hzero, rfl⟩ := List.getElem?_eq_some_iff.mp hblock
      obtain ⟨-, rfl⟩ := List.getElem?_eq_some_iff.mp hmsgs
      rw [List.length_singleton] at hzero
      obtain rfl : i = d.packed.length := by omega
      rw [List.getElem_singleton, List.getElem_singleton, ← hseq]
      exact hout

lemma DispatchLink.Inv.find (h : d.Inv start) (hphase : d.phase = .finding) (k : Nat) :
    DispatchLink.Inv start { d with
      link := d.link.find k
      phase := if (commandFindBlock d.link.sync ((Channel.bytes d.link.down).take k)).ret = .block
        then .dispatching else .finding } := by
  have hsound : Sound start (d.link.find k) := h.sound.step (a := .find k) trivial rfl
  have hcount := h.count
  rw [hphase, if_neg (by decide), Nat.add_zero] at hcount
  unfold Link.find at hsound ⊢
  dsimp only at hsound ⊢
  by_cases hret : (commandFindBlock d.link.sync ((Channel.bytes d.link.down).take k)).ret = .block
  · simp only [if_pos hret] at hsound ⊢
    refine ⟨hsound, h.packed, h.blocks, h.dispatched.trans (List.prefix_append _ _), ?_, h.up,
      h.noted⟩
    change (d.link.accepted ++ _).length = _
    rw [List.length_append, hcount]
    rfl
  · simp only [if_neg hret] at hsound ⊢
    rw [← hphase]
    split
    · rename_i hnak
      rw [if_pos hnak] at hsound
      have hnone : d.link.accepted.length ≤
          d.dispatched.length + if ([] : List UInt8) ≠ [] then 1 else 0 := Nat.le_of_eq hcount
      exact h.congr hsound rfl rfl (h.up_respond hnone _) h.noted
    · rename_i hnak
      rw [if_neg hnak] at hsound
      exact h.congr hsound rfl rfl h.up h.noted

lemma DispatchLink.Inv.input (h : d.Inv start) (k : Nat) :
    DispatchLink.Inv start { d with link := d.link.input k } := by
  have hsound : Sound start (d.link.input k) := h.sound.step (a := .input k) trivial rfl
  have hdetect := h.sound.aligned.up.detected d.link.sq.needSync k
  have hpop : ∀ len, ∀ f ∈ Channel.frames (Channel.pop d.link.up len),
      f.1 ≤ d.dispatched.length + if f.2.length > messageMin then 1 else 0 :=
    fun len f hf => h.up f ((Channel.frames_pop_sublist _ _).subset hf)
  unfold Link.input at hsound ⊢
  dsimp only at hsound ⊢
  split
  · exact h
  · rename_i needSync len hcheck
    simp only [hcheck] at hsound
    exact h.congr hsound rfl rfl (hpop len) h.noted
  · rename_i len hcheck
    simp only [hcheck] at hsound
    apply h.congr hsound rfl rfl (hpop len)
    obtain ⟨hsync, hvalid⟩ := msgblockCheck_message hcheck
    obtain ⟨hmin, -, hlen⟩ := length_of_checkBlock_valid hvalid
    unfold Detected at hdetect
    rw [hsync, hvalid] at hdetect
    obtain ⟨a, hframes⟩ := Channel.pop_of_startsWith hdetect (by
      rw [← List.length_pos_iff, List.length_take, Nat.min_eq_left hlen]
      exact Nat.lt_of_lt_of_le (by decide) hmin)
    have hmem : (a, ((Channel.bytes d.link.up).take k).take len) ∈ Channel.frames d.link.up := by
      rw [hframes]
      exact List.mem_cons_self
    have hwrap := h.sound.noWrap
    rw [← h.packed] at hwrap
    intro hstart
    exact (h.noted hstart).handleMessage hstart hwrap
      (h.sound.coupled.expandSeq_eq h.sound.window hmem) (h.up _ hmem)

lemma DispatchLink.Inv.link (h : d.Inv start) {a : Action} (ha : d.Legal (.link a))
    (hs : d.step (.link a) = some d') : d'.Inv start := by
  cases a with
  | build clocks =>
    obtain ⟨link, hlink, rfl⟩ := Option.map_eq_some_iff.mp hs
    obtain ⟨⟨sq, out⟩, hround, rfl⟩ := Option.map_eq_some_iff.mp hlink
    exact h.build ha hround
  | find k =>
    obtain ⟨hphase, hfind⟩ := Option.ite_none_right_eq_some.mp hs
    obtain rfl := Option.some.inj hfind
    exact h.find hphase k
  | input k =>
    obtain rfl := Option.some.inj hs
    exact h.input k
  | sendBatch q msgs =>
    obtain rfl := Option.some.inj hs
    apply h.congr (h.sound.step (a := .sendBatch q msgs) ha rfl) rfl rfl h.up
    intro hstart
    apply (h.noted hstart).congr
    · dsimp only
      unfold serialqueueSendBatch
      dsimp only
      split <;> rfl
    · dsimp only
      unfold serialqueueSendBatch
      dsimp only
      split <;> rfl
  | check clocks =>
    obtain ⟨link, hlink, rfl⟩ := Option.map_eq_some_iff.mp hs
    have hsound := h.sound.step (a := .check clocks) ha hlink
    obtain ⟨-, hreceive, hnotify⟩ := checkSendCommand_notify d.link.sq clocks
    obtain rfl := eq_of_step_check hlink
    exact h.congr hsound rfl rfl h.up fun hstart => (h.noted hstart).congr hnotify hreceive
  | retransmit =>
    obtain rfl := Option.some.inj hs
    exact h.congr (h.sound.step (a := .retransmit) ha rfl) rfl rfl h.up
      fun hstart => (h.noted hstart).congr rfl rfl
  | respond payload =>
    obtain rfl := Option.some.inj hs
    have hcount : d.link.accepted.length ≤ d.dispatched.length + if payload ≠ [] then 1 else 0 := by
      rw [if_pos ha.1, h.count]
      split <;> omega
    exact h.congr (h.sound.step ha.2 rfl) rfl rfl (h.up_respond hcount _) h.noted
  | damageDown i bytes =>
    obtain rfl := Option.some.inj hs
    exact h.congr (h.sound.step (a := .damageDown i bytes) ha rfl) rfl rfl h.up h.noted
  | damageUp i bytes =>
    obtain rfl := Option.some.inj hs
    exact h.congr (h.sound.step (a := .damageUp i bytes) ha rfl) rfl rfl
      (fun f hf => h.up f ((Channel.frames_damage_sublist _ _ _).subset hf)) h.noted

lemma DispatchLink.Inv.step (h : d.Inv start) {a : DispatchAction} (ha : d.Legal a)
    (hs : d.step a = some d') : d'.Inv start := by
  cases a with
  | link a => exact h.link ha hs
  | dispatchEnd =>
    obtain ⟨hphase, hsome⟩ := Option.ite_none_right_eq_some.mp hs
    obtain rfl := Option.some.inj hsome
    have hcount := h.count
    have hle : d.dispatched.length ≤ d.link.accepted.length := by omega
    exact ⟨h.sound, h.packed, h.blocks, List.prefix_refl _, rfl,
      fun f hf => Nat.le_trans (h.up f hf) (Nat.add_le_add_right hle _),
      fun hstart => (h.noted hstart).mono hle⟩
  | sendAck =>
    obtain ⟨hphase, hsome⟩ := Option.ite_none_right_eq_some.mp hs
    obtain rfl := Option.some.inj hsome
    have hcount := h.count
    rw [hphase, if_neg (by decide), Nat.add_zero] at hcount
    have hnone : d.link.accepted.length ≤
        d.dispatched.length + if ([] : List UInt8) ≠ [] then 1 else 0 := Nat.le_of_eq hcount
    have hsound : Sound start (d.link.respond []) :=
      h.sound.step (a := .respond []) (Nat.zero_le _) rfl
    exact ⟨hsound, h.packed, h.blocks, h.dispatched, hcount, h.up_respond hnone _, h.noted⟩

lemma DispatchLink.Idle.inv (h : d.Idle) : d.Inv d.link.sq.sendSeq where
  sound :=
    { window := by
        rw [h.synchronised.window]
        exact Window.inv_start 12 0
      coupled := h.synchronised.coupled
      aligned := by
        refine ⟨h.host, h.mcu, ?_, ?_, ?_⟩
        · rw [h.synchronised.sent]
          nofun
        · rw [h.synchronised.down]
          nofun
        · rw [h.synchronised.up]
          nofun
      noWrap := by
        rw [h.synchronised.built]
        exact d.link.sq.sendSeq.toNat_lt }
  packed := by
    rw [h.packed, h.synchronised.built]
    rfl
  blocks := by
    rw [h.packed]
    nofun
  dispatched := by
    rw [h.dispatched]
    exact List.nil_prefix
  count := by
    rw [h.synchronised.accepted, h.dispatched, h.phase]
    rfl
  up := by
    rw [h.synchronised.up]
    nofun
  noted := by
    refine fun _ => ⟨[], [], ?_, ?_, ?_, nofun⟩
    · rw [h.packed]
      rfl
    · rw [h.receiveQueue]
      rfl
    · rw [h.notifyQueue]
      rfl

end Dispatch

/-- Messages with a `notify_id` are reported in the order in which they entered blocks, and only
those whose block the micro-controller has finished dispatching. -/
theorem completed_after_dispatch {s₀ s : DispatchLink} {actions : List DispatchAction} (h₀ : s₀.Idle)
    (hstart : 2 ≤ s₀.link.sq.sendSeq.toNat)
    (h : Run DispatchLink.step DispatchLink.Legal s₀ actions s) :
    (∀ (i : Nat) block msgs, s.link.built[i]? = some block → s.packed[i]? = some msgs →
      ∃ seq, block = commandAddFrame seq (msgs.flatMap fun e => e.2.msg)) ∧
    ∃ done rest, notices s.packed = done ++ rest ∧
      completedIds s.link.sq.receiveQueue = done.map Prod.snd ∧
      ∀ e ∈ done, ∃ block, s.link.built[e.1]? = some block ∧ s.dispatched[e.1]? = some block := by
  have hinv : s.Inv s₀.link.sq.sendSeq := h.invariant h₀.inv fun _ _ _ hi ha hs => hi.step ha hs
  obtain ⟨done, rest, hnotices, hids, -, hdone⟩ := hinv.noted hstart
  refine ⟨fun i block msgs hblock hmsgs => ⟨_, hinv.blocks i block msgs hblock hmsgs⟩, done, rest,
    hnotices, hids, fun e he => ?_⟩
  have hprefix : s.dispatched <+: s.link.built := by
    apply hinv.dispatched.trans
    rw [hinv.sound.coupled.accepted]
    exact List.take_prefix _ _
  obtain ⟨more, hmore⟩ := hprefix
  have hget := List.getElem?_eq_getElem (hdone e he)
  refine ⟨_, ?_, hget⟩
  rw [← hmore, List.getElem?_append_left (hdone e he)]
  exact hget

/-- An idle link whose next sequence number is `seq`. -/
def idleDispatch (seq : UInt64) : DispatchLink := ⟨idleLink seq, .finding, [], []⟩

lemma idle_idleDispatch (seq : UInt64) : (idleDispatch seq).Idle :=
  ⟨synchronised_idleLink seq, rfl, rfl, rfl, rfl, rfl, rfl, rfl⟩

instance DispatchLink.decidableLegal (s : DispatchLink) (a : DispatchAction) :
    Decidable (s.Legal a) :=
  match a with
  | .link (.build _) => inferInstanceAs (Decidable (_ ≠ _))
  | .link (.respond _) => inferInstanceAs (Decidable (_ ≠ _ ∧ _ ≤ _))
  | .link (.damageDown _ _) => inferInstanceAs (Decidable (_ = _))
  | .link (.damageUp _ _) => inferInstanceAs (Decidable (_ = _))
  | .link (.sendBatch _ _) => instDecidableTrue
  | .link (.check _) => instDecidableTrue
  | .link .retransmit => instDecidableTrue
  | .link (.find _) => instDecidableTrue
  | .link (.input _) => instDecidableTrue
  | .dispatchEnd => instDecidableTrue
  | .sendAck => instDecidableTrue

/-- A block is lost and sent again. A response during its dispatch reports nothing, and the ack
reports its message. -/
def lossAndResponse : List DispatchAction :=
  [.link (.sendBatch 0 [⟨[1], 0, 0, 7⟩]), .link (.build ⟨0, 0, none⟩), .link (.damageDown 0 []),
    .link .retransmit, .link (.find 7), .link (.find 6), .link (.respond [9]), .link (.input 6),
    .dispatchEnd, .sendAck, .link (.input 5)]

theorem completed_after_dispatch_lossAndResponse :
    ∃ s, Run DispatchLink.step DispatchLink.Legal (idleDispatch 15) lossAndResponse s ∧
      completedIds s.link.sq.receiveQueue = [7] ∧
      ∃ done rest, notices s.packed = done ++ rest ∧
        completedIds s.link.sq.receiveQueue = done.map Prod.snd ∧
        ∀ e ∈ done, ∃ block, s.link.built[e.1]? = some block ∧ s.dispatched[e.1]? = some block := by
  obtain ⟨s, hs, hp⟩ : ∃ s,
      Run DispatchLink.step DispatchLink.Legal (idleDispatch 15) lossAndResponse s ∧
      decide (completedIds s.link.sq.receiveQueue = [7]) = true :=
    Run.exists_of_exec lossAndResponse _ (by decide +kernel)
  have hstart : 2 ≤ (idleDispatch 15).link.sq.sendSeq.toNat := by decide
  exact ⟨s, hs, of_decide_eq_true hp, (completed_after_dispatch (idle_idleDispatch 15) hstart hs).2⟩

/-- A response to a host that starts with the sequence number 0. -/
def earlyResponse : List DispatchAction :=
  [.link (.sendBatch 0 [⟨[1], 0, 0, 7⟩]), .link (.build ⟨0, 0, none⟩), .link (.respond [9]),
    .link (.input 6)]

/-- Below the sequence number 0 `wake_seq` wraps around, and a message is reported whose block has
not been found. -/
theorem completed_before_dispatch :
    ∃ s, (idleDispatch 0).Idle ∧
      Run DispatchLink.step DispatchLink.Legal (idleDispatch 0) earlyResponse s ∧
      completedIds s.link.sq.receiveQueue = [7] ∧ s.dispatched = [] := by
  obtain ⟨s, hs, hp⟩ : ∃ s,
      Run DispatchLink.step DispatchLink.Legal (idleDispatch 0) earlyResponse s ∧
      decide (completedIds s.link.sq.receiveQueue = [7] ∧ s.dispatched = []) = true :=
    Run.exists_of_exec earlyResponse _ (by decide +kernel)
  exact ⟨s, idle_idleDispatch 0, hs, of_decide_eq_true hp⟩

end KlipperMcu.Serial
