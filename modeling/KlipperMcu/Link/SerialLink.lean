import KlipperMcu.Host.SerialQueue
import KlipperMcu.Lib.Channel
import KlipperMcu.Lib.Run
import KlipperMcu.Lib.SlidingWindow

/-!
# The serial link

The host serialqueue and `command_find_block` with a byte channel in each direction. Channels keep
the order of their bytes, and any block in them can be lost or damaged. Numbers are sent modulo 16
and the link is a sliding window of 12 blocks.
-/

namespace KlipperMcu.Serial

open Lib Wire

/-- Both sides and the channels, with the blocks that the host has built, those that the
micro-controller has accepted and those that the host has removed from the sent queue. A frame in a
channel is tagged with its number: for a block how many were built before it, and for a message of
the micro-controller how many blocks were accepted before it. -/
structure Link where
  sq : SerialQueue
  sync : Sync
  down : List (Segment Nat UInt8)
  up : List (Segment Nat UInt8)
  built : List (List UInt8)
  accepted : List (List UInt8)
  acknowledged : List (List UInt8)

/-- `find` and `input` look at the first `k` bytes of a channel. `check` is a round of
`command_event` that sends nothing. -/
inductive Action where
  | sendBatch (q : Nat) (msgs : List QueueMessage)
  | check (clocks : SendClocks)
  | build (clocks : SendClocks)
  | retransmit
  | find (k : Nat)
  | respond (payload : List UInt8)
  | input (k : Nat)
  | damageDown (i : Nat) (bytes : List UInt8)
  | damageUp (i : Nat) (bytes : List UInt8)

/-- A message of the micro-controller. -/
def Link.respond (s : Link) (payload : List UInt8) : Link :=
  { s with
    up := s.up ++ [.frame s.accepted.length (commandAddFrame s.sync.nextSequence payload)] }

/-- The blocks of the sent queue with their numbers. -/
def Link.resent (s : Link) : List (Segment Nat UInt8) :=
  (s.sq.sentQueue.zipIdx s.acknowledged.length).map fun (block, i) => .frame i block

/-- The micro-controller looks for a block in the bytes that have arrived. -/
def Link.find (s : Link) (k : Nat) : Link :=
  let buf := (Channel.bytes s.down).take k
  let f := commandFindBlock s.sync buf
  let taken := { s with sync := f.sync, down := Channel.pop s.down f.popCount }
  if f.ret = .block then { taken with accepted := s.accepted ++ [buf.take f.popCount] }
  else if f.nak then taken.respond []
  else taken

/-- One round of the loop of `input_event`. -/
def Link.input (s : Link) (k : Nat) : Link :=
  let buf := (Channel.bytes s.up).take k
  match msgblockCheck s.sq.needSync buf with
  | (_, .needMore) => s
  | (needSync, .skip len) =>
    { s with sq := { s.sq with needSync := needSync }, up := Channel.pop s.up len }
  | (_, .message len) =>
    let sq := handleMessage s.sq (buf.take len)
    { s with
      sq := sq
      up := Channel.pop s.up len
      acknowledged := s.acknowledged ++
        s.sq.sentQueue.take (s.sq.sentQueue.length - sq.sentQueue.length) }

def step (s : Link) : Action → Option Link
  | .sendBatch q msgs => some { s with sq := serialqueueSendBatch s.sq q msgs }
  | .check clocks =>
    match checkSendCommand s.sq clocks with
    | (sq, false) => some { s with sq := sq }
    | (_, true) => none
  | .build clocks =>
    (commandEventRound s.sq clocks).map fun (sq, out) =>
      { s with
        sq := sq
        down := s.down ++ [.frame s.built.length out]
        built := s.built ++ [out] }
  | .retransmit =>
    some { s with
      sq := retransmitEvent s.sq
      down := s.down ++ .loose messageSync :: s.resent }
  | .find k => some (s.find k)
  | .respond payload => some (s.respond payload)
  | .input k => some (s.input k)
  | .damageDown i bytes => some { s with down := Channel.damage s.down i bytes }
  | .damageUp i bytes => some { s with up := Channel.damage s.up i bytes }

/-- What passes the checks at the place where a receiver looks is an intact frame. This asks more than
that a damaged frame fails the checks: the receiver goes on behind the next SYNC byte, which may lie
within a frame. -/
def Detected (needSync : Bool) (c : List (Segment Nat UInt8)) (k : Nat) : Prop :=
  match needSync, checkBlock ((Channel.bytes c).take k) with
  | false, .valid len => Channel.StartsWith c (((Channel.bytes c).take k).take len)
  | _, _ => True

instance (needSync : Bool) (c : List (Segment Nat UInt8)) (k : Nat) :
    Decidable (Detected needSync c k) := by
  unfold Detected
  split <;> infer_instance

/-- Damage is detected, and the receivers find their way back to the start of a frame. -/
def DamageDetected (s : Link) : Action → Prop
  | .find k => Detected s.sync.needSync s.down k
  | .input k => Detected s.sq.needSync s.up k
  | _ => True

/-- The damaged bytes of a frame do not pass the checks. -/
def DamageFails : Action → Prop
  | .damageDown _ bytes => checkBlock bytes = .bad
  | .damageUp _ bytes => checkBlock bytes = .bad
  | _ => True

/-- No block is built while `receive_seq` is the mark of a debug file. -/
def Limited (s : Link) : Action → Prop
  | .build _ => s.sq.receiveSeq ≠ -1
  | _ => True

def Legal (s : Link) (a : Action) : Prop := DamageDetected s a ∧ Limited s a

/-- Both sides are idle and agree on the next sequence number. -/
structure Synchronised (s : Link) : Prop where
  send : s.sq.sendSeq = s.sq.receiveSeq
  sent : s.sq.sentQueue = []
  next : s.sync.nextSequence = seqByte s.sq.sendSeq
  down : s.down = []
  up : s.up = []
  built : s.built = []
  accepted : s.accepted = []
  acknowledged : s.acknowledged = []

/-- The sliding window that a link implements. -/
def Link.window (s : Link) : Window where
  sent := s.built.length
  acked := s.acknowledged.length
  accepted := s.accepted.length
  down := (Channel.frames s.down).map Prod.fst
  up := (Channel.frames s.up).map Prod.fst

/-- The state of the two sides in terms of the window and of the blocks that were built. -/
structure Coupled (start : UInt64) (s : Link) : Prop where
  send : s.sq.sendSeq = start + UInt64.ofNat s.built.length
  receive : s.sq.receiveSeq = start + UInt64.ofNat s.acknowledged.length
  sent : s.sq.sentQueue = s.built.drop s.acknowledged.length
  acknowledged : s.acknowledged = s.built.take s.acknowledged.length
  accepted : s.accepted = s.built.take s.accepted.length
  next : s.sync.nextSequence = seqByte (start + UInt64.ofNat s.accepted.length)
  seq : ∀ (i : Nat) block, s.built[i]? = some block →
    block.getD 1 0 = seqByte (start + UInt64.ofNat i)
  down : ∀ f ∈ Channel.frames s.down, s.built[f.1]? = some f.2
  up : ∀ f ∈ Channel.frames s.up, f.2.getD 1 0 = seqByte (start + UInt64.ofNat f.1)

/-- Steps of the sliding window of a link. -/
abbrev Steps : Window → Window → Prop := Relation.ReflTransGen (Window.Step 12)

section Coupled

variable {start : UInt64} {s : Link}

lemma eq_of_step_check {clocks : SendClocks} {s' : Link} (hs : step s (.check clocks) = some s') :
    s' = { s with sq := (checkSendCommand s.sq clocks).1 } := by
  rw [step] at hs
  split at hs
  · rename_i hcheck
    rw [hcheck]
    exact (Option.some.inj hs).symm
  · cases hs

lemma toNat_add_ofNat (start : UInt64) (n : Nat) :
    (start + UInt64.ofNat n).toNat = (start.toNat + n) % 2 ^ 64 := by
  rw [UInt64.toNat_add, UInt64.toNat_ofNat']
  omega

lemma add_ofNat_succ (start : UInt64) (n : Nat) :
    start + UInt64.ofNat n + 1 = start + UInt64.ofNat (n + 1) := by
  rw [← UInt64.toNat_inj, UInt64.toNat_add, toNat_add_ofNat, toNat_add_ofNat]
  change ((start.toNat + n) % 2 ^ 64 + 1) % 2 ^ 64 = _
  omega

lemma ofNat_add_assoc (start : UInt64) (m n : Nat) :
    start + UInt64.ofNat (m + n) = start + UInt64.ofNat m + UInt64.ofNat n := by
  rw [← UInt64.toNat_inj, toNat_add_ofNat, toNat_add_ofNat, toNat_add_ofNat]
  omega

lemma eq_of_seqByte_eq {i j : Nat} (h : seqByte (start + UInt64.ofNat i) =
    seqByte (start + UInt64.ofNat j)) (hi : i ≤ j + 12) (hj : j ≤ i + 12) : i = j := by
  rw [seqByte_eq_iff, toNat_add_ofNat, toNat_add_ofNat] at h
  omega

lemma Coupled.setSq (h : Coupled start s) {sq : SerialQueue}
    (hsq : sq.outstanding = s.sq.outstanding) : Coupled start { s with sq := sq } := by
  have hsend : sq.sendSeq = s.sq.sendSeq := congrArg Outstanding.sendSeq hsq
  have hrecv : sq.receiveSeq = s.sq.receiveSeq := congrArg Outstanding.receiveSeq hsq
  have hsent : sq.sentQueue = s.sq.sentQueue := congrArg Outstanding.sentQueue hsq
  exact ⟨hsend.trans h.send, hrecv.trans h.receive, hsent.trans h.sent, h.acknowledged, h.accepted,
    h.next, h.seq, h.down, h.up⟩

lemma Coupled.lose (h : Coupled start s) {down up : List (Segment Nat UInt8)}
    (hdown : (Channel.frames down).Sublist (Channel.frames s.down))
    (hup : (Channel.frames up).Sublist (Channel.frames s.up)) :
    Steps s.window { s with down := down, up := up }.window ∧
      Coupled start { s with down := down, up := up } :=
  ⟨.single (.lose (hdown.map Prod.fst) (hup.map Prod.fst)),
    ⟨h.send, h.receive, h.sent, h.acknowledged, h.accepted, h.next, h.seq,
      fun f hf => h.down f (hdown.subset hf), fun f hf => h.up f (hup.subset hf)⟩⟩

lemma Coupled.respond (h : Coupled start s) (payload : List UInt8) :
    Steps s.window (s.respond payload).window ∧ Coupled start (s.respond payload) := by
  have hframes : Channel.frames (s.respond payload).up = Channel.frames s.up ++
      [(s.accepted.length, commandAddFrame s.sync.nextSequence payload)] :=
    Channel.frames_append _ _
  have hwindow : (s.respond payload).window =
      { s.window with up := s.window.up ++ [s.window.accepted] } := by
    unfold Link.window
    rw [hframes, List.map_append]
    rfl
  refine ⟨?_, h.send, h.receive, h.sent, h.acknowledged, h.accepted, h.next, h.seq, h.down, ?_⟩
  · rw [hwindow]
    exact .single .reply
  · intro f hf
    rw [hframes] at hf
    rcases List.mem_append.mp hf with hold | hnew
    · exact h.up f hold
    · rw [List.mem_singleton.mp hnew]
      exact h.next

/-- The window test of the host is exact while `receive_seq` is not the mark of a debug file. -/
lemma Coupled.lt_of_not_full (h : Coupled start s) (hinv : s.window.Inv 12)
    (hfull : windowFull s.sq = false) (hlimit : s.sq.receiveSeq ≠ -1) :
    s.built.length < s.acknowledged.length + 12 := by
  have hle : s.built.length ≤ s.acknowledged.length + 12 := hinv.sent_le
  have hge : s.acknowledged.length ≤ s.built.length := Nat.le_trans hinv.acked_le hinv.accepted_le
  have hlt : (s.sq.sendSeq - s.sq.receiveSeq).toNat < 12 := by
    by_contra hge
    have hmax : s.sq.sendSeq - s.sq.receiveSeq ≥ maxPendingBlocks := Nat.not_lt.mp hge
    have hne : (s.sq.receiveSeq != -1) = true := bne_iff_ne.mpr hlimit
    unfold windowFull at hfull
    rw [decide_eq_true hmax, hne] at hfull
    cases hfull
  rw [h.send, h.receive, UInt64.toNat_sub, toNat_add_ofNat, toNat_add_ofNat] at hlt
  omega

lemma Coupled.build (h : Coupled start s) (hinv : s.window.Inv 12) {clocks : SendClocks}
    {sq : SerialQueue} {out : List UInt8} (hround : commandEventRound s.sq clocks = some (sq, out))
    (hlimit : s.sq.receiveSeq ≠ -1) :
    let s' := { s with
      sq := sq
      down := s.down ++ [.frame s.built.length out]
      built := s.built ++ [out] }
    Steps s.window s'.window ∧ Coupled start s' := by
  obtain ⟨hfull, payload, -, rfl, hnew⟩ := commandEventRound_spec hround
  generalize hout : commandAddFrame (seqByte s.sq.sendSeq) payload = out at hnew ⊢
  have hlt := h.lt_of_not_full hinv hfull hlimit
  have hacked : s.acknowledged.length ≤ s.built.length := Nat.le_trans hinv.acked_le hinv.accepted_le
  have haccepted : s.accepted.length ≤ s.built.length := hinv.accepted_le
  have hsend : sq.sendSeq = s.sq.sendSeq + 1 := congrArg Outstanding.sendSeq hnew
  have hrecv : sq.receiveSeq = s.sq.receiveSeq := congrArg Outstanding.receiveSeq hnew
  have hsent : sq.sentQueue = s.sq.sentQueue ++ [out] := congrArg Outstanding.sentQueue hnew
  have hframes : Channel.frames (s.down ++ [.frame s.built.length out]) =
      Channel.frames s.down ++ [(s.built.length, out)] := Channel.frames_append _ _
  have hold : ∀ (i : Nat) block, s.built[i]? = some block → (s.built ++ [out])[i]? = some block := by
    intro i block hi
    rw [List.getElem?_append_left (List.getElem?_eq_some_iff.mp hi).1, hi]
  intro s'
  refine ⟨.single ?_, ?_, hrecv.trans h.receive, ?_, ?_, ?_, h.next, ?_, ?_, h.up⟩
  · have hwindow : s'.window = { s.window with
        sent := s.window.sent + 1
        down := s.window.down ++ [s.window.sent] } := by
      unfold Link.window
      rw [hframes, List.map_append, List.length_append]
      rfl
    rw [hwindow]
    exact .send hlt
  · change sq.sendSeq = start + UInt64.ofNat (s.built ++ [out]).length
    rw [hsend, h.send, List.length_append, add_ofNat_succ]
    rfl
  · change sq.sentQueue = (s.built ++ [out]).drop s.acknowledged.length
    rw [hsent, h.sent, List.drop_append_of_le_length hacked]
  · change s.acknowledged = (s.built ++ [out]).take s.acknowledged.length
    rw [List.take_append_of_le_length hacked]
    exact h.acknowledged
  · change s.accepted = (s.built ++ [out]).take s.accepted.length
    rw [List.take_append_of_le_length haccepted]
    exact h.accepted
  · intro i block hi
    rcases Nat.lt_or_ge i s.built.length with hlt | hge
    · rw [List.getElem?_append_left hlt] at hi
      exact h.seq i block hi
    · rw [List.getElem?_append_right hge, List.getElem?_singleton] at hi
      split at hi
      · rename_i hzero
        cases hi
        rw [show i = s.built.length by omega, ← h.send, ← hout]
        rfl
      · cases hi
  · intro f hf
    rw [hframes] at hf
    rcases List.mem_append.mp hf with hold' | hnew'
    · exact hold _ _ (h.down f hold')
    · rw [List.mem_singleton.mp hnew']
      exact List.getElem?_concat_length

lemma Coupled.retransmit (h : Coupled start s) :
    let s' := { s with
      sq := retransmitEvent s.sq
      down := s.down ++ .loose messageSync :: s.resent }
    Steps s.window s'.window ∧ Coupled start s' := by
  have hframes : Channel.frames (s.down ++ .loose messageSync :: s.resent) = Channel.frames s.down ++
      (s.sq.sentQueue.zipIdx s.acknowledged.length).map fun (block, i) => (i, block) := by
    rw [Channel.frames_append]
    exact congrArg _ (Channel.frames_frames _ Prod.snd Prod.fst)
  have htags : ((s.sq.sentQueue.zipIdx s.acknowledged.length).map fun (block, i) => (i, block)).map
      Prod.fst = List.range' s.acknowledged.length (s.built.length - s.acknowledged.length) := by
    rw [List.map_map, ← List.length_drop, ← h.sent]
    exact List.zipIdx_map_snd _ _
  have hold := h.setSq (outstanding_retransmitEvent s.sq)
  refine ⟨.single ?_, hold.send, hold.receive, hold.sent, hold.acknowledged, hold.accepted, hold.next,
    hold.seq, ?_, hold.up⟩
  · have hwindow : ({ s with
        sq := retransmitEvent s.sq
        down := s.down ++ .loose messageSync :: s.resent } : Link).window = { s.window with
          down := s.window.down ++
            List.range' s.window.acked (s.window.sent - s.window.acked) } := by
      unfold Link.window
      dsimp only
      rw [hframes, List.map_append, htags]
    rw [hwindow]
    exact .resend
  · intro f hf
    rw [hframes] at hf
    rcases List.mem_append.mp hf with hf | hf
    · exact h.down f hf
    · obtain ⟨⟨block, i⟩, hmem, rfl⟩ := List.mem_map.mp hf
      obtain ⟨hle, hget⟩ := List.mem_zipIdx_iff_le_and_getElem?_sub.mp hmem
      rw [h.sent, List.getElem?_drop, Nat.add_sub_cancel' hle] at hget
      exact hget

lemma Coupled.find_skip (h : Coupled start s) {k : Nat}
    (hret : (commandFindBlock s.sync ((Channel.bytes s.down).take k)).ret ≠ .block) :
    Steps s.window (s.find k).window ∧ Coupled start (s.find k) := by
  generalize hf : commandFindBlock s.sync ((Channel.bytes s.down).take k) = f at hret
  have hnext : f.sync.nextSequence = s.sync.nextSequence := by
    rw [← hf] at hret ⊢
    exact nextSequence_of_ne_block hret
  have hsync : Coupled start { s with sync := f.sync } :=
    ⟨h.send, h.receive, h.sent, h.acknowledged, h.accepted, hnext.trans h.next, h.seq, h.down, h.up⟩
  obtain ⟨hsteps, hpop⟩ := hsync.lose (Channel.frames_pop_sublist s.down f.popCount)
    (List.Sublist.refl _)
  unfold Link.find
  dsimp only
  rw [hf, if_neg hret]
  split
  · obtain ⟨hreply, hnak⟩ := hpop.respond []
    exact ⟨hsteps.trans hreply, hnak⟩
  · exact ⟨hsteps, hpop⟩

lemma Coupled.find_block (h : Coupled start s) (hinv : s.window.Inv 12) {k : Nat}
    (hret : (commandFindBlock s.sync ((Channel.bytes s.down).take k)).ret = .block)
    (hdetect : Detected s.sync.needSync s.down k) :
    Steps s.window (s.find k).window ∧ Coupled start (s.find k) := by
  obtain ⟨hsync, hcheck, hseq, -, hnext⟩ := commandFindBlock_block hret
  unfold Link.find
  dsimp only
  rw [if_pos hret]
  generalize hbuf : (Channel.bytes s.down).take k = buf at hret hcheck hseq hnext ⊢
  generalize hf : commandFindBlock s.sync buf = f at hret hcheck hnext ⊢
  obtain ⟨hmin, -, hlen⟩ := length_of_checkBlock_valid hcheck
  have hblock : (buf.take f.popCount).length = f.popCount := by
    rw [List.length_take, Nat.min_eq_left hlen]
  have hone : (buf.take f.popCount).getD 1 0 = buf.getD 1 0 := by
    rw [List.getD_eq_getElem?_getD, List.getD_eq_getElem?_getD, List.getElem?_take,
      if_pos (Nat.lt_of_lt_of_le (by decide) hmin)]
  unfold Detected at hdetect
  rw [hsync, hbuf, hcheck] at hdetect
  obtain ⟨tag, hframes⟩ := Channel.pop_of_startsWith hdetect (by
    rw [← List.length_pos_iff, hblock]
    exact Nat.lt_of_lt_of_le (by decide) hmin)
  rw [hblock] at hframes
  have hmem : (tag, buf.take f.popCount) ∈ Channel.frames s.down := by
    rw [hframes]
    exact List.mem_cons_self
  have hbuilt := h.down _ hmem
  have hnear := hinv.near (i := tag) (List.mem_map.mpr ⟨_, hmem, rfl⟩)
  obtain rfl : tag = s.accepted.length := by
    have hb := h.seq tag _ hbuilt
    rw [hone, hseq, h.next] at hb
    exact (eq_of_seqByte_eq hb hnear.2 hnear.1).symm
  refine ⟨.single ?_, h.send, h.receive, h.sent, h.acknowledged, ?_, ?_, h.seq, ?_, h.up⟩
  · have hwindow : ({ s with
        sync := f.sync
        down := Channel.pop s.down f.popCount
        accepted := s.accepted ++ [buf.take f.popCount] } : Link).window = { s.window with
          accepted := s.window.accepted + 1
          down := (Channel.frames (Channel.pop s.down f.popCount)).map Prod.fst } := by
      unfold Link.window
      rw [List.length_append]
      rfl
    rw [hwindow]
    refine .accept ?_
    unfold Link.window
    rw [hframes]
    rfl
  · change s.accepted ++ [buf.take f.popCount] =
      s.built.take (s.accepted ++ [buf.take f.popCount]).length
    rw [List.length_append, List.length_singleton, List.take_add_one, hbuilt, ← h.accepted]
    rfl
  · change f.sync.nextSequence =
      seqByte (start + UInt64.ofNat (s.accepted ++ [buf.take f.popCount]).length)
    rw [hnext, h.next, seqByte_add_one, List.length_append, add_ofNat_succ]
    rfl
  · intro g hg
    exact h.down g ((Channel.frames_pop_sublist s.down f.popCount).subset hg)

lemma Coupled.expandSeq_eq (h : Coupled start s) (hinv : s.window.Inv 12) {a : Nat} {msg : List UInt8}
    (hmem : (a, msg) ∈ Channel.frames s.up) :
    expandSeq s.sq.receiveSeq (msg.getD 1 0) = start + UInt64.ofNat a := by
  obtain ⟨hge, -, hle⟩ := hinv.reply (a := a) (List.mem_map.mpr ⟨_, hmem, rfl⟩)
  change s.acknowledged.length ≤ a at hge
  change a ≤ s.acknowledged.length + 12 at hle
  rw [h.up _ hmem]
  apply expandSeq_seqByte
  rw [h.receive, UInt64.toNat_sub, toNat_add_ofNat, toNat_add_ofNat]
  omega

/-- The first `n` outstanding blocks are removed, as the message in front of the channel says. -/
lemma Coupled.acknowledge (h : Coupled start s) {sq : SerialQueue} {n : Nat} {msg : List UInt8}
    {up : List (Segment Nat UInt8)} (hn : s.acknowledged.length + n ≤ s.built.length)
    (hframes : Channel.frames s.up = (s.acknowledged.length + n, msg) :: Channel.frames up)
    (hsend : sq.sendSeq = s.sq.sendSeq) (hrecv : sq.receiveSeq = s.sq.receiveSeq + UInt64.ofNat n)
    (hqueue : sq.sentQueue = s.sq.sentQueue.drop n) :
    let s' := { s with
      sq := sq
      up := up
      acknowledged := s.acknowledged ++ s.sq.sentQueue.take n }
    Steps s.window s'.window ∧ Coupled start s' := by
  have htake : (s.acknowledged ++ s.sq.sentQueue.take n) =
      s.built.take (s.acknowledged.length + n) := by
    have hadd : s.built.take (s.acknowledged.length + n) =
        s.built.take s.acknowledged.length ++ (s.built.drop s.acknowledged.length).take n :=
      List.take_add
    rw [hadd, ← h.acknowledged, h.sent]
  have hcount : (s.acknowledged ++ s.sq.sentQueue.take n).length = s.acknowledged.length + n := by
    rw [htake, List.length_take, Nat.min_eq_left hn]
  refine ⟨.single ?_, hsend.trans h.send, ?_, ?_, ?_, h.accepted, h.next, h.seq, h.down, ?_⟩
  · have hwindow : ({ s with
        sq := sq
        up := up
        acknowledged := s.acknowledged ++ s.sq.sentQueue.take n } : Link).window =
        { s.window with
          acked := s.acknowledged.length + n
          up := (Channel.frames up).map Prod.fst } := by
      unfold Link.window
      rw [hcount]
    rw [hwindow]
    refine .acknowledge ?_
    unfold Link.window
    rw [hframes]
    rfl
  · change sq.receiveSeq = start + UInt64.ofNat (s.acknowledged ++ _).length
    rw [hcount, hrecv, h.receive, ← ofNat_add_assoc]
  · change sq.sentQueue = s.built.drop (s.acknowledged ++ _).length
    rw [hcount, hqueue, h.sent, List.drop_drop]
  · change s.acknowledged ++ _ = s.built.take (s.acknowledged ++ _).length
    rw [hcount, htake]
  · intro f hf
    apply h.up
    rw [hframes]
    exact List.mem_cons_of_mem _ hf

lemma Coupled.input_message (h : Coupled start s) (hinv : s.window.Inv 12) {msg : List UInt8}
    (hhead : Channel.StartsWith s.up msg) (hne : msg ≠ []) :
    let s' := { s with
      sq := handleMessage s.sq msg
      up := Channel.pop s.up msg.length
      acknowledged := s.acknowledged ++ s.sq.sentQueue.take
        (s.sq.sentQueue.length - (handleMessage s.sq msg).sentQueue.length) }
    Steps s.window s'.window ∧ Coupled start s' := by
  obtain ⟨a, hframes⟩ := Channel.pop_of_startsWith hhead hne
  have hmem : (a, msg) ∈ Channel.frames s.up := by
    rw [hframes]
    exact List.mem_cons_self
  obtain ⟨hge, hsent, -⟩ := hinv.reply (a := a) (List.mem_map.mpr ⟨_, hmem, rfl⟩)
  change s.acknowledged.length ≤ a at hge
  change a ≤ s.built.length at hsent
  have hlen : s.sq.sentQueue.length = s.built.length - s.acknowledged.length := by
    rw [h.sent, List.length_drop]
  have hrange : s.built.length ≤ s.acknowledged.length + 12 := hinv.sent_le
  have hrseq := h.expandSeq_eq hinv hmem
  have hpop := Channel.frames_pop_sublist s.up msg.length
  rcases outstanding_handleMessage s.sq msg with hsame | ⟨hnew, hupdate⟩
  · have hqueue : (handleMessage s.sq msg).sentQueue = s.sq.sentQueue :=
      congrArg Outstanding.sentQueue hsame
    rw [hqueue, Nat.sub_self, List.take_zero, List.append_nil]
    exact (h.setSq hsame).lose (List.Sublist.refl _) hpop
  · rw [hrseq] at hnew hupdate
    have hne' : a ≠ s.acknowledged.length := by
      rintro rfl
      exact hnew h.receive.symm
    obtain ⟨j, rfl⟩ : ∃ j, a = s.acknowledged.length + (j + 1) :=
      ⟨a - s.acknowledged.length - 1, by omega⟩
    rw [ofNat_add_assoc, ← h.receive, outstanding_updateReceiveSeq (by omega) (by omega)] at hupdate
    generalize handleMessage s.sq msg = sq at hupdate ⊢
    have hsend : sq.sendSeq = s.sq.sendSeq := congrArg Outstanding.sendSeq hupdate
    have hrecv : sq.receiveSeq = s.sq.receiveSeq + UInt64.ofNat (j + 1) :=
      congrArg Outstanding.receiveSeq hupdate
    have hqueue : sq.sentQueue = s.sq.sentQueue.drop (j + 1) :=
      congrArg Outstanding.sentQueue hupdate
    have hremoved : s.sq.sentQueue.length - sq.sentQueue.length = j + 1 := by
      rw [hqueue, List.length_drop]
      omega
    rw [hremoved]
    exact h.acknowledge hsent hframes hsend hrecv hqueue

lemma Coupled.input (h : Coupled start s) (hinv : s.window.Inv 12) {k : Nat}
    (hdetect : Detected s.sq.needSync s.up k) :
    Steps s.window (s.input k).window ∧ Coupled start (s.input k) := by
  unfold Link.input
  dsimp only
  split
  · exact ⟨.refl, h⟩
  · rename_i needSync len _
    have hsq : Coupled start { s with sq := { s.sq with needSync := needSync } } := h.setSq rfl
    exact hsq.lose (List.Sublist.refl _) (Channel.frames_pop_sublist s.up len)
  · rename_i needSync len hcheck
    obtain ⟨hsync, hvalid⟩ := msgblockCheck_message hcheck
    obtain ⟨hmin, -, hlen⟩ := length_of_checkBlock_valid hvalid
    unfold Detected at hdetect
    rw [hsync, hvalid] at hdetect
    have hmsg : (((Channel.bytes s.up).take k).take len).length = len := by
      rw [List.length_take, Nat.min_eq_left hlen]
    have hinput := h.input_message hinv hdetect (by
      rw [← List.length_pos_iff, hmsg]
      exact Nat.lt_of_lt_of_le (by decide) hmin)
    rw [hmsg] at hinput
    exact hinput

lemma Coupled.step (h : Coupled start s) (hinv : s.window.Inv 12) {a : Action} {s' : Link}
    (ha : Legal s a) (hs : step s a = some s') : Steps s.window s'.window ∧ Coupled start s' := by
  cases a with
  | sendBatch q msgs =>
    obtain rfl := Option.some.inj hs
    exact ⟨.refl, h.setSq (outstanding_serialqueueSendBatch _ _ _)⟩
  | check clocks =>
    rw [eq_of_step_check hs]
    exact ⟨.refl, h.setSq (outstanding_checkSendCommand s.sq clocks)⟩
  | build clocks =>
    obtain ⟨⟨sq, out⟩, hround, rfl⟩ := Option.map_eq_some_iff.mp hs
    exact h.build hinv hround ha.2
  | retransmit =>
    obtain rfl := Option.some.inj hs
    exact h.retransmit
  | find k =>
    obtain rfl := Option.some.inj hs
    by_cases hret : (commandFindBlock s.sync ((Channel.bytes s.down).take k)).ret = .block
    · exact h.find_block hinv hret ha.1
    · exact h.find_skip hret
  | respond payload =>
    obtain rfl := Option.some.inj hs
    exact h.respond payload
  | input k =>
    obtain rfl := Option.some.inj hs
    exact h.input hinv ha.1
  | damageDown i bytes =>
    obtain rfl := Option.some.inj hs
    exact h.lose (Channel.frames_damage_sublist s.down i bytes) (List.Sublist.refl _)
  | damageUp i bytes =>
    obtain rfl := Option.some.inj hs
    exact h.lose (List.Sublist.refl _) (Channel.frames_damage_sublist s.up i bytes)

end Coupled

section Runs

variable {s₀ s : Link} {actions : List Action}

lemma Synchronised.coupled (h : Synchronised s₀) : Coupled s₀.sq.sendSeq s₀ := by
  have hzero : s₀.sq.sendSeq = s₀.sq.sendSeq + UInt64.ofNat 0 := (UInt64.add_zero _).symm
  refine ⟨?_, ?_, ?_, ?_, ?_, ?_, ?_, ?_, ?_⟩
  · rwa [h.built]
  · rwa [h.acknowledged, ← h.send]
  · rw [h.sent, h.built, List.drop_nil]
  · rw [h.acknowledged, h.built]
    rfl
  · rw [h.accepted, h.built]
    rfl
  · rw [h.accepted, h.next]
    exact congrArg seqByte hzero
  · intro i block hi
    rw [h.built] at hi
    cases hi
  · intro f hf
    rw [h.down] at hf
    cases hf
  · intro f hf
    rw [h.up] at hf
    cases hf

lemma Synchronised.window (h : Synchronised s₀) : s₀.window = ⟨0, 0, 0, [], []⟩ := by
  unfold Link.window
  rw [h.built, h.acknowledged, h.accepted, h.down, h.up]
  rfl

/-- The link implements a sliding window of 12 blocks. -/
theorem window_of_run (h₀ : Synchronised s₀) (h : Run step Legal s₀ actions s) :
    Steps s₀.window s.window ∧ Coupled s₀.sq.sendSeq s := by
  refine @Run.invariant _ _ step Legal s₀
    (fun s => Steps s₀.window s.window ∧ Coupled s₀.sq.sendSeq s) ⟨.refl, h₀.coupled⟩
    (fun s a s' hi ha hs => ?_) actions s h
  have hstart : s₀.window.Inv 12 := by
    rw [h₀.window]
    exact Window.inv_start 12 0
  obtain ⟨hsteps, hcoupled⟩ := hi.2.step (hstart.steps hi.1) ha hs
  exact ⟨hi.1.trans hsteps, hcoupled⟩

end Runs

/-- The micro-controller accepts the blocks that the host builds, in order and each at most once,
and the host removes only accepted blocks from the sent queue. -/
theorem accepted_of_run {s₀ s : Link} {actions : List Action} (h₀ : Synchronised s₀)
    (h : Run step Legal s₀ actions s) :
    s.accepted <+: s.built ∧ s.acknowledged <+: s.accepted ∧
      s.built = s.acknowledged ++ s.sq.sentQueue := by
  obtain ⟨hsteps, hc⟩ := window_of_run h₀ h
  rw [h₀.window] at hsteps
  have hinv := (Window.inv_start 12 0).steps hsteps
  have hacked : s.acknowledged.length ≤ s.accepted.length := hinv.acked_le
  refine ⟨?_, ?_, ?_⟩
  · rw [hc.accepted]
    exact List.take_prefix _ _
  · rw [hc.acknowledged, hc.accepted]
    exact List.take_prefix_take_left hacked
  · have hsplit := List.take_append_drop s.acknowledged.length s.built
    rw [← hc.acknowledged, ← hc.sent] at hsplit
    exact hsplit.symm

instance (s : Link) (a : Action) : Decidable (DamageDetected s a) := by
  cases a <;> unfold DamageDetected <;> infer_instance

instance (s : Link) (a : Action) : Decidable (Limited s a) := by
  cases a <;> unfold Limited <;> infer_instance

instance (s : Link) (a : Action) : Decidable (Legal s a) := by
  unfold Legal
  infer_instance

/-- An idle link whose next sequence number is `seq`. -/
def idleLink (seq : UInt64) : Link where
  sq :=
    { needSync := false
      receiveWindow := 0
      sendSeq := seq
      receiveSeq := seq
      ignoreNakSeq := 0
      lastAckSeq := 0
      retransmitSeq := 0
      sentQueue := []
      retransmitTimer := .never
      commandQueue := fun _ => ⟨[], []⟩
      pendingQueues := []
      readyBytes := 0
      upcomingBytes := 0
      needAckBytes := 0
      lastAckBytes := 0
      needKickClock := maxClock
      notifyQueue := []
      receiveQueue := [] }
  sync := ⟨false, false, seqByte seq⟩
  down := []
  up := []
  built := []
  accepted := []
  acknowledged := []

lemma synchronised_idleLink (seq : UInt64) : Synchronised (idleLink seq) :=
  ⟨rfl, rfl, rfl, rfl, rfl, rfl, rfl, rfl⟩

/-- A message is queued and a block is built for it at once. -/
def sendMessage (msg : List UInt8) : List Action :=
  [.sendBatch 0 [⟨msg, 0, 0, 0⟩], .build ⟨0, 0, none⟩]

/-- The first of two blocks is lost. The second one is answered by a nak, and both are sent again
and acknowledged. -/
def lossAndRetry : List Action :=
  sendMessage [1] ++ sendMessage [2] ++ [Action.damageDown 0 [], .find 6, .input 5, .retransmit,
    .find 13, .find 12, .respond [], .find 6, .respond [7], .input 5, .input 6]

theorem accepted_of_run_lossAndRetry :
    ∃ s, Run step Legal (idleLink 15) lossAndRetry s ∧ s.accepted.length = 2 ∧
      s.acknowledged.length = 2 ∧ s.accepted <+: s.built ∧ s.acknowledged <+: s.accepted := by
  obtain ⟨s, hs, hp⟩ : ∃ s, Run step Legal (idleLink 15) lossAndRetry s ∧
      decide (s.accepted.length = 2 ∧ s.acknowledged.length = 2) = true :=
    Run.exists_of_exec lossAndRetry _ (by decide +kernel)
  obtain ⟨hacc, hack⟩ := of_decide_eq_true hp
  obtain ⟨hpre, hpre', -⟩ := accepted_of_run (synchronised_idleLink 15) hs
  exact ⟨s, hs, hacc, hack, hpre, hpre'⟩

/-- Seventeen blocks, of which the first sixteen are lost. -/
def unlimited : List Action :=
  ((List.range 17).map fun i => sendMessage [UInt8.ofNat i]).flatten ++
    List.replicate 16 (Action.damageDown 0 []) ++ [Action.find 6]

/-- The SYNC byte of the first of two blocks is damaged. The payload of the second one holds a SYNC
byte and then the bytes of a block. -/
def nested : List Action :=
  sendMessage [1] ++ sendMessage [126, 6, 31, 9, 100, 114, 126] ++
    [Action.damageDown 0 [6, 31, 1, 232, 58, 0], .find 18, .find 9]

instance (a : Action) : Decidable (DamageFails a) := by
  cases a <;> unfold DamageFails <;> infer_instance

/-- While `receive_seq` is the mark of a debug file the window is not limited, and the
micro-controller takes the seventeenth block for the first one. With a limited window, and with damage
that the checks detect, the micro-controller accepts a block that was never built. -/
theorem accepted_of_unlimited_and_nested :
    (∃ s, Run step DamageDetected (idleLink (-1)) unlimited s ∧ s.built.length = 17 ∧
      s.accepted = [s.built.getD 16 []] ∧ ¬s.accepted <+: s.built) ∧
    ∃ s, Run step (fun s a => DamageFails a ∧ Limited s a) (idleLink 15) nested s ∧
      s.built = [[6, 31, 1, 232, 58, 126], [12, 16, 126, 6, 31, 9, 100, 114, 126, 194, 166, 126]] ∧
      s.accepted = [[6, 31, 9, 100, 114, 126]] := by
  constructor
  · obtain ⟨s, hs, hp⟩ : ∃ s, Run step DamageDetected (idleLink (-1)) unlimited s ∧
        decide (s.built.length = 17 ∧ s.accepted = [s.built.getD 16 []] ∧
          ¬s.accepted <+: s.built) = true :=
      Run.exists_of_exec unlimited _ (by decide +kernel)
    exact ⟨s, hs, of_decide_eq_true hp⟩
  · obtain ⟨s, hs, hp⟩ : ∃ s,
        Run step (fun s a => DamageFails a ∧ Limited s a) (idleLink 15) nested s ∧
        decide (s.built =
          [[6, 31, 1, 232, 58, 126], [12, 16, 126, 6, 31, 9, 100, 114, 126, 194, 166, 126]] ∧
          s.accepted = [[6, 31, 9, 100, 114, 126]]) = true :=
      Run.exists_of_exec nested _ (by decide +kernel)
    exact ⟨s, hs, of_decide_eq_true hp⟩

end KlipperMcu.Serial
