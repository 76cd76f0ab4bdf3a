import KlipperMcu.Host.SerialQueue
import KlipperMcu.Lib.Run
import KlipperMcu.Lib.Tally
import Mathlib.Algebra.Group.Action.Defs
import Mathlib.Algebra.Order.BigOperators.Group.List
import Mathlib.Algebra.Order.Ring.Nat

/-!
# Runs of the serialqueue

What holds of the queues and counters of serialqueue.c between events, whatever messages are queued,
whenever blocks are sent or sent again, and whatever is received.
-/

namespace KlipperMcu.Serial

open Lib Wire

/-- The messages of a command queue in the order in which they were queued. -/
def CommandQueue.waiting (cq : CommandQueue) : List QueueMessage := cq.ready ++ cq.upcoming

def CommandQueue.readyLength (cq : CommandQueue) : Int := sumLength (cq.ready.map QueueMessage.msg)

def CommandQueue.upcomingLength (cq : CommandQueue) : Int :=
  sumLength (cq.upcoming.map QueueMessage.msg)

/-- The messages that `packMessages` puts into a block, with their queues. -/
def packedMessages : Nat → SerialQueue → List UInt8 → List (Nat × QueueMessage)
  | fuel, sq, payload =>
    if sq.readyBytes = 0 then []
    else
      match findReady sq.commandQueue maxClock none sq.pendingQueues with
      | none => []
      | some (q, qm) =>
        if messageHeaderSize + payload.length + qm.msg.length > messageMax - messageTrailerSize then
          []
        else
          match fuel with
          | 0 => []
          | fuel + 1 => (q, qm) :: packedMessages fuel (takeReady sq q qm) (payload ++ qm.msg)

/-- The serialqueue, with all the messages that were queued and the blocks that were built and the
messages in them. -/
structure Session where
  sq : SerialQueue
  queued : Nat → List QueueMessage
  built : List (List UInt8 × List (Nat × QueueMessage))

/-- The event `command_event` is a sequence of rounds of which the last one sends nothing. -/
inductive Session.Event where
  | sendBatch (q : Nat) (msgs : List QueueMessage)
  | commandRound (clocks : SendClocks)
  | retransmit
  | receive (msg : List UInt8)
deriving DecidableEq, Repr

def commandRound (s : Session) (clocks : SendClocks) : Option Session :=
  match checkSendCommand s.sq clocks with
  | (sq, false) => some { s with sq := sq }
  | (sq, true) =>
    (buildAndSendCommand sq).map fun (sq', out) =>
      { s with sq := sq', built := s.built ++ [(out, packedMessages sq.readyCount sq [])] }

def Session.step (s : Session) : Session.Event → Option Session
  | .sendBatch q msgs =>
    some { s with
      sq := serialqueueSendBatch s.sq q msgs
      queued := Function.update s.queued q (s.queued q ++ msgs) }
  | .commandRound clocks => commandRound s clocks
  | .retransmit => some { s with sq := retransmitEvent s.sq }
  | .receive msg => some { s with sq := handleMessage s.sq msg }

/-- A message fits into a block and has a clock. -/
def Sendable (qm : QueueMessage) : Prop :=
  1 ≤ qm.msg.length ∧ qm.msg.length ≤ messagePayloadMax ∧ qm.reqClock < maxClock

/-- All queued messages are sendable. -/
def Session.Admitted (_ : Session) : Session.Event → Prop
  | .sendBatch _ msgs => ∀ qm ∈ msgs, Sendable qm
  | _ => True

/-- All queued messages are sendable, and no block is built while `send_seq` is the last number of 64
bits. -/
def Session.Legal (s : Session) (event : Session.Event) : Prop :=
  s.Admitted event ∧
    match event with
    | .commandRound _ => s.sq.sendSeq ≠ -1
    | _ => True

instance Sendable.decidable : DecidablePred Sendable := fun _ =>
  inferInstanceAs (Decidable (_ ∧ _ ∧ _))

instance Session.decidableAdmitted (s : Session) (event : Session.Event) :
    Decidable (s.Admitted event) :=
  match event with
  | .sendBatch _ msgs => inferInstanceAs (Decidable (∀ qm ∈ msgs, Sendable qm))
  | .commandRound _ | .retransmit | .receive _ => instDecidableTrue

instance Session.decidableLegal (s : Session) (event : Session.Event) : Decidable (s.Legal event) :=
  match event with
  | .sendBatch _ _ | .retransmit | .receive _ => inferInstanceAs (Decidable (_ ∧ True))
  | .commandRound _ => inferInstanceAs (Decidable (_ ∧ _ ≠ _))

/-- `serialqueue_alloc`, not for a debug file, and `serialqueue_set_receive_window`. -/
def serialqueueAlloc (receiveWindow : Int) : SerialQueue where
  needSync := false
  receiveWindow := receiveWindow
  sendSeq := 1
  receiveSeq := 1
  ignoreNakSeq := 0
  lastAckSeq := 0
  retransmitSeq := 0
  sentQueue := []
  retransmitTimer := .never
  commandQueue := fun _ => ⟨[], []⟩
  pendingQueues := []
  readyBytes := 0
  upcomingBytes := 0
  needAckBytes := 0
  lastAckBytes := 0
  needKickClock := maxClock
  notifyQueue := []
  receiveQueue := []

def Session.start (receiveWindow : Int) : Session :=
  ⟨serialqueueAlloc receiveWindow, fun _ => [], []⟩

/-- What `retransmit_event` writes. -/
def retransmitBuffer (sq : SerialQueue) : List UInt8 := messageSync :: sq.sentQueue.flatten

/-- The messages of queue `q` among some messages. -/
def ofQueue (q : Nat) (msgs : List (Nat × QueueMessage)) : List QueueMessage :=
  msgs.filterMap fun (q', qm) => if q' = q then some qm else none

/-- The messages of queue `q` that have entered blocks. -/
def Session.entered (s : Session) (q : Nat) : List QueueMessage :=
  ofQueue q (s.built.flatMap Prod.snd)

/-! ## The command queues -/

/-- What holds of the command queues. -/
structure Queues (sq : SerialQueue) : Prop where
  nodup : sq.pendingQueues.Nodup
  pending : ∀ q, q ∈ sq.pendingQueues ↔ (sq.commandQueue q).waiting ≠ []
  ready : sq.readyBytes = tally (CommandQueue.readyLength ∘ sq.commandQueue) sq.pendingQueues
  upcoming : sq.upcomingBytes =
    tally (CommandQueue.upcomingLength ∘ sq.commandQueue) sq.pendingQueues
  sendable : ∀ q, ∀ qm ∈ (sq.commandQueue q).waiting, Sendable qm

section Queues

variable {sq sq' : SerialQueue} {q : Nat} {qm : QueueMessage} {cq : CommandQueue}
  {payload payload' : List UInt8} {fuel : Nat}

lemma sumLength_append (a b : List (List UInt8)) :
    sumLength (a ++ b) = sumLength a + sumLength b := by
  simp [sumLength]

lemma sumLength_cons (a : List UInt8) (b : List (List UInt8)) :
    sumLength (a :: b) = a.length + sumLength b := by
  simp [sumLength]

lemma sumLength_nonneg (msgs : List (List UInt8)) : 0 ≤ sumLength msgs := Int.natCast_nonneg _

lemma Queues.update (h : Queues sq) (hq : q ∈ sq.pendingQueues) (hne : cq.waiting ≠ [])
    (hsend : ∀ qm ∈ cq.waiting, Sendable qm) {ready upcoming : Int}
    (hready : ready = sq.readyBytes - (sq.commandQueue q).readyLength + cq.readyLength)
    (hup : upcoming = sq.upcomingBytes - (sq.commandQueue q).upcomingLength + cq.upcomingLength) :
    Queues { sq with
      commandQueue := Function.update sq.commandQueue q cq
      readyBytes := ready
      upcomingBytes := upcoming } where
  nodup := h.nodup
  pending q' := by
    by_cases heq : q' = q
    · subst heq
      simpa using ⟨fun _ => hne, fun _ => hq⟩
    · simpa [Function.update_of_ne heq] using h.pending q'
  ready := by
    have htally := tally_update (f := CommandQueue.readyLength ∘ sq.commandQueue) h.nodup hq
      cq.readyLength
    rw [← Function.comp_update] at htally
    have hold := h.ready
    simp only [Function.comp_apply] at htally
    dsimp only
    omega
  upcoming := by
    have htally := tally_update (f := CommandQueue.upcomingLength ∘ sq.commandQueue) h.nodup hq
      cq.upcomingLength
    rw [← Function.comp_update] at htally
    have hold := h.upcoming
    simp only [Function.comp_apply] at htally
    dsimp only
    omega
  sendable q' := by
    by_cases heq : q' = q
    · subst heq
      simpa using hsend
    · simpa [Function.update_of_ne heq] using h.sendable q'

lemma waiting_moveStalled (ackClock : UInt64) (sq : SerialQueue) (q q' : Nat) :
    ((moveStalled ackClock sq q).commandQueue q').waiting = (sq.commandQueue q').waiting := by
  by_cases heq : q' = q
  · subst heq
    simp [moveStalled, CommandQueue.waiting, List.takeWhile_append_dropWhile]
  · simp [moveStalled, Function.update_of_ne heq]

lemma Queues.moveStalled (h : Queues sq) (hq : q ∈ sq.pendingQueues) (ackClock : UInt64) :
    Queues (moveStalled ackClock sq q) := by
  have hwait := waiting_moveStalled ackClock sq q q
  unfold Serial.moveStalled at hwait ⊢
  dsimp only at hwait ⊢
  rw [Function.update_self] at hwait
  have hsplit := congrArg (fun msgs => sumLength (msgs.map QueueMessage.msg))
    (List.takeWhile_append_dropWhile (p := stalledReady ackClock)
      (l := (sq.commandQueue q).upcoming))
  simp only [List.map_append, sumLength_append] at hsplit
  apply h.update hq
  · rw [hwait]
    exact (h.pending q).mp hq
  · rw [hwait]
    exact h.sendable q
  · unfold CommandQueue.readyLength
    rw [List.map_append, sumLength_append]
    omega
  · unfold CommandQueue.upcomingLength
    dsimp only
    omega

lemma foldl_moveStalled (h : Queues sq) (ackClock : UInt64) {queues : List Nat}
    (hsub : queues ⊆ sq.pendingQueues) :
    Queues (queues.foldl (Serial.moveStalled ackClock) sq) ∧
      ∀ q, ((queues.foldl (Serial.moveStalled ackClock) sq).commandQueue q).waiting =
        (sq.commandQueue q).waiting := by
  induction queues generalizing sq with
  | nil => exact ⟨h, fun _ => rfl⟩
  | cons q queues ih =>
    obtain ⟨hq, hsub⟩ := List.cons_subset.mp hsub
    obtain ⟨hqueues, hwait⟩ := ih (h.moveStalled hq ackClock) hsub
    refine ⟨hqueues, fun q' => ?_⟩
    rw [List.foldl_cons, hwait, waiting_moveStalled]

lemma checkSendCommand_eq (sq : SerialQueue) (clocks : SendClocks) :
    (checkSendCommand sq clocks).1 = sq ∨ ∃ kick, (checkSendCommand sq clocks).1 =
      { sq.pendingQueues.foldl (moveStalled clocks.ackClock) sq with needKickClock := kick } := by
  unfold checkSendCommand
  split
  · exact Or.inl rfl
  · right
    dsimp only
    split
    · exact ⟨_, rfl⟩
    · split
      · split
        · exact ⟨_, rfl⟩
        · exact ⟨_, rfl⟩
      · split
        · exact ⟨_, rfl⟩
        · exact ⟨_, rfl⟩

lemma Queues.check (h : Queues sq) (clocks : SendClocks) :
    Queues (checkSendCommand sq clocks).1 ∧
      ∀ q, ((checkSendCommand sq clocks).1.commandQueue q).waiting =
        (sq.commandQueue q).waiting := by
  rcases checkSendCommand_eq sq clocks with heq | ⟨kick, heq⟩
  · rw [heq]
    exact ⟨h, fun _ => rfl⟩
  · obtain ⟨hqueues, hwait⟩ := foldl_moveStalled h clocks.ackClock (List.Subset.refl _)
    rw [heq]
    exact ⟨⟨hqueues.nodup, hqueues.pending, hqueues.ready, hqueues.upcoming, hqueues.sendable⟩, hwait⟩

lemma findReady_some {commandQueue : Nat → CommandQueue} {minClock : UInt64}
    {best : Option (Nat × QueueMessage)} {queues : List Nat}
    (h : findReady commandQueue minClock best queues = some (q, qm)) :
    best = some (q, qm) ∨ q ∈ queues ∧ (commandQueue q).ready.head? = some qm := by
  induction queues generalizing minClock best with
  | nil => exact Or.inl h
  | cons q' queues ih =>
    rw [findReady] at h
    split at h
    · rcases ih h with hbest | ⟨hq, hhead⟩
      · exact Or.inl hbest
      · exact Or.inr ⟨List.mem_cons_of_mem _ hq, hhead⟩
    · rename_i m ms hready
      split at h
      · rcases ih h with hbest | ⟨hq, hhead⟩
        · cases hbest
          exact Or.inr ⟨List.mem_cons_self, by rw [hready]; rfl⟩
        · exact Or.inr ⟨List.mem_cons_of_mem _ hq, hhead⟩
      · rcases ih h with hbest | ⟨hq, hhead⟩
        · exact Or.inl hbest
        · exact Or.inr ⟨List.mem_cons_of_mem _ hq, hhead⟩

lemma findReady_ne_none {commandQueue : Nat → CommandQueue} {minClock : UInt64}
    {best : Option (Nat × QueueMessage)} {queues : List Nat}
    (h : best ≠ none ∨ ∃ q ∈ queues, ∃ qm, (commandQueue q).ready.head? = some qm ∧
      qm.reqClock < minClock) :
    findReady commandQueue minClock best queues ≠ none := by
  induction queues generalizing minClock best with
  | nil =>
    rcases h with hbest | ⟨q, hq, -⟩
    · exact hbest
    · exact absurd hq List.not_mem_nil
  | cons q' queues ih =>
    rw [findReady]
    split
    · rename_i hready
      apply ih
      rcases h with hbest | ⟨q, hq, qm, hhead, hclock⟩
      · exact Or.inl hbest
      · rcases List.mem_cons.mp hq with rfl | hq
        · rw [hready] at hhead
          cases hhead
        · exact Or.inr ⟨q, hq, qm, hhead, hclock⟩
    · rename_i m ms hready
      split
      · exact ih (Or.inl (Option.some_ne_none _))
      · rename_i hlate
        apply ih
        rcases h with hbest | ⟨q, hq, qm, hhead, hclock⟩
        · exact Or.inl hbest
        · rcases List.mem_cons.mp hq with rfl | hq
          · rw [hready] at hhead
            cases hhead
            exact absurd hclock hlate
          · exact Or.inr ⟨q, hq, qm, hhead, hclock⟩

/-- The queue without its first ready message. -/
def CommandQueue.tail (cq : CommandQueue) : CommandQueue := { cq with ready := cq.ready.tail }

lemma waiting_tail (h : cq.ready.head? = some qm) : cq.waiting = qm :: cq.tail.waiting := by
  obtain ⟨rest, hready⟩ := List.head?_eq_some_iff.mp h
  rw [CommandQueue.waiting, CommandQueue.waiting, CommandQueue.tail, hready]
  rfl

lemma readyLength_tail (h : cq.ready.head? = some qm) :
    cq.readyLength = qm.msg.length + cq.tail.readyLength := by
  obtain ⟨rest, hready⟩ := List.head?_eq_some_iff.mp h
  rw [CommandQueue.readyLength, CommandQueue.readyLength, CommandQueue.tail, hready, List.map_cons,
    sumLength_cons]
  rfl

lemma waiting_takeReady (h : (sq.commandQueue q).ready.head? = some qm) (q' : Nat) :
    (sq.commandQueue q').waiting =
      ofQueue q' [(q, qm)] ++ ((takeReady sq q qm).commandQueue q').waiting := by
  by_cases heq : q' = q
  · subst heq
    rw [waiting_tail h]
    simp [takeReady, ofQueue, CommandQueue.tail]
  · simp [takeReady, ofQueue, Function.update_of_ne heq, Ne.symm heq]

lemma takeReady_pendingQueues (sq : SerialQueue) (q : Nat) (qm : QueueMessage) :
    (takeReady sq q qm).pendingQueues =
      if (sq.commandQueue q).tail.waiting = [] then sq.pendingQueues.erase q
      else sq.pendingQueues := by
  have hnil : (sq.commandQueue q).tail.waiting = [] ↔
      (sq.commandQueue q).ready.tail = [] ∧ (sq.commandQueue q).upcoming = [] :=
    List.append_eq_nil_iff
  simp only [takeReady, hnil]

/-- How a sum over the pending queues changes. A queue that becomes empty no longer counts. -/
lemma Queues.tally_takeReady {M : Type*} [AddCommMonoid M] (h : Queues sq)
    (hq : q ∈ sq.pendingQueues) (w : CommandQueue → M) (hw : w ⟨[], []⟩ = 0) (qm : QueueMessage) :
    tally (w ∘ (Serial.takeReady sq q qm).commandQueue) (Serial.takeReady sq q qm).pendingQueues +
        w (sq.commandQueue q) =
      tally (w ∘ sq.commandQueue) sq.pendingQueues + w (sq.commandQueue q).tail := by
  have hupdate : (Serial.takeReady sq q qm).commandQueue =
      Function.update sq.commandQueue q (sq.commandQueue q).tail := rfl
  rw [takeReady_pendingQueues, hupdate, Function.comp_update]
  split
  · rename_i hempty
    obtain ⟨hready, hup⟩ := List.append_eq_nil_iff.mp hempty
    have hzero : w (sq.commandQueue q).tail = 0 := by
      rw [← hw]
      congr 1
      cases htail : (sq.commandQueue q).tail
      simp only [htail] at hready hup
      rw [hready, hup]
    rw [tally_update_of_notMem h.nodup.not_mem_erase, hzero, add_zero, add_comm]
    exact tally_erase (f := w ∘ sq.commandQueue) hq
  · exact tally_update (f := w ∘ sq.commandQueue) h.nodup hq _

lemma Queues.takeReady (h : Queues sq) (hq : q ∈ sq.pendingQueues)
    (hready : (sq.commandQueue q).ready.head? = some qm) : Queues (takeReady sq q qm) where
  nodup := by
    rw [takeReady_pendingQueues]
    split
    · exact h.nodup.erase q
    · exact h.nodup
  pending q' := by
    rw [takeReady_pendingQueues]
    by_cases heq : q' = q
    · subst heq
      have htail : ((Serial.takeReady sq q' qm).commandQueue q').waiting =
          (sq.commandQueue q').tail.waiting := by
        simp [Serial.takeReady, CommandQueue.tail]
      rw [htail]
      split
      · rename_i hempty
        simp [h.nodup.not_mem_erase, hempty]
      · rename_i hne
        simp [hq, hne]
    · have hsame : ((Serial.takeReady sq q qm).commandQueue q').waiting =
          (sq.commandQueue q').waiting := by
        simp [Serial.takeReady, Function.update_of_ne heq]
      rw [hsame, ← h.pending q']
      split
      · exact List.mem_erase_of_ne heq
      · exact Iff.rfl
  ready := by
    have hsum := h.tally_takeReady hq CommandQueue.readyLength rfl qm
    have hlen := readyLength_tail hready
    have hold := h.ready
    change sq.readyBytes - qm.msg.length = _
    omega
  upcoming := by
    have hsum := h.tally_takeReady hq CommandQueue.upcomingLength rfl qm
    have hsame : (sq.commandQueue q).tail.upcomingLength = (sq.commandQueue q).upcomingLength := rfl
    have hold := h.upcoming
    change sq.upcomingBytes = _
    omega
  sendable q' m hm := by
    apply h.sendable q'
    rw [waiting_takeReady hready q']
    exact List.mem_append_right _ hm

lemma Queues.readyCount_takeReady (h : Queues sq) (hq : q ∈ sq.pendingQueues)
    (hready : (sq.commandQueue q).ready.head? = some qm) :
    (Serial.takeReady sq q qm).readyCount + 1 = sq.readyCount := by
  have hsum := h.tally_takeReady hq (fun cq => cq.ready.length) rfl qm
  obtain ⟨rest, hcons⟩ := List.head?_eq_some_iff.mp hready
  have htail : (sq.commandQueue q).tail.ready.length + 1 = (sq.commandQueue q).ready.length := by
    rw [CommandQueue.tail, hcons]
    rfl
  change tally ((fun cq : CommandQueue => cq.ready.length) ∘ _) _ + 1 =
    tally ((fun cq : CommandQueue => cq.ready.length) ∘ _) _
  omega

lemma Queues.findReady (h : Queues sq) (hbytes : sq.readyBytes ≠ 0) :
    ∃ q qm, findReady sq.commandQueue maxClock none sq.pendingQueues = some (q, qm) ∧
      q ∈ sq.pendingQueues ∧ (sq.commandQueue q).ready.head? = some qm := by
  have hex : ∃ q ∈ sq.pendingQueues, (sq.commandQueue q).ready ≠ [] := by
    by_contra hnone
    apply hbytes
    rw [h.ready]
    apply List.sum_eq_zero
    intro x hx
    obtain ⟨q, hq, rfl⟩ := List.mem_map.mp hx
    have hnil : (sq.commandQueue q).ready = [] := by
      by_contra hne
      exact hnone ⟨q, hq, hne⟩
    rw [Function.comp_apply, CommandQueue.readyLength, hnil]
    rfl
  obtain ⟨q, hq, hne⟩ := hex
  obtain ⟨m, rest, hm⟩ := List.exists_cons_of_ne_nil hne
  have hclock : m.reqClock < maxClock := by
    apply (h.sendable q m _).2.2
    rw [CommandQueue.waiting, hm]
    exact List.mem_cons_self
  have hfound : Serial.findReady sq.commandQueue maxClock none sq.pendingQueues ≠ none :=
    findReady_ne_none (Or.inr ⟨q, hq, m, by rw [hm]; rfl, hclock⟩)
  obtain ⟨⟨q', qm⟩, hsome⟩ := Option.ne_none_iff_exists'.mp hfound
  obtain hbest | ⟨hq', hhead⟩ := findReady_some hsome
  · cases hbest
  · exact ⟨q', qm, hsome, hq', hhead⟩

lemma ofQueue_append (q : Nat) (a b : List (Nat × QueueMessage)) :
    ofQueue q (a ++ b) = ofQueue q a ++ ofQueue q b := List.filterMap_append

lemma packMessages_cases (hpack : packMessages fuel sq payload = some (sq', payload')) :
    (sq' = sq ∧ payload' = payload ∧ packedMessages fuel sq payload = []) ∨
    ∃ rest q qm, q ∈ sq.pendingQueues ∧ (sq.commandQueue q).ready.head? = some qm ∧ fuel = rest + 1 ∧
      packMessages rest (takeReady sq q qm) (payload ++ qm.msg) = some (sq', payload') ∧
      packedMessages fuel sq payload =
        (q, qm) :: packedMessages rest (takeReady sq q qm) (payload ++ qm.msg) := by
  rw [packMessages.eq_def] at hpack
  rw [packedMessages.eq_def]
  dsimp only at hpack ⊢
  split at hpack
  · rename_i hzero
    cases hpack
    rw [if_pos hzero]
    exact Or.inl ⟨rfl, rfl, rfl⟩
  · rename_i hbytes
    rw [if_neg hbytes]
    generalize hfind : findReady sq.commandQueue maxClock none sq.pendingQueues = found at hpack ⊢
    cases found with
    | none => cases hpack
    | some next =>
      obtain ⟨q, qm⟩ := next
      dsimp only at hpack ⊢
      split at hpack
      · rename_i hfull
        cases hpack
        rw [if_pos hfull]
        exact Or.inl ⟨rfl, rfl, rfl⟩
      · rename_i hroom
        rw [if_neg hroom]
        cases fuel with
        | zero => cases hpack
        | succ rest =>
          obtain hbest | ⟨hq, hready⟩ := findReady_some hfind
          · cases hbest
          · exact Or.inr ⟨rest, q, qm, hq, hready, rfl, hpack, rfl⟩

lemma packMessages_induction
    {motive : SerialQueue → List UInt8 → List (Nat × QueueMessage) → Prop}
    (hpack : packMessages fuel sq payload = some (sq', payload')) (hend : motive sq' payload' [])
    (htake : ∀ sq payload q qm msgs, q ∈ sq.pendingQueues →
      (sq.commandQueue q).ready.head? = some qm →
      motive (takeReady sq q qm) (payload ++ qm.msg) msgs → motive sq payload ((q, qm) :: msgs)) :
    motive sq payload (packedMessages fuel sq payload) := by
  induction fuel generalizing sq payload with
  | zero =>
    obtain ⟨rfl, rfl, hnil⟩ | ⟨rest, q, qm, -, -, hfuel, -⟩ := packMessages_cases hpack
    · rw [hnil]
      exact hend
    · cases hfuel
  | succ fuel ih =>
    obtain ⟨rfl, rfl, hnil⟩ | ⟨rest, q, qm, hq, hready, hfuel, hrest, hcons⟩ :=
      packMessages_cases hpack
    · rw [hnil]
      exact hend
    · cases hfuel
      rw [hcons]
      exact htake _ _ _ _ _ hq hready (ih hrest)

lemma packMessages_payload (hpack : packMessages fuel sq payload = some (sq', payload')) :
    payload' = payload ++ (packedMessages fuel sq payload).flatMap (fun e => e.2.msg) := by
  apply packMessages_induction
    (motive := fun _ payload msgs => payload' = payload ++ msgs.flatMap fun e => e.2.msg) hpack
  · exact (List.append_nil _).symm
  · intro sq payload q qm msgs _ _ hpayload
    rw [hpayload, List.append_assoc]
    rfl

lemma Queues.packMessages (h : Queues sq)
    (hpack : packMessages fuel sq payload = some (sq', payload')) :
    Queues sq' ∧ ∀ q, (sq.commandQueue q).waiting =
      ofQueue q (packedMessages fuel sq payload) ++ (sq'.commandQueue q).waiting := by
  apply packMessages_induction
    (motive := fun sq _ msgs => Queues sq → Queues sq' ∧ ∀ q, (sq.commandQueue q).waiting =
      ofQueue q msgs ++ (sq'.commandQueue q).waiting) hpack _ _ h
  · exact fun h => ⟨h, fun _ => rfl⟩
  · intro sq payload q qm msgs hq hready ih h
    obtain ⟨hqueues, hwait⟩ := ih (h.takeReady hq hready)
    refine ⟨hqueues, fun q' => ?_⟩
    rw [waiting_takeReady hready q', hwait q', ← List.append_assoc, ← ofQueue_append]
    rfl

lemma Queues.packMessages_isSome (h : Queues sq) (hfuel : sq.readyCount ≤ fuel)
    (payload : List UInt8) : (Serial.packMessages fuel sq payload).isSome := by
  induction fuel generalizing sq payload with
  | zero =>
    rw [Serial.packMessages.eq_def]
    dsimp only
    split
    · rfl
    · rename_i hbytes
      obtain ⟨q, qm, hfind, hq, hready⟩ := h.findReady hbytes
      have hcount := h.readyCount_takeReady hq hready
      omega
  | succ fuel ih =>
    rw [Serial.packMessages.eq_def]
    dsimp only
    split
    · rfl
    · rename_i hbytes
      obtain ⟨q, qm, hfind, hq, hready⟩ := h.findReady hbytes
      simp only [hfind]
      split
      · rfl
      · have hcount := h.readyCount_takeReady hq hready
        exact ih (h.takeReady hq hready) (by omega) _

lemma Sendable.limitMinClock (h : Sendable qm) : Sendable (limitMinClock qm) := by
  unfold Serial.limitMinClock
  split
  · exact h
  · exact h

lemma Queues.append (h : Queues sq) (hempty : (sq.commandQueue q).waiting = [])
    {msgs : List QueueMessage} (hne : msgs ≠ []) (hsend : ∀ qm ∈ msgs, Sendable qm) (kick : UInt64) :
    Queues { sq with
      pendingQueues := sq.pendingQueues ++ [q]
      commandQueue := Function.update sq.commandQueue q
        { sq.commandQueue q with upcoming := (sq.commandQueue q).upcoming ++ msgs }
      upcomingBytes := sq.upcomingBytes + sumLength (msgs.map QueueMessage.msg)
      needKickClock := kick } := by
  have hnot : q ∉ sq.pendingQueues := fun hq => (h.pending q).mp hq hempty
  obtain ⟨hready, hup⟩ := List.append_eq_nil_iff.mp hempty
  have hwait : ({ sq.commandQueue q with
      upcoming := (sq.commandQueue q).upcoming ++ msgs } : CommandQueue).waiting = msgs := by
    rw [CommandQueue.waiting, hready, hup]
    rfl
  refine ⟨?_, fun q' => ?_, ?_, ?_, fun q' => ?_⟩
  · exact h.nodup.append (List.nodup_singleton q) (by simpa using hnot)
  · by_cases heq : q' = q
    · subst heq
      simp [hwait, hne]
    · simpa [Function.update_of_ne heq, heq] using h.pending q'
  · dsimp only
    rw [Function.comp_update, tally_concat, tally_update_of_notMem hnot, Function.update_self,
      CommandQueue.readyLength, hready]
    exact h.ready.trans (add_zero _).symm
  · dsimp only
    rw [Function.comp_update, tally_concat, tally_update_of_notMem hnot, Function.update_self,
      CommandQueue.upcomingLength, hup, ← h.upcoming]
    rfl
  · by_cases heq : q' = q
    · subst heq
      simpa [hwait] using hsend
    · simpa [Function.update_of_ne heq] using h.sendable q'

lemma sumLength_pos {msgs : List QueueMessage} (hne : msgs ≠ [])
    (hsend : ∀ qm ∈ msgs, Sendable qm) : sumLength (msgs.map QueueMessage.msg) ≠ 0 := by
  obtain ⟨qm, rest, rfl⟩ := List.exists_cons_of_ne_nil hne
  have hone := (hsend qm List.mem_cons_self).1
  have hrest := sumLength_nonneg (rest.map QueueMessage.msg)
  rw [List.map_cons, sumLength_cons]
  omega

lemma Queues.extend (h : Queues sq) (hq : (sq.commandQueue q).waiting ≠ [])
    {msgs : List QueueMessage} (hsend : ∀ qm ∈ msgs, Sendable qm) (kick : UInt64) :
    Queues { sq with
      commandQueue := Function.update sq.commandQueue q
        { sq.commandQueue q with upcoming := (sq.commandQueue q).upcoming ++ msgs }
      upcomingBytes := sq.upcomingBytes + sumLength (msgs.map QueueMessage.msg)
      needKickClock := kick } := by
  have hwait : ({ sq.commandQueue q with
      upcoming := (sq.commandQueue q).upcoming ++ msgs } : CommandQueue).waiting =
      (sq.commandQueue q).waiting ++ msgs := (List.append_assoc _ _ _).symm
  have hmem : ∀ qm ∈ (sq.commandQueue q).waiting ++ msgs, Sendable qm := by
    intro qm hqm
    rcases List.mem_append.mp hqm with hqm | hqm
    · exact h.sendable q qm hqm
    · exact hsend qm hqm
  rw [← hwait] at hmem
  have hready : sq.readyBytes = sq.readyBytes - (sq.commandQueue q).readyLength +
      (sq.commandQueue q).readyLength := (sub_add_cancel _ _).symm
  have hup : sq.upcomingBytes + sumLength (msgs.map QueueMessage.msg) =
      sq.upcomingBytes - (sq.commandQueue q).upcomingLength +
        sumLength (((sq.commandQueue q).upcoming ++ msgs).map QueueMessage.msg) := by
    rw [List.map_append, sumLength_append, CommandQueue.upcomingLength]
    omega
  have hupdate := h.update ((h.pending q).mpr hq)
    (by rw [hwait]; exact List.append_ne_nil_of_left_ne_nil hq _) hmem hready hup
  exact ⟨hupdate.nodup, hupdate.pending, hupdate.ready, hupdate.upcoming, hupdate.sendable⟩

lemma Queues.sendBatch (h : Queues sq) {msgs : List QueueMessage}
    (hsend : ∀ qm ∈ msgs, Sendable qm) (q : Nat) :
    Queues (serialqueueSendBatch sq q msgs) ∧
      ∀ q', ((serialqueueSendBatch sq q msgs).commandQueue q').waiting =
        (sq.commandQueue q').waiting ++ if q' = q then msgs.map limitMinClock else [] := by
  have hsend' : ∀ qm ∈ msgs.map limitMinClock, Sendable qm := by
    intro qm hqm
    obtain ⟨m, hm, rfl⟩ := List.mem_map.mp hqm
    exact (hsend m hm).limitMinClock
  unfold serialqueueSendBatch
  dsimp only
  generalize msgs.map limitMinClock = batch at hsend'
  by_cases hnil : batch = []
  · subst hnil
    rw [if_pos (show sumLength ([].map QueueMessage.msg) = 0 from rfl)]
    refine ⟨h, fun q' => ?_⟩
    simp
  · rw [if_neg (sumLength_pos hnil hsend')]
    constructor
    · by_cases hempty : (sq.commandQueue q).waiting = []
      · rw [if_pos (List.append_eq_nil_iff.mp hempty)]
        exact h.append hempty hnil hsend' _
      · rw [if_neg fun hnil => hempty (List.append_eq_nil_iff.mpr hnil)]
        exact h.extend hempty hsend' _
    · intro q'
      by_cases heq : q' = q
      · subst heq
        simp [CommandQueue.waiting]
      · simp [heq]

end Queues

/-! ## The window -/

/-- What holds of the blocks that are not acknowledged. -/
structure Windowed (sq : SerialQueue) : Prop where
  seq : sq.sendSeq.toNat = sq.receiveSeq.toNat + sq.sentQueue.length
  limit : sq.sentQueue.length ≤ maxPendingBlocks.toNat
  blocks : ∀ block ∈ sq.sentQueue, block.length ≤ messageMax
  needAck : sq.needAckBytes = sumLength sq.sentQueue
  lastAck : 0 ≤ sq.lastAckBytes
  flow : sq.receiveWindow ≠ 0 → sq.needAckBytes ≤ max sq.receiveWindow messageMax

/-- There is room for a block in the window. -/
structure Room (sq : SerialQueue) : Prop where
  blocks : sq.sentQueue.length < maxPendingBlocks.toNat
  bytes : sq.receiveWindow ≠ 0 → sq.sentQueue ≠ [] → sq.needAckBytes + messageMax ≤ sq.receiveWindow

/-- The window is the same. -/
structure SameWindow (sq sq' : SerialQueue) : Prop where
  outstanding : sq'.outstanding = sq.outstanding
  needAckBytes : sq'.needAckBytes = sq.needAckBytes
  lastAckBytes : sq'.lastAckBytes = sq.lastAckBytes
  receiveWindow : sq'.receiveWindow = sq.receiveWindow

section Window

variable {sq sq' sq'' : SerialQueue} {payload payload' out : List UInt8} {fuel : Nat}

lemma SameWindow.trans (h : SameWindow sq sq') (h' : SameWindow sq' sq'') : SameWindow sq sq'' :=
  ⟨h'.outstanding.trans h.outstanding, h'.needAckBytes.trans h.needAckBytes,
    h'.lastAckBytes.trans h.lastAckBytes, h'.receiveWindow.trans h.receiveWindow⟩

lemma SameWindow.sendSeq (h : SameWindow sq sq') : sq'.sendSeq = sq.sendSeq :=
  congrArg Outstanding.sendSeq h.outstanding

lemma SameWindow.receiveSeq (h : SameWindow sq sq') : sq'.receiveSeq = sq.receiveSeq :=
  congrArg Outstanding.receiveSeq h.outstanding

lemma SameWindow.sentQueue (h : SameWindow sq sq') : sq'.sentQueue = sq.sentQueue :=
  congrArg Outstanding.sentQueue h.outstanding

lemma Windowed.congr (h : Windowed sq) (hsame : SameWindow sq sq') : Windowed sq' := by
  constructor
  · rw [hsame.sendSeq, hsame.receiveSeq, hsame.sentQueue]
    exact h.seq
  · rw [hsame.sentQueue]
    exact h.limit
  · rw [hsame.sentQueue]
    exact h.blocks
  · rw [hsame.sentQueue, hsame.needAckBytes]
    exact h.needAck
  · rw [hsame.lastAckBytes]
    exact h.lastAck
  · rw [hsame.receiveWindow, hsame.needAckBytes]
    exact h.flow

lemma sameWindow_foldl_moveStalled (ackClock : UInt64) (queues : List Nat) (sq : SerialQueue) :
    SameWindow sq (queues.foldl (moveStalled ackClock) sq) := by
  induction queues generalizing sq with
  | nil => exact ⟨rfl, rfl, rfl, rfl⟩
  | cons q queues ih =>
    have hmove : SameWindow sq (moveStalled ackClock sq q) := ⟨rfl, rfl, rfl, rfl⟩
    exact hmove.trans (ih _)

lemma sameWindow_checkSendCommand (sq : SerialQueue) (clocks : SendClocks) :
    SameWindow sq (checkSendCommand sq clocks).1 := by
  rcases checkSendCommand_eq sq clocks with heq | ⟨kick, heq⟩
  · rw [heq]
    exact ⟨rfl, rfl, rfl, rfl⟩
  · have hfold := sameWindow_foldl_moveStalled clocks.ackClock sq.pendingQueues sq
    rw [heq]
    exact ⟨hfold.outstanding, hfold.needAckBytes, hfold.lastAckBytes, hfold.receiveWindow⟩

lemma sameWindow_packMessages (hpack : packMessages fuel sq payload = some (sq', payload')) :
    SameWindow sq sq' := by
  apply packMessages_induction (motive := fun sq _ _ => SameWindow sq sq') hpack
  · exact ⟨rfl, rfl, rfl, rfl⟩
  · intro sq _ q qm _ _ _ hsame
    have htake : SameWindow sq (takeReady sq q qm) := ⟨rfl, rfl, rfl, rfl⟩
    exact htake.trans hsame

lemma Windowed.toNat_sub (h : Windowed sq) :
    (sq.sendSeq - sq.receiveSeq).toNat = sq.sentQueue.length := by
  have hseq := h.seq
  have hsend := sq.sendSeq.toNat_lt
  rw [UInt64.toNat_sub]
  omega

lemma Room.congr (h : Room sq) (hsame : SameWindow sq sq') : Room sq' := by
  constructor
  · rw [hsame.sentQueue]
    exact h.blocks
  · rw [hsame.sentQueue, hsame.receiveWindow, hsame.needAckBytes]
    exact h.bytes

lemma Windowed.room (h : Windowed sq) (hfull : windowFull sq = false) : Room sq := by
  obtain ⟨hlimit, hwindow⟩ := Bool.or_eq_false_iff.mp hfull
  have hnum := h.seq
  constructor
  · by_contra hlen
    have hge : sq.sendSeq - sq.receiveSeq ≥ maxPendingBlocks := by
      rw [ge_iff_le, UInt64.le_iff_toNat_le, h.toNat_sub]
      exact Nat.not_lt.mp hlen
    rw [decide_eq_true hge, Bool.true_and, bne_eq_false_iff_eq] at hlimit
    have hlast : sq.receiveSeq.toNat = 2 ^ 64 - 1 := by
      rw [hlimit]
      rfl
    have hpos : 0 < maxPendingBlocks.toNat := by decide
    have := sq.sendSeq.toNat_lt
    omega
  · intro hne hsent
    have hpos := List.length_pos_iff.mpr hsent
    have hgt : sq.sendSeq > sq.receiveSeq := by
      rw [gt_iff_lt, UInt64.lt_iff_toNat_lt]
      omega
    rw [decide_eq_true hgt, bne_iff_ne.mpr hne, Bool.true_and, Bool.true_and,
      decide_eq_false_iff_not, not_lt] at hwindow
    have hlast := h.lastAck
    split at hwindow
    · omega
    · omega

lemma Windowed.append (h : Windowed sq) (hroom : Room sq) (hseq : sq.sendSeq ≠ -1)
    (hout : out.length ≤ messageMax) (timer : Timer) :
    Windowed { sq with
      retransmitTimer := timer
      sendSeq := sq.sendSeq + 1
      needAckBytes := sq.needAckBytes + out.length
      sentQueue := sq.sentQueue ++ [out] } := by
  have hlt : sq.sendSeq.toNat + 1 < 2 ^ 64 := by
    have hne : sq.sendSeq.toNat ≠ 2 ^ 64 - 1 := fun heq => hseq (UInt64.toNat.inj heq)
    have := sq.sendSeq.toNat_lt
    omega
  refine ⟨?_, ?_, fun block hblock => ?_, ?_, h.lastAck, fun hne => ?_⟩
  · change (sq.sendSeq + 1).toNat = sq.receiveSeq.toNat + (sq.sentQueue ++ [out]).length
    rw [UInt64.toNat_add, List.length_append, ← Nat.add_assoc, ← h.seq]
    exact Nat.mod_eq_of_lt hlt
  · change (sq.sentQueue ++ [out]).length ≤ _
    rw [List.length_append]
    exact hroom.blocks
  · rcases List.mem_append.mp hblock with hblock | hblock
    · exact h.blocks block hblock
    · rw [List.mem_singleton.mp hblock]
      exact hout
  · change sq.needAckBytes + out.length = sumLength (sq.sentQueue ++ [out])
    rw [sumLength_append, h.needAck]
    simp [sumLength]
  · change sq.needAckBytes + out.length ≤ max sq.receiveWindow messageMax
    by_cases hsent : sq.sentQueue = []
    · have hzero : sq.needAckBytes = 0 := by
        rw [h.needAck, hsent]
        rfl
      apply le_max_of_le_right
      omega
    · apply le_max_of_le_left
      have := hroom.bytes hne hsent
      omega

lemma removeSent_cases (rseq seq : UInt64) (queue : List (List UInt8)) :
    removeSent rseq seq queue = ([], none) ∨
      ∃ k block, queue[k]? = some block ∧ rseq = seq + UInt64.ofNat (k + 1) ∧
        removeSent rseq seq queue = (queue.drop (k + 1), some block) := by
  induction queue generalizing seq with
  | nil => exact Or.inl rfl
  | cons b queue ih =>
    rw [removeSent]
    split
    · rename_i heq
      exact Or.inr ⟨0, b, rfl, heq, rfl⟩
    · rcases ih (seq + 1) with hnone | ⟨k, block, hk, hrseq, hremove⟩
      · exact Or.inl hnone
      · refine Or.inr ⟨k + 1, block, hk, ?_, hremove⟩
        rw [hrseq, UInt64.add_assoc, UInt64.ofNat_add (k + 1) 1, UInt64.add_comm 1]
        rfl

lemma sumLength_drop_le (k : Nat) (queue : List (List UInt8)) :
    sumLength (queue.drop k) ≤ sumLength queue := by
  have hsplit := sumLength_append (queue.take k) (queue.drop k)
  have hpos := sumLength_nonneg (queue.take k)
  rw [List.take_append_drop] at hsplit
  omega

lemma Windowed.updateReceiveSeq (h : Windowed sq) (rseq : UInt64) :
    Windowed (updateReceiveSeq sq rseq) := by
  have hseq := h.seq
  have hsend := sq.sendSeq.toNat_lt
  rw [Serial.updateReceiveSeq]
  rcases removeSent_cases rseq sq.receiveSeq sq.sentQueue with
    hnone | ⟨k, block, hk, hrseq, hremove⟩
  · rw [hnone]
    refine ⟨?_, Nat.zero_le _, nofun, ?_, h.lastAck, fun hne => ?_⟩
    · rfl
    · dsimp only
      rw [h.needAck]
      omega
    · dsimp only
      rw [h.needAck]
      apply le_max_of_le_right
      change sumLength sq.sentQueue - (sumLength sq.sentQueue - 0) ≤ (messageMax : Int)
      unfold messageMax
      omega
  · rw [hremove]
    obtain ⟨hlt, -⟩ := List.getElem?_eq_some_iff.mp hk
    have hdrop := sumLength_drop_le (k + 1) sq.sentQueue
    refine ⟨?_, ?_, fun b hb => h.blocks b (List.mem_of_mem_drop hb), ?_, ?_, fun hne => ?_⟩
    · dsimp only
      have hnum : rseq.toNat = sq.receiveSeq.toNat + (k + 1) := by
        rw [hrseq, UInt64.toNat_add, UInt64.toNat_ofNat']
        omega
      rw [List.length_drop, hnum]
      change sq.sendSeq.toNat = _
      omega
    · dsimp only
      rw [List.length_drop]
      exact le_trans (Nat.sub_le _ _) h.limit
    · dsimp only
      rw [h.needAck]
      omega
    · exact Int.natCast_nonneg _
    · have := h.flow hne
      dsimp only
      omega

lemma sameWindow_takeMessage (sq : SerialQueue) (rseq : UInt64) (msg : List UInt8) :
    SameWindow sq (takeMessage sq rseq msg) := by
  obtain ⟨notifyQueue, receiveQueue, lastAckSeq, retransmitTimer, heq⟩ := takeMessage_eq sq rseq msg
  rw [heq]
  exact ⟨rfl, rfl, rfl, rfl⟩

lemma Windowed.handleMessage (h : Windowed sq) (msg : List UInt8) :
    Windowed (handleMessage sq msg) := by
  rcases handleMessage_cases sq msg with hsame | htake | ⟨-, htake⟩
  · rw [hsame]
    exact h
  · rw [htake]
    exact h.congr (sameWindow_takeMessage _ _ _)
  · rw [htake]
    exact (h.updateReceiveSeq _).congr (sameWindow_takeMessage _ _ _)

end Window

/-! ## Sessions -/

/-- What holds between events. -/
structure Session.Inv (receiveWindow : Int) (s : Session) : Prop where
  queues : Queues s.sq
  windowed : Windowed s.sq
  window : s.sq.receiveWindow = receiveWindow
  order : ∀ q, s.entered q ++ (s.sq.commandQueue q).waiting = (s.queued q).map limitMinClock
  frames : ∀ block ∈ s.built, ∃ seq, block.1 = commandAddFrame seq (block.2.flatMap fun e => e.2.msg)
  sent : s.sq.sentQueue <:+ s.built.map Prod.fst

section Session

variable {s s' : Session} {receiveWindow : Int} {clocks : SendClocks}

lemma Session.inv_start (receiveWindow : Int) : (Session.start receiveWindow).Inv receiveWindow where
  queues := ⟨List.nodup_nil, fun _ => by simp [start, serialqueueAlloc, CommandQueue.waiting], rfl,
    rfl, nofun⟩
  windowed := ⟨rfl, Nat.zero_le _, nofun, rfl, le_refl _,
    fun _ => le_max_of_le_right (Int.natCast_nonneg _)⟩
  window := rfl
  order _ := rfl
  frames := nofun
  sent := List.nil_suffix

lemma Session.Inv.sendBatch (h : s.Inv receiveWindow) (q : Nat) {msgs : List QueueMessage}
    (hsend : ∀ qm ∈ msgs, Sendable qm) :
    Session.Inv receiveWindow { s with
      sq := serialqueueSendBatch s.sq q msgs
      queued := Function.update s.queued q (s.queued q ++ msgs) } := by
  obtain ⟨hqueues, hwait⟩ := h.queues.sendBatch hsend q
  have hsame : SameWindow s.sq (serialqueueSendBatch s.sq q msgs) := by
    unfold serialqueueSendBatch
    dsimp only
    split
    · exact ⟨rfl, rfl, rfl, rfl⟩
    · exact ⟨rfl, rfl, rfl, rfl⟩
  refine ⟨hqueues, h.windowed.congr hsame, hsame.receiveWindow.trans h.window, fun q' => ?_,
    h.frames, ?_⟩
  · have hold := h.order q'
    change s.entered q' ++ _ = _
    rw [hwait q', ← List.append_assoc, hold]
    by_cases heq : q' = q
    · subst heq
      simp
    · simp [heq]
  · change (serialqueueSendBatch s.sq q msgs).sentQueue <:+ _
    rw [hsame.sentQueue]
    exact h.sent

/-- The command queues are the same. -/
structure SameQueues (sq sq' : SerialQueue) : Prop where
  commandQueue : sq'.commandQueue = sq.commandQueue
  pendingQueues : sq'.pendingQueues = sq.pendingQueues
  readyBytes : sq'.readyBytes = sq.readyBytes
  upcomingBytes : sq'.upcomingBytes = sq.upcomingBytes
  receiveWindow : sq'.receiveWindow = sq.receiveWindow
  needSync : sq'.needSync = sq.needSync

lemma Queues.congr {sq sq' : SerialQueue} (h : Queues sq) (hsame : SameQueues sq sq') :
    Queues sq' := by
  constructor
  · rw [hsame.pendingQueues]
    exact h.nodup
  · rw [hsame.pendingQueues, hsame.commandQueue]
    exact h.pending
  · rw [hsame.readyBytes, hsame.commandQueue, hsame.pendingQueues]
    exact h.ready
  · rw [hsame.upcomingBytes, hsame.commandQueue, hsame.pendingQueues]
    exact h.upcoming
  · rw [hsame.commandQueue]
    exact h.sendable

lemma Session.Inv.congr (h : s.Inv receiveWindow) {sq : SerialQueue} (hsame : SameQueues s.sq sq)
    (hwindowed : Windowed sq) (hsent : sq.sentQueue <:+ s.sq.sentQueue) :
    Session.Inv receiveWindow { s with sq := sq } := by
  refine ⟨h.queues.congr hsame, hwindowed, hsame.receiveWindow.trans h.window, fun q => ?_, h.frames,
    hsent.trans h.sent⟩
  change s.entered q ++ (sq.commandQueue q).waiting = _
  rw [hsame.commandQueue]
  exact h.order q

lemma updateReceiveSeq_sentQueue (sq : SerialQueue) (rseq : UInt64) :
    (updateReceiveSeq sq rseq).sentQueue <:+ sq.sentQueue := by
  unfold updateReceiveSeq
  rcases removeSent_cases rseq sq.receiveSeq sq.sentQueue with hnone | ⟨k, block, -, -, hremove⟩
  · rw [hnone]
    exact List.nil_suffix
  · rw [hremove]
    exact List.drop_suffix _ _

lemma sameQueues_handleMessage (sq : SerialQueue) (msg : List UInt8) :
    SameQueues sq (handleMessage sq msg) := by
  rcases handleMessage_cases sq msg with hsame | htake | ⟨-, htake⟩
  · rw [hsame]
    exact ⟨rfl, rfl, rfl, rfl, rfl, rfl⟩
  · obtain ⟨notifyQueue, receiveQueue, lastAckSeq, retransmitTimer, heq⟩ := takeMessage_eq sq _ msg
    rw [htake, heq]
    exact ⟨rfl, rfl, rfl, rfl, rfl, rfl⟩
  · obtain ⟨notifyQueue, receiveQueue, lastAckSeq, retransmitTimer, heq⟩ :=
      takeMessage_eq (updateReceiveSeq sq _) _ msg
    rw [htake, heq]
    exact ⟨rfl, rfl, rfl, rfl, rfl, rfl⟩

lemma handleMessage_sentQueue (sq : SerialQueue) (msg : List UInt8) :
    (handleMessage sq msg).sentQueue <:+ sq.sentQueue := by
  rcases outstanding_handleMessage sq msg with hsame | ⟨-, hupdate⟩
  · have hsent : (handleMessage sq msg).sentQueue = sq.sentQueue :=
      congrArg Outstanding.sentQueue hsame
    exact ⟨[], hsent⟩
  · have hsent : (handleMessage sq msg).sentQueue = (updateReceiveSeq sq _).sentQueue :=
      congrArg Outstanding.sentQueue hupdate
    rw [hsent]
    exact updateReceiveSeq_sentQueue _ _

lemma Session.Inv.receive (h : s.Inv receiveWindow) (msg : List UInt8) :
    Session.Inv receiveWindow { s with sq := handleMessage s.sq msg } :=
  h.congr (sameQueues_handleMessage s.sq msg) (h.windowed.handleMessage msg)
    (handleMessage_sentQueue s.sq msg)

lemma commandRound_cases (h : commandRound s clocks = some s') :
    s' = { s with sq := (checkSendCommand s.sq clocks).1 } ∨
    windowFull s.sq = false ∧ ∃ sq payload,
      packMessages (checkSendCommand s.sq clocks).1.readyCount (checkSendCommand s.sq clocks).1 [] =
        some (sq, payload) ∧
      s' = { s with
        sq := { sq with
          retransmitTimer := if sq.sentQueue = [] then .later else sq.retransmitTimer
          sendSeq := sq.sendSeq + 1
          needAckBytes := sq.needAckBytes + (commandAddFrame (seqByte sq.sendSeq) payload).length
          sentQueue := sq.sentQueue ++ [commandAddFrame (seqByte sq.sendSeq) payload] }
        built := s.built ++ [(commandAddFrame (seqByte sq.sendSeq) payload,
          packedMessages (checkSendCommand s.sq clocks).1.readyCount
            (checkSendCommand s.sq clocks).1 [])] } := by
  unfold commandRound at h
  split at h
  · rename_i sq hcheck
    left
    rw [hcheck]
    exact (Option.some.inj h).symm
  · rename_i sq hcheck
    right
    rw [hcheck]
    constructor
    · unfold checkSendCommand at hcheck
      split at hcheck
      · cases hcheck
      · rename_i hfull
        exact eq_false_of_ne_true hfull
    · obtain ⟨⟨sq', out⟩, hbuild, rfl⟩ := Option.map_eq_some_iff.mp h
      obtain ⟨⟨sq₁, payload⟩, hpack, heq⟩ := Option.map_eq_some_iff.mp hbuild
      cases heq
      exact ⟨sq₁, payload, hpack, rfl⟩

lemma Session.Inv.build (h : s.Inv receiveWindow) {sq : SerialQueue} {payload : List UInt8}
    {fuel : Nat} (hroom : Room s.sq) (hseq : s.sq.sendSeq ≠ -1)
    (hpack : packMessages fuel s.sq [] = some (sq, payload)) :
    Session.Inv receiveWindow { s with
      sq := { sq with
        retransmitTimer := if sq.sentQueue = [] then .later else sq.retransmitTimer
        sendSeq := sq.sendSeq + 1
        needAckBytes := sq.needAckBytes + (commandAddFrame (seqByte sq.sendSeq) payload).length
        sentQueue := sq.sentQueue ++ [commandAddFrame (seqByte sq.sendSeq) payload] }
      built := s.built ++ [(commandAddFrame (seqByte sq.sendSeq) payload,
        packedMessages fuel s.sq [])] } := by
  obtain ⟨hqueues, hwait⟩ := h.queues.packMessages hpack
  have hpayload := packMessages_payload hpack
  have hsame := sameWindow_packMessages hpack
  have hlen := (packMessages_spec hpack (Nat.zero_le _)).2
  have hblock : (commandAddFrame (seqByte sq.sendSeq) payload).length ≤ messageMax := by
    rw [length_commandAddFrame]
    unfold messagePayloadMax at hlen
    unfold messageMax messageMin at hlen ⊢
    omega
  constructor
  · exact ⟨hqueues.nodup, hqueues.pending, hqueues.ready, hqueues.upcoming, hqueues.sendable⟩
  · exact (h.windowed.congr hsame).append (hroom.congr hsame) (hsame.sendSeq ▸ hseq) hblock _
  · exact hsame.receiveWindow.trans h.window
  · intro q
    rw [← h.order q, hwait q, ← List.append_assoc]
    simp [Session.entered, ofQueue_append]
  · intro block hblock
    rcases List.mem_append.mp hblock with hblock | hblock
    · exact h.frames block hblock
    · rw [List.mem_singleton.mp hblock]
      exact ⟨_, by rw [hpayload]; rfl⟩
  · obtain ⟨pre, hpre⟩ := h.sent
    refine ⟨pre, ?_⟩
    change pre ++ (sq.sentQueue ++ _) = _
    rw [hsame.sentQueue, ← List.append_assoc, hpre, List.map_append]
    rfl

lemma Session.Inv.check (h : s.Inv receiveWindow) (clocks : SendClocks) :
    Session.Inv receiveWindow { s with sq := (checkSendCommand s.sq clocks).1 } := by
  obtain ⟨hqueues, hwait⟩ := h.queues.check clocks
  have hsame := sameWindow_checkSendCommand s.sq clocks
  refine ⟨hqueues, h.windowed.congr hsame, hsame.receiveWindow.trans h.window, fun q => ?_,
    h.frames, ?_⟩
  · change s.entered q ++ _ = _
    rw [hwait q]
    exact h.order q
  · change (checkSendCommand s.sq clocks).1.sentQueue <:+ _
    rw [hsame.sentQueue]
    exact h.sent

lemma Session.Inv.commandRound (h : s.Inv receiveWindow) (hseq : s.sq.sendSeq ≠ -1)
    (hround : commandRound s clocks = some s') : s'.Inv receiveWindow := by
  have hcheck := h.check clocks
  have hsame := sameWindow_checkSendCommand s.sq clocks
  rcases commandRound_cases hround with rfl | ⟨hfull, sq, payload, hpack, rfl⟩
  · exact hcheck
  · exact hcheck.build ((h.windowed.room hfull).congr hsame) (hsame.sendSeq ▸ hseq) hpack

lemma Session.Inv.commandRound_isSome (h : s.Inv receiveWindow) (clocks : SendClocks) :
    (Serial.commandRound s clocks).isSome := by
  have hqueues := (h.check clocks).queues
  unfold Serial.commandRound
  split
  · rfl
  · rename_i sq hcheck
    rw [hcheck] at hqueues
    unfold buildAndSendCommand
    rw [Option.isSome_map, Option.isSome_map]
    exact hqueues.packMessages_isSome (le_refl _) []

lemma Session.Inv.step {event : Session.Event} (h : s.Inv receiveWindow) (hlegal : s.Legal event)
    (hstep : s.step event = some s') : s'.Inv receiveWindow := by
  cases event with
  | sendBatch q msgs =>
    cases hstep
    exact h.sendBatch q hlegal.1
  | commandRound clocks => exact h.commandRound hlegal.2 hstep
  | retransmit =>
    cases hstep
    exact h.congr ⟨rfl, rfl, rfl, rfl, rfl, rfl⟩ (h.windowed.congr ⟨rfl, rfl, rfl, rfl⟩)
      (List.suffix_refl _)
  | receive msg =>
    cases hstep
    exact h.receive msg

lemma Session.inv_of_run {events : List Session.Event}
    (h : Run Session.step Session.Legal (Session.start receiveWindow) events s) :
    s.Inv receiveWindow := by
  apply h.invariant
  · exact Session.inv_start receiveWindow
  · intro s event s' hinv hlegal hstep
    exact hinv.step hlegal hstep

lemma Windowed.length_retransmitBuffer {sq : SerialQueue} (h : Windowed sq) :
    (retransmitBuffer sq).length ≤ messageMax * maxPendingBlocks.toNat + 1 := by
  have hsum : (sq.sentQueue.map List.length).sum ≤ sq.sentQueue.length * messageMax := by
    have hle := List.sum_le_card_nsmul (sq.sentQueue.map List.length) messageMax fun n hn => by
      obtain ⟨block, hblock, rfl⟩ := List.mem_map.mp hn
      exact h.blocks block hblock
    rwa [List.length_map, smul_eq_mul] at hle
  have hlimit := Nat.mul_le_mul_right messageMax h.limit
  rw [retransmitBuffer, List.length_cons, List.length_flatten, Nat.mul_comm messageMax]
  omega

/-- In every run the window holds at most 12 blocks, and with flow control no more bytes than
`receive_window` or one block; the counters are the sums of their queues; a command queue is pending
exactly when it holds messages; the messages of each queue enter blocks in the order in which they
were queued; a retransmission fits into its buffer; and `command_event` always finds its messages. -/
theorem serialqueue_of_run {events : List Session.Event}
    (h : Run Session.step Session.Legal (Session.start receiveWindow) events s) :
    (s.sq.sendSeq - s.sq.receiveSeq).toNat = s.sq.sentQueue.length ∧
      s.sq.sentQueue.length ≤ 12 ∧
      s.sq.needAckBytes = sumLength s.sq.sentQueue ∧
      s.sq.readyBytes = tally (CommandQueue.readyLength ∘ s.sq.commandQueue) s.sq.pendingQueues ∧
      s.sq.upcomingBytes =
        tally (CommandQueue.upcomingLength ∘ s.sq.commandQueue) s.sq.pendingQueues ∧
      s.sq.pendingQueues.Nodup ∧
      (∀ q, q ∈ s.sq.pendingQueues ↔
        (s.sq.commandQueue q).ready ≠ [] ∨ (s.sq.commandQueue q).upcoming ≠ []) ∧
      (∀ q, s.entered q ++ (s.sq.commandQueue q).ready ++ (s.sq.commandQueue q).upcoming =
        (s.queued q).map limitMinClock) ∧
      (∀ block ∈ s.built, ∃ seq, block.1 = commandAddFrame seq (block.2.flatMap fun e => e.2.msg)) ∧
      s.sq.sentQueue <:+ s.built.map Prod.fst ∧
      (retransmitBuffer s.sq).length ≤ messageMax * 12 + 1 ∧
      (receiveWindow ≠ 0 → s.sq.needAckBytes ≤ max receiveWindow 64) ∧
      ∀ clocks, (commandRound s clocks).isSome := by
  have hinv := Session.inv_of_run h
  refine ⟨hinv.windowed.toNat_sub, hinv.windowed.limit, hinv.windowed.needAck, hinv.queues.ready,
    hinv.queues.upcoming, hinv.queues.nodup, fun q => ?_, fun q => ?_, hinv.frames, hinv.sent,
    hinv.windowed.length_retransmitBuffer, fun hne => ?_, hinv.commandRound_isSome⟩
  · rw [hinv.queues.pending q, CommandQueue.waiting, ne_eq, List.append_eq_nil_iff, not_and_or]
  · rw [List.append_assoc]
    exact hinv.order q
  · have hflow := hinv.windowed.flow
    rw [hinv.window] at hflow
    exact hflow hne

/-- The messages of two queues are packed into two blocks. The first one is sent again and
acknowledged. -/
def resentAndAcked : List Session.Event :=
  [.sendBatch 0 [⟨[7, 1], 0, 5, 0⟩, ⟨List.replicate 59 9, 0, 6, 1⟩], .sendBatch 4 [⟨[3], 0, 2, 0⟩],
    .commandRound ⟨10, 0, none⟩, .retransmit, .commandRound ⟨10, 0, none⟩,
    .receive (commandAddFrame (seqByte 2) []), .commandRound ⟨10, 0, none⟩, .retransmit]

theorem serialqueue_of_run_resentAndAcked :
    ∃ s, Run Session.step Session.Legal (Session.start 100) resentAndAcked s ∧
      s.built.length = 2 ∧ s.sq.sentQueue.length = 1 ∧
      (s.sq.sendSeq - s.sq.receiveSeq).toNat = s.sq.sentQueue.length ∧
      s.sq.needAckBytes ≤ max 100 64 := by
  obtain ⟨s, hs, hp⟩ : ∃ s, Run Session.step Session.Legal (Session.start 100) resentAndAcked s ∧
      decide (s.built.length = 2 ∧ s.sq.sentQueue.length = 1) = true :=
    Run.exists_of_exec resentAndAcked _ (by decide +kernel)
  obtain ⟨hbuilt, hsent⟩ := of_decide_eq_true hp
  obtain ⟨hsub, -, -, -, -, -, -, -, -, -, -, hflow, -⟩ := serialqueue_of_run hs
  exact ⟨s, hs, hbuilt, hsent, hsub, hflow (by decide)⟩

/-! ## The last sequence number -/

/-- A message of one byte. -/
def probe : QueueMessage := ⟨[1], 0, 0, 0⟩

/-- No message waits. -/
structure Session.Quiet (s : Session) : Prop where
  commandQueue : s.sq.commandQueue 0 = ⟨[], []⟩
  pendingQueues : s.sq.pendingQueues = []
  readyBytes : s.sq.readyBytes = 0
  upcomingBytes : s.sq.upcomingBytes = 0

/-- The queue with the message alone. -/
def SerialQueue.probed (sq : SerialQueue) (kick : UInt64) : SerialQueue :=
  { sq with
    pendingQueues := [0]
    commandQueue := Function.update sq.commandQueue 0 ⟨[], [probe]⟩
    upcomingBytes := 1
    needKickClock := kick }

lemma Session.Quiet.sendBatch (h : s.Quiet) :
    ∃ kick, serialqueueSendBatch s.sq 0 [probe] = s.sq.probed kick := by
  have hlen : sumLength (([probe].map limitMinClock).map QueueMessage.msg) = 1 := by decide
  use (serialqueueSendBatch s.sq 0 [probe]).needKickClock
  unfold serialqueueSendBatch SerialQueue.probed
  dsimp only
  rw [hlen, if_neg one_ne_zero, h.commandQueue, h.pendingQueues, h.upcomingBytes]
  rfl

lemma probed_check (sq : SerialQueue) (kick : UInt64) (hfull : windowFull (sq.probed kick) = false)
    (hready : sq.readyBytes = 0) :
    checkSendCommand (sq.probed kick) ⟨0, 0, none⟩ =
      ({ sq.probed kick with
        commandQueue := Function.update sq.commandQueue 0 ⟨[probe], []⟩
        readyBytes := 1
        upcomingBytes := 0 }, true) := by
  unfold checkSendCommand
  rw [if_neg (ne_true_of_eq_false hfull)]
  simp only [SerialQueue.probed, List.foldl_cons, List.foldl_nil, moveStalled, Function.update_self,
    Function.update_idem, hready]
  rfl

lemma probed_build (sq : SerialQueue) (kick : UInt64) :
    ∃ sq', buildAndSendCommand { sq.probed kick with
        commandQueue := Function.update sq.commandQueue 0 ⟨[probe], []⟩
        readyBytes := 1
        upcomingBytes := 0 } =
          some (sq', commandAddFrame (seqByte sq.sendSeq) probe.msg) ∧
      sq'.commandQueue 0 = ⟨[], []⟩ ∧ sq'.pendingQueues = [] ∧ sq'.readyBytes = 0 ∧
      sq'.upcomingBytes = 0 ∧ sq'.outstanding = ⟨sq.sendSeq + 1, sq.receiveSeq,
        sq.sentQueue ++ [commandAddFrame (seqByte sq.sendSeq) probe.msg]⟩ :=
  ⟨_, rfl, rfl, rfl, rfl, rfl, rfl⟩

lemma Session.Quiet.send (h : s.Quiet) (hfull : windowFull s.sq = false) :
    ∃ s', Run Session.step Session.Admitted s [.sendBatch 0 [probe], .commandRound ⟨0, 0, none⟩] s' ∧
      s'.Quiet ∧ s'.sq.outstanding = ⟨s.sq.sendSeq + 1, s.sq.receiveSeq,
        s.sq.sentQueue ++ [commandAddFrame (seqByte s.sq.sendSeq) probe.msg]⟩ := by
  obtain ⟨kick, hbatch⟩ := h.sendBatch
  obtain ⟨sq', hbuild, hcommand, hpending, hready, hup, hout⟩ := probed_build s.sq kick
  have hround := probed_check s.sq kick hfull h.readyBytes
  have hsend : ∀ qm ∈ [probe], Sendable qm := by decide
  have hbatched : Run Session.step Session.Admitted s [.sendBatch 0 [probe]] { s with
      sq := s.sq.probed kick
      queued := Function.update s.queued 0 (s.queued 0 ++ [probe]) } := by
    apply Run.nil.snoc hsend
    rw [Session.step, hbatch]
  have hbuilt : ∃ built, Session.step { s with
      sq := s.sq.probed kick
      queued := Function.update s.queued 0 (s.queued 0 ++ [probe]) } (.commandRound ⟨0, 0, none⟩) =
        some ⟨sq', Function.update s.queued 0 (s.queued 0 ++ [probe]), built⟩ := by
    rw [Session.step, commandRound]
    simp only [hround, hbuild]
    exact ⟨_, rfl⟩
  obtain ⟨built, hbuilt⟩ := hbuilt
  exact ⟨_, hbatched.snoc trivial hbuilt, ⟨hcommand, hpending, hready, hup⟩, hout⟩

lemma Session.Quiet.receive (h : s.Quiet) {k : UInt64} {block : List UInt8}
    (hout : s.sq.outstanding = ⟨k + 1, k, [block]⟩) :
    ∃ s', Run Session.step Session.Admitted s [.receive (commandAddFrame (seqByte (k + 1)) [])] s' ∧
      s'.Quiet ∧ s'.sq.outstanding = ⟨k + 1, k + 1, []⟩ := by
  have hsend : s.sq.sendSeq = k + 1 := congrArg Outstanding.sendSeq hout
  have hrecv : s.sq.receiveSeq = k := congrArg Outstanding.receiveSeq hout
  have hsent : s.sq.sentQueue = [block] := congrArg Outstanding.sentQueue hout
  have hone : k + 1 - k = 1 := by rw [UInt64.add_comm, UInt64.add_sub_cancel]
  have hexpand : expandSeq k ((commandAddFrame (seqByte (k + 1)) []).getD 1 0) = k + 1 :=
    expandSeq_seqByte (by rw [hone]; decide)
  have hne : k + 1 ≠ k := by
    intro heq
    rw [heq, UInt64.sub_self] at hone
    exact absurd hone (by decide)
  have hsame := sameQueues_handleMessage s.sq (commandAddFrame (seqByte (k + 1)) [])
  refine ⟨_, Run.nil.snoc trivial rfl, ⟨?_, ?_, ?_, ?_⟩, ?_⟩
  · exact (congrFun hsame.commandQueue 0).trans h.commandQueue
  · exact hsame.pendingQueues.trans h.pendingQueues
  · exact hsame.readyBytes.trans h.readyBytes
  · exact hsame.upcomingBytes.trans h.upcomingBytes
  · unfold handleMessage
    dsimp only
    rw [hrecv, hexpand, hsend, if_pos hne, if_neg fun hlt => absurd hlt.1 (UInt64.lt_irrefl _),
      outstanding_takeMessage]
    unfold updateReceiveSeq
    rw [hrecv, hsent, removeSent, if_pos rfl, ← hsend]
    rfl

lemma exists_quiet (n : Nat) :
    ∃ events s, Run Session.step Session.Admitted (Session.start 0) events s ∧ s.Quiet ∧
      s.sq.outstanding = ⟨1 + UInt64.ofNat n, 1 + UInt64.ofNat n, []⟩ := by
  induction n with
  | zero => exact ⟨[], _, Run.nil, ⟨rfl, rfl, rfl, rfl⟩, rfl⟩
  | succ n ih =>
    obtain ⟨events, s, hrun, hquiet, hout⟩ := ih
    generalize hk : 1 + UInt64.ofNat n = k at hout
    have hsend : s.sq.sendSeq = k := congrArg Outstanding.sendSeq hout
    have hrecv : s.sq.receiveSeq = k := congrArg Outstanding.receiveSeq hout
    have hsent : s.sq.sentQueue = [] := congrArg Outstanding.sentQueue hout
    have hfull : windowFull s.sq = false := by
      have hgt : ¬k > k := UInt64.lt_irrefl k
      rw [windowFull, hsend, hrecv, UInt64.sub_self, decide_eq_false hgt]
      rfl
    obtain ⟨s₁, hrun₁, hquiet₁, hout₁⟩ := hquiet.send hfull
    rw [hsend, hrecv, hsent] at hout₁
    obtain ⟨s₂, hrun₂, hquiet₂, hout₂⟩ := hquiet₁.receive hout₁
    have hnext : 1 + UInt64.ofNat (n + 1) = k + 1 := by
      rw [UInt64.ofNat_add, ← UInt64.add_assoc, hk]
      rfl
    rw [hnext]
    exact ⟨_, s₂, (hrun.append hrun₁).append hrun₂, hquiet₂, hout₂⟩

/-- While `receive_seq` is the last number of 64 bits, the number of blocks is not limited. -/
lemma Session.Quiet.unlimited (h : s.Quiet) (hlast : s.sq.receiveSeq = -1) (n : Nat) :
    ∃ events s', Run Session.step Session.Admitted s events s' ∧ s'.Quiet ∧
      s'.sq.receiveSeq = -1 ∧ s'.sq.sentQueue.length = s.sq.sentQueue.length + n := by
  induction n with
  | zero => exact ⟨[], s, Run.nil, h, hlast, rfl⟩
  | succ n ih =>
    obtain ⟨events, s₁, hrun, hquiet, hrecv, hlen⟩ := ih
    have hfull : windowFull s₁.sq = false := by
      have hle : ¬s₁.sq.sendSeq > -1 := by
        rw [gt_iff_lt, UInt64.lt_iff_toNat_lt, Nat.not_lt]
        exact Nat.le_of_lt_succ s₁.sq.sendSeq.toNat_lt
      rw [windowFull, hrecv, decide_eq_false hle, bne_self_eq_false, Bool.and_false]
      rfl
    obtain ⟨s₂, hrun₂, hquiet₂, hout⟩ := hquiet.send hfull
    refine ⟨_, s₂, hrun.append hrun₂, hquiet₂, ?_, ?_⟩
    · exact (congrArg Outstanding.receiveSeq hout).trans hrecv
    · have hsent : s₂.sq.sentQueue = _ := congrArg Outstanding.sentQueue hout
      rw [hsent, List.length_append, hlen]
      rfl

/-- With `receive_seq` at the last number of 64 bits, more than 12 blocks are sent. -/
theorem sentQueue_unlimited :
    ∃ events s, Run Session.step Session.Admitted (Session.start 0) events s ∧
      12 < s.sq.sentQueue.length := by
  obtain ⟨events, s, hrun, hquiet, hout⟩ := exists_quiet (2 ^ 64 - 2)
  have hlast : s.sq.receiveSeq = -1 := congrArg Outstanding.receiveSeq hout
  obtain ⟨events', s', hrun', -, -, hlen⟩ := hquiet.unlimited hlast 13
  exact ⟨_, s', hrun.append hrun', by omega⟩

end Session

end KlipperMcu.Serial
