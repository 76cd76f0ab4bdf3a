import KlipperMcu.Host.Buttons
import KlipperMcu.Lib.Run
import Mathlib.Data.List.Infix

/-!
# Delivery of button reports

An object of buttons.c and its handler on the host. The channel to the micro-controller is reliable.
The channel to the host keeps the order of the messages and may lose any of them. Reports have 8-bit
counters, and a message repeats what was not acknowledged when it was made.
-/

namespace KlipperMcu.Input

open Lib

/-- A message on its way, marked with the number of the first report in it. -/
structure Flight where
  first : Nat
  msg : ButtonsState
deriving DecidableEq, Repr

/-- The number of the report behind the last one in a message. -/
def Flight.next (f : Flight) : Nat := f.first + f.msg.state.length

/-- Both ends and the channels between them, with all the reports that were queued. -/
structure Link (κ : Type) where
  mcu : Mcu
  host : McuButtons κ
  acks : List Nat
  states : List Flight
  queued : List UInt8

/-- The number of the oldest report that is still queued. -/
def Link.oldest {κ : Type} (s : Link κ) : Nat := s.queued.length - s.mcu.b.reportCount

inductive Action where
  /-- The timer reads the pins. -/
  | event (levels : List Bool)
  /-- Another object wakes `buttons_task`. -/
  | wake
  | main
  /-- The micro-controller begins with a `buttons_ack`. -/
  | ack
  /-- The host handles a message. -/
  | handle
  | lose (i : Nat)
deriving DecidableEq, Repr

def step {κ : Type} (s : Link κ) : Action → Option (Link κ)
  | .event levels =>
    some { s with
      mcu := s.mcu.timer levels
      queued := s.queued ++ (buttonsEvent s.mcu.b levels).report.toList }
  | .wake => some { s with mcu := { s.mcu with wake := true } }
  | .main =>
    s.mcu.run.map fun (mcu, msg) =>
      { s with mcu := mcu, states := s.states ++ msg.toList.map (⟨s.oldest, ·⟩) }
  | .ack =>
    match s.acks with
    | [] => none
    | count :: acks =>
      (s.mcu.startAck (UInt8.ofNat count)).map fun mcu => { s with mcu := mcu, acks := acks }
  | .handle =>
    match s.states with
    | [] => none
    | f :: states =>
      let (host, ack) := handleButtonsState s.host f.msg
      some { s with host := host, acks := s.acks ++ ack.toList, states := states }
  | .lose i => some { s with states := s.states.eraseIdx i }

def Legal {κ : Type} (_ : Link κ) (_ : Action) : Prop := True

instance {κ : Type} (s : Link κ) (a : Action) : Decidable (Legal s a) := isTrue trivial

/-- The state after a `buttons_query`. -/
def queried {κ : Type} (b : Buttons) (wake : Bool) (host : McuButtons κ) : Link κ :=
  ⟨⟨b, wake, .idle⟩, host, [], [], []⟩

/-- The acknowledgement that the micro-controller has counted and not carried out. -/
def Main.counted : Main → Nat
  | .ack count => count.toNat
  | _ => 0

/-- The message that is being encoded, as it is going to be sent. -/
def Link.encoding {κ : Type} (s : Link κ) : List Flight :=
  match s.mcu.main with
  | .send ackCount count _ => [⟨s.oldest, ⟨ackCount, s.mcu.b.queue.take count⟩⟩]
  | _ => []

/-- A message that the host has to be able to handle. -/
structure Flight.Valid (f : Flight) (queued : List UInt8) (oldest seen : Nat) : Prop where
  first_le : f.first ≤ oldest
  seen_le : seen ≤ f.next
  short : f.msg.state.length ≤ reportsSize
  ackCount : f.msg.ackCount = UInt8.ofNat f.first
  state : f.msg.state <+: queued.drop f.first

structure Inv {κ : Type} (s : Link κ) : Prop where
  count_le : s.mcu.b.reportCount ≤ reportsSize
  count_le_length : s.mcu.b.reportCount ≤ s.queued.length
  queue : s.mcu.b.queue = s.queued.drop s.oldest
  ackCount : s.mcu.b.ackCount = UInt8.ofNat (s.oldest + s.mcu.main.counted)
  acked : s.oldest + s.mcu.main.counted + s.acks.sum = s.host.processed.length
  acks : ∀ count ∈ s.acks, count ≤ reportsSize
  hostCount : s.host.ackCount = s.host.processed.length
  processed : s.host.processed <+: s.queued
  valid : ∀ f ∈ s.states ++ s.encoding, f.Valid s.queued s.oldest s.host.processed.length
  sorted : (s.states ++ s.encoding).Pairwise fun f g => f.next ≤ g.next
  encoded : ∀ ackCount count state, s.mcu.main = .send ackCount count state →
    state = s.mcu.b.queue.take state.length ∧ state.length ≤ count ∧ count ≤ s.mcu.b.reportCount

section Steps

variable {κ : Type} {s s' : Link κ} {queued : List UInt8} {oldest seen : Nat} {f : Flight}

lemma Flight.Valid.next_le (h : f.Valid queued oldest seen) (hle : oldest ≤ queued.length) :
    f.next ≤ queued.length := by
  have hfirst := h.first_le
  have hlen := h.state.length_le
  rw [List.length_drop] at hlen
  unfold Flight.next
  omega

lemma Flight.Valid.append (h : f.Valid queued oldest seen) (hle : oldest ≤ queued.length)
    (more : List UInt8) : f.Valid (queued ++ more) oldest seen := by
  refine ⟨h.first_le, h.seen_le, h.short, h.ackCount, ?_⟩
  rw [List.drop_append_of_le_length (Nat.le_trans h.first_le hle)]
  exact h.state.trans (List.prefix_append _ _)

lemma Link.oldest_le (s : Link κ) : s.oldest ≤ s.queued.length := Nat.sub_le _ _

lemma Inv.oldest_add (h : Inv s) : s.oldest + s.mcu.b.reportCount = s.queued.length :=
  Nat.sub_add_cancel h.count_le_length

lemma length_queue (b : Buttons) : b.queue.length = b.reportCount := Buffer.length_slice _ _ _

/-- The main program is at a point where no message is encoded and no acknowledgement counted. -/
def Main.Between (m : Main) : Prop :=
  m.counted = 0 ∧ ∀ ackCount count state, m ≠ .send ackCount count state

lemma encoding_of_between (h : s.mcu.main.Between) : s.encoding = [] := by
  unfold Link.encoding
  split
  · rename_i hsend
    exact absurd hsend (h.2 _ _ _)
  · rfl

lemma Inv.setMain (h : Inv s) (hm : s.mcu.main.Between) {mcu : Mcu} (hb : mcu.b = s.mcu.b)
    (hm' : mcu.main.Between) : Inv { s with mcu := mcu } := by
  have henc := encoding_of_between hm
  have henc' : Link.encoding { s with mcu := mcu } = [] := encoding_of_between hm'
  have hold : Link.oldest { s with mcu := mcu } = s.oldest := by
    unfold Link.oldest
    rw [hb]
  have hack := h.ackCount
  have hacked := h.acked
  rw [hm.1] at hack hacked
  refine ⟨hb ▸ h.count_le, hb ▸ h.count_le_length, ?_, ?_, ?_, h.acks, h.hostCount, h.processed, ?_,
    ?_, fun _ _ _ he => absurd he (hm'.2 _ _ _)⟩
  · rw [hold, hb]
    exact h.queue
  · rw [hold, hb, hm'.1]
    exact hack
  · rw [hold, hm'.1]
    exact hacked
  · rw [hold, henc', ← henc]
    exact h.valid
  · rw [henc', ← henc]
    exact h.sorted

lemma Inv.takeReports (h : Inv s) (hm : s.mcu.main.Between) (retransmitState : UInt8) :
    Inv { s with mcu := { s.mcu with
      b := { s.mcu.b with retransmitState := retransmitState }
      main := .send s.mcu.b.ackCount s.mcu.b.reportCount [] } } := by
  have hsum := h.oldest_add
  have hack := h.ackCount
  have hacked := h.acked
  have hvalid := h.valid
  have hsorted := h.sorted
  rw [hm.1, Nat.add_zero] at hack hacked
  rw [encoding_of_between hm, List.append_nil] at hvalid hsorted
  have hnext : ∀ ackCount, Flight.next ⟨s.oldest, ⟨ackCount, s.mcu.b.queue.take s.mcu.b.reportCount⟩⟩ =
      s.queued.length := by
    intro ackCount
    unfold Flight.next
    rw [List.length_take, length_queue, Nat.min_self]
    exact hsum
  refine ⟨h.count_le, h.count_le_length, h.queue, hack, hacked, h.acks, h.hostCount, h.processed, ?_,
    ?_, ?_⟩
  · intro f hf
    rcases List.mem_append.mp hf with hf | hf
    · exact hvalid f hf
    · obtain rfl := List.mem_singleton.mp hf
      refine ⟨Nat.le_refl _, ?_, ?_, hack, ?_⟩
      · exact Nat.le_trans h.processed.length_le (Nat.le_of_eq (hnext _).symm)
      · exact Nat.le_trans (List.length_take_le _ _) h.count_le
      · exact (List.take_prefix _ _).trans (h.queue ▸ List.prefix_rfl)
  · apply List.pairwise_append.mpr
    refine ⟨hsorted, List.pairwise_singleton _ _, ?_⟩
    intro f hf g hg
    obtain rfl := List.mem_singleton.mp hg
    exact Nat.le_trans ((hvalid f hf).next_le s.oldest_le) (Nat.le_of_eq (hnext _).symm)
  · intro ackCount count state he
    cases he
    exact ⟨rfl, Nat.zero_le _, Nat.le_refl _⟩

lemma Inv.encode {ackCount : UInt8} {count : Nat} {state : List UInt8} (h : Inv s)
    (hm : s.mcu.main = .send ackCount count state) (hlt : state.length < count) :
    Inv { s with mcu := { s.mcu with
      main := .send ackCount count (state ++ [s.mcu.b.reports state.length]) } } := by
  have henc : Link.encoding { s with mcu := { s.mcu with
      main := .send ackCount count (state ++ [s.mcu.b.reports state.length]) } } = s.encoding := by
    unfold Link.encoding
    rw [hm]
    rfl
  have hack := h.ackCount
  have hacked := h.acked
  rw [hm] at hack hacked
  obtain ⟨hstate, -, hcount⟩ := h.encoded _ _ _ hm
  refine ⟨h.count_le, h.count_le_length, h.queue, hack, hacked, h.acks, h.hostCount, h.processed,
    henc ▸ h.valid, henc ▸ h.sorted, ?_⟩
  intro _ _ _ he
  cases he
  rw [List.length_append, List.length_singleton]
  refine ⟨?_, hlt, hcount⟩
  dsimp only [Buttons.queue]
  have hread : state = Buffer.slice s.mcu.b.reports 0 state.length :=
    hstate.trans (Buffer.take_slice _ _ (by omega))
  rw [Buffer.take_slice _ _ (Nat.le_trans hlt hcount), Nat.succ_eq_add_one, Buffer.slice_add, ← hread,
    Nat.zero_add]
  rfl

lemma Inv.send {ackCount : UInt8} {count : Nat} {state : List UInt8} (h : Inv s)
    (hm : s.mcu.main = .send ackCount count state) (hge : ¬state.length < count) :
    Inv { s with
      mcu := { s.mcu with main := .idle }
      states := s.states ++ [⟨s.oldest, ⟨ackCount, state⟩⟩] } := by
  obtain ⟨hstate, hle, hcount⟩ := h.encoded _ _ _ hm
  have henc : s.encoding = [⟨s.oldest, ⟨ackCount, state⟩⟩] := by
    unfold Link.encoding
    rw [hm, hstate, Nat.le_antisymm hle (Nat.not_lt.mp hge)]
  have hack := h.ackCount
  have hacked := h.acked
  rw [hm] at hack hacked
  refine ⟨h.count_le, h.count_le_length, h.queue, hack, hacked, h.acks, h.hostCount, h.processed,
    ?_, ?_, nofun⟩
  · refine (List.append_nil (s.states ++ [_])).symm ▸ henc ▸ h.valid
  · refine (List.append_nil (s.states ++ [_])).symm ▸ henc ▸ h.sorted

lemma Inv.queueReport (h : Inv s) {b : Buttons} {wake : Bool} {more : List UInt8}
    (hack : b.ackCount = s.mcu.b.ackCount) (hle : b.reportCount ≤ reportsSize)
    (hcount : b.reportCount = s.mcu.b.reportCount + more.length)
    (hqueue : b.queue = s.mcu.b.queue ++ more) :
    Inv { s with mcu := { s.mcu with b := b, wake := wake }, queued := s.queued ++ more } := by
  have hlen := h.count_le_length
  have hold : Link.oldest { s with
      mcu := { s.mcu with b := b, wake := wake }, queued := s.queued ++ more } = s.oldest := by
    unfold Link.oldest
    dsimp only
    rw [hcount, List.length_append]
    omega
  have htake : ∀ n, n ≤ s.mcu.b.reportCount → b.queue.take n = s.mcu.b.queue.take n := by
    intro n hn
    rw [hqueue, List.take_append_of_le_length (by rw [length_queue]; exact hn)]
  have henc : Link.encoding { s with
      mcu := { s.mcu with b := b, wake := wake }, queued := s.queued ++ more } = s.encoding := by
    unfold Link.encoding
    rw [hold]
    cases hm : s.mcu.main with
    | send ackCount count state =>
      dsimp only
      rw [htake count (h.encoded _ _ _ hm).2.2]
    | _ => rfl
  refine ⟨hle, ?_, ?_, ?_, ?_, h.acks, h.hostCount, h.processed.trans (List.prefix_append _ _), ?_, ?_,
    ?_⟩
  · dsimp only
    rw [hcount, List.length_append]
    omega
  · rw [hold]
    dsimp only
    rw [hqueue, h.queue, List.drop_append_of_le_length s.oldest_le]
  · rw [hold]
    exact hack.trans h.ackCount
  · rw [hold]
    exact h.acked
  · rw [henc, hold]
    intro f hf
    exact (h.valid f hf).append s.oldest_le more
  · rw [henc]
    exact h.sorted
  · intro ackCount count state hm
    obtain ⟨hstate, hsl, hcl⟩ := h.encoded _ _ _ hm
    refine ⟨hstate.trans (htake _ (Nat.le_trans hsl hcl)).symm, hsl, ?_⟩
    dsimp only
    omega

lemma Inv.event (h : Inv s) (levels : List Bool) :
    Inv { s with
      mcu := s.mcu.timer levels
      queued := s.queued ++ (buttonsEvent s.mcu.b levels).report.toList } := by
  obtain ⟨hack, ⟨hr, hcount, hreports⟩ | ⟨r, hr, hroom, hcount, hreports⟩⟩ :=
    buttonsEvent_eq s.mcu.b levels
  · rw [hr]
    apply h.queueReport hack
    · exact Nat.le_trans (Nat.le_of_eq hcount) h.count_le
    · exact hcount
    · unfold Buttons.queue
      rw [hcount, hreports]
      exact (List.append_nil _).symm
  · rw [hr]
    apply h.queueReport hack
    · exact Nat.le_trans (Nat.le_of_eq hcount) hroom
    · exact hcount
    · exact queue_snoc hcount hreports

lemma Inv.ackReports (h : Inv s) {count : UInt8} (hm : s.mcu.main = .ack count) :
    Inv { s with mcu := { s.mcu with b := ackReports s.mcu.b count, main := .idle } } := by
  have hack := h.ackCount
  have hacked := h.acked
  have hvalid := h.valid
  have hsorted := h.sorted
  have henc : s.encoding = [] := by
    unfold Link.encoding
    rw [hm]
  rw [hm] at hack hacked
  rw [henc, List.append_nil] at hvalid hsorted
  have hall := h.processed.length_le
  have hsum := h.oldest_add
  have hle := h.count_le
  dsimp only [Main.counted] at hack hacked
  have hcount : (Input.ackReports s.mcu.b count).reportCount = s.mcu.b.reportCount - count.toNat := by
    rw [← length_queue, queue_ackReports, List.length_drop, length_queue]
  have hold : Link.oldest { s with mcu := { s.mcu with
      b := Input.ackReports s.mcu.b count, main := .idle } } = s.oldest + count.toNat := by
    unfold Link.oldest at hsum hacked ⊢
    dsimp only
    rw [hcount]
    omega
  refine ⟨?_, ?_, ?_, ?_, ?_, h.acks, h.hostCount, h.processed, ?_, ?_, nofun⟩
  · dsimp only
    omega
  · dsimp only
    omega
  · rw [hold]
    dsimp only
    rw [queue_ackReports, h.queue, List.drop_drop]
  · rw [hold]
    exact (ackCount_ackReports s.mcu.b count).trans hack
  · rw [hold]
    exact hacked
  · intro f hf
    obtain ⟨hfirst, hseen, hshort, hcnt, hstate⟩ := hvalid f (List.append_nil s.states ▸ hf)
    rw [hold]
    exact ⟨Nat.le_trans hfirst (Nat.le_add_right _ _), hseen, hshort, hcnt, hstate⟩
  · exact (List.append_nil s.states).symm ▸ hsorted

lemma Inv.startAck (h : Inv s) {count : Nat} {acks : List Nat} (hacks : s.acks = count :: acks)
    (hm : s.mcu.main = .idle) :
    Inv { s with
      mcu := { s.mcu with
        b := { s.mcu.b with ackCount := s.mcu.b.ackCount + UInt8.ofNat count }
        main := .ack (UInt8.ofNat count) }
      acks := acks } := by
  have hsmall : count ≤ reportsSize := h.acks count (hacks ▸ List.mem_cons_self)
  have hbyte : (UInt8.ofNat count).toNat = count := by
    rw [UInt8.toNat_ofNat']
    unfold reportsSize at hsmall
    omega
  have hack := h.ackCount
  have hacked := h.acked
  have henc : s.encoding = [] := by
    unfold Link.encoding
    rw [hm]
  have hvalid := h.valid
  have hsorted := h.sorted
  rw [hm] at hack hacked
  rw [henc] at hvalid hsorted
  rw [hacks, List.sum_cons] at hacked
  refine ⟨h.count_le, h.count_le_length, h.queue, ?_, ?_, ?_, h.hostCount, h.processed, hvalid, hsorted,
    nofun⟩
  · dsimp only [Main.counted]
    rw [hbyte, hack, ← UInt8.ofNat_add]
    rfl
  · dsimp only [Main.counted] at hacked ⊢
    rw [hbyte, Nat.add_assoc, ← hacked]
    rfl
  · intro c hc
    exact h.acks c (hacks ▸ List.mem_cons_of_mem _ hc)

lemma Inv.handle (h : Inv s) {states : List Flight} (hf : s.states = f :: states) :
    Inv { s with
      host := (handleButtonsState s.host f.msg).1
      acks := s.acks ++ (handleButtonsState s.host f.msg).2.toList
      states := states } := by
  have hvalid := h.valid
  have hsorted := h.sorted
  rw [hf, List.cons_append] at hvalid hsorted
  have hthis := hvalid f List.mem_cons_self
  obtain ⟨hbefore, hrest⟩ := List.pairwise_cons.mp hsorted
  have hacked := h.acked
  have hfirst := hthis.first_le
  have hshort := hthis.short
  have hseen := hthis.seen_le
  unfold Flight.next at hseen
  unfold reportsSize at hshort
  obtain ⟨hp, ha, hs⟩ := handleButtonsState_eq h.hostCount hthis.ackCount (by omega) (by omega) hseen
  have hlen : (handleButtonsState s.host f.msg).1.processed.length = f.next := by
    rw [hp, List.length_append, List.length_drop]
    unfold Flight.next
    omega
  refine ⟨h.count_le, h.count_le_length, h.queue, h.ackCount, ?_, ?_, ?_, ?_, ?_, hrest, h.encoded⟩
  · dsimp only
    rw [hlen, List.sum_append, hs]
    unfold Flight.next
    change s.oldest + s.mcu.main.counted + _ = _
    omega
  · intro count hcount
    rcases List.mem_append.mp hcount with hold | hnew
    · exact h.acks count hold
    · rw [Option.mem_toList.mp hnew, Option.toList_some, List.sum_singleton] at hs
      unfold reportsSize
      omega
  · dsimp only
    rw [hlen, ha]
    rfl
  · obtain ⟨rest, hrest⟩ := h.processed
    have hnew : f.msg.state.drop (s.host.processed.length - f.first) <+: rest := by
      have hdrop := List.IsPrefix.drop hthis.state (s.host.processed.length - f.first)
      rwa [List.drop_drop, Nat.add_sub_cancel' (by omega), ← hrest, List.drop_left] at hdrop
    dsimp only
    rw [hp, ← hrest]
    exact (List.prefix_append_right_inj _).mpr hnew
  · intro g hg
    have hnext := hbefore g hg
    obtain ⟨hfirst, -, hshort, hcnt, hstate⟩ := hvalid g (List.mem_cons_of_mem _ hg)
    dsimp only
    rw [hlen]
    exact ⟨hfirst, hnext, hshort, hcnt, hstate⟩

lemma Inv.lose (h : Inv s) (i : Nat) : Inv { s with states := s.states.eraseIdx i } := by
  have hsub : (s.states.eraseIdx i ++ s.encoding).Sublist (s.states ++ s.encoding) :=
    (List.eraseIdx_sublist s.states i).append_right _
  exact ⟨h.count_le, h.count_le_length, h.queue, h.ackCount, h.acked, h.acks, h.hostCount, h.processed,
    fun f hf => h.valid f (hsub.subset hf), h.sorted.sublist hsub, h.encoded⟩

lemma Inv.main {mcu : Mcu} {msg : Option ButtonsState} (h : Inv s)
    (hrun : s.mcu.run = some (mcu, msg)) :
    Inv { s with mcu := mcu, states := s.states ++ msg.toList.map (⟨s.oldest, ·⟩) } := by
  unfold Mcu.run at hrun
  cases hm : s.mcu.main <;> rw [hm] at hrun <;> dsimp only at hrun
  case idle =>
    obtain ⟨-, hrun⟩ := Option.ite_none_right_eq_some.mp hrun
    cases hrun
    rw [Option.toList_none, List.map_nil, List.append_nil]
    exact h.setMain (hm ▸ ⟨rfl, nofun⟩) rfl ⟨rfl, nofun⟩
  case woken =>
    cases hrun
    rw [Option.toList_none, List.map_nil, List.append_nil]
    exact h.setMain (hm ▸ ⟨rfl, nofun⟩) rfl ⟨rfl, nofun⟩
  case test =>
    cases hrun
    rw [Option.toList_none, List.map_nil, List.append_nil]
    refine h.setMain (hm ▸ ⟨rfl, nofun⟩) rfl ?_
    dsimp only
    split
    · exact ⟨rfl, nofun⟩
    · exact ⟨rfl, nofun⟩
  case pending =>
    split at hrun
    · cases hrun
      rw [Option.toList_none, List.map_nil, List.append_nil]
      exact h.setMain (hm ▸ ⟨rfl, nofun⟩) rfl ⟨rfl, nofun⟩
    · cases hrun
      rw [Option.toList_none, List.map_nil, List.append_nil]
      exact h.takeReports (hm ▸ ⟨rfl, nofun⟩) _
  case send ackCount count state =>
    split at hrun
    · rename_i hlt
      cases hrun
      rw [Option.toList_none, List.map_nil, List.append_nil]
      exact h.encode hm hlt
    · rename_i hge
      cases hrun
      exact h.send hm hge
  case ack count =>
    cases hrun
    rw [Option.toList_none, List.map_nil, List.append_nil]
    exact h.ackReports hm

lemma Inv.step {a : Action} (h : Inv s) (hs : Input.step s a = some s') : Inv s' := by
  cases a with
  | event levels =>
    cases hs
    exact h.event levels
  | wake =>
    cases hs
    exact ⟨h.count_le, h.count_le_length, h.queue, h.ackCount, h.acked, h.acks, h.hostCount,
      h.processed, h.valid, h.sorted, h.encoded⟩
  | main =>
    obtain ⟨⟨mcu, msg⟩, hrun, rfl⟩ := Option.map_eq_some_iff.mp hs
    exact h.main hrun
  | ack =>
    rw [Input.step] at hs
    split at hs
    · cases hs
    · rename_i count acks hacks
      obtain ⟨mcu, hstart, rfl⟩ := Option.map_eq_some_iff.mp hs
      obtain ⟨hm, hstart⟩ := Option.ite_none_right_eq_some.mp hstart
      cases hstart
      exact h.startAck hacks hm
  | handle =>
    rw [Input.step] at hs
    split at hs
    · cases hs
    · rename_i f states hf
      cases hs
      exact h.handle hf
  | lose i =>
    cases hs
    exact h.lose i

end Steps

lemma inv_of_run {κ : Type} {legal : Link κ → Action → Prop} {b₀ b : Buttons}
    {clock restTicks : UInt32} {retransmitCount invert : UInt8} {wake : Bool} {host : McuButtons κ}
    {actions : List Action} {s : Link κ}
    (hq : commandButtonsQuery b₀ clock restTicks retransmitCount invert = some b)
    (hcount : host.ackCount = 0) (hnew : host.processed = [])
    (h : Run step legal (queried b wake host) actions s) : Inv s := by
  have hzero : b.reportCount = 0 ∧ b.ackCount = 0 := by
    obtain ⟨-, hq⟩ := Option.ite_none_left_eq_some.mp hq
    cases hq
    exact ⟨rfl, rfl⟩
  apply h.invariant
  · have hold : Link.oldest (queried b wake host) = 0 := Nat.zero_sub _
    refine ⟨?_, ?_, ?_, ?_, ?_, nofun, ?_, ?_, nofun, List.Pairwise.nil, nofun⟩
    · exact hzero.1 ▸ Nat.zero_le _
    · exact hzero.1 ▸ Nat.zero_le _
    · rw [hold]
      exact List.eq_nil_of_length_eq_zero ((length_queue b).trans hzero.1)
    · rw [hold]
      exact hzero.2
    · rw [hold]
      exact hnew ▸ rfl
    · exact hcount.trans (hnew ▸ rfl)
    · exact hnew ▸ List.nil_prefix
  · intro s a s' hi _ hs
    exact hi.step hs

lemma Inv.processed_eq {κ : Type} {s : Link κ} (h : Inv s) (hnone : s.mcu.b.reportCount = 0) :
    s.host.processed = s.queued := by
  apply h.processed.eq_of_length
  have hle := h.processed.length_le
  have hacked := h.acked
  have hsum := h.oldest_add
  omega

/-- After a `buttons_query` the host processes the reports that the micro-controller queues, each
once and in order, and has processed all of them when none is queued any more. -/
theorem processed_prefix_queued {κ : Type} {b₀ b : Buttons} {clock restTicks : UInt32}
    {retransmitCount invert : UInt8} {wake : Bool} {host : McuButtons κ} {actions : List Action}
    {s : Link κ}
    (hq : commandButtonsQuery b₀ clock restTicks retransmitCount invert = some b)
    (hcount : host.ackCount = 0) (hnew : host.processed = [])
    (h : Run step Legal (queried b wake host) actions s) :
    s.host.processed <+: s.queued ∧ s.host.ackCount = s.host.processed.length ∧
      (s.mcu.b.reportCount = 0 → s.host.processed = s.queued) := by
  have hinv := inv_of_run hq hcount hnew h
  exact ⟨hinv.processed, hinv.hostCount, hinv.processed_eq⟩

/-- A button is pressed and the message about it is lost. The one about its release repeats the first
report. -/
def pressAndRelease : List Action :=
  [Action.event [true], .event [true]] ++ List.replicate 6 Action.main ++
    [Action.lose 0, .event [false], .event [false]] ++ List.replicate 7 Action.main ++
    [Action.handle, .ack, .main]

theorem processed_prefix_queued_pressAndRelease :
    ∃ b, commandButtonsQuery ⟨0, 0, 0, 0, 3, fun _ => 7, 5, 0, 0⟩ 100 200 50 0 = some b ∧
      ∃ s, Run step Legal (queried b false (⟨0, 0, 0, [], [], []⟩ : McuButtons Unit))
        pressAndRelease s ∧ s.queued = [1, 0] ∧ s.host.processed = [1, 0] := by
  have hquery : commandButtonsQuery ⟨0, 0, 0, 0, 3, fun _ => 7, 5, 0, 0⟩ 100 200 50 0 =
      some ⟨100, 200, 0, 0, 0, fun _ => 7, 0, bfAcked, 50⟩ := rfl
  obtain ⟨s, hs, hp⟩ : ∃ s, Run step Legal (queried
      ⟨100, 200, 0, 0, 0, fun _ => 7, 0, bfAcked, 50⟩ false (⟨0, 0, 0, [], [], []⟩ : McuButtons Unit))
      pressAndRelease s ∧ decide (s.queued = [1, 0] ∧ s.mcu.b.reportCount = 0) = true :=
    Run.exists_of_exec pressAndRelease _ (by decide +kernel)
  obtain ⟨hq, hnone⟩ := of_decide_eq_true hp
  have hall := (processed_prefix_queued hquery rfl rfl hs).2.2 hnone
  exact ⟨_, hquery, s, hs, hq, hall.trans hq⟩

end KlipperMcu.Input
