import KlipperMcu.Firmware.Stepper
import KlipperMcu.Host.MoveClock
import KlipperMcu.Lib.Run

/-!
# Step clocks on the host and on the micro-controller

The host turns queued step times into `queue_step` commands and keeps the clock of the last step
in `last_step_clock`. The micro-controller receives the commands in order and adds up intervals one
step at a time. Both sides agree on the clock of every step.
-/

namespace KlipperMcu.StepClock

open Lib Compress Motion Sched

/-- A host compressor and the stepper that it drives. -/
structure Joint where
  host : StepCompress
  /-- The clocks of the steps in the queue of the compressor. -/
  clocks : List Nat
  stepper : Stepper
  /-- The number of messages received from the host. -/
  delivered : Nat
  /-- The times at which steps were taken. -/
  log : List UInt32
deriving DecidableEq

inductive Action where
  | append (clock : Nat)
  | flush (move : StepMove)
  | far (clock : Nat)
  | setNextStepDir (dir : UInt32)
  | deliver
  | fire
deriving DecidableEq

/-- `queue_step` with the arguments of a message. -/
def receive (s : Stepper) (move : StepMove) : Except Stepper Stepper :=
  commandQueueStep s move.interval move.count.toUInt32 (addTicks move.add)

/-- The timer fires exactly at its waketime. -/
def fireTimer (s : Stepper) : Stepper :=
  let (s, ret) := stepperEventEdge s
  { s with scheduled := decide (ret = .reschedule) }

def step (s : Joint) : Action → Option Joint
  | .append clock =>
    some { s with
      host := { s.host with queue := s.host.queue ++ [UInt32.ofNat clock] }
      clocks := s.clocks ++ [clock] }
  | .flush move =>
    (flushMove s.host move).map fun host =>
      { s with host := host, clocks := s.clocks.drop move.count.toNat }
  | .far clock => some { s with host := stepcompressFlushFar s.host clock }
  | .setNextStepDir dir => some { s with stepper := commandSetNextStepDir s.stepper dir }
  | .deliver =>
    match s.host.msgQueue[s.delivered]? with
    | none => none
    | some msg =>
      match receive s.stepper msg.move with
      | .error _ => none
      | .ok stepper => some { s with stepper := stepper, delivered := s.delivered + 1 }
  | .fire =>
    if s.stepper.scheduled then
      some { s with stepper := fireTimer s.stepper, log := s.log ++ [s.stepper.waketime] }
    else none

/-- Steps are queued in order. `queue_append` queues a step that is less than `CLOCK_DIFF_MAX`
after the last one, and sends any other step on its own once the queue is empty. -/
def Legal (s : Joint) : Action → Prop
  | .append clock => (∀ c ∈ s.clocks, c ≤ clock) ∧ s.host.lastStepClock ≤ clock ∧
      clock < s.host.lastStepClock + clockDiffMax
  | .far clock => s.clocks = [] ∧ s.host.lastStepClock + clockDiffMax ≤ clock
  | _ => True

instance (s : Joint) (a : Action) : Decidable (Legal s a) := by
  cases a <;> unfold Legal <;> infer_instance

/-- The time of step `k` of a move that starts after a step at `clock`. -/
def stepTime (clock : Nat) (move : StepMove) (k : Nat) : UInt32 :=
  UInt32.ofInt (clock + k * move.interval.toNat + move.add.toInt * (k * (k - 1) / 2 : Nat))

def moveTimes (clock : Nat) (move : StepMove) : List UInt32 :=
  (List.range move.count.toNat).map fun k => stepTime clock move (k + 1)

/-- The step times that the messages of the host ask for. The clock of the step before a move is
the one that `add_move` keeps as the message's `min_clock`. -/
def stepTimes (msgs : List QueueMessage) : List UInt32 :=
  msgs.flatMap fun msg => moveTimes msg.minClock msg.move

/-- The host's `last_step_clock` after its first `k` moves. -/
def clockAfter (host : StepCompress) (k : Nat) : Nat :=
  match host.msgQueue[k]? with
  | some msg => msg.minClock
  | none => host.lastStepClock

/-- An idle edge stepper whose step clock has been set to the clock of a host without steps. -/
structure Start (s : Joint) : Prop where
  queue : s.host.queue = []
  clocks : s.clocks = []
  msgQueue : s.host.msgQueue = []
  delivered : s.delivered = 0
  log : s.log = []
  singleSched : s.stepper.singleSched = true
  scheduled : s.stepper.scheduled = false
  mq : s.stepper.mq = []
  reset : ∃ before, commandResetStepClock before (UInt32.ofNat s.host.lastStepClock) = .ok s.stepper

/-- The times of the next `n` steps when the timer is set to `waketime`. -/
def pendingTimes (waketime interval add : UInt32) : Nat → List UInt32
  | 0 => []
  | n + 1 => waketime :: pendingTimes (waketime + interval) (interval + add) add n

/-- The step times of a move loaded when the last step was at `last`. -/
def loadedTimes (last : UInt32) (move : StepMove) : List UInt32 :=
  pendingTimes (last + move.interval) (move.interval + addTicks move.add) (addTicks move.add)
    move.count.toNat

/-- The step times of a queue of moves loaded one after the other. -/
def queueTimes : UInt32 → List StepMove → List UInt32
  | _, [] => []
  | last, move :: moves =>
    loadedTimes last move ++ queueTimes ((loadedTimes last move).getLastD last) moves

section Times

lemma pendingTimes_ofInt (t interval add : Int) (n : Nat) :
    pendingTimes (UInt32.ofInt t) (UInt32.ofInt interval) (UInt32.ofInt add) n =
      (List.range n).map fun k => UInt32.ofInt (t + quad interval add k) := by
  induction n generalizing t interval with
  | zero => rfl
  | succ n ih =>
    rw [pendingTimes, ← UInt32.ofInt_add, ← UInt32.ofInt_add, ih, List.range_succ_eq_map,
      List.map_cons, List.map_map, quad_zero, add_zero]
    congr 1
    apply List.map_congr_left
    intro k _
    simp only [Function.comp_apply]
    rw [Nat.succ_eq_add_one, quad_shift]
    congr 1
    ring

lemma stepTime_eq (clock : Nat) (move : StepMove) (k : Nat) :
    stepTime clock move k = UInt32.ofInt (clock + move.reach k) := by
  unfold stepTime StepMove.reach quad tri
  congr 1
  ring

lemma loadedTimes_ofNat (clock : Nat) (move : StepMove) :
    loadedTimes (UInt32.ofNat clock) move = moveTimes clock move := by
  have hi : move.interval = UInt32.ofInt (move.interval.toNat : Int) := by
    rw [ofInt_natCast, UInt32.ofNat_toNat]
  unfold loadedTimes moveTimes addTicks
  rw [toUInt32_int16, ← ofInt_natCast]
  nth_rewrite 1 2 [hi]
  rw [← UInt32.ofInt_add, ← UInt32.ofInt_add, pendingTimes_ofInt]
  apply List.map_congr_left
  intro k _
  rw [stepTime_eq, StepMove.reach, quad_shift]
  congr 1
  ring

lemma loadedTimes_getLastD (clock : Nat) {move : StepMove} (h : 1 ≤ move.count.toNat)
    (d : UInt32) :
    (loadedTimes (UInt32.ofNat clock) move).getLastD d =
      stepTime clock move move.count.toNat := by
  obtain ⟨n, hn⟩ : ∃ n, move.count.toNat = n + 1 := ⟨move.count.toNat - 1, by omega⟩
  rw [loadedTimes_ofNat, moveTimes, hn, List.range_succ, List.map_append, List.map_singleton,
    List.getLastD_concat]

lemma getLastD_append {α : Type*} (xs ys : List α) (d : α) :
    (xs ++ ys).getLastD d = ys.getLastD (xs.getLastD d) := by
  rw [List.getLastD_eq_getLast?, List.getLastD_eq_getLast?, List.getLastD_eq_getLast?,
    List.getLast?_append]
  cases ys.getLast? <;> rfl

lemma getLastD_of_ne_nil {α : Type*} {xs : List α} (h : xs ≠ []) (d e : α) :
    xs.getLastD d = xs.getLastD e := by
  rw [List.getLastD_eq_getLast?, List.getLastD_eq_getLast?, List.getLast?_eq_some_getLast h]
  rfl

lemma queueTimes_append (last : UInt32) (xs ys : List StepMove) :
    queueTimes last (xs ++ ys) =
      queueTimes last xs ++ queueTimes ((queueTimes last xs).getLastD last) ys := by
  induction xs generalizing last with
  | nil => rfl
  | cons x xs ih =>
    rw [List.cons_append, queueTimes, queueTimes, ih, List.append_assoc, getLastD_append]

lemma queueTimes_singleton (last : UInt32) (move : StepMove) :
    queueTimes last [move] = loadedTimes last move := List.append_nil _

end Times

/-- The move that a queued stepper move was made of. -/
def toStepMove (m : StepperMove) : StepMove := ⟨m.interval, m.count, m.add⟩

/-- The times of the remaining steps of the loaded move. -/
def pending (s : Stepper) : List UInt32 :=
  pendingTimes s.waketime s.interval (addTicks s.add) s.count.toNat

/-- The times of all steps that the stepper has received and not taken. -/
def ahead (s : Stepper) : List UInt32 :=
  pending s ++ queueTimes ((pending s).getLastD s.waketime) (s.mq.map toStepMove)

/-- An edge stepper that is not waiting for a new step clock. -/
structure Edge (s : Stepper) : Prop where
  singleSched : s.singleSched = true
  needReset : s.needReset = false
  scheduled : s.scheduled = true ↔ s.count ≠ 0
  idle : s.count = 0 → s.mq = []

section Stepper

variable {s s' : Stepper} {last : UInt32}

lemma pending_idle (h : s.count = 0) : pending s = [] := by
  unfold pending
  rw [h]
  rfl

lemma ahead_idle (he : Edge s) (h : s.count = 0) : ahead s = [] := by
  unfold ahead
  rw [pending_idle h, he.idle h]
  rfl

lemma pending_active (h : s.count ≠ 0) :
    pending s = s.waketime :: pendingTimes (s.waketime + s.interval)
      (s.interval + addTicks s.add) (addTicks s.add) (s.count - 1).toNat := by
  have hz : s.count.toNat ≠ 0 := fun hn => h (UInt32.toNat_inj.mp hn)
  have hone : (1 : UInt32).toNat = 1 := rfl
  have hlt := s.count.toNat_lt
  have hsucc : s.count.toNat = (s.count - 1).toNat + 1 := by
    rw [UInt32.toNat_sub, hone]
    omega
  unfold pending
  rw [hsucc, pendingTimes]

lemma pending_loadMove (h : s.singleSched = true) (m : StepperMove) :
    pending (loadMove s m) = loadedTimes s.waketime (toStepMove m) := by
  unfold pending loadedTimes toStepMove loadMove
  simp only [h, if_true]
  split <;> rw [UInt16.toNat_toUInt32]

lemma loadMove_count_ne (h : s.singleSched = true) (m : StepperMove) :
    (loadMove s m).count ≠ 0 := by
  have hm : m.count.toUInt32 ≠ 0 := by
    intro hz
    apply m.count_ne
    rw [← UInt16.toNat_inj]
    rw [← UInt32.toNat_inj, UInt16.toNat_toUInt32] at hz
    exact hz
  unfold loadMove
  simp only [h, if_true]
  split <;> exact hm

lemma loadMove_frame (s : Stepper) (m : StepperMove) :
    (loadMove s m).singleSched = s.singleSched ∧ (loadMove s m).needReset = s.needReset ∧
      (loadMove s m).mq = s.mq := by
  unfold loadMove
  simp only []
  split <;> split <;> exact ⟨rfl, rfl, rfl⟩

lemma ahead_loadMove (h : s.singleSched = true) (m : StepperMove) :
    ahead (loadMove s m) = queueTimes s.waketime (toStepMove m :: s.mq.map toStepMove) := by
  have hne : pending (loadMove s m) ≠ [] := by
    rw [pending_active (loadMove_count_ne h m)]
    exact List.cons_ne_nil _ _
  rw [ahead, (loadMove_frame s m).2.2, queueTimes, ← pending_loadMove h m,
    getLastD_of_ne_nil hne _ s.waketime]

lemma pending_ne_nil (h : s.count ≠ 0) : pending s ≠ [] := by
  rw [pending_active h]
  exact List.cons_ne_nil _ _

lemma ahead_ne_nil (h : s.count ≠ 0) : ahead s ≠ [] :=
  fun hnil => pending_ne_nil h (List.append_eq_nil_iff.mp hnil).1

lemma Edge.loadMove (h : s.singleSched = true) (hr : s.needReset = false) (m : StepperMove) :
    Edge { loadMove s m with scheduled := true } := by
  obtain ⟨hs, hn, -⟩ := loadMove_frame s m
  have hc := loadMove_count_ne h m
  exact ⟨hs.trans h, hn.trans hr, ⟨fun _ => hc, fun _ => rfl⟩, fun hz => absurd hz hc⟩

lemma Edge.queueMove (he : Edge s) {move : StepMove} (hc : move.count ≠ 0) :
    Edge (queueMove s move.interval move.add move.count hc) ∧
      (queueMove s move.interval move.add move.count hc).count ≠ 0 ∧
      ahead (queueMove s move.interval move.add move.count hc) =
        ahead s ++ loadedTimes ((ahead s).getLastD s.waketime) move := by
  unfold Motion.queueMove
  by_cases hcount : s.count = 0
  · have hmq := he.idle hcount
    simp only []
    rw [if_neg (not_not.mpr hcount), if_neg (by simp [he.needReset]),
      stepperLoadNext_cons (by exact congrArg (· ++ _) hmq)]
    refine ⟨Edge.loadMove (by exact he.singleSched) (by exact he.needReset) _,
      loadMove_count_ne (by exact he.singleSched) _, ?_⟩
    rw [ahead_idle he hcount]
    exact (ahead_loadMove (by exact he.singleSched) _).trans (queueTimes_singleton _ _)
  · rw [if_pos hcount]
    refine ⟨⟨he.singleSched, he.needReset, he.scheduled, fun hz => absurd hz hcount⟩, hcount, ?_⟩
    have hmq : ∀ m : StepperMove, toStepMove m = move →
        pending s ++ queueTimes ((pending s).getLastD s.waketime) ((s.mq ++ [m]).map toStepMove) =
          ahead s ++ loadedTimes ((ahead s).getLastD s.waketime) move := by
      intro m hm
      rw [List.map_append, List.map_singleton, hm, queueTimes_append, queueTimes_singleton, ahead,
        getLastD_append, List.append_assoc]
    exact hmq _ rfl

lemma receive_eq {move : StepMove} (hc : move.count ≠ 0) :
    receive s move = .ok (Motion.queueMove s move.interval move.add move.count hc) := by
  have hcount : move.count.toUInt32.toUInt16 = move.count := UInt16.toUInt16_toUInt32 _
  have hadd : (addTicks move.add).toUInt16.toInt16 = move.add := toInt16_toUInt32_int16 _
  unfold receive commandQueueStep
  simp only [hcount, hadd, hc, dif_neg, not_false_eq_true]

lemma fireTimer_more (h : s.count - 1 ≠ 0) :
    fireTimer s = { s with
      stepPin := !s.stepPin
      count := s.count - 1
      waketime := s.waketime + s.interval
      interval := s.interval + addTicks s.add
      scheduled := true } := by
  unfold fireTimer stepperEventEdge
  simp only [ne_eq, h, not_false_eq_true, if_true, decide_true]

lemma fireTimer_done (h : s.count - 1 = 0) (hmq : s.mq = []) :
    fireTimer s = { s with stepPin := !s.stepPin, count := 0, scheduled := false } := by
  have hnext := @stepperLoadNext_nil { s with stepPin := !s.stepPin } hmq
  unfold fireTimer stepperEventEdge
  simp only [ne_eq, h, not_true_eq_false, if_false]
  rw [hnext]
  rfl

lemma fireTimer_load (h : s.count - 1 = 0) {m : StepperMove} {mq : List StepperMove}
    (hmq : s.mq = m :: mq) :
    fireTimer s =
      { loadMove { s with stepPin := !s.stepPin, mq := mq } m with scheduled := true } := by
  have hnext := @stepperLoadNext_cons { s with stepPin := !s.stepPin } m mq hmq
  unfold fireTimer stepperEventEdge
  simp only [ne_eq, h, not_true_eq_false, if_false]
  rw [hnext]
  rfl

lemma ahead_next {t : Stepper} (hp : pending s = s.waketime :: pending t) (hmq : t.mq = s.mq)
    (hne : pending t ≠ []) : ahead s = s.waketime :: ahead t := by
  rw [ahead, ahead, hp, hmq, List.getLastD_cons, getLastD_of_ne_nil hne s.waketime t.waketime,
    List.cons_append]

lemma Edge.fireTimer (he : Edge s) (hs : s.scheduled = true) :
    Edge (fireTimer s) ∧ ahead s = s.waketime :: ahead (fireTimer s) ∧
      ((fireTimer s).count = 0 → (fireTimer s).waketime = s.waketime) := by
  have hpend := pending_active (he.scheduled.mp hs)
  by_cases hone : s.count - 1 = 0
  · have hlast : ahead s = s.waketime :: queueTimes s.waketime (s.mq.map toStepMove) := by
      rw [ahead, hpend, hone]
      rfl
    by_cases hmq : s.mq = []
    · have hedge : Edge { s with stepPin := !s.stepPin, count := 0, scheduled := false } :=
        ⟨he.singleSched, he.needReset, by simp, fun _ => hmq⟩
      rw [fireTimer_done hone hmq, hlast, ahead_idle hedge rfl, hmq]
      exact ⟨hmq ▸ hedge, rfl, fun _ => rfl⟩
    · obtain ⟨m, mq, hcons⟩ := List.exists_cons_of_ne_nil hmq
      rw [fireTimer_load hone hcons, hlast, hcons]
      have hload := @ahead_loadMove { s with stepPin := !s.stepPin, mq := mq } he.singleSched m
      have hne := @loadMove_count_ne { s with stepPin := !s.stepPin, mq := mq } he.singleSched m
      refine ⟨Edge.loadMove (by exact he.singleSched) (by exact he.needReset) m, ?_,
        fun hz => absurd hz hne⟩
      exact congrArg (s.waketime :: ·) hload.symm
  · rw [fireTimer_more hone]
    refine ⟨⟨he.singleSched, he.needReset, by simpa using hone, fun hz => absurd hz hone⟩, ?_,
      fun hz => absurd hz hone⟩
    exact ahead_next hpend rfl (pending_ne_nil (by exact hone))

end Stepper

section Host

variable {host host' : StepCompress} {clocks : List Nat} {move : StepMove}

lemma clockAfter_length : clockAfter host host.msgQueue.length = host.lastStepClock := by
  unfold clockAfter
  rw [List.getElem?_eq_none (le_refl _)]

lemma clockAfter_of_getElem? {k : Nat} {msg : QueueMessage} (h : host.msgQueue[k]? = some msg) :
    clockAfter host k = msg.minClock := by
  unfold clockAfter
  rw [h]

lemma clockAfter_append {msg : QueueMessage} (hq : host'.msgQueue = host.msgQueue ++ [msg])
    (hm : msg.minClock = host.lastStepClock) {k : Nat} (hk : k ≤ host.msgQueue.length) :
    clockAfter host' k = clockAfter host k := by
  rcases Nat.lt_or_eq_of_le hk with hlt | rfl
  · unfold clockAfter
    rw [hq, List.getElem?_append_left hlt, List.getElem?_eq_getElem hlt]
  · have hget : host'.msgQueue[host.msgQueue.length]? = some msg := by
      rw [hq, List.getElem?_concat_length]
    rw [clockAfter_length, clockAfter_of_getElem? hget, hm]

/-- Every move of the host ends at the clock that the host has after it. -/
def MovesOk (host : StepCompress) : Prop :=
  ∀ k msg, host.msgQueue[k]? = some msg → 1 ≤ msg.move.count.toNat ∧
    stepTime msg.minClock msg.move msg.move.count.toNat = UInt32.ofNat (clockAfter host (k + 1))

lemma MovesOk.append {msg : QueueMessage} (h : MovesOk host)
    (hq : host'.msgQueue = host.msgQueue ++ [msg]) (hm : msg.minClock = host.lastStepClock)
    (hc : 1 ≤ msg.move.count.toNat)
    (ht : stepTime host.lastStepClock msg.move msg.move.count.toNat =
      UInt32.ofNat host'.lastStepClock) : MovesOk host' := by
  intro k msg' hk
  rw [hq] at hk
  have hlt : k < host.msgQueue.length + 1 := by
    have := (List.getElem?_eq_some_iff.mp hk).1
    rwa [List.length_append] at this
  rcases Nat.lt_or_eq_of_le (Nat.le_of_lt_succ hlt) with hold | rfl
  · rw [List.getElem?_append_left hold] at hk
    rw [clockAfter_append hq hm hold]
    exact h k msg' hk
  · rw [List.getElem?_concat_length, Option.some.injEq] at hk
    subst hk
    have hend := @clockAfter_length host'
    rw [hq, List.length_append, List.length_singleton] at hend
    rw [hm, hend]
    exact ⟨hc, ht⟩

lemma MovesOk.queueTimes (h : MovesOk host) {k : Nat} (hk : k ≤ host.msgQueue.length) :
    queueTimes (UInt32.ofNat (clockAfter host 0)) ((host.msgQueue.take k).map QueueMessage.move) =
        stepTimes (host.msgQueue.take k) ∧
      (stepTimes (host.msgQueue.take k)).getLastD (UInt32.ofNat (clockAfter host 0)) =
        UInt32.ofNat (clockAfter host k) := by
  induction k with
  | zero => exact ⟨rfl, rfl⟩
  | succ k ih =>
    obtain ⟨htimes, hlast⟩ := ih (by omega)
    have hget : host.msgQueue[k]? = some host.msgQueue[k] := List.getElem?_eq_getElem (by omega)
    obtain ⟨hcount, hend⟩ := h k _ hget
    have hmin := clockAfter_of_getElem? hget
    have hload : loadedTimes (UInt32.ofNat (clockAfter host k)) host.msgQueue[k].move =
        stepTimes [host.msgQueue[k]] := by
      rw [loadedTimes_ofNat, hmin]
      exact (List.append_nil _).symm
    have hsplit : stepTimes (host.msgQueue.take (k + 1)) =
        stepTimes (host.msgQueue.take k) ++ stepTimes [host.msgQueue[k]] := by
      rw [List.take_add_one, hget]
      exact List.flatMap_append
    constructor
    · rw [hsplit, List.take_add_one, hget, List.map_append, queueTimes_append, htimes, hlast]
      exact congrArg (_ ++ ·) ((queueTimes_singleton _ _).trans hload)
    · rw [hsplit, getLastD_append, ← hload, loadedTimes_getLastD _ hcount, hmin, hend]

end Host

/-- What holds throughout a run from a step clock of `clock`. -/
structure Inv (clock : Nat) (s : Joint) : Prop where
  edge : Edge s.stepper
  queueOk : QueueOk s.host s.clocks
  moves : MovesOk s.host
  first : clockAfter s.host 0 = clock
  delivered : s.delivered ≤ s.host.msgQueue.length
  times : s.log ++ ahead s.stepper =
    queueTimes (UInt32.ofNat clock) ((s.host.msgQueue.take s.delivered).map QueueMessage.move)
  idle : s.stepper.count = 0 → s.stepper.waketime = s.log.getLastD (UInt32.ofNat clock)

section Steps

variable {clock : Nat} {s s' : Joint}

lemma Inv.sent {host : StepCompress} {clocks : List Nat} {msg : QueueMessage} (h : Inv clock s)
    (hq : host.msgQueue = s.host.msgQueue ++ [msg]) (hm : msg.minClock = s.host.lastStepClock)
    (hc : 1 ≤ msg.move.count.toNat)
    (ht : stepTime s.host.lastStepClock msg.move msg.move.count.toNat =
      UInt32.ofNat host.lastStepClock) (hok : QueueOk host clocks) :
    Inv clock { s with host := host, clocks := clocks } := by
  have hd := h.delivered
  refine ⟨h.edge, hok, h.moves.append hq hm hc ht, ?_, ?_, ?_, h.idle⟩
  · rw [← h.first]
    exact clockAfter_append hq hm (Nat.zero_le _)
  · change s.delivered ≤ host.msgQueue.length
    rw [hq, List.length_append]
    omega
  · change _ = queueTimes _ ((host.msgQueue.take s.delivered).map _)
    rw [hq, List.take_append_of_le_length hd]
    exact h.times

lemma Inv.flush (h : Inv clock s) {move : StepMove} {host : StepCompress}
    (hf : flushMove s.host move = some host) :
    Inv clock { s with host := host, clocks := s.clocks.drop move.count.toNat } := by
  have hclock := h.queueOk.lastStepClock_flushMove hf
  obtain ⟨hc, heq⟩ := flushMove_eq_some hf
  obtain ⟨req, hreq⟩ := addMove_msgQueue s.host (s.host.lastStepClock + move.interval.toNat) move
  have hq : host.msgQueue = s.host.msgQueue ++ [⟨move, s.host.lastStepClock, req⟩] := by
    rw [heq]
    exact hreq
  refine h.sent hq rfl (h.queueOk.steps hc).1 ?_ (h.queueOk.flushMove hf)
  rw [stepTime_eq, ← hclock, ofInt_natCast]

lemma Inv.far (h : Inv clock s) {c : Nat} (hnil : s.clocks = [])
    (hc : s.host.lastStepClock + clockDiffMax ≤ c) :
    Inv clock { s with host := stepcompressFlushFar s.host c } := by
  have hclock := stepcompressFlushFar_lastStepClock s.host c
  obtain ⟨req, hreq⟩ := addMove_msgQueue s.host c
    ⟨UInt32.ofNat (c - s.host.lastStepClock), 1, 0⟩
  have hok : QueueOk (stepcompressFlushFar s.host c) s.clocks := by
    have hqueue := h.queueOk
    rw [hnil] at hqueue ⊢
    exact hqueue.flushFar c
  refine h.sent hreq rfl (le_refl 1) ?_ hok
  have hnat := @UInt32.toNat_ofNat' (c - s.host.lastStepClock)
  rw [hclock, ← ofInt_natCast c, stepTime_eq]
  apply ofInt_congr
  change ((s.host.lastStepClock : Int) +
    quad (UInt32.ofNat (c - s.host.lastStepClock)).toNat 0 1) % 2 ^ 32 = _
  rw [quad_one]
  omega

lemma Inv.append (h : Inv clock s) {c : Nat} (hsorted : ∀ c' ∈ s.clocks, c' ≤ c)
    (hlo : s.host.lastStepClock ≤ c) (hup : c < s.host.lastStepClock + clockDiffMax) :
    Inv clock { s with
      host := { s.host with queue := s.host.queue ++ [UInt32.ofNat c] }
      clocks := s.clocks ++ [c] } :=
  ⟨h.edge, h.queueOk.append hsorted hlo hup, h.moves, h.first, h.delivered, h.times, h.idle⟩

lemma Inv.last_ahead (h : Inv clock s) :
    (ahead s.stepper).getLastD s.stepper.waketime =
      (s.log ++ ahead s.stepper).getLastD (UInt32.ofNat clock) := by
  rw [getLastD_append]
  by_cases hc : s.stepper.count = 0
  · rw [h.idle hc]
  · exact getLastD_of_ne_nil (ahead_ne_nil hc) _ _

lemma Inv.deliver (h : Inv clock s) {msg : QueueMessage} {stepper : Stepper}
    (hmsg : s.host.msgQueue[s.delivered]? = some msg)
    (hr : receive s.stepper msg.move = .ok stepper) :
    Inv clock { s with stepper := stepper, delivered := s.delivered + 1 } := by
  have hcount : msg.move.count ≠ 0 := by
    intro hz
    have hpos := (h.moves _ _ hmsg).1
    rw [hz] at hpos
    exact absurd hpos (by decide)
  rw [receive_eq hcount] at hr
  obtain rfl := Except.ok.inj hr
  obtain ⟨hedge, hne, hahead⟩ := h.edge.queueMove hcount
  refine ⟨hedge, h.queueOk, h.moves, h.first, ?_, ?_, fun hz => absurd hz hne⟩
  · exact (List.getElem?_eq_some_iff.mp hmsg).1
  · change s.log ++ ahead (Motion.queueMove _ _ _ _ _) = queueTimes _ ((List.take (_ + 1) _).map _)
    rw [hahead, ← List.append_assoc, h.last_ahead, h.times, List.take_add_one, hmsg,
      List.map_append, queueTimes_append]
    exact congrArg (_ ++ ·) (queueTimes_singleton _ _).symm

lemma Inv.fire (h : Inv clock s) (hs : s.stepper.scheduled = true) :
    Inv clock { s with
      stepper := fireTimer s.stepper
      log := s.log ++ [s.stepper.waketime] } := by
  obtain ⟨hedge, hahead, hidle⟩ := h.edge.fireTimer hs
  refine ⟨hedge, h.queueOk, h.moves, h.first, h.delivered, ?_, ?_⟩
  · change s.log ++ [s.stepper.waketime] ++ ahead (fireTimer s.stepper) = _
    rw [List.append_assoc, List.singleton_append, ← hahead]
    exact h.times
  · intro hz
    change (fireTimer s.stepper).waketime = (s.log ++ [s.stepper.waketime]).getLastD _
    rw [hidle hz, List.getLastD_concat]

lemma Inv.step {a : Action} (h : Inv clock s) (hl : Legal s a) (hs : step s a = some s') :
    Inv clock s' := by
  cases a with
  | append c =>
    obtain rfl := Option.some.inj hs
    exact h.append hl.1 hl.2.1 hl.2.2
  | flush move =>
    obtain ⟨host, hf, rfl⟩ := Option.map_eq_some_iff.mp hs
    exact h.flush hf
  | far c =>
    obtain rfl := Option.some.inj hs
    exact h.far hl.1 hl.2
  | setNextStepDir dir =>
    obtain rfl := Option.some.inj hs
    exact ⟨⟨h.edge.singleSched, h.edge.needReset, h.edge.scheduled, h.edge.idle⟩, h.queueOk,
      h.moves, h.first, h.delivered, h.times, h.idle⟩
  | deliver =>
    rw [StepClock.step] at hs
    split at hs
    · cases hs
    · rename_i msg hmsg
      split at hs
      · cases hs
      · rename_i stepper hr
        obtain rfl := Option.some.inj hs
        exact h.deliver hmsg hr
  | fire =>
    rw [StepClock.step] at hs
    split at hs
    · rename_i hsched
      obtain rfl := Option.some.inj hs
      exact h.fire hsched
    · cases hs

end Steps

lemma Start.inv {s : Joint} (h : Start s) : Inv s.host.lastStepClock s := by
  obtain ⟨before, hreset⟩ := h.reset
  unfold commandResetStepClock at hreset
  split at hreset
  · cases hreset
  · rename_i hcount
    have hst := (Except.ok.inj hreset).symm
    have hc : s.stepper.count = 0 := by
      rw [hst]
      exact not_not.mp hcount
    have hedge : Edge s.stepper :=
      ⟨h.singleSched, by rw [hst], by simp [h.scheduled, hc], fun _ => h.mq⟩
    have hlast : clockAfter s.host 0 = s.host.lastStepClock := by
      have hlen := @clockAfter_length s.host
      rwa [h.msgQueue] at hlen
    refine ⟨hedge, ⟨?_, ?_, ?_, ?_⟩, ?_, hlast, ?_, ?_, ?_⟩
    · rw [h.queue, h.clocks]
      rfl
    · rw [h.clocks]
      exact List.Pairwise.nil
    · rw [h.clocks]
      simp
    · rw [h.clocks]
      simp
    · intro k msg hk
      rw [h.msgQueue] at hk
      cases hk
    · rw [h.delivered]
      exact Nat.zero_le _
    · rw [h.log, h.delivered, ahead_idle hedge hc]
      rfl
    · intro _
      rw [h.log, hst]
      rfl

/-- Steps are taken in the order and at the times of the moves that the host has sent, and every
move ends at the host's clock after it. A stepper with nothing left to do has taken all steps it
received, and its step clock is the host's. -/
theorem steps_of_run {s₀ s : Joint} {actions : List Action} (h₀ : Start s₀)
    (h : Run step Legal s₀ actions s) :
    s.log <+: stepTimes (s.host.msgQueue.take s.delivered) ∧
      (∀ k msg, s.host.msgQueue[k]? = some msg → msg.minClock = clockAfter s.host k ∧
        stepTime msg.minClock msg.move msg.move.count.toNat =
          UInt32.ofNat (clockAfter s.host (k + 1))) ∧
      (s.stepper.count ≠ 0 → s.stepper.scheduled = true) ∧
      (s.stepper.count = 0 → s.log = stepTimes (s.host.msgQueue.take s.delivered) ∧
        s.stepper.waketime = UInt32.ofNat (clockAfter s.host s.delivered)) := by
  have hi : Inv s₀.host.lastStepClock s :=
    h.invariant h₀.inv fun _ _ _ hi hl hs => hi.step hl hs
  obtain ⟨htimes, hlast⟩ := hi.moves.queueTimes hi.delivered
  have hlog := hi.times
  rw [← hi.first, htimes] at hlog
  refine ⟨⟨_, hlog⟩, ?_, hi.edge.scheduled.mpr, ?_⟩
  · intro k msg hk
    exact ⟨(clockAfter_of_getElem? hk).symm, (hi.moves k msg hk).2⟩
  · intro hz
    rw [ahead_idle hi.edge hz, List.append_nil] at hlog
    refine ⟨hlog, ?_⟩
    rw [hi.idle hz, ← hlast, ← hlog, hi.first]

/-- A stepper and a compressor that start at clock 1000. -/
def startAt1000 : Joint where
  host := ⟨[], 25, 1000, [], 1, 0, []⟩
  clocks := []
  stepper := { commandConfigStepper (-1) 0 with waketime := 1000, nextStepTime := 1000 }
  delivered := 0
  log := []

/-- Three steps that get faster, the first of them taken while the others are queued, and a step
far in the future. -/
def accelerate : List Action :=
  [.append 1100, .append 1190, .append 1270, .flush ⟨100, 3, -10⟩, .deliver, .fire,
    .far 5000000000, .deliver, .fire, .fire, .fire]

theorem steps_of_run_accelerate :
    ∃ s, Run step Legal startAt1000 accelerate s ∧
      s.log = [1100, 1190, 1270, UInt32.ofNat 5000000000] ∧
      s.stepper.waketime = UInt32.ofNat s.host.lastStepClock := by
  have hstart : Start startAt1000 :=
    ⟨rfl, rfl, rfl, rfl, rfl, rfl, rfl, rfl, commandConfigStepper (-1) 0, rfl⟩
  obtain ⟨s, hs, hp⟩ : ∃ s, Run step Legal startAt1000 accelerate s ∧
      decide (s.stepper.count = 0 ∧ s.log = [1100, 1190, 1270, UInt32.ofNat 5000000000] ∧
        clockAfter s.host s.delivered = s.host.lastStepClock) :=
    Run.exists_of_exec accelerate _ (by decide +kernel)
  obtain ⟨hc, hlog, hclock⟩ := of_decide_eq_true hp
  have hidle := (steps_of_run hstart hs).2.2.2 hc
  rw [hclock] at hidle
  exact ⟨s, hs, hlog, hidle.2⟩

end KlipperMcu.StepClock
