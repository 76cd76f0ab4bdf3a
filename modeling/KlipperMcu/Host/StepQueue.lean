import KlipperMcu.Host.Bisect
import KlipperMcu.Lib.Run

/-!
# The step queue

The interface of stepcompress.c. A step waits in a pending slot, where a step in the other direction
that follows too quickly cancels it. From there it goes to the queue, and `queue_flush` turns queued
steps into `queue_step` commands. A step far in the future is sent in a command of its own. The
clocks have 64 bits and wrap around. The queue is the part of an array between `queue_pos` and
`queue_next`, and the array ends at `queue_end`. The operations are followed with every access to the
array, and to the point where they return an error.
-/

namespace KlipperMcu.StepQueue

open Compress Lib

/-- A step as it is given to `stepcompress_append`. -/
structure Step where
  dir : Bool
  clock : Nat
deriving DecidableEq, Repr

/-- A direction as the source stores it. The value -1 of `sdir` is no direction. -/
def dirInt (dir : Bool) : Int := if dir then 1 else 0

/-- What `msg_queue` is given. -/
inductive Message where
  | queueStep (msg : QueueMessage)
  | setNextStepDir (dir : Bool) (reqClock : Nat)
deriving DecidableEq, Repr

/-- `struct stepcompress`. The storage of the queue is given by the offset of `queue_pos` in it and
its size. The fields after `msgs` are not in the source: all the steps that were appended, those
among them that were not cancelled, those of commands, those in the queue, how many steps were in
the queue at each far step, and the largest value of `last_step_clock`. -/
structure Stepper extends StepCompress where
  nextStepClock : Nat
  nextStepDir : Bool
  invertSdir : Bool
  queueOff : Nat
  queueAlloc : Nat
  msgs : List Message
  appended : List Step
  net : List Step
  emitted : List Step
  queued : List Step
  farQueues : List Nat
  highest : Nat
deriving DecidableEq, Repr

/-- `UINT64_MAX`. -/
def uint64Max : Nat := 2 ^ 64 - 1

/-- The difference of two numbers of 64 bits. -/
def sub64 (a b : Nat) : Nat := if b ≤ a then a - b else 2 ^ 64 - (b - a)

/-- Whether `clock >= last_step_clock + CLOCK_DIFF_MAX`. -/
def Stepper.IsFar (s : Stepper) (clock : Nat) : Prop :=
  (s.lastStepClock + clockDiffMax) % 2 ^ 64 ≤ clock

instance (s : Stepper) (clock : Nat) : Decidable (s.IsFar clock) := Nat.decLe _ _

/-! ### The pointers, as offsets from `queue` -/

def Stepper.queuePos (s : Stepper) : Nat := s.queueOff

def Stepper.queueNext (s : Stepper) : Nat := s.queueOff + s.queue.length

def Stepper.queueEnd (s : Stepper) : Nat := s.queueAlloc

/-- An access to the array: a clock is stored at an offset of an array with `alloc` entries, the steps
in use move to the start, or an array of `alloc` entries is reallocated. -/
inductive Access where
  | store (slot alloc : Nat) (clock : UInt32)
  | memmove (pos inUse : Nat)
  | realloc (alloc : Nat)
deriving DecidableEq, Repr

/-- The state that an operation leaves behind, whether it returned zero, and its accesses. -/
structure Outcome where
  s : Stepper
  ok : Bool := true
  accesses : List Access := []
deriving DecidableEq, Repr

/-- `int ret = x; if (ret) return ret;` and then `f`. -/
def andThen (x : Option Outcome) (f : Stepper → Option Outcome) : Option Outcome :=
  x.bind fun o =>
    if o.ok then (f o.s).map fun o' => { o' with accesses := o.accesses ++ o'.accesses } else some o

/-- A step is stored at `queue_next` of `s`, which gives `s'`. -/
def stored (s s' : Stepper) (st : Step) : Outcome :=
  { s := s', accesses := [.store s.queueNext s.queueEnd (UInt32.ofNat st.clock)] }

/-! ### Operations -/

def addMove (s : Stepper) (firstClock : Nat) (move : StepMove) : Stepper :=
  let lastClock := (firstClock + (moveTicks move).toNat) % 2 ^ 64
  let far := move.count = 1 ∧ s.IsFar firstClock
  let msg : QueueMessage :=
    ⟨move, s.lastStepClock, if far then firstClock else s.lastStepClock⟩
  let stepCount : Int := if s.sdir ≠ 0 then move.count.toNat else -move.count.toNat
  { s with
    msgQueue := s.msgQueue ++ [msg]
    lastStepClock := lastClock
    historyList :=
      ⟨firstClock, lastClock, s.lastPosition, stepCount, move.interval, move.add⟩ :: s.historyList
    lastPosition := s.lastPosition + stepCount
    msgs := s.msgs ++ [.queueStep msg]
    highest := max s.highest lastClock }

/-- Where no clock wraps around this is the command of the clocks without a bound. -/
theorem addMove_toStepCompress {s : Stepper} {firstClock : Nat} {move : StepMove}
    (hlast : s.lastStepClock + clockDiffMax < 2 ^ 64)
    (hclock : firstClock + (moveTicks move).toNat < 2 ^ 64) :
    (addMove s firstClock move).toStepCompress =
      Compress.addMove s.toStepCompress firstClock move := by
  rw [addMove, Compress.addMove]
  simp only [Stepper.IsFar, Nat.mod_eq_of_lt hlast, Nat.mod_eq_of_lt hclock]

/-- A round of the loop of `queue_flush` that sends `move`. When no step is left the queue starts
again at the beginning of its storage. -/
def flushRound (s : Stepper) (move : StepMove) : Stepper :=
  { addMove s ((s.lastStepClock + move.interval.toNat) % 2 ^ 64) move with
    queue := s.queue.drop move.count.toNat
    queueOff := if s.queue.length ≤ move.count.toNat then 0 else s.queueOff + move.count.toNat
    emitted := s.emitted ++ s.queued.take move.count.toNat
    queued := s.queued.drop move.count.toNat }

/-- The loop of `queue_flush`. There is no outcome if the bisection does not end. -/
def flushLoop (rounds moveClock : Nat) : Nat → Stepper → Option Outcome
  | 0, _ => none
  | fuel + 1, s =>
    if moveClock ≤ s.lastStepClock then some { s := s }
    else
      match compressBisectAdd rounds s.toStepCompress with
      | none => none
      | some move =>
        if checkLine s.toStepCompress move = some true then
          if s.queue.length ≤ move.count.toNat then some { s := flushRound s move }
          else flushLoop rounds moveClock fuel (flushRound s move)
        else some { s := s, ok := false }

def queueFlush (rounds : Nat) (s : Stepper) (moveClock : Nat) : Option Outcome :=
  if s.queue = [] then some { s := s } else flushLoop rounds moveClock (s.queue.length + 1) s

/-- The move of a single step. -/
def farMove (s : Stepper) (st : Step) : StepMove :=
  ⟨UInt32.ofNat st.clock - UInt32.ofNat s.lastStepClock, 1, 0⟩

def stepcompressFlushFar (s : Stepper) (st : Step) : Stepper :=
  { addMove s st.clock (farMove s st) with
    emitted := s.emitted ++ [st]
    farQueues := s.farQueues ++ [s.queue.length] }

/-- `*sc->queue_next++ = step_clock`. -/
def push (s : Stepper) (st : Step) : Stepper :=
  { s with queue := s.queue ++ [UInt32.ofNat st.clock], queued := s.queued ++ [st] }

/-- The end of `set_next_step_dir`, after the queue was flushed. -/
def changeDir (s : Stepper) (sdir : Bool) : Stepper :=
  { s with
    sdir := dirInt sdir
    msgs := s.msgs ++ [.setNextStepDir (sdir ^^ s.invertSdir) s.lastStepClock] }

def setNextStepDir (rounds : Nat) (s : Stepper) (sdir : Bool) : Option Outcome :=
  if s.sdir = dirInt sdir then some { s := s }
  else andThen (queueFlush rounds s uint64Max) fun s => some { s := changeDir s sdir }

/-- The pending step. -/
def Stepper.nextStep (s : Stepper) : Step := ⟨s.nextStepDir, s.nextStepClock⟩

/-- The end of `queue_append_far`, after the queue was flushed. The step is stored without a test of
`queue_end`. -/
def appendFar (s : Stepper) (st : Step) : Outcome :=
  if s.IsFar st.clock then { s := stepcompressFlushFar s st } else stored s (push s st) st

/-- `step_clock - CLOCK_DIFF_MAX + 1`. -/
def farFlushClock (stepClock : Nat) : Nat := (sub64 stepClock clockDiffMax + 1) % 2 ^ 64

def queueAppendFar (rounds : Nat) (s : Stepper) : Option Outcome :=
  andThen (queueFlush rounds { s with nextStepClock := 0 } (farFlushClock s.nextStepClock)) fun t =>
    some (appendFar t s.nextStep)

/-- `QUEUE_START_SIZE`. -/
def queueStartSize : Nat := 1024

/-- Doubles the storage until `inUse` steps leave room. -/
def grow (inUse : Nat) : Nat → Nat → Nat
  | 0, alloc => alloc
  | fuel + 1, alloc => if alloc ≤ inUse then grow inUse fuel (alloc * 2) else alloc

/-- The second part of `queue_append_extend`: the queue moves to the start of its storage, or the
storage is expanded. -/
def makeRoom (s : Stepper) : Outcome :=
  if s.queueEnd ≤ s.queueNext then
    if 0 < s.queueOff then
      { s := { s with queueOff := 0 }, accesses := [.memmove s.queueOff s.queue.length] }
    else
      { s := { s with
          queueOff := 0
          queueAlloc := grow s.queue.length (s.queue.length + 1)
            (if s.queueAlloc = 0 then queueStartSize else s.queueAlloc) }
        accesses := [.realloc s.queueAlloc] }
  else { s := s }

/-- The first part of `queue_append_extend`, which keeps the queue short. -/
def flushLong (rounds : Nat) (s : Stepper) : Option Outcome :=
  if 65535 + 2000 < s.queue.length then
    let flush := s.queue.getD (s.queue.length - 65535) 0 - UInt32.ofNat s.lastStepClock
    queueFlush rounds s ((s.lastStepClock + flush.toNat) % 2 ^ 64)
  else some { s := s }

/-- The pending step goes to the end of the queue. -/
def appendPending (s : Stepper) : Stepper := { push s s.nextStep with nextStepClock := 0 }

def queueAppendExtend (rounds : Nat) (s : Stepper) : Option Outcome :=
  andThen (flushLong rounds s) fun s =>
    andThen (some (makeRoom s)) fun s => some (stored s (appendPending s) s.nextStep)

/-- `queue_append` once the direction is set. -/
def appendInDir (rounds : Nat) (s : Stepper) : Option Outcome :=
  if s.IsFar s.nextStepClock then queueAppendFar rounds s
  else if s.queueEnd ≤ s.queueNext then queueAppendExtend rounds s
  else some (stored s (appendPending s) s.nextStep)

def queueAppend (rounds : Nat) (s : Stepper) : Option Outcome :=
  andThen (setNextStepDir rounds s s.nextStepDir) (appendInDir rounds)

/-- The signed 64-bit number congruent to `x`. -/
def toInt64 (x : Int) : Int := (x + 2 ^ 63) % 2 ^ 64 - 2 ^ 63

/-- The pending step is taken back because of `st`. -/
def cancel (s : Stepper) (st : Step) : Stepper :=
  { s with
    nextStepClock := 0
    nextStepDir := st.dir
    appended := s.appended ++ [st]
    net := s.net.dropLast }

/-- `st` becomes the pending step. -/
def store (s : Stepper) (st : Step) : Stepper :=
  { s with
    nextStepClock := st.clock
    nextStepDir := st.dir
    appended := s.appended ++ [st]
    net := s.net ++ [st] }

/-- `stepcompress_append` of a step whose clock is calculated. Here `rapid diff` stands for
`diff < SDS_FILTER_TIME * sc->mcu_freq`, which is a comparison of floating-point numbers. -/
def stepcompressAppend (rounds : Nat) (rapid : Int → Bool) (s : Stepper) (st : Step) :
    Option Outcome :=
  if s.nextStepClock = 0 then some { s := store s st }
  else if st.dir ≠ s.nextStepDir ∧ rapid (toInt64 (st.clock - s.nextStepClock)) = true then
    some { s := cancel s st }
  else andThen (queueAppend rounds s) fun s => some { s := store s st }

def stepcompressCommit (rounds : Nat) (s : Stepper) : Option Outcome :=
  if s.nextStepClock ≠ 0 then queueAppend rounds s else some { s := s }

def stepcompressFlush (rounds : Nat) (s : Stepper) (moveClock : Nat) : Option Outcome :=
  if s.nextStepClock ≠ 0 ∧ s.nextStepClock ≤ moveClock then
    andThen (queueAppend rounds s) fun s => queueFlush rounds s moveClock
  else queueFlush rounds s moveClock

/-- The end of `stepcompress_reset`, after all steps were flushed. -/
def restart (s : Stepper) (lastStepClock : Nat) : Stepper :=
  { s with
    lastStepClock := lastStepClock
    sdir := -1
    highest := max s.highest lastStepClock }

def stepcompressReset (rounds : Nat) (s : Stepper) (lastStepClock : Nat) : Option Outcome :=
  andThen (stepcompressFlush rounds s uint64Max) fun s => some { s := restart s lastStepClock }

inductive Action where
  | append (st : Step)
  | commit
  | flush (moveClock : Nat)
  | reset (lastStepClock : Nat)
deriving DecidableEq, Repr

def operation (rounds : Nat) (rapid : Int → Bool) (s : Stepper) : Action → Option Outcome
  | .append st => stepcompressAppend rounds rapid s st
  | .commit => stepcompressCommit rounds s
  | .flush moveClock => stepcompressFlush rounds s moveClock
  | .reset lastStepClock => stepcompressReset rounds s lastStepClock

def Outcome.toOption (o : Outcome) : Option Stepper := if o.ok then some o.s else none

/-- There is a step only if the operation returns no error. -/
def step (rounds : Nat) (rapid : Int → Bool) (s : Stepper) (a : Action) : Option Stepper :=
  (operation rounds rapid s a).bind Outcome.toOption

/-- The clocks have 64 bits, those of the steps are positive and do not decrease. -/
def Legal (s : Stepper) : Action → Prop
  | .append st => 0 < st.clock ∧ st.clock < 2 ^ 64 ∧ ∀ st' ∈ s.appended, st'.clock ≤ st.clock
  | .commit => True
  | .flush moveClock => moveClock < 2 ^ 64
  | .reset lastStepClock => lastStepClock < 2 ^ 64

instance (s : Stepper) (a : Action) : Decidable (Legal s a) :=
  a.casesOn (fun _ => instDecidableAnd) (isTrue trivial) (fun _ => Nat.decLt _ _)
    (fun _ => Nat.decLt _ _)

/-- `stepcompress_alloc`, `stepcompress_fill` and `stepcompress_set_invert_sdir`. -/
def stepcompressAlloc (maxError : UInt32) (invertSdir : Bool) : Stepper where
  queue := []
  maxError := maxError
  lastStepClock := 0
  msgQueue := []
  sdir := -1
  lastPosition := 0
  historyList := []
  nextStepClock := 0
  nextStepDir := false
  invertSdir := invertSdir
  queueOff := 0
  queueAlloc := 0
  msgs := []
  appended := []
  net := []
  emitted := []
  queued := []
  farQueues := []
  highest := 0

/-! ### Operations without an error -/

/-- The operation returns zero and leaves `s'` behind. -/
def Returns (x : Option Outcome) (s' : Stepper) : Prop := x.bind Outcome.toOption = some s'

lemma returns_some {o : Outcome} {s' : Stepper} (h : Returns (some o) s') : o.s = s' := by
  unfold Returns Outcome.toOption at h
  rw [Option.bind_some] at h
  split at h
  · exact Option.some.inj h
  · cases h

lemma returns_andThen {x : Option Outcome} {f : Stepper → Option Outcome} {s' : Stepper}
    (h : Returns (andThen x f) s') : ∃ t, Returns x t ∧ Returns (f t) s' := by
  cases x with
  | none => cases h
  | some o =>
    obtain ⟨s, ok, accesses⟩ := o
    cases ok with
    | false => cases h
    | true =>
      refine ⟨s, rfl, ?_⟩
      unfold Returns at h ⊢
      change ((f s).map _).bind Outcome.toOption = some s' at h
      rwa [Option.bind_map] at h

/-! ## The reads of a flush

`compress_bisect_add` and `check_line` stay inside the queue, and the loop of `queue_flush` ends.
-/

variable {sc : StepCompress} {move : StepMove} {b : Bisect} {n : Nat}

lemma minmaxPoint_isSome {i : Nat} (hi : i < sc.queue.length) :
    ∃ point, minmaxPoint sc i = some point := by
  have hat : ∀ j < sc.queue.length, ∃ p, pointAt sc j = some p := by
    intro j hj
    rw [pointAt, List.getElem?_eq_getElem hj]
    exact ⟨_, rfl⟩
  have hprev : ∃ p, prevPointAt sc i = some p := by
    rw [prevPointAt]
    split
    · exact ⟨_, rfl⟩
    · exact hat (i - 1) (by omega)
  obtain ⟨p, hp⟩ := hat i hi
  obtain ⟨q, hq⟩ := hprev
  rw [minmaxPoint, hp, hq]
  exact ⟨_, rfl⟩

lemma minmaxPoint_lt {i : Nat} {point : Points} (h : minmaxPoint sc i = some point) :
    i < sc.queue.length := by
  by_contra hi
  rw [minmaxPoint, pointAt, List.getElem?_eq_none (Nat.le_of_not_lt hi)] at h
  cases h

/-- The counts in `b` are those of steps among the first `n`. -/
structure Counts (b : Bisect) (n : Nat) : Prop where
  best : ∃ k ≤ n, b.bestcount = Int32.ofNat k
  zero : ∃ k ≤ n, b.zerocount = Int32.ofNat k

lemma toMove_count_le {k : Nat} (hk : k ≤ n) (interval add : Int32) :
    (toMove interval (Int32.ofNat k) add).count.toNat ≤ n := by
  have hmod : (toMove interval (Int32.ofNat k) add).count.toNat = k % 65536 := by
    simp [toMove]
  rw [hmod]
  exact le_trans (Nat.mod_le _ _) hk

lemma Counts.finish (h : Counts b n) : b.finish.count.toNat ≤ n := by
  obtain ⟨k, hk, hbest⟩ := h.best
  obtain ⟨k', hk', hzero⟩ := h.zero
  rw [Bisect.finish]
  split
  · rw [hzero]
    exact toMove_count_le hk' _ _
  · rw [hbest]
    exact toMove_count_le hk _ _

lemma Counts.record (h : Counts b n) {k : Nat} (hk : k ≤ n) (interval reach : Int32) :
    Counts (b.record interval (Int32.ofNat k) reach) n where
  best := ⟨k, hk, rfl⟩
  zero := by
    rw [Bisect.record]
    split
    · exact ⟨k, hk, rfl⟩
    · exact h.zero

lemma Counts.split (h : Counts b n) (count : Int32) (point : Points) (low high interval : Int32) :
    Counts (b.split count point low high interval) n := by
  rw [Bisect.split]
  split
  · exact ⟨h.best, h.zero⟩
  · exact ⟨h.best, h.zero⟩

lemma Counts.limitDeviation (h : Counts b n) (count : Int32) :
    Counts (b.limitDeviation sc count) n := by
  rw [Bisect.limitDeviation]
  split
  · exact ⟨h.best, h.zero⟩
  · exact h

/-- A move among the first `n` steps, or another round about them. -/
def RoundIn (n : Nat) : Round → Prop
  | .done move => move.count.toNat ≤ n
  | .again b => Counts b n

lemma Counts.conclude (h : Counts b n) {k : Nat} (hk : k ≤ n) (point : Points)
    (low high interval : Int32) :
    RoundIn n (b.conclude sc (Int32.ofNat k) point low high interval) := by
  rw [Bisect.conclude]
  dsimp only
  split
  · exact (h.record hk _ _).finish
  · generalize hb : (if b.better _ interval = true then _ else b) = b'
    have hb' : Counts b' n := by
      rw [← hb]
      split
      · exact h.record hk _ _
      · exact h
    have hlimit : Counts (Bisect.limitDeviation sc _ (Int32.ofNat k)) n :=
      (hb'.split (Int32.ofNat k) point low high interval).limitDeviation (Int32.ofNat k)
    split
    · exact Counts.finish ⟨hlimit.best, hlimit.zero⟩
    · exact ⟨hlimit.best, hlimit.zero⟩

lemma extend_in {add : Int32} {left count : Nat} {low high interval : Int32}
    (h : count + left ≤ sc.queue.length) :
    (∃ interval' k, extend sc add left count low high interval = some (.all interval' k) ∧
      k ≤ count + left) ∨
    ∃ k point low' high' interval', extend sc add left count low high interval =
      some (.stop k point low' high' interval') ∧ k ≤ count + left := by
  induction left generalizing count low high interval with
  | zero => exact Or.inl ⟨interval, count, rfl, le_refl _⟩
  | succ left ih =>
    obtain ⟨point, hpoint⟩ := minmaxPoint_isSome (show count < sc.queue.length by omega)
    rw [extend, hpoint]
    dsimp only
    split
    · exact Or.inr ⟨_, _, _, _, _, rfl, by omega⟩
    · rw [show count + (left + 1) = count + 1 + left by omega]
      apply ih
      omega

lemma Counts.round (h : Counts b n) (hn : n ≤ sc.queue.length) (hpos : 0 < n) :
    ∃ r, b.round sc n = some r ∧ RoundIn n r := by
  rw [Bisect.round]
  rcases extend_in (show 1 + (n - 1) ≤ sc.queue.length by omega) with
    ⟨interval, k, heq, hk⟩ | ⟨k, point, low, high, interval, heq, hk⟩
  · rw [heq]
    exact ⟨_, rfl, toMove_count_le (by omega) _ _⟩
  · rw [heq]
    exact ⟨_, rfl, h.conclude (by omega) _ _ _ _⟩

lemma Counts.loop {rounds : Nat} (h : Counts b n) (hn : n ≤ sc.queue.length) (hpos : 0 < n)
    (hm : Bisect.loop sc n rounds b = some move) : move.count.toNat ≤ n := by
  induction rounds generalizing b with
  | zero => cases hm
  | succ rounds ih =>
    obtain ⟨r, hr, hin⟩ := h.round hn hpos
    rw [Bisect.loop, hr] at hm
    cases r with
    | done move' =>
      cases hm
      exact hin
    | again b' => exact ih hin hm

lemma compressBisectAdd_count_le {rounds : Nat} (h : compressBisectAdd rounds sc = some move) :
    move.count.toNat ≤ sc.queue.length := by
  rw [compressBisectAdd] at h
  split at h
  · cases h
  · rename_i point hpoint
    have hlen := minmaxPoint_lt hpoint
    have hstart : Counts (Bisect.start point) (min sc.queue.length 65535) :=
      ⟨⟨1, by omega, rfl⟩, ⟨0, by omega, rfl⟩⟩
    exact le_trans (hstart.loop (Nat.min_le_left _ _) (by omega) h) (Nat.min_le_left _ _)

lemma checkSteps_in {add : UInt32} {left i : Nat} {interval p : UInt32}
    (h : i + left ≤ sc.queue.length) : checkSteps sc add left i interval p ≠ none := by
  induction left generalizing i interval p with
  | zero => exact Option.some_ne_none _
  | succ left ih =>
    obtain ⟨point, hpoint⟩ := minmaxPoint_isSome (show i < sc.queue.length by omega)
    rw [checkSteps, hpoint]
    dsimp only
    split
    · exact Option.some_ne_none _
    split
    · exact Option.some_ne_none _
    apply ih
    omega

lemma checkSteps_length {add : UInt32} {left i : Nat} {interval p : UInt32}
    (hi : i ≤ sc.queue.length) (h : checkSteps sc add left i interval p = some true) :
    i + left ≤ sc.queue.length := by
  induction left generalizing i interval p with
  | zero => exact hi
  | succ left ih =>
    rw [checkSteps] at h
    split at h
    · cases h
    · rename_i hpoint
      split at h
      · cases h
      split at h
      · cases h
      have hle := ih (minmaxPoint_lt hpoint) h
      omega

lemma checkLine_count (h : checkLine sc move = some true) :
    move.count ≠ 0 ∧ move.count.toNat ≤ sc.queue.length := by
  rw [checkLine] at h
  split at h
  · cases h
  · rename_i hmove
    constructor
    · intro hzero
      exact hmove (Or.inl hzero)
    · simpa using checkSteps_length (Nat.zero_le _) h

/-- A proposed move is accepted or rejected without a read past the end of the queue. -/
theorem checkLine_of_compressBisectAdd {rounds : Nat} (h : compressBisectAdd rounds sc = some move) :
    checkLine sc move ≠ none := by
  rw [checkLine]
  split
  · exact Option.some_ne_none _
  · apply checkSteps_in
    simpa using compressBisectAdd_count_le h

/-- The loop of `queue_flush` sends a step in each round, so that it ends. -/
theorem flushLoop_fuel {rounds moveClock fuel : Nat} {s : Stepper} (h : s.queue.length < fuel) :
    flushLoop rounds moveClock (fuel + 1) s = flushLoop rounds moveClock fuel s := by
  induction fuel generalizing s with
  | zero => exact absurd h (Nat.not_lt_zero _)
  | succ fuel ih =>
    rw [flushLoop, flushLoop]
    split
    · rfl
    split
    · rfl
    split
    · rename_i move _ hcheck
      obtain ⟨hne, hcount⟩ := checkLine_count hcheck
      split
      · rfl
      · apply ih
        have hpos : move.count.toNat ≠ 0 := fun hzero => hne (UInt16.toNat.inj hzero)
        change (s.queue.drop move.count.toNat).length < fuel
        rw [List.length_drop]
        omega
    · rfl

end KlipperMcu.StepQueue
