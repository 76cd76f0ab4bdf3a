import KlipperMcu.Firmware.Sched
import KlipperMcu.Lib.Waveform

/-!
# Messages to a stepper driver

tmcuart.c sends the bits of a message on a line that idles high. Its timer only toggles the line: it
sleeps over bits that equal the current one. A message that begins with a sync nibble starts with
five toggles that measure how late the timer runs.
-/

namespace KlipperMcu.Tmc

open Lib Sched

/-- The callbacks of the timer. -/
inductive Func where
  | read
  | readSync
  | sendFinish
  | send
  | sendSync
deriving DecidableEq, Repr

/-- `struct tmcuart_s` with the flags of its `flags` field, the level of its transmit pin, whether
that pin is an output, and the wake flag of `tmcuart_task`. -/
structure Tmcuart where
  waketime : UInt32
  func : Func
  txPin : Bool
  output : Bool
  lineHigh : Bool
  active : Bool
  readSync : Bool
  report : Bool
  pullup : Bool
  singleWire : Bool
  pos : Nat
  readCount : Nat
  writeCount : Nat
  cfgBitTime : UInt32
  bitTime : UInt32
  data : Nat → UInt8
  wake : Bool

def dataSize : Nat := 10

def tmcuartResetLine (t : Tmcuart) : Tmcuart :=
  { t with
    txPin := true
    output := t.singleWire || t.output
    lineHigh := true
    active := false
    readSync := false
    report := false }

def tmcuartFinalize (t : Tmcuart) : Tmcuart × SchedResult :=
  ({ tmcuartResetLine t with report := true, wake := true }, .done)

def tmcuartReadEvent (t : Tmcuart) (v : Bool) : Tmcuart × SchedResult :=
  let mask : UInt8 := 1 <<< UInt8.ofNat (t.pos &&& 0x07)
  let data := t.data (t.pos >>> 3)
  let data := if v then data ||| mask else data &&& ~~~mask
  let t := { t with data := Function.update t.data (t.pos >>> 3) data }
  let pos := t.pos + 1
  if pos ≥ t.readCount then tmcuartFinalize t
  else ({ t with pos := pos, waketime := t.waketime + t.bitTime }, .reschedule)

/-- `tmcuart_read_sync_event`, which reads the pin again when it begins to read. -/
def tmcuartReadSyncEvent (t : Tmcuart) (v v' : Bool) : Tmcuart × SchedResult :=
  if !v && t.readSync then tmcuartReadEvent { t with pos := 0, func := .read } v'
  else
    let t := { t with readSync := v || t.readSync, pos := t.pos + 1 }
    if t.pos > 64 then tmcuartFinalize { t with readCount := 0 }
    else ({ t with waketime := t.waketime + t.bitTime }, .reschedule)

def tmcuartSendFinishEvent (t : Tmcuart) : Tmcuart × SchedResult :=
  if t.readCount = 0 then tmcuartFinalize t
  else
    ({ t with
      output := !t.singleWire && t.output
      pos := 0
      func := .readSync
      waketime := t.waketime + t.bitTime * 4 }, .reschedule)

/-- The bit of `data` at `pos`. -/
def dataBit (data : Nat → UInt8) (pos : Nat) : Bool :=
  ((data (pos >>> 3)).toNat >>> (pos &&& 0x07)) &&& 0x01 != 0

/-- The loop of `tmcuart_send_event` from `pos` on, with `left` bits left: the position of the next
toggle, if there is one, and the time until then. -/
def nextToggle (data : Nat → UInt8) (lineState : Bool) (bitTime : UInt32) :
    Nat → Nat → UInt32 → Option Nat × UInt32
  | 0, _, next => (none, next)
  | left + 1, pos, next =>
    if dataBit data pos != lineState then (some pos, next)
    else nextToggle data lineState bitTime left (pos + 1) (next + bitTime)

def tmcuartSendEvent (t : Tmcuart) : Tmcuart × SchedResult :=
  let t := { t with txPin := !t.txPin, lineHigh := !t.lineHigh }
  let pos := t.pos + 1
  match nextToggle t.data t.lineHigh t.bitTime (t.writeCount - pos) pos t.bitTime with
  | (none, next) => ({ t with func := .sendFinish, waketime := t.waketime + next }, .reschedule)
  | (some pos, next) => ({ t with pos := pos, waketime := t.waketime + next }, .reschedule)

def divRoundClosest (x divisor : Int32) : Int32 := (x + divisor / 2) / divisor

/-- `tmcuart_send_sync_event` when the timer reads `cur`. -/
def tmcuartSendSyncEvent (t : Tmcuart) (cur : UInt32) : Tmcuart × SchedResult :=
  let t := { t with txPin := !t.txPin, lineHigh := !t.lineHigh, pos := t.pos + 1 }
  let offset := cur - t.waketime
  if t.pos = 1 then
    ({ t with bitTime := offset, waketime := t.waketime + t.cfgBitTime }, .reschedule)
  else if t.pos ≥ 5 then
    let diff := offset - t.bitTime
    let bitTime := t.cfgBitTime + (divRoundClosest diff.toInt32 4).toUInt32
    ({ t with
      bitTime := bitTime
      func := .send
      waketime := t.waketime + (diff + bitTime) }, .reschedule)
  else ({ t with waketime := t.waketime + t.cfgBitTime }, .reschedule)

/-- The object with the message that it is to send. -/
def tmcuartLoad (t : Tmcuart) (write : List UInt8) (readLen : UInt8) : Tmcuart :=
  { t with
    data := fun i => write.getD i (t.data i)
    pos := 0
    active := true
    readSync := false
    report := false
    writeCount := write.length * 8
    readCount := readLen.toNat * 8 }

/-- `command_tmcuart_send` when the timer reads `cur`. It shuts down when the data is too large, and
drops a request while the line is busy. -/
def commandTmcuartSend (t : Tmcuart) (write : List UInt8) (readLen : UInt8) (cur : UInt32) :
    Option Tmcuart :=
  if t.active then some t
  else if write.length > dataSize ∨ readLen.toNat > dataSize then none
  else
    let t := tmcuartLoad t write readLen
    let t :=
      if write.length ≥ 1 ∧ t.data 0 &&& 0x3f = 0x2a then { t with func := .sendSync }
      else { t with bitTime := t.cfgBitTime, func := .send }
    some { t with waketime := cur + timerFromUs 200 }

/-- The callback of the timer, when the timer reads `cur` and the receive pin `v` and `v'`. -/
def tmcuartEvent (t : Tmcuart) (cur : UInt32) (v v' : Bool) : Tmcuart × SchedResult :=
  match t.func with
  | .read => tmcuartReadEvent t v
  | .readSync => tmcuartReadSyncEvent t v v'
  | .sendFinish => tmcuartSendFinishEvent t
  | .send => tmcuartSendEvent t
  | .sendSync => tmcuartSendSyncEvent t cur

/-- The object with its line over time. The timer is due at `due`, whose low 32 bits are its
`waketime`. -/
structure Line where
  t : Tmcuart
  scheduled : Bool
  due : Nat
  level : Nat → Bool

/-- The timer fires exactly when it is due. -/
def fire (rx : Nat → Bool × Bool) (l : Line) : Line :=
  if l.scheduled then
    let (v, v') := rx l.due
    let (t, result) := tmcuartEvent l.t l.t.waketime v v'
    { t := t
      scheduled := decide (result = .reschedule)
      due := l.due + (t.waketime - l.t.waketime).toNat
      level := drive l.level l.due t.txPin }
  else l

/-- Bit `k` of a message, least significant bit first. -/
def writeBit (write : List UInt8) (k : Nat) : Bool := (write.getD (k / 8) 0).toNat.testBit (k % 8)

/-- A run of equal bits is over within the range of the clock. -/
def RunsFit (write : List UInt8) (bitTime : Nat) : Prop :=
  ∀ k n, k + n ≤ write.length * 8 → (∀ i < n, writeBit write (k + i) = writeBit write k) →
    n * bitTime < 2 ^ 32

/-- The timer toggles the line. -/
def Sending (t : Tmcuart) : Prop := (t.func = .send ∨ t.func = .sendSync) ∧ t.output = true

section Steps

variable {rx : Nat → Bool × Bool} {write : List UInt8} {b : UInt32} {start p : Nat} {l : Line}
  {data : Nat → UInt8} {lineState : Bool}

lemma fire_eq (hs : l.scheduled = true) {t : Tmcuart}
    (ht : ∀ v v', tmcuartEvent l.t l.t.waketime v v' = (t, .reschedule)) :
    fire rx l =
      { t := t
        scheduled := true
        due := l.due + (t.waketime - l.t.waketime).toNat
        level := drive l.level l.due t.txPin } := by
  unfold fire
  rw [if_pos hs]
  dsimp only
  rw [ht]
  rfl

lemma nextToggle_spec (data : Nat → UInt8) (lineState : Bool) (b : UInt32) (left pos : Nat)
    (next : UInt32) :
    ∃ m ≤ left, (∀ i < m, dataBit data (pos + i) = lineState) ∧
      (nextToggle data lineState b left pos next).2.toNat =
        (next.toNat + m * b.toNat) % 2 ^ 32 ∧
      ((nextToggle data lineState b left pos next).1 = none ∧ m = left ∨
        (nextToggle data lineState b left pos next).1 = some (pos + m) ∧ m < left ∧
          dataBit data (pos + m) = !lineState) := by
  induction left generalizing pos next with
  | zero =>
    refine ⟨0, Nat.le_refl 0, fun i hi => absurd hi (Nat.not_lt_zero i), ?_, Or.inl ⟨rfl, rfl⟩⟩
    rw [Nat.zero_mul, Nat.add_zero, Nat.mod_eq_of_lt next.toNat_lt]
    rfl
  | succ left ih =>
    rw [nextToggle]
    split
    · rename_i hbit
      refine ⟨0, Nat.zero_le _, fun i hi => absurd hi (Nat.not_lt_zero i), ?_,
        Or.inr ⟨rfl, Nat.succ_pos _, ?_⟩⟩
      · rw [Nat.zero_mul, Nat.add_zero, Nat.mod_eq_of_lt next.toNat_lt]
      · simpa [Bool.eq_not] using hbit
    · rename_i hbit
      have hbit : dataBit data pos = lineState := by simpa using hbit
      obtain ⟨m, hm, hsame, hnext, hend⟩ := ih (pos + 1) (next + b)
      refine ⟨m + 1, Nat.succ_le_succ hm, ?_, ?_, ?_⟩
      · intro i hi
        cases i with
        | zero => exact hbit
        | succ i =>
          rw [Nat.add_comm i 1, ← Nat.add_assoc]
          exact hsame i (Nat.lt_of_succ_lt_succ hi)
      · rw [hnext, UInt32.toNat_add, Nat.succ_mul]
        omega
      · rw [Nat.add_assoc, Nat.add_comm 1 m] at hend
        obtain ⟨hnone, rfl⟩ | ⟨hsome, hlt, hdiff⟩ := hend
        · exact Or.inl ⟨hnone, rfl⟩
        · exact Or.inr ⟨hsome, Nat.succ_lt_succ hlt, hdiff⟩

/-- The timer is due at the beginning of bit `p`, and the bits before it are on the line. -/
structure Progress (write : List UInt8) (b : UInt32) (start : Nat) (l : Line) (p : Nat) :
    Prop where
  scheduled : l.scheduled = true
  due : l.due = start + p * b.toNat
  shows : Shows (writeBit write) start b.toNat p l.level
  bits : ∀ k < write.length * 8, dataBit l.t.data k = writeBit write k
  count : l.t.writeCount = write.length * 8
  output : l.t.output = true

/-- The line has to be toggled for bit `p`. -/
structure Toggles (write : List UInt8) (b : UInt32) (start : Nat) (l : Line) (p : Nat) : Prop
    extends Progress write b start l p where
  pos : l.t.pos = p
  lt : p < write.length * 8
  line : l.t.lineHigh = l.t.txPin
  differs : l.t.txPin = !writeBit write p

/-- A toggle shows the bits up to `q` when they are equal and `q` is the time of the next event. -/
lemma Toggles.progress (h : Toggles write b start l p) {t : Tmcuart} {q : Nat} (hpq : p < q)
    (htx : t.txPin = !l.t.txPin) (hdata : t.data = l.t.data)
    (hcount : t.writeCount = l.t.writeCount) (houtput : t.output = l.t.output)
    (hsame : ∀ k, p ≤ k → k < q → writeBit write k = writeBit write p)
    (hdue : (t.waketime - l.t.waketime).toNat = (q - p) * b.toNat) :
    Progress write b start
      { t := t
        scheduled := true
        due := l.due + (t.waketime - l.t.waketime).toNat
        level := drive l.level l.due t.txPin } q where
  scheduled := rfl
  due := by
    dsimp only
    rw [hdue, h.due, Nat.add_assoc, ← Nat.add_mul, Nat.add_sub_cancel' (Nat.le_of_lt hpq)]
  shows := by
    have htx : t.txPin = writeBit write p := by rw [htx, h.differs, Bool.not_not]
    dsimp only
    rw [h.due, htx]
    exact h.shows.drive hsame
  bits := hdata ▸ h.bits
  count := hcount.trans h.count
  output := houtput.trans h.output

/-- The message is on the line when the finish event is due. -/
structure Finished (write : List UInt8) (b : UInt32) (start : Nat) (l : Line) : Prop
    extends Progress write b start l (write.length * 8) where
  func : l.t.func = .sendFinish

structure Sends (write : List UInt8) (b : UInt32) (start : Nat) (l : Line) (p : Nat) : Prop
    extends Toggles write b start l p where
  func : l.t.func = .send
  bitTime : l.t.bitTime = b

/-- The object after `tmcuart_send_event`, from the outcome of its loop. -/
def toggled (t : Tmcuart) (next : Option Nat × UInt32) : Tmcuart :=
  { t with
    txPin := !t.txPin
    lineHigh := !t.lineHigh
    pos := next.1.getD t.pos
    func := if next.1.isSome then t.func else .sendFinish
    waketime := t.waketime + next.2 }

lemma tmcuartSendEvent_eq (t : Tmcuart) :
    tmcuartSendEvent t =
      (toggled t (nextToggle t.data (!t.lineHigh) t.bitTime (t.writeCount - (t.pos + 1)) (t.pos + 1)
        t.bitTime), .reschedule) := by
  unfold tmcuartSendEvent
  dsimp only
  split
  · rename_i next hnext
    rw [hnext]
    rfl
  · rename_i pos next hnext
    rw [hnext]
    rfl

lemma Sends.nextToggle (hfit : RunsFit write b.toNat) (h : Sends write b start l p) :
    ∃ q next, tmcuartSendEvent l.t = (toggled l.t next, .reschedule) ∧ p < q ∧
      (∀ k, p ≤ k → k < q → writeBit write k = writeBit write p) ∧
      next.2.toNat = (q - p) * b.toNat ∧
      (next.1 = none ∧ q = write.length * 8 ∨
        next.1 = some q ∧ q < write.length * 8 ∧ writeBit write q = !writeBit write p) := by
  have hline : (!l.t.lineHigh) = writeBit write p := by rw [h.line, h.differs, Bool.not_not]
  have hlt := h.lt
  have hevent := tmcuartSendEvent_eq l.t
  rw [hline, h.bitTime, h.count, h.pos] at hevent
  obtain ⟨m, hm, hsame, hnext, hend⟩ := nextToggle_spec l.t.data (writeBit write p) b
    (write.length * 8 - (p + 1)) (p + 1) b
  have hequal : ∀ k, p ≤ k → k < p + 1 + m → writeBit write k = writeBit write p := by
    intro k hle hk
    obtain rfl | hne := Nat.eq_or_lt_of_le hle
    · rfl
    · obtain ⟨i, rfl⟩ := Nat.exists_eq_add_of_le hne
      rw [← h.bits _ (by omega)]
      exact hsame i (by omega)
  refine ⟨p + 1 + m, _, hevent, by omega, hequal, ?_, ?_⟩
  · have hrun := hfit p (m + 1) (by omega) fun i hi => hequal _ (by omega) (by omega)
    have hcount : p + 1 + m - p = m + 1 := by omega
    rw [hnext, hcount, Nat.add_comm, ← Nat.succ_mul]
    exact Nat.mod_eq_of_lt hrun
  · obtain ⟨hnone, rfl⟩ | ⟨hsome, hlt', hdiff⟩ := hend
    · exact Or.inl ⟨hnone, by omega⟩
    · refine Or.inr ⟨hsome, by omega, ?_⟩
      rw [← h.bits _ (by omega)]
      exact hdiff

lemma Sends.fire (rx : Nat → Bool × Bool) (hfit : RunsFit write b.toNat)
    (h : Sends write b start l p) :
    Finished write b start (fire rx l) ∨ ∃ q > p, Sends write b start (fire rx l) q := by
  obtain ⟨q, next, hevent, hpq, hequal, hticks, hend⟩ := h.nextToggle hfit
  have hfire : ∀ v v', tmcuartEvent l.t l.t.waketime v v' = (toggled l.t next, .reschedule) := by
    intro v v'
    rw [tmcuartEvent, h.func]
    exact hevent
  have hwake : ((toggled l.t next).waketime - l.t.waketime).toNat = (q - p) * b.toNat := by
    rw [← hticks]
    exact congrArg UInt32.toNat (add_sub_self _ _)
  rw [fire_eq h.scheduled hfire]
  have hprogress := h.toToggles.progress (t := toggled l.t next) hpq rfl rfl rfl rfl hequal hwake
  obtain ⟨hnone, rfl⟩ | ⟨hsome, hlt, hdiff⟩ := hend
  · refine Or.inl ⟨hprogress, ?_⟩
    simp [toggled, hnone]
  · refine Or.inr ⟨q, hpq, ⟨hprogress, ?_, hlt, ?_, ?_⟩, ?_, h.bitTime⟩
    · simp [toggled, hsome]
    · simp [toggled, h.line]
    · simp [toggled, h.differs, hdiff]
    · simp [toggled, hsome, h.func]

/-- The timer toggles the line until the finish event is due. -/
def Reaches (rx : Nat → Bool × Bool) (write : List UInt8) (b : UInt32) (start : Nat) (l : Line) :
    Prop :=
  ∃ n, (∀ i < n, Sending ((fire rx)^[i] l).t) ∧ Finished write b start ((fire rx)^[n] l)

lemma Finished.reaches (h : Finished write b start l) : Reaches rx write b start l :=
  ⟨0, fun i hi => absurd hi (Nat.not_lt_zero i), h⟩

lemma Reaches.of_fire (hs : Sending l.t) (h : Reaches rx write b start (fire rx l)) :
    Reaches rx write b start l := by
  obtain ⟨n, hsending, hfinished⟩ := h
  refine ⟨n + 1, ?_, hfinished⟩
  intro i hi
  cases i with
  | zero => exact hs
  | succ i => exact hsending i (Nat.lt_of_succ_lt_succ hi)

lemma Sends.reaches (hfit : RunsFit write b.toNat) (h : Sends write b start l p) :
    Reaches rx write b start l := by
  induction hleft : write.length * 8 - p using Nat.strong_induction_on generalizing l p with
  | _ left ih =>
    apply Reaches.of_fire ⟨Or.inl h.func, h.output⟩
    obtain hfinished | ⟨q, hpq, hq⟩ := h.fire rx hfit
    · exact hfinished.reaches
    · have hlt := h.lt
      exact ih _ (by omega) hq rfl

/-- The first bits of the message are those of the sync nibble. -/
structure Syncs (write : List UInt8) (b : UInt32) (start : Nat) (l : Line) (p : Nat) : Prop
    extends Toggles write b start l p where
  func : l.t.func = .sendSync
  cfgBitTime : l.t.cfgBitTime = b
  bitTime : p ≠ 0 → l.t.bitTime = 0
  nibble : ∀ k ≤ 5, writeBit write k = decide (k % 2 = 1)
  le : p ≤ 4

lemma Toggles.next (h : Toggles write b start l p) {t : Tmcuart} (htx : t.txPin = !l.t.txPin)
    (hline : t.lineHigh = !l.t.lineHigh) (hpos : t.pos = l.t.pos + 1) (hdata : t.data = l.t.data)
    (hcount : t.writeCount = l.t.writeCount) (houtput : t.output = l.t.output)
    (hwake : t.waketime = l.t.waketime + b) (hlt : p + 1 < write.length * 8)
    (hdiff : writeBit write (p + 1) = !writeBit write p) :
    Toggles write b start
      { t := t
        scheduled := true
        due := l.due + (t.waketime - l.t.waketime).toNat
        level := drive l.level l.due t.txPin } (p + 1) := by
  have hsame : ∀ k, p ≤ k → k < p + 1 → writeBit write k = writeBit write p := by
    intro k hle hk
    rw [Nat.le_antisymm (Nat.le_of_lt_succ hk) hle]
  have hticks : (t.waketime - l.t.waketime).toNat = (p + 1 - p) * b.toNat := by
    rw [hwake, add_sub_self, Nat.add_sub_cancel_left, Nat.one_mul]
  refine ⟨h.progress (Nat.lt_succ_self p) htx hdata hcount houtput hsame hticks, ?_, hlt, ?_, ?_⟩
  · rw [← h.pos]
    exact hpos
  · exact hline.trans (h.line ▸ htx.symm)
  · rw [hdiff, ← h.differs]
    exact htx

/-- The object after `tmcuart_send_sync_event` on time. -/
def synced (t : Tmcuart) : Tmcuart :=
  { t with
    txPin := !t.txPin
    lineHigh := !t.lineHigh
    pos := t.pos + 1
    bitTime := if t.pos ≥ 4 then t.cfgBitTime else 0
    func := if t.pos ≥ 4 then .send else t.func
    waketime := t.waketime + t.cfgBitTime }

lemma tmcuartSendSyncEvent_eq {t : Tmcuart} (h : t.pos ≠ 0 → t.bitTime = 0) :
    tmcuartSendSyncEvent t t.waketime = (synced t, .reschedule) := by
  have hround : (divRoundClosest (0 : UInt32).toInt32 4).toUInt32 = 0 := by decide
  unfold tmcuartSendSyncEvent synced
  dsimp only
  rw [UInt32.sub_self]
  by_cases hzero : t.pos = 0
  · rw [hzero, if_pos rfl, if_neg (by decide), if_neg (by decide)]
  · rw [if_neg (by omega), h hzero, UInt32.sub_zero, hround, UInt32.add_zero, UInt32.zero_add]
    by_cases hlast : t.pos ≥ 4
    · rw [if_pos (by omega), if_pos hlast, if_pos hlast]
    · rw [if_neg (by omega), if_neg hlast, if_neg hlast, ← h hzero]

lemma Syncs.fire (rx : Nat → Bool × Bool) (h : Syncs write b start l p) :
    Syncs write b start (fire rx l) (p + 1) ∨ Sends write b start (fire rx l) 5 := by
  have hlt := h.lt
  have hle := h.le
  have hdiff : writeBit write (p + 1) = !writeBit write p := by
    rw [h.nibble (p + 1) (by omega), h.nibble p (by omega)]
    obtain hmod | hmod := Nat.mod_two_eq_zero_or_one p
    · simp [Nat.add_mod, hmod]
    · simp [Nat.add_mod, hmod]
  have hevent : ∀ v v', tmcuartEvent l.t l.t.waketime v v' = (synced l.t, .reschedule) := by
    intro v v'
    rw [tmcuartEvent, h.func]
    exact tmcuartSendSyncEvent_eq fun hne => h.bitTime (h.pos ▸ hne)
  rw [fire_eq h.scheduled hevent]
  have htoggles := h.toToggles.next (t := synced l.t) rfl rfl rfl rfl rfl rfl
    (by rw [← h.cfgBitTime]; rfl) (by omega) hdiff
  obtain rfl | hlt' := Nat.eq_or_lt_of_le hle
  · refine Or.inr ⟨htoggles, ?_, ?_⟩
    · simp [synced, h.pos]
    · simp [synced, h.pos, h.cfgBitTime]
  · have hpos : ¬ l.t.pos ≥ 4 := by
      rw [h.pos]
      omega
    refine Or.inl ⟨htoggles, ?_, h.cfgBitTime, fun _ => if_neg hpos, h.nibble, hlt'⟩
    exact (if_neg hpos).trans h.func

lemma Syncs.reaches (hfit : RunsFit write b.toNat) (h : Syncs write b start l p) :
    Reaches rx write b start l := by
  induction hleft : 4 - p generalizing l p with
  | zero =>
    apply Reaches.of_fire ⟨Or.inr h.func, h.output⟩
    obtain hsyncs | hsends := h.fire rx
    · have hle := hsyncs.le
      omega
    · exact hsends.reaches hfit
  | succ left ih =>
    apply Reaches.of_fire ⟨Or.inr h.func, h.output⟩
    obtain hsyncs | hsends := h.fire rx
    · exact ih hsyncs (by omega)
    · exact hsends.reaches hfit

lemma getD_eq (data : Nat → UInt8) {i : Nat} (hi : i < write.length) :
    write.getD i (data i) = write.getD i 0 := by
  simp [List.getD_eq_getElem?_getD, hi]

lemma dataBit_getD {k : Nat} (hk : k < write.length * 8) :
    dataBit (fun i => write.getD i (data i)) k = writeBit write k := by
  have hbyte : k / 8 < write.length := by omega
  have hshift : k >>> 3 = k / 8 := Nat.shiftRight_eq_div_pow k 3
  have hpos : k &&& 0x07 = k % 8 := Nat.and_two_pow_sub_one_eq_mod k 3
  unfold dataBit writeBit
  rw [hshift, hpos, Nat.testBit, Nat.and_comm 1]
  dsimp only
  rw [getD_eq data hbyte]

lemma writeBit_sync (h : write.getD 0 0 &&& 0x3f = 0x2a) {k : Nat} (hk : k ≤ 5) :
    writeBit write k = decide (k % 2 = 1) := by
  have hconst : ∀ k : Fin 6, (0x3f : UInt8).toNat.testBit k = true ∧
      (0x2a : UInt8).toNat.testBit k = decide (k.val % 2 = 1) := by decide
  obtain ⟨hmask, hnibble⟩ := hconst ⟨k, by omega⟩
  have hdiv : k / 8 = 0 := by omega
  have hmod : k % 8 = k := by omega
  unfold writeBit
  rw [hdiv, hmod, ← hnibble, ← h, UInt8.toNat_and, Nat.testBit_and, hmask, Bool.and_true]

lemma runsFit_of_lt {bitTime : Nat} (h : write.length * 8 * bitTime < 2 ^ 32) :
    RunsFit write bitTime := by
  intro k n hn _
  apply Nat.lt_of_le_of_lt _ h
  exact Nat.mul_le_mul_right _ (by omega)

end Steps

/-- An idle line is high. -/
structure Idle (t : Tmcuart) : Prop where
  active : t.active = false
  lineHigh : t.lineHigh = true
  txPin : t.txPin = true
  output : t.output = true

lemma commandTmcuartSend_starts {t : Tmcuart} {write : List UInt8} {readLen : UInt8}
    (cur : UInt32) (start : Nat) (level : Nat → Bool) (hidle : Idle t) (hpos : 0 < write.length)
    (hlen : write.length ≤ 10) (hread : readLen.toNat ≤ 10) (hfirst : writeBit write 0 = false) :
    ∃ t', commandTmcuartSend t write readLen cur = some t' ∧
      (Syncs write t.cfgBitTime start ⟨t', true, start, level⟩ 0 ∨
        Sends write t.cfgBitTime start ⟨t', true, start, level⟩ 0) := by
  have hsize : ¬ (write.length > dataSize ∨ readLen.toNat > dataSize) := by
    unfold dataSize
    omega
  have hactive : ¬ t.active = true := by simp [hidle.active]
  have hline : t.lineHigh = t.txPin := hidle.lineHigh.trans hidle.txPin.symm
  have htx : t.txPin = !writeBit write 0 := by rw [hidle.txPin, hfirst, Bool.not_false]
  have hdue : start = start + 0 * t.cfgBitTime.toNat := by rw [Nat.zero_mul, Nat.add_zero]
  have htoggles : ∀ func bitTime waketime, Toggles write t.cfgBitTime start
      ⟨{ tmcuartLoad t write readLen with
        func := func, bitTime := bitTime, waketime := waketime }, true, start, level⟩
      0 := fun _ _ _ =>
    ⟨⟨rfl, hdue, shows_zero, fun k hk => dataBit_getD hk, rfl, hidle.output⟩, rfl, by omega, hline,
      htx⟩
  unfold commandTmcuartSend
  rw [if_neg hactive, if_neg hsize]
  generalize cur + timerFromUs 200 = waketime
  dsimp only
  by_cases hsync : write.length ≥ 1 ∧ (tmcuartLoad t write readLen).data 0 &&& 0x3f = 0x2a
  · rw [if_pos hsync]
    refine ⟨_, rfl, Or.inl ?_⟩
    have hbyte : write.getD 0 0 &&& 0x3f = 0x2a := by
      rw [← getD_eq t.data hpos]
      exact hsync.2
    exact ⟨htoggles _ _ _, rfl, rfl, fun hne => absurd rfl hne, fun k hk => writeBit_sync hbyte hk,
      by omega⟩
  · rw [if_neg hsync]
    exact ⟨_, rfl, Or.inr ⟨htoggles _ _ _, rfl, rfl⟩⟩

/-- The line shows each bit of the message for `bit_time`, and the finish event is due at the end of
the last one. -/
theorem tmcuartSend_shows (rx : Nat → Bool × Bool) {t : Tmcuart} {write : List UInt8}
    {readLen : UInt8} {now : Nat} {level : Nat → Bool} (hidle : Idle t) (hpos : 0 < write.length)
    (hlen : write.length ≤ 10) (hread : readLen.toNat ≤ 10) (hfirst : writeBit write 0 = false)
    (hfit : RunsFit write t.cfgBitTime.toNat) :
    ∃ t', commandTmcuartSend t write readLen (UInt32.ofNat now) = some t' ∧ ∃ n,
      let start := now + (timerFromUs 200).toNat
      let line := fun i => (fire rx)^[i] ⟨t', true, start, level⟩
      (∀ i < n, Sending (line i).t) ∧ (line n).scheduled = true ∧
        (line n).t.func = .sendFinish ∧
        (line n).due = start + write.length * 8 * t.cfgBitTime.toNat ∧
        Shows (writeBit write) start t.cfgBitTime.toNat (write.length * 8) (line n).level := by
  obtain ⟨t', hsend, hstart⟩ := commandTmcuartSend_starts (UInt32.ofNat now)
    (now + (timerFromUs 200).toNat) level hidle hpos hlen hread hfirst
  have hreaches : Reaches rx write t.cfgBitTime (now + (timerFromUs 200).toNat)
      ⟨t', true, now + (timerFromUs 200).toNat, level⟩ := by
    obtain hsyncs | hsends := hstart
    · exact hsyncs.reaches hfit
    · exact hsends.reaches hfit
  obtain ⟨n, hsending, hfinished⟩ := hreaches
  exact ⟨t', hsend, n, hsending, hfinished.scheduled, hfinished.func, hfinished.due,
    hfinished.shows⟩

/-- An idle object for a bit time. -/
def idleLine (cfgBitTime : UInt32) : Tmcuart where
  waketime := 0
  func := .send
  txPin := true
  output := true
  lineHigh := true
  active := false
  readSync := false
  report := false
  pullup := false
  singleWire := false
  pos := 0
  readCount := 0
  writeCount := 0
  cfgBitTime := cfgBitTime
  bitTime := 0
  data := fun _ => 0
  wake := false

lemma idle_idleLine (cfgBitTime : UInt32) : Idle (idleLine cfgBitTime) := ⟨rfl, rfl, rfl, rfl⟩

/-- The request for register 0 of the driver at address 0. -/
def readRequest : List UInt8 := [0xea, 0x03, 0x08, 0xa0, 0x87]

theorem tmcuartSend_shows_readRequest :
    ∃ t', commandTmcuartSend (idleLine 3200) readRequest 10 (UInt32.ofNat 1000) = some t' ∧ ∃ n,
      let start := 1000 + (timerFromUs 200).toNat
      let line := fun i => (fire fun _ => (true, true))^[i] ⟨t', true, start, fun _ => true⟩
      (∀ i < n, Sending (line i).t) ∧ (line n).scheduled = true ∧
        (line n).t.func = .sendFinish ∧ (line n).due = start + readRequest.length * 8 * 3200 ∧
        Shows (writeBit readRequest) start 3200 (readRequest.length * 8) (line n).level :=
  tmcuartSend_shows _ (idle_idleLine 3200) (by decide) (by decide) (by decide) (by decide)
    (runsFit_of_lt (by decide))

/-- Eight equal bits of `2 ^ 31` ticks take a multiple of the range of the clock. The message ends
when it begins. -/
theorem tmcuartSend_wraps :
    ∃ t', commandTmcuartSend (idleLine 0x80000000) [0] 0 (UInt32.ofNat 1000) = some t' ∧
      let start := 1000 + (timerFromUs 200).toNat
      let line := fun i => (fire fun _ => (true, true))^[i] ⟨t', true, start, fun _ => true⟩
      (line 1).t.func = .sendFinish ∧ (line 1).due = start ∧
        writeBit [0] 0 = false ∧ (line 2).level start = true := by
  refine ⟨_, rfl, ?_⟩
  decide +kernel

end KlipperMcu.Tmc
