import KlipperMcu.Firmware.TmcUart

/-!
# Responses of a stepper driver

Behind a request tmcuart.c reads the receive line once per bit time. The first low level after a
high one belongs to the start bit of the response, and from there on each bit of the response is
read once, at the same place in each. Where this place is depends on when the driver answers. A line
that stays as it is for 65 reads ends the transaction without data.
-/

namespace KlipperMcu.Tmc

open Lib Sched

/-- `tmcuart_task` for one object: the bytes of its report. -/
def tmcuartTask (t : Tmcuart) : Tmcuart × Option (List UInt8) :=
  if !t.wake then (t, none)
  else
    let t := { t with wake := false }
    if !t.report then (t, none)
    else ({ t with report := false }, some ((List.range (t.readCount / 8)).map t.data))

/-! ### Bits of the buffer -/

section Bits

lemma dataBit_eq_testBit (data : Nat → UInt8) (k : Nat) :
    dataBit data k = (data (k / 8)).toNat.testBit (k % 8) := by
  have hshift : k >>> 3 = k / 8 := Nat.shiftRight_eq_div_pow k 3
  have hpos : k &&& 0x07 = k % 8 := Nat.and_two_pow_sub_one_eq_mod k 3
  unfold dataBit
  rw [hshift, hpos, Nat.testBit, Nat.and_comm 1]

/-- The byte `data` with `v` in place of its bit `pos`, as `tmcuart_read_event` computes it. -/
def storeBit (data : UInt8) (pos : Nat) (v : Bool) : UInt8 :=
  let mask : UInt8 := 1 <<< UInt8.ofNat (pos &&& 0x07)
  if v then data ||| mask else data &&& ~~~mask

lemma testBit_storeBit (data : UInt8) (pos : Nat) (v : Bool) {j : Nat} (hj : j < 8) :
    (storeBit data pos v).toNat.testBit j =
      if j = pos % 8 then v else data.toNat.testBit j := by
  have hmask : ∀ p : Fin 8, ((1 : UInt8) <<< UInt8.ofNat p).toNat = 2 ^ p.val := by decide
  have hnot : ∀ p : Fin 8,
      (~~~((1 : UInt8) <<< UInt8.ofNat p)).toNat = 2 ^ 8 - (2 ^ p.val + 1) := by decide
  have hpos : pos &&& 0x07 = pos % 8 := Nat.and_two_pow_sub_one_eq_mod pos 3
  have hlt : pos % 8 < 8 := Nat.mod_lt pos (by decide)
  unfold storeBit
  dsimp only
  rw [hpos]
  cases v with
  | true =>
    rw [if_pos rfl, UInt8.toNat_or, Nat.testBit_or, hmask ⟨pos % 8, hlt⟩, Nat.testBit_two_pow]
    by_cases h : j = pos % 8
    · simp [h]
    · simp [h, Ne.symm h]
  | false =>
    have hpow : 2 ^ (pos % 8) < 2 ^ 8 := Nat.pow_lt_pow_right (by decide) hlt
    rw [if_neg Bool.false_ne_true, UInt8.toNat_and, Nat.testBit_and, hnot ⟨pos % 8, hlt⟩,
      Nat.testBit_two_pow_sub_succ hpow, Nat.testBit_two_pow]
    by_cases h : j = pos % 8
    · simp [h]
    · simp [h, Ne.symm h, hj]

lemma dataBit_update (data : Nat → UInt8) (pos : Nat) (v : Bool) (k : Nat) :
    dataBit (Function.update data (pos >>> 3) (storeBit (data (pos >>> 3)) pos v)) k =
      if k = pos then v else dataBit data k := by
  have hshift : pos >>> 3 = pos / 8 := Nat.shiftRight_eq_div_pow pos 3
  rw [dataBit_eq_testBit, dataBit_eq_testBit, hshift]
  by_cases hbyte : k / 8 = pos / 8
  · rw [hbyte, Function.update_self, testBit_storeBit _ _ _ (Nat.mod_lt k (by decide))]
    congr 1
    apply propext
    omega
  · have hne : k ≠ pos := by
      rintro rfl
      exact hbyte rfl
    rw [Function.update_of_ne hbyte, if_neg hne]

lemma map_data_eq {data : Nat → UInt8} {msg : List UInt8}
    (h : ∀ k < msg.length * 8, dataBit data k = writeBit msg k) :
    (List.range msg.length).map data = msg := by
  apply List.ext_getElem
  · simp
  · intro i hi hi'
    rw [List.getElem_map, List.getElem_range]
    apply UInt8.toNat_inj.mp
    apply Nat.eq_of_testBit_eq
    intro j
    by_cases hj : j < 8
    · have hbit := h (i * 8 + j) (by omega)
      have hdiv : (i * 8 + j) / 8 = i := by omega
      have hmod : (i * 8 + j) % 8 = j := by omega
      rw [dataBit_eq_testBit, writeBit, hdiv, hmod] at hbit
      rw [hbit, List.getD_eq_getElem?_getD, List.getElem?_eq_getElem hi', Option.getD_some]
    · have hpow : 2 ^ 8 ≤ 2 ^ j := Nat.pow_le_pow_right (by decide) (Nat.not_lt.mp hj)
      rw [Nat.testBit_lt_two_pow (Nat.lt_of_lt_of_le (UInt8.toNat_lt _) hpow),
        Nat.testBit_lt_two_pow (Nat.lt_of_lt_of_le (UInt8.toNat_lt _) hpow)]

end Bits

/-! ### Reading -/

section Reading

variable {rx : Nat → Bool × Bool} {bit : Nat → Bool} {b : UInt32} {first p count : Nat} {l : Line}

lemma tmcuartReadEvent_eq (t : Tmcuart) (v : Bool) :
    tmcuartReadEvent t v =
      let t' := { t with
        data := Function.update t.data (t.pos >>> 3) (storeBit (t.data (t.pos >>> 3)) t.pos v) }
      if t.pos + 1 ≥ t.readCount then tmcuartFinalize t'
      else ({ t' with pos := t.pos + 1, waketime := t.waketime + t.bitTime }, .reschedule) :=
  rfl

/-- The object can drive its line again when the transaction is over. -/
def Restores (t : Tmcuart) : Prop := (t.singleWire || t.output) = true

lemma Restores.idle {t : Tmcuart} (h : Restores t) : Idle (tmcuartFinalize t).1 :=
  ⟨rfl, rfl, rfl, h⟩

/-- The transaction is over, and the first `count` bits of the buffer are those of a response. -/
structure Received (bit : Nat → Bool) (count : Nat) (l : Line) : Prop where
  scheduled : l.scheduled = false
  idle : Idle l.t
  report : l.t.report = true
  wake : l.t.wake = true
  readCount : l.t.readCount = count
  stored : ∀ k < count, dataBit l.t.data k = bit k

/-- The timer is due in bit `p` of a response of `count` bits, and the bits before it are in the
buffer. -/
structure Receives (bit : Nat → Bool) (b : UInt32) (first count : Nat) (l : Line) (p : Nat) :
    Prop where
  scheduled : l.scheduled = true
  func : l.t.func = .read
  due : l.due = first + p * b.toNat
  pos : l.t.pos = p
  lt : p < count
  readCount : l.t.readCount = count
  bitTime : l.t.bitTime = b
  stored : ∀ k < p, dataBit l.t.data k = bit k
  restores : Restores l.t

lemma readEvent_receives {t : Tmcuart} {v : Bool} {due : Nat} {level : Nat → Bool}
    (hdue : due = first + p * b.toNat) (hpos : t.pos = p) (hlt : p < count)
    (hfunc : t.func = .read) (hcount : t.readCount = count) (hbit : t.bitTime = b)
    (hstored : ∀ k < p, dataBit t.data k = bit k) (hv : v = bit p) (hrestores : Restores t) :
    let (t', result) := tmcuartReadEvent t v
    let l : Line :=
      ⟨t', decide (result = .reschedule), due + (t'.waketime - t.waketime).toNat, level⟩
    Received bit count l ∨ Receives bit b first count l (p + 1) := by
  have hdata : ∀ k < p + 1, dataBit (Function.update t.data (t.pos >>> 3)
      (storeBit (t.data (t.pos >>> 3)) t.pos v)) k = bit k := by
    intro k hk
    rw [dataBit_update, hpos]
    by_cases h : k = p
    · rw [if_pos h, hv, h]
    · rw [if_neg h]
      exact hstored k (by omega)
  rw [tmcuartReadEvent_eq]
  dsimp only
  by_cases hlast : t.pos + 1 ≥ t.readCount
  · rw [if_pos hlast]
    left
    have hend : count = p + 1 := by omega
    exact ⟨rfl, Restores.idle hrestores, rfl, rfl, hcount, hend ▸ hdata⟩
  · rw [if_neg hlast]
    right
    refine ⟨rfl, hfunc, ?_, by rw [hpos], by omega, hcount, hbit, hdata, hrestores⟩
    dsimp only
    rw [add_sub_self, hbit, hdue, Nat.succ_mul, Nat.add_assoc]

lemma Receives.fire (h : Receives bit b first count l p)
    (hrx : (rx (first + p * b.toNat)).1 = bit p) :
    Received bit count (fire rx l) ∨ Receives bit b first count (fire rx l) (p + 1) := by
  have hevent : ∀ cur v v', tmcuartEvent l.t cur v v' = tmcuartReadEvent l.t v := by
    intro cur v v'
    rw [tmcuartEvent, h.func]
  unfold Tmc.fire
  rw [if_pos h.scheduled]
  dsimp only
  rw [hevent]
  exact readEvent_receives h.due h.pos h.lt h.func h.readCount h.bitTime h.stored
    (h.due ▸ hrx) h.restores

lemma Receives.received (hrx : ∀ k < count, (rx (first + k * b.toNat)).1 = bit k)
    (h : Receives bit b first count l p) : ∃ n, Received bit count ((Tmc.fire rx)^[n] l) := by
  induction hleft : count - p generalizing l p with
  | zero =>
    have hlt := h.lt
    omega
  | succ left ih =>
    obtain hdone | hnext := h.fire (hrx p h.lt)
    · exact ⟨1, hdone⟩
    · obtain ⟨n, hn⟩ := ih hnext (by omega)
      exact ⟨n + 1, hn⟩

/-- The timer polls for the start bit for the `i`-th time. -/
structure Polls (b : UInt32) (poll count : Nat) (l : Line) (i : Nat) : Prop where
  scheduled : l.scheduled = true
  func : l.t.func = .readSync
  due : l.due = poll + i * b.toNat
  pos : l.t.pos = i
  le : i ≤ 64
  sync : l.t.readSync = decide (0 < i)
  readCount : l.t.readCount = count
  bitTime : l.t.bitTime = b
  restores : Restores l.t

variable {poll i : Nat}

lemma Polls.fire_high (h : Polls b poll count l i) (hlt : i < 64)
    (hrx : (rx (poll + i * b.toNat)).1 = true) : Polls b poll count (fire rx l) (i + 1) := by
  have hevent : ∀ cur v', tmcuartEvent l.t cur true v' =
      ({ l.t with readSync := true, pos := i + 1, waketime := l.t.waketime + b },
        .reschedule) := by
    intro cur v'
    rw [tmcuartEvent, h.func]
    simp [tmcuartReadSyncEvent, h.pos, h.bitTime, Nat.not_lt.mpr hlt]
  unfold Tmc.fire
  rw [if_pos h.scheduled]
  dsimp only
  rw [h.due, hrx, hevent]
  refine ⟨rfl, h.func, ?_, rfl, hlt, ?_, h.readCount, h.bitTime, h.restores⟩
  · dsimp only
    rw [add_sub_self, Nat.succ_mul, Nat.add_assoc]
  · simp

lemma Polls.fire_low (h : Polls b poll count l i) (hpos : 0 < i) (hcount : 0 < count)
    (hrx : rx (poll + i * b.toNat) = (false, false)) (hbit : bit 0 = false) :
    Received bit count (fire rx l) ∨
      Receives bit b (poll + i * b.toNat) count (fire rx l) 1 := by
  have hevent : ∀ cur, tmcuartEvent l.t cur false false =
      tmcuartReadEvent { l.t with pos := 0, func := .read } false := by
    intro cur
    rw [tmcuartEvent, h.func]
    simp [tmcuartReadSyncEvent, h.sync, hpos]
  unfold Tmc.fire
  rw [if_pos h.scheduled]
  dsimp only
  rw [h.due, hrx]
  dsimp only
  rw [hevent]
  exact readEvent_receives (t := { l.t with pos := 0, func := .read })
    (by rw [Nat.zero_mul, Nat.add_zero]) rfl hcount rfl h.readCount h.bitTime
    (fun k hk => absurd hk (Nat.not_lt_zero k)) hbit.symm h.restores

/-- A response that begins after the first poll and not after the last one is read. The first poll
that is not before it falls into its start bit. -/
lemma Polls.received (hcount : 0 < count) (hbit : bit 0 = false) {start : Nat}
    (hafter : poll < start) (hbefore : start ≤ poll + 64 * b.toNat)
    (hidle : ∀ τ, poll ≤ τ → τ < start → (rx τ).1 = true)
    (hshows : Shows (fun k => (bit k, bit k)) start b.toNat count rx)
    (h : Polls b poll count l i) (hi : i = 0 ∨ poll + (i - 1) * b.toNat < start) :
    ∃ n, Received bit count ((Tmc.fire rx)^[n] l) := by
  induction hleft : 65 - i generalizing l i with
  | zero =>
    have hle := h.le
    omega
  | succ left ih =>
    by_cases hlow : poll + i * b.toNat < start
    · have hlt : i * b.toNat < 64 * b.toNat := by omega
      have hnext := h.fire_high (Nat.lt_of_mul_lt_mul_right hlt) (hidle _ (by omega) hlow)
      obtain ⟨n, hn⟩ := ih hnext (Or.inr hlow) (by omega)
      exact ⟨n + 1, hn⟩
    · have hpos : 0 < i := by
        apply Nat.pos_of_ne_zero
        rintro rfl
        omega
      have hprev : poll + (i - 1) * b.toNat < start := hi.resolve_left (Nat.ne_of_gt hpos)
      have hmul : i * b.toNat = (i - 1) * b.toNat + b.toNat := by
        rw [← Nat.succ_mul]
        congr 1
        omega
      obtain ⟨phase, hphase⟩ := Nat.exists_eq_add_of_le (Nat.not_lt.mp hlow)
      have hsample : ∀ k < count, rx (poll + i * b.toNat + k * b.toNat) = (bit k, bit k) := by
        intro k hk
        rw [hphase]
        exact hshows.sample (by omega) hk
      have hfirst := hsample 0 hcount
      rw [Nat.zero_mul, Nat.add_zero, hbit] at hfirst
      obtain hdone | hreads := h.fire_low hpos hcount hfirst hbit
      · exact ⟨1, hdone⟩
      · obtain ⟨n, hn⟩ := hreads.received fun k hk => congrArg Prod.fst (hsample k hk)
        exact ⟨n + 1, hn⟩

end Reading

/-! ### From the request to the response -/

section Request

variable {rx : Nat → Bool × Bool} {b : UInt32} {count : Nat} {l : Line}

/-- The time of a bit while a request is sent by a timer that is never late. -/
def SendTime (b : UInt32) (t : Tmcuart) : Prop :=
  match t.func with
  | .sendSync => t.pos ≠ 0 → t.bitTime = 0
  | .send => t.bitTime = b
  | .sendFinish => t.bitTime = b
  | _ => True

/-- The object while a request with a response of `count` bits is on the line. -/
structure Pending (b : UInt32) (count : Nat) (t : Tmcuart) : Prop where
  readCount : t.readCount = count
  readSync : t.readSync = false
  cfgBitTime : t.cfgBitTime = b
  sendTime : SendTime b t

lemma Pending.fire (h : Pending b count l.t) (hs : Sending l.t) :
    Pending b count (Tmc.fire rx l).t := by
  have htime := h.sendTime
  by_cases hscheduled : l.scheduled = true
  · obtain hfunc | hfunc := hs.1
    · simp only [SendTime, hfunc] at htime
      obtain ⟨next, hnext⟩ : ∃ next, tmcuartSendEvent l.t = (toggled l.t next, .reschedule) :=
        ⟨_, tmcuartSendEvent_eq l.t⟩
      have hevent : ∀ v v', tmcuartEvent l.t l.t.waketime v v' =
          (toggled l.t next, .reschedule) := by
        intro v v'
        rw [tmcuartEvent, hfunc]
        exact hnext
      rw [fire_eq hscheduled hevent]
      refine ⟨h.readCount, h.readSync, h.cfgBitTime, ?_⟩
      cases hnext' : next.1 with
      | none => simpa [SendTime, toggled, hnext'] using htime
      | some pos => simpa [SendTime, toggled, hnext', hfunc] using htime
    · simp only [SendTime, hfunc] at htime
      have hevent : ∀ v v', tmcuartEvent l.t l.t.waketime v v' = (synced l.t, .reschedule) := by
        intro v v'
        rw [tmcuartEvent, hfunc]
        exact tmcuartSendSyncEvent_eq htime
      rw [fire_eq hscheduled hevent]
      refine ⟨h.readCount, h.readSync, h.cfgBitTime, ?_⟩
      by_cases hpos : l.t.pos ≥ 4
      · simpa [SendTime, synced, hpos] using h.cfgBitTime
      · simp [SendTime, synced, hpos, hfunc]
  · unfold Tmc.fire
    rw [if_neg hscheduled]
    exact h

lemma Pending.iterate (h : Pending b count l.t) {n : Nat}
    (hs : ∀ i < n, Sending ((Tmc.fire rx)^[i] l).t) : Pending b count ((Tmc.fire rx)^[n] l).t := by
  induction n with
  | zero => exact h
  | succ n ih =>
    rw [Function.iterate_succ_apply']
    exact (ih fun i hi => hs i (by omega)).fire (hs n (by omega))

lemma pending_commandTmcuartSend {t t' : Tmcuart} {write : List UInt8} {readLen : UInt8}
    {cur : UInt32} (hidle : Idle t) (h : commandTmcuartSend t write readLen cur = some t') :
    Pending t.cfgBitTime (readLen.toNat * 8) t' ∧ t'.output = true := by
  unfold commandTmcuartSend at h
  rw [if_neg (by simp [hidle.active])] at h
  split at h
  · cases h
  · generalize cur + timerFromUs 200 = waketime at h
    dsimp only at h
    split at h
    · cases h
      exact ⟨⟨rfl, rfl, rfl, fun hpos => absurd rfl hpos⟩, hidle.output⟩
    · cases h
      exact ⟨⟨rfl, rfl, rfl, rfl⟩, hidle.output⟩

/-- The finish event leaves the line to the driver. The first poll is four bit times later. -/
lemma Pending.polls (rx : Nat → Bool × Bool) (h : Pending b count l.t)
    (hscheduled : l.scheduled = true) (hfunc : l.t.func = .sendFinish) (houtput : l.t.output = true)
    (hcount : 0 < count)
    (hb : 4 * b.toNat < 2 ^ 32) :
    Polls b (l.due + 4 * b.toNat) count (Tmc.fire rx l) 0 := by
  have hbit := h.sendTime
  simp only [SendTime, hfunc] at hbit
  have hevent : ∀ v v', tmcuartEvent l.t l.t.waketime v v' =
      ({ l.t with
        output := !l.t.singleWire && l.t.output
        pos := 0
        func := .readSync
        waketime := l.t.waketime + b * 4 }, .reschedule) := by
    intro v v'
    rw [tmcuartEvent, hfunc]
    dsimp only
    rw [tmcuartSendFinishEvent, h.readCount, if_neg (Nat.ne_of_gt hcount), hbit]
  rw [fire_eq hscheduled hevent]
  refine ⟨rfl, rfl, ?_, rfl, Nat.zero_le _, h.readSync, h.readCount, hbit, ?_⟩
  · dsimp only
    rw [add_sub_self, UInt32.toNat_mul, Nat.zero_mul, Nat.add_zero]
    change l.due + b.toNat * 4 % 2 ^ 32 = _
    rw [Nat.mod_eq_of_lt (by omega), Nat.mul_comm]
  · simp [Restores, houtput]

lemma fire_shows {symbol : Nat → Bool} {start width n : Nat}
    (h : Shows symbol start width n l.level ∧ start + n * width ≤ l.due) :
    Shows symbol start width n (Tmc.fire rx l).level ∧ start + n * width ≤ (Tmc.fire rx l).due := by
  unfold Tmc.fire
  split
  · exact ⟨h.1.drive_after h.2, Nat.le_add_right_of_le h.2⟩
  · exact h

lemma iterate_shows {symbol : Nat → Bool} {start width n : Nat}
    (h : Shows symbol start width n l.level ∧ start + n * width ≤ l.due) (m : Nat) :
    Shows symbol start width n ((Tmc.fire rx)^[m] l).level ∧
      start + n * width ≤ ((Tmc.fire rx)^[m] l).due := by
  induction m generalizing l with
  | zero => exact h
  | succ m ih => exact ih (fire_shows h)

/-- A request and its response, over the same line. The driver may answer at any time after the
first poll and not after the last one. -/
lemma transaction_received (rx : Nat → Bool × Bool) (level : Nat → Bool) (readLen : UInt8)
    (now start : Nat) {t : Tmcuart} {write : List UInt8} {bit : Nat → Bool} (hidle : Idle t)
    (hpos : 0 < write.length) (hlen : write.length ≤ 10) (hreadPos : 0 < readLen.toNat)
    (hread : readLen.toNat ≤ 10)
    (hfirst : writeBit write 0 = false) (hfit : write.length * 8 * t.cfgBitTime.toNat < 2 ^ 32)
    (hbit : bit 0 = false)
    (hafter : now + (timerFromUs 200).toNat + (write.length * 8 + 4) * t.cfgBitTime.toNat < start)
    (hbefore : start ≤
      now + (timerFromUs 200).toNat + (write.length * 8 + 68) * t.cfgBitTime.toNat)
    (hquiet : ∀ τ, now + (timerFromUs 200).toNat + write.length * 8 * t.cfgBitTime.toNat ≤ τ →
      τ < start → (rx τ).1 = true)
    (hshows : Shows (fun k => (bit k, bit k)) start t.cfgBitTime.toNat (readLen.toNat * 8) rx) :
    ∃ t', commandTmcuartSend t write readLen (UInt32.ofNat now) = some t' ∧ ∃ n,
      let l := (Tmc.fire rx)^[n] ⟨t', true, now + (timerFromUs 200).toNat, level⟩
      Received bit (readLen.toNat * 8) l ∧
        Shows (writeBit write) (now + (timerFromUs 200).toNat) t.cfgBitTime.toNat
          (write.length * 8) l.level := by
  generalize hsent : now + (timerFromUs 200).toNat = sent at *
  obtain ⟨t', hsend, hstart⟩ := commandTmcuartSend_starts (UInt32.ofNat now) sent level hidle hpos
    hlen hread hfirst
  have hreaches : Reaches rx write t.cfgBitTime sent ⟨t', true, sent, level⟩ := by
    obtain hsyncs | hsends := hstart
    · exact hsyncs.reaches (runsFit_of_lt hfit)
    · exact hsends.reaches (runsFit_of_lt hfit)
  obtain ⟨n, hsending, hfinished⟩ := hreaches
  obtain ⟨hpending, -⟩ := pending_commandTmcuartSend hidle hsend
  have hpending : Pending t.cfgBitTime (readLen.toNat * 8)
      ((Tmc.fire rx)^[n] ⟨t', true, sent, level⟩).t :=
    Pending.iterate (l := ⟨t', true, sent, level⟩) hpending hsending
  have hfour : 4 * t.cfgBitTime.toNat < 2 ^ 32 :=
    Nat.lt_of_le_of_lt (Nat.mul_le_mul_right _ (by omega)) hfit
  have hpolls := hpending.polls rx hfinished.scheduled hfinished.func hfinished.output
    (Nat.mul_pos hreadPos (by decide)) hfour
  have hdue := hfinished.due
  rw [Nat.add_mul] at hafter hbefore
  obtain ⟨m, hm⟩ := hpolls.received (Nat.mul_pos hreadPos (by decide))
    hbit (by omega) (by omega) (fun τ hle hlt => hquiet τ (by omega) hlt) hshows (Or.inl rfl)
  refine ⟨t', hsend, m + 1 + n, ?_⟩
  rw [Function.iterate_add_apply]
  exact ⟨hm, (iterate_shows ⟨hfinished.shows, Nat.le_of_eq hdue.symm⟩ (m + 1)).1⟩

end Request

/-! ### Every transaction ends -/

/-- The object after `n` events of its timer, each with what it reads from the clock and the pin. -/
def tmcuartEvents (input : Nat → UInt32 × Bool × Bool) : Nat → Tmcuart → Tmcuart × SchedResult
  | 0, t => (t, .reschedule)
  | n + 1, t =>
    match tmcuartEvents input n t with
    | (t, .done) => (t, .done)
    | (t, .reschedule) => tmcuartEvent t (input n).1 (input n).2.1 (input n).2.2

section Ends

/-- How far a search for the other side can have come. -/
def Place (t : Tmcuart) : Prop :=
  match t.func with
  | .readSync => t.pos ≤ 64
  | .sendSync => t.pos ≤ 4
  | _ => True

/-- An object in a transaction that asked for `count` bits. -/
structure Busy (count : Nat) (t : Tmcuart) : Prop where
  readCount : t.readCount = count
  place : Place t
  restores : Restores t

/-- More events than this are not to come. -/
def eventsLeft (t : Tmcuart) : Nat :=
  match t.func with
  | .read => t.readCount - t.pos
  | .readSync => 65 - t.pos + t.readCount
  | .sendFinish => 66 + t.readCount
  | .send => t.writeCount - t.pos + 67 + t.readCount
  | .sendSync => 5 - t.pos + t.writeCount + 67 + t.readCount

/-- The transaction is over, with all bits or with none. -/
structure Over (count : Nat) (t : Tmcuart) : Prop where
  idle : Idle t
  report : t.report = true
  wake : t.wake = true
  readCount : t.readCount = count ∨ t.readCount = 0

/-- What an event may lead to. -/
def Advances (count left : Nat) (result : Tmcuart × SchedResult) : Prop :=
  result.2 = .done ∧ Over count result.1 ∨
    result.2 = .reschedule ∧ Busy count result.1 ∧ eventsLeft result.1 < left

variable {count left : Nat} {t : Tmcuart}

lemma finalize_advances (h : Restores t) (hcount : t.readCount = count ∨ t.readCount = 0)
    (left : Nat) : Advances count left (tmcuartFinalize t) :=
  Or.inl ⟨rfl, h.idle, rfl, rfl, hcount⟩

lemma readEvent_advances (hcount : t.readCount = count) (hfunc : t.func = .read)
    (hrestores : Restores t) (hleft : count - t.pos ≤ left) (v : Bool) :
    Advances count left (tmcuartReadEvent t v) := by
  rw [tmcuartReadEvent_eq]
  dsimp only
  split_ifs with hlast
  · apply finalize_advances
    · exact hrestores
    · exact Or.inl hcount
  · refine Or.inr ⟨rfl, ⟨hcount, ?_, hrestores⟩, ?_⟩
    · simp [Place, hfunc]
    · simp only [eventsLeft, hfunc]
      omega

lemma Busy.readSyncEvent (h : Busy count t) (hfunc : t.func = .readSync) (v v' : Bool) :
    Advances count (eventsLeft t) (tmcuartReadSyncEvent t v v') := by
  have hcount := h.readCount
  have hplace := h.place
  simp only [Place, hfunc] at hplace
  simp only [eventsLeft, hfunc]
  unfold tmcuartReadSyncEvent
  split
  · apply readEvent_advances (t := { t with pos := 0, func := .read }) hcount rfl h.restores
    dsimp only
    omega
  · dsimp only
    split_ifs with hpolls
    · apply finalize_advances
      · exact h.restores
      · exact Or.inr rfl
    · refine Or.inr ⟨rfl, ⟨hcount, ?_, h.restores⟩, ?_⟩
      · simp only [Place, hfunc]
        omega
      · simp only [eventsLeft, hfunc]
        omega

lemma Busy.sendFinishEvent (h : Busy count t) (hfunc : t.func = .sendFinish) :
    Advances count (eventsLeft t) (tmcuartSendFinishEvent t) := by
  have hcount := h.readCount
  have hrestores : (t.singleWire || t.output) = true := h.restores
  simp only [eventsLeft, hfunc]
  unfold tmcuartSendFinishEvent
  split_ifs with hread
  · exact finalize_advances h.restores (Or.inl hcount) _
  · refine Or.inr ⟨rfl, ⟨hcount, Nat.zero_le 64, ?_⟩, ?_⟩
    · cases hwire : t.singleWire with
      | false =>
        rw [hwire] at hrestores
        simpa [Restores, hwire] using hrestores
      | true => simp [Restores]
    · simp only [eventsLeft]
      omega

lemma Busy.sendEvent (h : Busy count t) (hfunc : t.func = .send) :
    Advances count (eventsLeft t) (tmcuartSendEvent t) := by
  simp only [eventsLeft, hfunc]
  obtain ⟨m, hm, -, -, hend⟩ := nextToggle_spec t.data (!t.lineHigh) t.bitTime
    (t.writeCount - (t.pos + 1)) (t.pos + 1) t.bitTime
  rw [tmcuartSendEvent_eq]
  generalize nextToggle t.data (!t.lineHigh) t.bitTime (t.writeCount - (t.pos + 1)) (t.pos + 1)
    t.bitTime = next at hend ⊢
  refine Or.inr ⟨rfl, ?_⟩
  obtain ⟨hnone, -⟩ | ⟨hsome, hlt, -⟩ := hend
  · have hnext : (toggled t next).func = .sendFinish := by simp [toggled, hnone]
    refine ⟨⟨h.readCount, by simp [Place, hnext], h.restores⟩, ?_⟩
    simp only [eventsLeft, hnext]
    change 66 + t.readCount < _
    omega
  · have hnext : (toggled t next).func = .send := by simp [toggled, hsome, hfunc]
    have hpos : (toggled t next).pos = t.pos + 1 + m := by simp [toggled, hsome]
    refine ⟨⟨h.readCount, by simp [Place, hnext], h.restores⟩, ?_⟩
    simp only [eventsLeft, hnext, hpos]
    change t.writeCount - (t.pos + 1 + m) + 67 + t.readCount < _
    omega

lemma Busy.sendSyncEvent (h : Busy count t) (hfunc : t.func = .sendSync) (cur : UInt32) :
    Advances count (eventsLeft t) (tmcuartSendSyncEvent t cur) := by
  have hplace := h.place
  simp only [Place, hfunc] at hplace
  have hstay : ∀ bitTime, t.pos < 4 → Advances count (eventsLeft t)
      ({ t with
        txPin := !t.txPin
        lineHigh := !t.lineHigh
        pos := t.pos + 1
        bitTime := bitTime
        waketime := t.waketime + t.cfgBitTime }, .reschedule) := by
    intro bitTime hlt
    refine Or.inr ⟨rfl, ⟨h.readCount, ?_, h.restores⟩, ?_⟩
    · simp only [Place, hfunc]
      omega
    · simp only [eventsLeft, hfunc]
      omega
  unfold tmcuartSendSyncEvent
  dsimp only
  split_ifs
  · exact hstay _ (by omega)
  · refine Or.inr ⟨rfl, ⟨h.readCount, trivial, h.restores⟩, ?_⟩
    simp only [eventsLeft, hfunc]
    omega
  · exact hstay t.bitTime (by omega)

lemma Busy.event (h : Busy count t) (cur : UInt32) (v v' : Bool) :
    Advances count (eventsLeft t) (tmcuartEvent t cur v v') := by
  unfold tmcuartEvent
  split
  · rename_i hfunc
    simp only [eventsLeft, hfunc, h.readCount]
    exact readEvent_advances h.readCount hfunc h.restores (Nat.le_refl _) v
  · exact h.readSyncEvent ‹_› v v'
  · exact h.sendFinishEvent ‹_›
  · exact h.sendEvent ‹_›
  · exact h.sendSyncEvent ‹_› cur

lemma busy_commandTmcuartSend {write : List UInt8} {readLen : UInt8} (cur : UInt32) (hidle : Idle t)
    (hlen : write.length ≤ 10) (hread : readLen.toNat ≤ 10) :
    ∃ t', commandTmcuartSend t write readLen cur = some t' ∧ Busy (readLen.toNat * 8) t' ∧
      eventsLeft t' ≤ 232 := by
  have hrestores : Restores t := by simp [Restores, hidle.output]
  unfold commandTmcuartSend dataSize
  rw [if_neg (by simp [hidle.active]), if_neg (by omega)]
  generalize cur + timerFromUs 200 = waketime
  refine ⟨_, rfl, ?_⟩
  split
  · refine ⟨⟨rfl, Nat.zero_le 4, hrestores⟩, ?_⟩
    change 5 - 0 + write.length * 8 + 67 + readLen.toNat * 8 ≤ 232
    omega
  · refine ⟨⟨rfl, trivial, hrestores⟩, ?_⟩
    change write.length * 8 - 0 + 67 + readLen.toNat * 8 ≤ 232
    omega

lemma Busy.events (h : Busy count t) (input : Nat → UInt32 × Bool × Bool) (n : Nat) :
    (tmcuartEvents input n t).2 = .done ∧ Over count (tmcuartEvents input n t).1 ∨
      (tmcuartEvents input n t).2 = .reschedule ∧ Busy count (tmcuartEvents input n t).1 ∧
        eventsLeft (tmcuartEvents input n t).1 + n ≤ eventsLeft t := by
  induction n with
  | zero => exact Or.inr ⟨rfl, h, Nat.le_refl _⟩
  | succ n ih =>
    rw [tmcuartEvents]
    generalize tmcuartEvents input n t = result at ih
    obtain ⟨t', result⟩ := result
    dsimp only at ih
    obtain ⟨rfl, hover⟩ | ⟨rfl, hbusy, hle⟩ := ih
    · exact Or.inl ⟨rfl, hover⟩
    · obtain hdone | ⟨hresult, hbusy', hlt⟩ := hbusy.event (input n).1 (input n).2.1 (input n).2.2
      · exact Or.inl hdone
      · refine Or.inr ⟨hresult, hbusy', ?_⟩
        dsimp only
        omega

lemma Over.task (h : Over count t) :
    ∃ bytes, (tmcuartTask t).2 = some bytes ∧ (bytes.length = count / 8 ∨ bytes = []) := by
  refine ⟨(List.range (t.readCount / 8)).map t.data, ?_, ?_⟩
  · simp [tmcuartTask, h.wake, h.report]
  · obtain hcount | hcount := h.readCount
    · left
      simp [hcount]
    · right
      simp [hcount]

end Ends

/-- A request on an idle line is over after at most 233 events of its timer, whatever the driver
puts on the line and however late the timer runs. The line is idle again, and the report has all the
bytes that were asked for or none. -/
theorem tmcuartSend_ends {t : Tmcuart} {write : List UInt8} {readLen : UInt8} (cur : UInt32)
    (hidle : Idle t) (hlen : write.length ≤ 10) (hread : readLen.toNat ≤ 10) :
    ∃ t', commandTmcuartSend t write readLen cur = some t' ∧
      ∀ input, (tmcuartEvents input 233 t').2 = .done ∧ Idle (tmcuartEvents input 233 t').1 ∧
        ∃ bytes, (tmcuartTask (tmcuartEvents input 233 t').1).2 = some bytes ∧
          (bytes.length = readLen.toNat ∨ bytes = []) := by
  obtain ⟨t', hsend, hbusy, hleft⟩ := busy_commandTmcuartSend cur hidle hlen hread
  refine ⟨t', hsend, ?_⟩
  intro input
  obtain ⟨hdone, hover⟩ | ⟨-, -, hle⟩ := hbusy.events input 233
  · obtain ⟨bytes, htask, hbytes⟩ := hover.task
    rw [Nat.mul_div_cancel _ (by decide)] at hbytes
    exact ⟨hdone, hover.idle, bytes, htask, hbytes⟩
  · omega

theorem tmcuartSend_ends_readRequest :
    ∃ t', commandTmcuartSend (idleLine 3200) readRequest 10 1000 = some t' ∧
      ∀ input, (tmcuartEvents input 233 t').2 = .done ∧ Idle (tmcuartEvents input 233 t').1 ∧
        ∃ bytes, (tmcuartTask (tmcuartEvents input 233 t').1).2 = some bytes ∧
          (bytes.length = (10 : UInt8).toNat ∨ bytes = []) :=
  tmcuartSend_ends 1000 (idle_idleLine 3200) (by decide) (by decide)

end KlipperMcu.Tmc
