import KlipperMcu.Lib.InsertionSort

/-!
# The eddy current probe

ff_eddy.c turns captures of a tick counter into the level of a virtual endstop pin. A capture
interrupt stores the latest reading, a timer interrupt (`ff_eddy_update`) keeps statistics and
recalibrates, and a task (`ff_eddy_check_trigger`) compares the reading with the baseline. Host
commands and endstop.c reset parts of the state.

Interrupts run to their end. A task is interrupted between `irq_enable` and its end, so the calls
that share variables with an interrupt are cut there and keep their locals in `Task`. What follows
`irq_enable` in `ff_eddy_home_reset` and `command_set_trigger_threshold` is a single store. The
variables `ff_eddy_mad` and `ff_eddy_dbg_baseline` are left out: they are only written. So is
`ff_eddy_wake`, with which a capture asks for an evaluation: here the task may evaluate at any time.
-/

namespace KlipperMcu.Eddy

open Lib

/-- The variables of ff_eddy.c. The pin is `false` when triggered. -/
structure Probe where
  pinState : Bool := true
  threshold : Int16 := 25
  madLimit : UInt32 := 2
  armed : Bool := false
  prevCnt : UInt32 := 0
  lastDev : UInt32 := 0
  haveFilter : Bool := false
  hardTrigger : Bool := false
  baseline : UInt32 := 0
  trigAcc : Int := 0
  filterAcc : UInt32 := 0
  sampleRef : UInt32 := 0
  sample : UInt32 := 0
  value : UInt32 := 0
  sampleReady : Bool := false
  calibrated : Bool := false
  outrangeCount : UInt16 := 0
  ring : Vector UInt32 11 := Vector.replicate 11 0
  ringCount : Nat := 0
  ringPos : Nat := 0
  inrangeCount : UInt16 := 0
  quietStartMs : UInt32 := 0
  untrigCount : UInt8 := 0
  offset : UInt32 := 0
  trigCount : UInt8 := 0
  peel : Int := 0

/-- The milliseconds of the 32 bit cycle counter, `cycles` cycles after boot. -/
def ffEddyNowMs (cycles : Nat) : UInt32 := UInt32.ofNat cycles / 128000

/-- The low half of the absolute value of a difference, as `(uint16_t)(d < 0 ? -d : d)`. -/
def absLow (d : UInt32) : UInt16 := if d.toInt32 < 0 then (-d).toUInt16 else d.toUInt16

def ffEddyMedian (ring : List UInt32) : UInt32 := (InsertionSort.sortTo ring 10).getD 5 0

def ffEddyHomeReset (s : Probe) : Probe :=
  { s with trigAcc := 0, trigCount := 0, untrigCount := 0, pinState := true, hardTrigger := false,
           peel := 0 }

/-- The loop of `ff_eddy_isqrt`. -/
def isqrtLoop (v : UInt32) : Nat → UInt32 → UInt32 → UInt32
  | 0, r, _ => r
  | fuel + 1, r, next =>
    if next < r then isqrtLoop v fuel next ((v / next + next) >>> 1) else r

def ffEddyIsqrt (v : UInt32) : UInt32 :=
  if v = 0 then 0 else isqrtLoop v v.toNat v ((v + 1) >>> 1)

/-- `DMA1_Channel1_IRQHandler`, with the tick count that the DMA has stored. -/
def captureIrq (s : Probe) (cnt : UInt16) : Probe :=
  let delta := (cnt.toUInt32 - s.prevCnt).toUInt16.toUInt32
  { s with prevCnt := cnt.toUInt32, sample := delta, sampleReady := true, value := delta }

/-- The first half of `ff_eddy_update`: what goes into the ring. -/
def updateStore (s : Probe) : Probe × UInt32 :=
  if s.armed then
    let adev := absLow (s.sample - s.sampleRef)
    let athr := s.threshold.toInt.natAbs
    if athr < adev.toNat ∧ adev ≤ 150 then
      let s := { s with inrangeCount := s.inrangeCount + 1, outrangeCount := 0 }
      if 100 ≤ s.inrangeCount then
        ({ s with inrangeCount := 0, baseline := s.sample, sampleRef := s.sample }, s.sample)
      else (s, s.baseline)
    else if 150 < adev then
      let s := { s with outrangeCount := s.outrangeCount + 1 }
      if 15 ≤ s.outrangeCount then
        ({ s with hardTrigger := true, outrangeCount := 0 }, s.sample)
      else (s, s.sample)
    else ({ s with inrangeCount := 0, outrangeCount := 0 }, s.sample)
  else ({ s with inrangeCount := 0, outrangeCount := 0 }, s.sample)

/-- The ring after `store`. A position outside the ring would write elsewhere. -/
def pushRing (s : Probe) (store : UInt32) : Probe :=
  { s with
    sampleReady := false
    ring := s.ring.setIfInBounds s.ringPos store
    ringPos := if 10 < s.ringPos + 1 then 0 else s.ringPos + 1
    ringCount := if s.ringCount < 11 then s.ringCount + 1 else s.ringCount }

def deviation (center x : UInt32) : UInt32 := if center ≤ x then x - center else center - x

/-- The median of the absolute deviations about `center`. -/
def medianDeviation (ring : List UInt32) (center : UInt32) : UInt32 :=
  (InsertionSort.sortTo (ring.map (deviation center)) 10).getD 5 0

/-- The sum of the squares as computed. The product is an `int32_t`, so a large one wraps. -/
def sumsq (ring : List UInt32) (center : UInt32) : UInt64 :=
  ring.foldl (fun acc x => acc + ((x - center) * (x - center)).toInt32.toInt64.toUInt64) 0

/-- The noise of the ring, at least one and a half times `mad` and at least one. -/
def sigma (ring : List UInt32) (center mad : UInt32) : UInt32 :=
  let sd := ffEddyIsqrt (sumsq ring center / 11).toUInt32
  let floorSd := if mad + mad / 2 = 0 then 1 else mad + mad / 2
  if sd < floorSd then floorSd else sd

/-- Three sigma, truncated and then clamped. -/
def noiseThreshold (sd : UInt32) : Int16 :=
  let thr := (sd * 3).toUInt16.toInt16
  let thr := if thr < 20 then 20 else thr
  if 60 ≤ thr then 60 else thr

/-- The ring without outliers. -/
def scrub (s : Probe) (center mad : UInt32) : Vector UInt32 11 :=
  let lim := if mad = 0 then s.madLimit else if 0xffffffff < mad.toNat * 3 then 0xffffffff else mad * 3
  s.ring.mapIdx fun i x => if i < s.ringCount ∧ lim < deviation center x then center else x

/-- The last part of `ff_eddy_update`. -/
def recalibrate (s : Probe) (center mad : UInt32) : Probe :=
  let baseline := s.offset + s.filterAcc / 4
  { s with
    ring := scrub s center mad
    threshold := noiseThreshold (sigma s.ring.toList center mad)
    baseline := baseline
    sampleRef := baseline
    haveFilter := false
    calibrated := true
    ringCount := 0
    ringPos := 0
    quietStartMs := 0
    inrangeCount := 0
    outrangeCount := 0 }

/-- What a call did to the statistics. -/
inductive Mark where
  | seeded
  | noisy
  | quiet
  | recalibrated
  | rebaselined
deriving DecidableEq, Repr

section Update

variable (cal : Probe → UInt32 → UInt32 → Probe)

/-- The evaluation of the statistics, once the filter is seeded, with `cal` for what follows 2000 ms
of quiet. -/
def evaluateRingWith (s : Probe) (store now : UInt32) : Probe × Mark :=
  let s := { s with filterAcc := store + s.filterAcc * 3 / 4 }
  let center := ffEddyMedian s.ring.toList
  let mad := medianDeviation s.ring.toList center
  if s.madLimit < mad then ({ s with quietStartMs := 0 }, .noisy)
  else
    let s := { s with quietStartMs := if s.quietStartMs = 0 then now else s.quietStartMs }
    if now - s.quietStartMs < 2000 then (s, .quiet) else (cal s center mad, .recalibrated)

def ffEddyUpdateWith (s : Probe) (now : UInt32) : Probe × Option Mark :=
  if s.sampleReady then
    let r := updateStore s
    let s := pushRing r.1 r.2
    if s.haveFilter then
      let e := evaluateRingWith cal s r.2 now
      (e.1, some e.2)
    else if s.ringCount = 11 then
      ({ s with filterAcc := ffEddyMedian s.ring.toList * 4, haveFilter := true,
                quietStartMs := now }, some .seeded)
    else (s, none)
  else (s, none)

def ffEddyTimerEventWith (s : Probe) (now : UInt32) : Probe × Option Mark :=
  let r := ffEddyUpdateWith cal s now
  (if r.1.calibrated ∧ ¬r.1.armed then { r.1 with armed := true, sampleRef := r.1.baseline } else r.1,
    r.2)

end Update

def evaluateRing : Probe → UInt32 → UInt32 → Probe × Mark := evaluateRingWith recalibrate

def ffEddyUpdate : Probe → UInt32 → Probe × Option Mark := ffEddyUpdateWith recalibrate

/-- `ff_eddy_timer_event` of sched.c. -/
def ffEddyTimerEvent : Probe → UInt32 → Probe × Option Mark := ffEddyTimerEventWith recalibrate

/-- The part of `ff_eddy_rebaseline` that runs with interrupts disabled. -/
def rebaselineStart (s : Probe) : Probe :=
  let base := s.value + s.offset
  { s with baseline := base, sampleRef := base, ringCount := 0, ringPos := 0, filterAcc := base * 4,
           haveFilter := true, quietStartMs := 0, inrangeCount := 0, outrangeCount := 0 }

def rebaselineEnd (s : Probe) : Probe :=
  { s with trigAcc := 0, untrigCount := 0, trigCount := 0, pinState := true, hardTrigger := false,
           peel := 0, calibrated := true }

def ffEddyValueBad (value : UInt32) : Bool := value == 0 || 0xffff < value

/-- A task between two of its steps, with its locals. -/
inductive Task where
  | idle
  | checkHard (value : UInt32) (state : Bool)
  | check (value baseline : UInt32) (thr : Int16)
  | getValue (baseline : UInt32)
  | getBasicParam (baseline value : UInt32)
  | rebaseline (baseline value : UInt32)
  | removePeel (peel : Int) (value : UInt32)
deriving DecidableEq, Repr

/-- The part of `ff_eddy_check_trigger` that runs with interrupts disabled. -/
def checkTriggerStart (s : Probe) : Probe × Task :=
  if s.hardTrigger then ({ s with hardTrigger := false }, .checkHard s.value s.pinState)
  else (s, .check s.value s.baseline s.threshold)

/-- What an evaluation of a valid reading went by. -/
inductive Eval where
  | forced
  | filtered (filtered thr : Int)
deriving DecidableEq, Repr

/-- The rest of `ff_eddy_check_trigger` for a hard trigger. -/
def checkHard (s : Probe) (value : UInt32) (state : Bool) : Probe × Option Eval :=
  if ffEddyValueBad value then (s, none)
  else
    ({ s with pinState := if state then false else s.pinState, trigCount := 0, untrigCount := 0 },
      some .forced)

/-- The filter of the trigger, in units of a sixteenth. -/
def trigFilter (acc : Int) (dev : UInt32) : Int :=
  acc + (((dev.toNat : Int) * 16 - acc) >>> (2 : Nat))

/-- The virtual pin after an evaluation that gave `filtered`. -/
def debounce (s : Probe) (filtered : Int) (thr : Int16) : Probe :=
  if thr.toInt ≤ filtered then
    let s := { s with untrigCount := 0, trigCount := s.trigCount + 1 }
    if s.trigCount < 4 then s else { s with pinState := false, trigCount := 4 }
  else if filtered < (thr - 2).toInt then
    let s := { s with trigCount := 0, untrigCount := s.untrigCount + 1 }
    if s.untrigCount < 3 then s else { s with pinState := true, untrigCount := 3 }
  else if s.pinState then { s with trigCount := 0 }
  else { s with untrigCount := 0 }

/-- The rest of `ff_eddy_check_trigger` otherwise. -/
def check (s : Probe) (value baseline : UInt32) (thr : Int16) : Probe × Option Eval :=
  if ffEddyValueBad value then (s, none)
  else
    let diff := value - baseline
    let dev := (absLow diff).toUInt32
    let acc := trigFilter s.trigAcc dev
    let s := { s with peel := diff.toInt32.toInt, lastDev := dev, trigAcc := acc }
    (debounce s (acc >>> (4 : Nat)) thr, some (.filtered (acc >>> (4 : Nat)) thr.toInt))

/-- `ff_eddy_check_trigger` when it is not interrupted. -/
def ffEddyCheckTrigger (s : Probe) : Probe :=
  let r := checkTriggerStart s
  match r.2 with
  | .checkHard value state => (checkHard r.1 value state).1
  | .check value baseline thr => (check r.1 value baseline thr).1
  | _ => r.1

inductive Response where
  | peelData (value : Int)
  | paramValue (value reserve : UInt32)
  | triggerThreshold (threshold : Int)
deriving DecidableEq, Repr

/-- The firmware's variables, the task that was interrupted, the time since boot in cycles, and what
happened so far, latest first. -/
structure State where
  probe : Probe := {}
  task : Task := .idle
  clock : Nat := 0
  evals : List Eval := []
  marks : List (Nat × Mark) := []
  sent : List Response := []

/-- The calls that a task makes. -/
inductive Call where
  | checkTrigger
  | endstopHome (sampleCount : UInt8)
  | endstopRecoverState
  | removePeel
  | getBasicParam
  | setTriggerThreshold (threshold : UInt32)
deriving DecidableEq, Repr

inductive Action where
  | tick (cycles : Nat)
  | capture (cnt : UInt16)
  | timer
  | start (call : Call)
  | resume
deriving DecidableEq, Repr

/-- The rest of the evaluation that was interrupted. -/
def State.evaluate (s : State) (r : Probe × Option Eval) : State :=
  { s with probe := r.1, task := .idle, evals := r.2.toList ++ s.evals }

/-- The next step of the task that was interrupted. -/
def State.resume (s : State) : Option State :=
  match s.task with
  | .idle => none
  | .checkHard value state => some (s.evaluate (checkHard s.probe value state))
  | .check value baseline thr => some (s.evaluate (check s.probe value baseline thr))
  | .getValue baseline => some { s with task := .getBasicParam baseline s.probe.value }
  | .getBasicParam baseline value =>
    some { s with
      probe := rebaselineStart s.probe
      task := .rebaseline baseline value
      marks := (s.clock, .rebaselined) :: s.marks }
  | .rebaseline baseline value =>
    let diff := value - baseline
    some { s with
      probe := rebaselineEnd s.probe
      task := .idle
      sent := .paramValue baseline (if diff.toInt32 < 0 then -diff else diff) :: s.sent }
  | .removePeel peel value =>
    some { s with
      probe := { s.probe with baseline := value }
      task := .idle
      sent := .peelData peel :: s.sent }

/-- A call up to the point where it can be interrupted. -/
def State.start (s : State) : Call → Option State
  | .checkTrigger =>
    let r := checkTriggerStart s.probe
    some { s with probe := r.1, task := r.2 }
  | .endstopHome sampleCount =>
    some { s with
      probe := if sampleCount = 0 then { s.probe with pinState := true } else ffEddyHomeReset s.probe }
  | .endstopRecoverState => some { s with probe := ffEddyHomeReset s.probe }
  | .removePeel => some { s with task := .removePeel s.probe.peel s.probe.value }
  | .getBasicParam => some { s with task := .getValue s.probe.baseline }
  | .setTriggerThreshold threshold =>
    some { s with
      probe := { s.probe with threshold := threshold.toUInt16.toInt16 }
      sent := .triggerThreshold threshold.toInt32.toInt :: s.sent }

def State.timerWith (cal : Probe → UInt32 → UInt32 → Probe) (s : State) : State :=
  let r := ffEddyTimerEventWith cal s.probe (ffEddyNowMs s.clock)
  { s with probe := r.1, marks := r.2.toList.map (s.clock, ·) ++ s.marks }

def State.timer : State → State := State.timerWith recalibrate

def step (s : State) : Action → Option State
  | .tick cycles => some { s with clock := s.clock + cycles }
  | .capture cnt => some { s with probe := captureIrq s.probe cnt }
  | .timer => some s.timer
  | .start call => if s.task = .idle then s.start call else none
  | .resume => s.resume

/-! ### What `ff_eddy_update` can do -/

/-- The probe after a sample was stored, with the smoothed value. -/
def stored (p : Probe) : Probe := pushRing (updateStore p).1 (updateStore p).2

def smoothed (p : Probe) : Probe :=
  { stored p with filterAcc := (updateStore p).2 + (stored p).filterAcc * 3 / 4 }

def center (p : Probe) : UInt32 := ffEddyMedian (stored p).ring.toList

def mad (p : Probe) : UInt32 := medianDeviation (stored p).ring.toList (center p)

/-- Where the quiet time begins. -/
def quietFrom (p : Probe) (now : UInt32) : UInt32 :=
  if (stored p).quietStartMs = 0 then now else (stored p).quietStartMs

/-- The cases of a call. -/
inductive UpdateStep (p : Probe) (now : UInt32) : Probe × Option Mark → Prop
  | unready (hready : p.sampleReady = false) : UpdateStep p now (p, none)
  | filling (hfilter : (stored p).haveFilter = false) : UpdateStep p now (stored p, none)
  | seeded (hfilter : (stored p).haveFilter = false) :
      UpdateStep p now ({ stored p with
        filterAcc := center p * 4, haveFilter := true, quietStartMs := now }, some .seeded)
  | noisy (hfilter : (stored p).haveFilter = true) (hmad : (stored p).madLimit < mad p) :
      UpdateStep p now ({ smoothed p with quietStartMs := 0 }, some .noisy)
  | quiet (hfilter : (stored p).haveFilter = true) :
      UpdateStep p now ({ smoothed p with quietStartMs := quietFrom p now }, some .quiet)
  | recalibrated (hfilter : (stored p).haveFilter = true) (hmad : mad p ≤ (stored p).madLimit)
      (hquiet : 2000 ≤ now - quietFrom p now) :
      UpdateStep p now (recalibrate { smoothed p with quietStartMs := quietFrom p now } (center p)
        (mad p), some .recalibrated)

lemma updateStep_evaluateRing {p : Probe} (now : UInt32) (h : (stored p).haveFilter = true) :
    UpdateStep p now ((evaluateRing (stored p) (updateStore p).2 now).1,
      some (evaluateRing (stored p) (updateStore p).2 now).2) := by
  have heval : evaluateRing (stored p) (updateStore p).2 now =
      if (stored p).madLimit < mad p then ({ smoothed p with quietStartMs := 0 }, .noisy)
      else if now - quietFrom p now < 2000 then
        ({ smoothed p with quietStartMs := quietFrom p now }, .quiet)
      else (recalibrate { smoothed p with quietStartMs := quietFrom p now } (center p) (mad p),
        .recalibrated) := rfl
  rw [heval]
  by_cases hmad : (stored p).madLimit < mad p
  · rw [if_pos hmad]
    exact .noisy h hmad
  rw [if_neg hmad]
  by_cases hquiet : now - quietFrom p now < 2000
  · rw [if_pos hquiet]
    exact .quiet h
  rw [if_neg hquiet]
  exact .recalibrated h (UInt32.not_lt.mp hmad) (UInt32.not_lt.mp hquiet)

lemma updateStep (p : Probe) (now : UInt32) : UpdateStep p now (ffEddyUpdate p now) := by
  have hupdate : ffEddyUpdate p now =
      if p.sampleReady then
        if (stored p).haveFilter then
          ((evaluateRing (stored p) (updateStore p).2 now).1,
            some (evaluateRing (stored p) (updateStore p).2 now).2)
        else if (stored p).ringCount = 11 then
          ({ stored p with filterAcc := center p * 4, haveFilter := true, quietStartMs := now },
            some .seeded)
        else (stored p, none)
      else (p, none) := rfl
  rw [hupdate]
  by_cases hready : p.sampleReady = true
  · rw [if_pos hready]
    by_cases hfilter : (stored p).haveFilter = true
    · rw [if_pos hfilter]
      exact updateStep_evaluateRing now hfilter
    rw [if_neg hfilter]
    by_cases hcount : (stored p).ringCount = 11
    · rw [if_pos hcount]
      exact .seeded (Bool.eq_false_iff.mpr hfilter)
    · rw [if_neg hcount]
      exact .filling (Bool.eq_false_iff.mpr hfilter)
  · rw [if_neg hready]
    exact .unready (Bool.eq_false_iff.mpr hready)

end KlipperMcu.Eddy
