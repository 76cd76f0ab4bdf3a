import KlipperMcu.Lib.Run
import KlipperMcu.Lib.Streak
import Mathlib.Algebra.Order.Group.Nat
import Mathlib.Algebra.Ring.Nat

/-!
# Analog inputs

One object of adccmds.c. The timer adds `sample_count` readings to a value, and the task reports the
value. The byte `state` counts the readings of a cycle and then tells whether the cycle was
reported. A range check asks for a shutdown after several cycles out of range.
-/

namespace KlipperMcu.Analog

open Lib

/-- `struct analog_in`, its pin apart. -/
structure AnalogIn where
  waketime : UInt32
  restTime : UInt32
  sampleTime : UInt32
  nextBeginTime : UInt32
  value : UInt16
  minValue : UInt16
  maxValue : UInt16
  invalidCount : UInt8
  rangeCheckCount : UInt8
  state : UInt8
  sampleCount : UInt8
deriving DecidableEq, Repr

/-- `command_config_analog_in`. The fields that it leaves alone are zero. -/
def commandConfigAnalogIn : AnalogIn where
  waketime := 0
  restTime := 0
  sampleTime := 0
  nextBeginTime := 0
  value := 0
  minValue := 0
  maxValue := 0
  invalidCount := 0
  rangeCheckCount := 0
  state := 1
  sampleCount := 0

/-- The arguments of `query_analog_in`. -/
structure Query where
  clock : UInt32
  sampleTicks : UInt32
  sampleCount : UInt8
  restTicks : UInt32
  minValue : UInt16
  maxValue : UInt16
  rangeCheckCount : UInt8
deriving DecidableEq, Repr

/-- `command_query_analog_in` without its calls for the timer. -/
def commandQueryAnalogIn (a : AnalogIn) (q : Query) : AnalogIn :=
  { a with
    nextBeginTime := q.clock
    waketime := q.clock
    sampleTime := q.sampleTicks
    sampleCount := q.sampleCount
    state := q.sampleCount + 1
    restTime := q.restTicks
    minValue := q.minValue
    maxValue := q.maxValue
    rangeCheckCount := q.rangeCheckCount }

/-- How `analog_in_event` ends: with the next reading to come, with a cycle completed, or by a
shutdown. -/
inductive Outcome where
  | sampling
  | completed
  | shutdown
deriving DecidableEq, Repr

/-- The value and the state after a reading. -/
def AnalogIn.sample (a : AnalogIn) (reading : UInt16) : AnalogIn :=
  if a.sampleCount ≤ a.state then { a with value := reading, state := 0 + 1 }
  else { a with value := reading + a.value, state := a.state + 1 }

/-- The end of `analog_in_event`. -/
def AnalogIn.nextCycle (a : AnalogIn) : AnalogIn :=
  { a with
    nextBeginTime := a.nextBeginTime + a.restTime
    waketime := a.nextBeginTime + a.restTime }

/-- The range check of a completed cycle. Once the machine is shut down, `try_shutdown` returns. -/
def AnalogIn.rangeCheck (a : AnalogIn) (isShutdown : Bool) : AnalogIn × Outcome :=
  if a.minValue ≤ a.value ∧ a.value ≤ a.maxValue then ({ a with invalidCount := 0 }, .completed)
  else
    let a := { a with invalidCount := a.invalidCount + 1 }
    if a.rangeCheckCount ≤ a.invalidCount then
      if isShutdown then ({ a with invalidCount := 0 }, .completed) else (a, .shutdown)
    else (a, .completed)

/-- `analog_in_event`, with what `gpio_adc_sample` and `gpio_adc_read` return. -/
def analogInEvent (a : AnalogIn) (isShutdown : Bool) (sampleDelay : UInt32) (reading : UInt16) :
    AnalogIn × Outcome :=
  if sampleDelay ≠ 0 then ({ a with waketime := a.waketime + sampleDelay }, .sampling)
  else
    let a := a.sample reading
    if a.state < a.sampleCount then ({ a with waketime := a.waketime + a.sampleTime }, .sampling)
    else
      let r := a.rangeCheck isShutdown
      if r.2 = .completed then (r.1.nextCycle, .completed) else r

/-- `analog_in_shutdown` on one object, without its call for the timer. -/
def analogInShutdown (a : AnalogIn) : AnalogIn :=
  if a.sampleCount ≠ 0 then { a with state := a.sampleCount + 1 }.nextCycle else a

/-! ### Cycles -/

/-- Every `n` readings are a cycle: the readings of the cycle under way, and the completed ones,
latest first. -/
structure Log where
  current : List UInt16 := []
  cycles : List (List UInt16) := []

def Log.add (n : Nat) (l : Log) (reading : UInt16) : Log :=
  if l.current.length + 1 < n then { l with current := l.current ++ [reading] }
  else { current := [], cycles := (l.current ++ [reading]) :: l.cycles }

/-- All readings, oldest first. -/
def Log.readings (l : Log) : List UInt16 := l.cycles.reverse.flatten ++ l.current

def total (readings : List UInt16) : Nat := (readings.map UInt16.toNat).sum

/-- Cycle number `k` since the query. -/
def Log.cycle (l : Log) (k : Nat) : Option (List UInt16) := l.cycles.reverse[k]?

/-! ### The timer and the task -/

/-- `analog_in_task` before it looks at the object, and after it found the state to be the sample
count. -/
inductive Task where
  | idle
  | scan
  | found
deriving DecidableEq, Repr

/-- The object with `analog_wake`, the task, the readings taken since the query, and the reports,
latest first. A report names the cycle that was completed last. -/
structure State where
  a : AnalogIn
  wake : Bool := false
  task : Task := .idle
  isShutdown : Bool := false
  log : Log := {}
  reports : List (Nat × UInt16) := []

/-- The timer, another object that wakes the task, and the task. -/
inductive Action where
  | event (sampleDelay : UInt32) (reading : UInt16)
  | wake
  | task
deriving DecidableEq, Repr

def State.event (s : State) (sampleDelay : UInt32) (reading : UInt16) : State :=
  let r := analogInEvent s.a s.isShutdown sampleDelay reading
  { s with
    a := r.1
    wake := s.wake || r.2 = .completed
    isShutdown := s.isShutdown || r.2 = .shutdown
    log := if sampleDelay ≠ 0 then s.log else s.log.add s.a.sampleCount.toNat reading }

/-- The next step of `analog_in_task`. The second test and the report run with interrupts
disabled. -/
def State.runTask (s : State) : Option State :=
  match s.task with
  | .idle => if s.wake then some { s with wake := false, task := .scan } else none
  | .scan => some { s with task := if s.a.state ≠ s.a.sampleCount then .idle else .found }
  | .found =>
    if s.a.state ≠ s.a.sampleCount then some { s with task := .idle }
    else
      some { s with
        a := { s.a with state := s.a.state + 1 }
        task := .idle
        reports := (s.log.cycles.length - 1, s.a.value) :: s.reports }

def step (s : State) : Action → Option State
  | .event sampleDelay reading => if s.isShutdown then none else some (s.event sampleDelay reading)
  | .wake => if s.isShutdown then none else some { s with wake := true }
  | .task => if s.isShutdown then none else s.runTask

/-- After the first query. -/
def queried (q : Query) : State := { a := commandQueryAnalogIn commandConfigAnalogIn q }

/-! ### What a cycle adds up to -/

/-- The sum of the readings as the firmware computes it. -/
def valueOf (readings : List UInt16) : UInt16 := UInt16.ofNat (total readings)

lemma total_append (l : List UInt16) (reading : UInt16) :
    total (l ++ [reading]) = total l + reading.toNat := by
  unfold total
  rw [List.map_append, List.sum_append]
  simp

lemma valueOf_append (l : List UInt16) (reading : UInt16) :
    valueOf (l ++ [reading]) = reading + valueOf l := by
  unfold valueOf
  rw [total_append, UInt16.ofNat_add, UInt16.ofNat_toNat, UInt16.add_comm]

lemma valueOf_singleton (reading : UInt16) : valueOf [reading] = reading := by
  have h := valueOf_append [] reading
  rwa [show valueOf [] = 0 from rfl, UInt16.add_zero] at h

lemma toNat_valueOf {l : List UInt16} (h : total l < 65536) : (valueOf l).toNat = total l := by
  unfold valueOf
  rw [UInt16.toNat_ofNat']
  exact Nat.mod_eq_of_lt h

/-- Whether the range check of a cycle fails. -/
def Query.rejects (q : Query) (cycle : List UInt16) : Bool :=
  !decide (q.minValue ≤ valueOf cycle ∧ valueOf cycle ≤ q.maxValue)

lemma rejects_iff {q : Query} {cycle : List UInt16} (h : total cycle < 65536) :
    q.rejects cycle = true ↔ total cycle < q.minValue.toNat ∨ q.maxValue.toNat < total cycle := by
  unfold Query.rejects
  rw [Bool.not_eq_true', decide_eq_false_iff_not, UInt16.le_iff_toNat_le, UInt16.le_iff_toNat_le,
    toNat_valueOf h]
  omega

/-! ### One reading -/

/-- What `state` stands for. -/
inductive Phase (n : Nat) (s : State) : Prop
  | sampling (hpos : 0 < s.log.current.length) (hlt : s.log.current.length < n)
      (hstate : s.a.state.toNat = s.log.current.length) (hvalue : s.a.value = valueOf s.log.current)
      (hreports : ∀ p ∈ s.reports, p.1 < s.log.cycles.length)
  | completed (c : List UInt16) (cycles : List (List UInt16)) (hcurrent : s.log.current = [])
      (hcycles : s.log.cycles = c :: cycles) (hstate : s.a.state.toNat = n)
      (hvalue : s.a.value = valueOf c) (hreports : ∀ p ∈ s.reports, p.1 < cycles.length)
  | reported (hcurrent : s.log.current = []) (hstate : s.a.state.toNat = n + 1)
      (hreports : ∀ p ∈ s.reports, p.1 < s.log.cycles.length)

/-- The object keeps the arguments of the query. -/
structure Keeps (q : Query) (a : AnalogIn) : Prop where
  sampleCount : a.sampleCount = q.sampleCount
  minValue : a.minValue = q.minValue
  maxValue : a.maxValue = q.maxValue
  rangeCheckCount : a.rangeCheckCount = q.rangeCheckCount

/-- The reports are those of different cycles. -/
structure Reports (s : State) : Prop where
  sums : ∀ p ∈ s.reports, ∃ c, s.log.cycle p.1 = some c ∧ p.2 = valueOf c
  order : (s.reports.map Prod.fst).Pairwise (· > ·)

structure Inv (q : Query) (s : State) : Prop where
  keeps : Keeps q s.a
  lengths : ∀ c ∈ s.log.cycles, c.length = q.sampleCount.toNat
  phase : Phase q.sampleCount.toNat s
  reports : Reports s
  invalid : s.a.invalidCount.toNat = streak q.rejects s.log.cycles
  isShutdown : s.isShutdown = true ↔ q.rangeCheckCount.toNat ≤ streak q.rejects s.log.cycles

variable {q : Query} {s s' : State} {a : AnalogIn}

lemma Phase.current_lt {n : Nat} (h : Phase n s) (hn : 1 ≤ n) : s.log.current.length < n := by
  cases h with
  | sampling _ hlt => exact hlt
  | completed _ _ hcurrent =>
    rw [hcurrent]
    exact hn
  | reported hcurrent =>
    rw [hcurrent]
    exact hn

lemma Phase.reports_lt {n : Nat} (h : Phase n s) : ∀ p ∈ s.reports, p.1 < s.log.cycles.length := by
  cases h with
  | sampling _ _ _ _ hreports => exact hreports
  | completed _ _ _ hcycles _ _ hreports =>
    intro p hp
    rw [hcycles]
    exact Nat.lt_succ_of_lt (hreports p hp)
  | reported _ _ hreports => exact hreports

lemma Keeps.sample (h : Keeps q a) (reading : UInt16) : Keeps q (a.sample reading) := by
  unfold AnalogIn.sample
  split <;> exact { h with }

lemma sample_spec (h : Inv q s) (hn : 1 ≤ q.sampleCount.toNat) (hn' : q.sampleCount.toNat ≤ 254)
    (reading : UInt16) :
    (s.a.sample reading).state.toNat = s.log.current.length + 1 ∧
      (s.a.sample reading).value = valueOf (s.log.current ++ [reading]) := by
  have hcount : s.a.sampleCount.toNat = q.sampleCount.toNat := by rw [h.keeps.sampleCount]
  have hbegin (hle : q.sampleCount.toNat ≤ s.a.state.toNat) (hcurrent : s.log.current = []) :
      (s.a.sample reading).state.toNat = s.log.current.length + 1 ∧
        (s.a.sample reading).value = valueOf (s.log.current ++ [reading]) := by
    rw [← hcount, ← UInt8.le_iff_toNat_le] at hle
    rw [AnalogIn.sample, if_pos hle, hcurrent, List.nil_append, valueOf_singleton]
    exact ⟨rfl, rfl⟩
  cases h.phase with
  | sampling hpos hlt hstate hvalue =>
    have hnot : ¬s.a.sampleCount ≤ s.a.state := by
      rw [UInt8.le_iff_toNat_le]
      omega
    have hone : (1 : UInt8).toNat = 1 := rfl
    rw [AnalogIn.sample, if_neg hnot, valueOf_append, ← hvalue]
    refine ⟨?_, rfl⟩
    rw [UInt8.toNat_add, hone]
    omega
  | completed _ _ hcurrent _ hstate => exact hbegin hstate.ge hcurrent
  | reported hcurrent hstate => exact hbegin (by omega) hcurrent

/-- The range check counts the cycles out of range, and asks for a shutdown when there are
enough. -/
lemma rangeCheck_spec {c : List UInt16} {cycles : List (List UInt16)} (h : Keeps q a)
    (hvalue : a.value = valueOf c) (hinvalid : a.invalidCount.toNat = streak q.rejects cycles)
    (hlt : streak q.rejects cycles < q.rangeCheckCount.toNat) :
    (a.rangeCheck false).1 = { a with invalidCount := (a.rangeCheck false).1.invalidCount } ∧
      (a.rangeCheck false).1.invalidCount.toNat = streak q.rejects (c :: cycles) ∧
      ((a.rangeCheck false).2 = .shutdown ↔
        q.rangeCheckCount.toNat ≤ streak q.rejects (c :: cycles)) := by
  have hrange := q.rangeCheckCount.toNat_lt
  by_cases hin : q.minValue ≤ valueOf c ∧ valueOf c ≤ q.maxValue
  · have hrej : q.rejects c = false := by
      unfold Query.rejects
      rw [decide_eq_true hin]
      rfl
    have hcheck : a.rangeCheck false = ({ a with invalidCount := 0 }, .completed) := by
      rw [AnalogIn.rangeCheck, h.minValue, h.maxValue, hvalue, if_pos hin]
    rw [hcheck, streak_cons_of_neg hrej]
    refine ⟨rfl, rfl, Outcome.noConfusion, fun hzero => ?_⟩
    omega
  · have hrej : q.rejects c = true := by
      unfold Query.rejects
      rw [decide_eq_false hin]
      rfl
    have hone : (1 : UInt8).toNat = 1 := rfl
    have hsucc : (a.invalidCount + 1).toNat = streak q.rejects (c :: cycles) := by
      rw [UInt8.toNat_add, hinvalid, streak_cons_of_pos hrej, hone]
      omega
    have hcheck : a.rangeCheck false =
        ({ a with invalidCount := a.invalidCount + 1 },
          if q.rangeCheckCount ≤ a.invalidCount + 1 then .shutdown else .completed) := by
      rw [AnalogIn.rangeCheck, h.minValue, h.maxValue, hvalue, if_neg hin]
      dsimp only
      rw [h.rangeCheckCount]
      split <;> rfl
    rw [hcheck]
    refine ⟨rfl, hsucc, ?_⟩
    rw [← hsucc, ← UInt8.le_iff_toNat_le]
    dsimp only
    split
    · rename_i hle
      exact ⟨fun _ => hle, fun _ => rfl⟩
    · rename_i hle
      exact ⟨Outcome.noConfusion, fun hle' => absurd hle' hle⟩

/-! ### Steps -/

lemma Phase.congr {n : Nat} (h : Phase n s) (hstate : s'.a.state = s.a.state)
    (hvalue : s'.a.value = s.a.value) (hlog : s'.log = s.log) (hreports : s'.reports = s.reports) :
    Phase n s' := by
  cases h with
  | sampling hpos hlt hs hv hr =>
    apply Phase.sampling
    · rwa [hlog]
    · rwa [hlog]
    · rwa [hlog, hstate]
    · rwa [hlog, hvalue]
    · rwa [hlog, hreports]
  | completed c cycles hcurrent hcycles hs hv hr =>
    apply Phase.completed c cycles
    · rwa [hlog]
    · rwa [hlog]
    · rwa [hstate]
    · rwa [hvalue]
    · rwa [hreports]
  | reported hcurrent hs hr =>
    apply Phase.reported
    · rwa [hlog]
    · rwa [hstate]
    · rwa [hlog, hreports]

lemma cycle_cons {l : Log} {k : Nat} (hk : k < l.cycles.length) (c current : List UInt16) :
    Log.cycle ⟨current, c :: l.cycles⟩ k = l.cycle k := by
  unfold Log.cycle
  rw [List.reverse_cons, List.getElem?_append_left (by rwa [List.length_reverse])]

lemma cycle_last (c current : List UInt16) (cycles : List (List UInt16)) :
    Log.cycle ⟨current, c :: cycles⟩ cycles.length = some c := by
  unfold Log.cycle
  rw [List.reverse_cons, List.getElem?_append_right (by rw [List.length_reverse]),
    List.length_reverse, Nat.sub_self]
  rfl

lemma Inv.delayed (h : Inv q s) {sampleDelay : UInt32} (hdelay : sampleDelay ≠ 0)
    (reading : UInt16) : Inv q (s.event sampleDelay reading) := by
  have hevent : s.event sampleDelay reading =
      { s with a := { s.a with waketime := s.a.waketime + sampleDelay } } := by
    unfold State.event analogInEvent
    simp [hdelay]
  rw [hevent]
  exact ⟨{ h.keeps with }, h.lengths, h.phase.congr rfl rfl rfl rfl, { h.reports with }, h.invalid,
    h.isShutdown⟩

lemma Inv.sampling (h : Inv q s) (hn' : q.sampleCount.toNat ≤ 254) (reading : UInt16)
    (hmore : s.log.current.length + 1 < q.sampleCount.toNat) : Inv q (s.event 0 reading) := by
  obtain ⟨hstate, hvalue⟩ := sample_spec h (by omega) hn' reading
  have hkeeps := h.keeps.sample reading
  have hless : (s.a.sample reading).state < (s.a.sample reading).sampleCount := by
    rw [UInt8.lt_iff_toNat_lt, hstate, hkeeps.sampleCount]
    exact hmore
  have hinvalid : (s.a.sample reading).invalidCount = s.a.invalidCount := by
    unfold AnalogIn.sample
    split <;> rfl
  have hlog : s.log.add s.a.sampleCount.toNat reading =
      { s.log with current := s.log.current ++ [reading] } := by
    rw [h.keeps.sampleCount, Log.add, if_pos hmore]
  have hevent : s.event 0 reading =
      { s with
        a := { s.a.sample reading with
          waketime := (s.a.sample reading).waketime + (s.a.sample reading).sampleTime }
        log := { s.log with current := s.log.current ++ [reading] } } := by
    unfold State.event analogInEvent
    simp [hless, hlog]
  have hlength : (s.log.current ++ [reading]).length = s.log.current.length + 1 := by simp
  rw [hevent]
  refine ⟨{ hkeeps with }, h.lengths, ?_, { h.reports with }, ?_, h.isShutdown⟩
  · apply Phase.sampling
    · dsimp only
      omega
    · dsimp only
      omega
    · dsimp only
      rw [hstate, hlength]
    · exact hvalue
    · exact h.phase.reports_lt
  · dsimp only
    rw [hinvalid]
    exact h.invalid

lemma event_last (hrun : s.isShutdown = false) {reading : UInt16} {r : AnalogIn × Outcome}
    (hlast : ¬(s.a.sample reading).state < (s.a.sample reading).sampleCount)
    (hr : (s.a.sample reading).rangeCheck false = r) :
    (s.event 0 reading).a = (if r.2 = .completed then r.1.nextCycle else r.1) ∧
      (s.event 0 reading).isShutdown = decide (r.2 = .shutdown) := by
  unfold State.event analogInEvent
  simp only [ne_eq, not_true_eq_false, if_false, if_neg hlast, hrun, hr, Bool.false_or]
  split
  · rename_i hcompleted
    rw [hcompleted]
    exact ⟨rfl, rfl⟩
  · exact ⟨rfl, rfl⟩

lemma Inv.closeCycle (h : Inv q s) {c : List UInt16} (hkeeps : Keeps q s'.a)
    (hlength : c.length = q.sampleCount.toNat) (hlog : s'.log = ⟨[], c :: s.log.cycles⟩)
    (hreports : s'.reports = s.reports) (hstate : s'.a.state.toNat = q.sampleCount.toNat)
    (hvalue : s'.a.value = valueOf c)
    (hinvalid : s'.a.invalidCount.toNat = streak q.rejects (c :: s.log.cycles))
    (hdown : s'.isShutdown = true ↔
      q.rangeCheckCount.toNat ≤ streak q.rejects (c :: s.log.cycles)) : Inv q s' := by
  constructor
  · exact hkeeps
  · rw [hlog]
    exact List.forall_mem_cons.mpr ⟨hlength, h.lengths⟩
  · apply Phase.completed c s.log.cycles _ _ hstate hvalue
    · rw [hreports]
      exact h.phase.reports_lt
    · rw [hlog]
    · rw [hlog]
  · constructor
    · intro p hp
      rw [hreports] at hp
      rw [hlog, cycle_cons (h.phase.reports_lt p hp)]
      exact h.reports.sums p hp
    · rw [hreports]
      exact h.reports.order
  · rw [hinvalid, hlog]
  · rw [hdown, hlog]

lemma Inv.completed (h : Inv q s) (hrun : s.isShutdown = false) (hn : 1 ≤ q.sampleCount.toNat)
    (hn' : q.sampleCount.toNat ≤ 254) (reading : UInt16)
    (hlast : ¬s.log.current.length + 1 < q.sampleCount.toNat) : Inv q (s.event 0 reading) := by
  have hcurrent := h.phase.current_lt hn
  obtain ⟨hstate, hvalue⟩ := sample_spec h hn hn' reading
  have hkeeps := h.keeps.sample reading
  have hnot : ¬(s.a.sample reading).state < (s.a.sample reading).sampleCount := by
    rw [UInt8.lt_iff_toNat_lt, hstate, hkeeps.sampleCount]
    exact hlast
  have hinvalid : (s.a.sample reading).invalidCount.toNat = streak q.rejects s.log.cycles := by
    rw [← h.invalid]
    unfold AnalogIn.sample
    split <;> rfl
  have hfew : streak q.rejects s.log.cycles < q.rangeCheckCount.toNat := by
    apply Nat.lt_of_not_le
    rw [← h.isShutdown, hrun]
    exact Bool.false_ne_true
  obtain ⟨hframe, hcount, hshutdown⟩ := rangeCheck_spec hkeeps hvalue hinvalid hfew
  obtain ⟨ha, hdown⟩ := event_last hrun hnot rfl
  have hlog : s.log.add s.a.sampleCount.toNat reading =
      ⟨[], (s.log.current ++ [reading]) :: s.log.cycles⟩ := by
    rw [h.keeps.sampleCount, Log.add, if_neg hlast]
  have hlength : (s.log.current ++ [reading]).length = q.sampleCount.toNat := by
    rw [List.length_append, List.length_singleton]
    omega
  have hstate' : (s.a.sample reading).state.toNat = q.sampleCount.toNat := by omega
  generalize (s.a.sample reading).rangeCheck false = r at hframe hcount hshutdown ha hdown
  have hsame : Keeps q (s.event 0 reading).a ∧
      (s.event 0 reading).a.state = (s.a.sample reading).state ∧
      (s.event 0 reading).a.value = (s.a.sample reading).value ∧
      (s.event 0 reading).a.invalidCount = r.1.invalidCount := by
    rw [ha, hframe]
    split <;> exact ⟨{ hkeeps with }, rfl, rfl, rfl⟩
  apply h.closeCycle hsame.1 hlength hlog rfl
  · rw [hsame.2.1, hstate']
  · rw [hsame.2.2.1, hvalue]
  · rw [hsame.2.2.2, hcount]
  · rw [hdown, decide_eq_true_iff]
    exact hshutdown

lemma Inv.event (h : Inv q s) (hrun : s.isShutdown = false) (hn : 1 ≤ q.sampleCount.toNat)
    (hn' : q.sampleCount.toNat ≤ 254) (sampleDelay : UInt32) (reading : UInt16) :
    Inv q (s.event sampleDelay reading) := by
  by_cases hdelay : sampleDelay = 0
  · subst hdelay
    by_cases hmore : s.log.current.length + 1 < q.sampleCount.toNat
    · exact h.sampling hn' reading hmore
    · exact h.completed hrun hn hn' reading hmore
  · exact h.delayed hdelay reading

lemma Inv.report (h : Inv q s) (hn : 1 ≤ q.sampleCount.toNat) (hn' : q.sampleCount.toNat ≤ 254)
    (hfull : s.a.state = s.a.sampleCount) :
    Inv q { s with
      a := { s.a with state := s.a.state + 1 }
      task := .idle
      reports := (s.log.cycles.length - 1, s.a.value) :: s.reports } := by
  have hstate : s.a.state.toNat = q.sampleCount.toNat := by rw [hfull, h.keeps.sampleCount]
  have hone : (1 : UInt8).toNat = 1 := rfl
  cases h.phase with
  | sampling _ hlt hstate' => omega
  | reported _ hstate' => omega
  | completed c cycles hcurrent hcycles _ hvalue hreports =>
    have hlast : s.log.cycles.length - 1 = cycles.length := by
      rw [hcycles, List.length_cons, Nat.add_sub_cancel]
    refine ⟨{ h.keeps with }, h.lengths, ?_, ⟨?_, ?_⟩, h.invalid, h.isShutdown⟩
    · apply Phase.reported
      · exact hcurrent
      · dsimp only
        rw [UInt8.toNat_add, hone]
        omega
      · intro p hp
        rcases List.mem_cons.mp hp with rfl | hp
        · dsimp only
          rw [hcycles, List.length_cons]
          omega
        · exact h.phase.reports_lt p hp
    · intro p hp
      rcases List.mem_cons.mp hp with rfl | hp
      · refine ⟨c, ?_, hvalue⟩
        have hlog : s.log = ⟨s.log.current, c :: cycles⟩ := by rw [← hcycles]
        dsimp only
        rw [hlast, hlog]
        exact cycle_last c _ cycles
      · exact h.reports.sums p hp
    · rw [List.map_cons, List.pairwise_cons]
      refine ⟨fun k hk => ?_, h.reports.order⟩
      obtain ⟨p, hp, rfl⟩ := List.mem_map.mp hk
      dsimp only
      rw [hlast]
      exact hreports p hp

lemma Inv.runTask (h : Inv q s) (hn : 1 ≤ q.sampleCount.toNat) (hn' : q.sampleCount.toNat ≤ 254)
    (hs : s.runTask = some s') : Inv q s' := by
  have hframe (wake : Bool) (task : Task) : Inv q { s with wake := wake, task := task } :=
    ⟨{ h.keeps with }, h.lengths, h.phase.congr rfl rfl rfl rfl, { h.reports with }, h.invalid,
      h.isShutdown⟩
  rw [State.runTask] at hs
  generalize s.task = task at hs
  cases task with
  | idle =>
    obtain ⟨-, hs⟩ := Option.ite_none_right_eq_some.mp hs
    obtain rfl := Option.some.inj hs
    exact hframe false .scan
  | scan =>
    obtain rfl := Option.some.inj hs
    exact hframe s.wake _
  | found =>
    dsimp only at hs
    split at hs
    · obtain rfl := Option.some.inj hs
      exact hframe s.wake .idle
    · rename_i hfull
      obtain rfl := Option.some.inj hs
      exact h.report hn hn' (not_not.mp hfull)

lemma Inv.step {action : Action} (h : Inv q s) (hn : 1 ≤ q.sampleCount.toNat)
    (hn' : q.sampleCount.toNat ≤ 254) (hs : step s action = some s') : Inv q s' := by
  cases action with
  | event sampleDelay reading =>
    obtain ⟨hrun, hs⟩ := Option.ite_none_left_eq_some.mp hs
    obtain rfl := Option.some.inj hs
    exact h.event (Bool.eq_false_iff.mpr hrun) hn hn' sampleDelay reading
  | wake =>
    obtain ⟨-, hs⟩ := Option.ite_none_left_eq_some.mp hs
    obtain rfl := Option.some.inj hs
    exact ⟨{ h.keeps with }, h.lengths, h.phase.congr rfl rfl rfl rfl, { h.reports with },
      h.invalid, h.isShutdown⟩
  | task =>
    obtain ⟨-, hs⟩ := Option.ite_none_left_eq_some.mp hs
    exact h.runTask hn hn' hs

/-! ### Runs -/

lemma inv_queried (hn' : q.sampleCount.toNat ≤ 254) (hr : 1 ≤ q.rangeCheckCount.toNat) :
    Inv q (queried q) := by
  have hone : (1 : UInt8).toNat = 1 := rfl
  refine ⟨⟨rfl, rfl, rfl, rfl⟩, fun c hc => absurd hc List.not_mem_nil, ?_, ?_, rfl, ?_⟩
  · apply Phase.reported
    · rfl
    · change (q.sampleCount + 1).toNat = _
      rw [UInt8.toNat_add, hone]
      omega
    · exact fun p hp => absurd hp List.not_mem_nil
  · exact ⟨fun p hp => absurd hp List.not_mem_nil, List.Pairwise.nil⟩
  · change false = true ↔ q.rangeCheckCount.toNat ≤ 0
    constructor
    · exact Bool.noConfusion
    · intro hzero
      omega

/-- The readings that were taken, oldest first. -/
def taken (actions : List Action) : List UInt16 :=
  actions.filterMap fun
    | .event sampleDelay reading => if sampleDelay = 0 then some reading else none
    | _ => none

lemma readings_add (n : Nat) (l : Log) (reading : UInt16) :
    (l.add n reading).readings = l.readings ++ [reading] := by
  unfold Log.add Log.readings
  split
  · rw [List.append_assoc]
  · rw [List.reverse_cons, List.flatten_append, List.flatten_singleton, List.append_nil,
      List.append_assoc]

lemma readings_step {action : Action} (hs : step s action = some s') :
    s'.log.readings = s.log.readings ++ taken [action] := by
  cases action with
  | event sampleDelay reading =>
    obtain ⟨-, hs⟩ := Option.ite_none_left_eq_some.mp hs
    obtain rfl := Option.some.inj hs
    unfold State.event taken
    by_cases hdelay : sampleDelay = 0
    · simp [hdelay, readings_add]
    · simp [hdelay]
  | wake =>
    obtain ⟨-, hs⟩ := Option.ite_none_left_eq_some.mp hs
    obtain rfl := Option.some.inj hs
    exact (List.append_nil _).symm
  | task =>
    obtain ⟨-, hs⟩ := Option.ite_none_left_eq_some.mp hs
    have hlog : s'.log = s.log := by
      unfold State.runTask at hs
      split at hs
      · obtain ⟨-, hs⟩ := Option.ite_none_right_eq_some.mp hs
        obtain rfl := Option.some.inj hs
        rfl
      · obtain rfl := Option.some.inj hs
        rfl
      · split at hs <;> obtain rfl := Option.some.inj hs <;> rfl
    rw [hlog]
    exact (List.append_nil _).symm

lemma readings_of_run {actions : List Action}
    (h : Run step (fun _ _ => True) (queried q) actions s) : s.log.readings = taken actions := by
  induction h with
  | nil => rfl
  | snoc _ _ hs ih =>
    rw [readings_step hs, ih]
    exact List.filterMap_append.symm

/-- The readings fall into cycles of `sample_count` readings. Every report is the sum of a cycle, no
cycle is reported twice, and the shutdown comes with the first cycle that makes `range_check_count`
cycles in a row out of range. -/
theorem analogIn_of_run {actions : List Action} (hn : 1 ≤ q.sampleCount.toNat)
    (hn' : q.sampleCount.toNat ≤ 254) (hr : 1 ≤ q.rangeCheckCount.toNat)
    (h : Run step (fun _ _ => True) (queried q) actions s)
    (hsum : ∀ c ∈ s.log.cycles, total c < 65536) :
    s.log.readings = taken actions ∧ (∀ c ∈ s.log.cycles, c.length = q.sampleCount.toNat) ∧
      s.log.current.length < q.sampleCount.toNat ∧
      (∀ p ∈ s.reports, ∃ c, s.log.cycle p.1 = some c ∧ p.2.toNat = total c) ∧
      (s.reports.map Prod.fst).Nodup ∧
      (s.isShutdown = true ↔ q.rangeCheckCount.toNat ≤ s.log.cycles.length ∧
        ∀ c ∈ s.log.cycles.take q.rangeCheckCount.toNat,
          total c < q.minValue.toNat ∨ q.maxValue.toNat < total c) := by
  have hinv : Inv q s := by
    apply h.invariant (inv_queried hn' hr)
    intro s a s' hinv _ hs
    exact hinv.step hn hn' hs
  refine ⟨readings_of_run h, hinv.lengths, hinv.phase.current_lt hn, ?_, ?_, ?_⟩
  · intro p hp
    obtain ⟨c, hc, hvalue⟩ := hinv.reports.sums p hp
    have hmem : c ∈ s.log.cycles := List.mem_reverse.mp (List.mem_of_getElem? hc)
    exact ⟨c, hc, by rw [hvalue, toNat_valueOf (hsum c hmem)]⟩
  · exact hinv.reports.order.imp fun hlt => Nat.ne_of_gt hlt
  · rw [hinv.isShutdown, le_streak_iff]
    have hcycle (c : List UInt16) (hc : c ∈ s.log.cycles.take q.rangeCheckCount.toNat) :
        q.rejects c = true ↔ total c < q.minValue.toNat ∨ q.maxValue.toNat < total c :=
      rejects_iff (hsum c (List.mem_of_mem_take hc))
    exact and_congr_right fun _ => forall₂_congr hcycle

/-- Two readings a cycle, and a shutdown after two cycles out of range. -/
def pairQuery : Query where
  clock := 1000
  sampleTicks := 10
  sampleCount := 2
  restTicks := 1000
  minValue := 100
  maxValue := 500
  rangeCheckCount := 2

/-- The next cycle begins before the second test of the task, so that the first one is not
reported. The third one asks for the shutdown. -/
def pairActions : List Action :=
  [.event 0 100, .event 7 0, .event 0 150, .task, .task, .event 0 300, .task, .event 0 400, .task,
    .task, .task, .event 0 10, .event 0 20]

theorem analogIn_of_run_pairs : ∃ s, Run step (fun _ _ => True) (queried pairQuery) pairActions s ∧
    s.reports = [(1, 700)] ∧ s.isShutdown = true ∧
    (2 ≤ s.log.cycles.length ∧ ∀ c ∈ s.log.cycles.take 2, total c < 100 ∨ 500 < total c) := by
  obtain ⟨s, hrun, hs⟩ : ∃ s, Run step (fun _ _ => True) (queried pairQuery) pairActions s ∧
      decide (s.log.cycles = [[10, 20], [300, 400], [100, 150]] ∧
        s.reports = [(1, 700)] ∧ s.isShutdown = true) = true :=
    Run.exists_of_exec _ _ (by decide +kernel)
  obtain ⟨hcycles, hreports, hdown⟩ := of_decide_eq_true hs
  have hall := analogIn_of_run (by decide) (by decide) (by decide) hrun (by
    rw [hcycles]
    decide)
  exact ⟨s, hrun, hreports, hdown, hall.2.2.2.2.2.mp hdown⟩

end KlipperMcu.Analog
