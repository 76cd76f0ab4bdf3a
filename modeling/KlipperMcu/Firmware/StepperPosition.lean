import KlipperMcu.Firmware.Stepper
import KlipperMcu.Lib.Run
import KlipperMcu.Lib.Word

/-!
# The reported position of a stepper

stepper.c keeps the position of the end of the loaded move, negated while the direction pin is
low. `stepper_get_position` undoes both. A run counts the steps started with the direction pin
high and low.
-/

namespace KlipperMcu.Motion

open Lib Sched

/-- The steps of the loaded move that are not yet started. -/
def remaining (s : Stepper) : UInt32 := if s.singleSched then s.count else s.count / 2

/-- Where the loaded move ends when the stepper is at `net` now. -/
def endPosition (s : Stepper) (net : Int) : Int :=
  if s.dirPin then net + (remaining s).toNat else net - (remaining s).toNat

/-- Whether the next timer event starts a step. A double scheduled stepper ends one at every
other event. -/
def startsStep (s : Stepper) : Bool := s.singleSched || s.count &&& 1 == 0

structure State where
  stepper : Stepper
  high : Nat
  low : Nat

def State.net (s : State) : Int := s.high - s.low

inductive Action where
  | setNextStepDir (dir : UInt32)
  | queueStep (interval count add : UInt32)
  | event (curtime : UInt32)
  | resetStepClock (clock : UInt32)
  | stop
  | shutdown
deriving DecidableEq, Repr

/-- The return of a call, or the shutdown handler. -/
def State.leave (s : State) : Except Stepper Stepper → State
  | .ok st => { s with stepper := st }
  | .error st => { s with stepper := stepperShutdown st }

/-- The counters after the step pin was toggled. -/
def State.countStep (s : State) : State :=
  if startsStep s.stepper then
    if s.stepper.dirPin then { s with high := s.high + 1 } else { s with low := s.low + 1 }
  else s

/-- A timer event, after which the timer stays listed if it asks for it. -/
def eventStep (s : Stepper) (curtime : UInt32) : Except Stepper Stepper :=
  (stepperEvent s curtime).map fun r => { r.1 with scheduled := decide (r.2 = .reschedule) }

def step (s : State) : Action → Option State
  | .setNextStepDir dir => some { s with stepper := commandSetNextStepDir s.stepper dir }
  | .queueStep interval count add => some (s.leave (commandQueueStep s.stepper interval count add))
  | .event curtime =>
    if s.stepper.scheduled then some (s.countStep.leave (eventStep s.stepper curtime)) else none
  | .resetStepClock clock => some (s.leave (commandResetStepClock s.stepper clock))
  | .stop => some { s with stepper := stepperStop s.stepper }
  | .shutdown => some { s with stepper := stepperShutdown s.stepper }

/-- The position stays below `2 ^ 30` in magnitude. Inside a move it lies between the move's
ends. -/
def Legal (s : State) (a : Action) : Prop := (step s a).all (fun s' => s'.net.natAbs < 2 ^ 30) = true

instance (s : State) (a : Action) : Decidable (Legal s a) := by
  unfold Legal
  infer_instance

def config (invertStep : Int) (stepPulseTicks : UInt32) : State where
  stepper := commandConfigStepper invertStep stepPulseTicks
  high := 0
  low := 0

/-- The stored position is that of the end of the loaded move, negated while the direction pin
is low. -/
def PositionOk (s : Stepper) (net : Int) : Prop :=
  ((s.position.toNat : Int) -
    if s.dirPin then 2 ^ 30 + endPosition s net else -(2 ^ 30 + endPosition s net)) % 2 ^ 32 = 0

lemma stepperGetPosition_eq {s : Stepper} {net : Int} (h : PositionOk s net)
    (hnet : net.natAbs < 2 ^ 30) : ((stepperGetPosition s).toNat : Int) = 2 ^ 30 + net := by
  have hrem := (remaining s).toNat_lt
  have hlt := s.position.toNat_lt
  unfold stepperGetPosition
  change ((if (s.position - remaining s) &&& 0x80000000 ≠ 0 then -(s.position - remaining s)
    else s.position - remaining s : UInt32).toNat : Int) = _
  unfold PositionOk endPosition at h
  cases hd : s.dirPin with
  | true =>
    simp only [hd, if_true] at h
    rw [if_neg, UInt32.toNat_sub]
    · omega
    · rw [and_top_ne_zero_iff, UInt32.toNat_sub]
      omega
  | false =>
    simp only [hd, Bool.false_eq_true, if_false] at h
    rw [if_pos, toNat_neg_eq, UInt32.toNat_sub]
    · omega
    · rw [and_top_ne_zero_iff, UInt32.toNat_sub]
      omega

lemma PositionOk.congr {s s' : Stepper} {net : Int} (h : PositionOk s net)
    (hp : s'.position = s.position) (hd : s'.dirPin = s.dirPin)
    (hr : remaining s' = remaining s) : PositionOk s' net := by
  unfold PositionOk endPosition at h ⊢
  rwa [hp, hd, hr]

lemma PositionOk.started {s s' : Stepper} {net : Int} (h : PositionOk s net)
    (hp : s'.position = s.position) (hd : s'.dirPin = s.dirPin)
    (hr : (remaining s).toNat = (remaining s').toNat + 1) :
    PositionOk s' (if s.dirPin then net + 1 else net - 1) := by
  unfold PositionOk endPosition at h ⊢
  rw [hp, hd]
  cases hs : s.dirPin <;> simp only [hs, Bool.false_eq_true, if_false, if_true] at h ⊢ <;> omega

lemma remaining_loadMove (s : Stepper) (m : StepperMove) :
    remaining (loadMove s m) = m.count.toUInt32 := by
  have hm := m.count.toNat_lt
  have hdiv : m.count.toUInt32 * 2 / 2 = m.count.toUInt32 := by
    rw [← UInt32.toNat_inj, UInt32.toNat_div, UInt32.toNat_mul, UInt16.toNat_toUInt32]
    have htwo : (2 : UInt32).toNat = 2 := rfl
    rw [htwo]
    omega
  unfold remaining loadMove
  cases hs : s.singleSched <;> cases hd : m.dir <;> simp [hdiv]

lemma dirPin_loadMove (s : Stepper) (m : StepperMove) :
    (loadMove s m).dirPin = (s.dirPin != m.dir) := by
  unfold loadMove
  cases s.singleSched <;> cases hd : m.dir <;> simp

lemma position_loadMove (s : Stepper) (m : StepperMove) :
    (loadMove s m).position =
      (if m.dir then -s.position else s.position) + m.count.toUInt32 := by
  unfold loadMove
  cases s.singleSched <;> cases hd : m.dir <;> simp

lemma PositionOk.stepperLoadNext {s : Stepper} {net : Int} (h : PositionOk s net)
    (hz : (remaining s).toNat = 0) : PositionOk (stepperLoadNext s).1 net := by
  unfold PositionOk endPosition at h ⊢
  rw [hz] at h
  unfold Motion.stepperLoadNext
  split
  · have hr : (remaining { s with count := 0 }).toNat = 0 := by
      unfold remaining
      cases s.singleSched <;> simp
    rw [hr]
    exact h
  · rename_i m mq hq
    have hlt := s.position.toNat_lt
    have hm := m.count.toNat_lt
    simp only [remaining_loadMove, dirPin_loadMove, position_loadMove, UInt32.toNat_add,
      UInt16.toNat_toUInt32]
    cases hd : s.dirPin <;> cases hmd : m.dir <;>
      simp only [hd, bne_self_eq_false, Bool.false_eq_true, if_false, if_true,
        Bool.true_bne, Bool.bne_true, Bool.not_false, toNat_neg_eq] at h ⊢ <;>
      omega

lemma stepperLoadNext_count (s : Stepper) (c : UInt32) :
    stepperLoadNext { s with count := c } = stepperLoadNext s := by
  unfold stepperLoadNext
  cases s.mq with
  | nil => rfl
  | cons m mq =>
    simp only [loadMove]

lemma count_loadMove_ne (s : Stepper) (m : StepperMove) : (loadMove s m).count ≠ 0 := by
  have hm := m.count_ne
  have hlt := m.count.toNat_lt
  have hne : m.count.toNat ≠ 0 := fun h => hm (UInt16.toNat_inj.mp h)
  unfold loadMove
  rw [ne_eq, ← UInt32.toNat_inj]
  have htwo : (2 : UInt32).toNat = 2 := rfl
  cases s.singleSched <;> cases m.dir <;>
    simp only [Bool.false_eq_true, if_false, if_true, UInt32.toNat_mul, UInt16.toNat_toUInt32,
      UInt32.toNat_zero, htwo] <;> omega

lemma stepperLoadNext_result (s : Stepper) :
    (stepperLoadNext s).2 = .reschedule ↔ (stepperLoadNext s).1.count ≠ 0 := by
  unfold stepperLoadNext
  cases s.mq with
  | nil => simp
  | cons m mq => simp [count_loadMove_ne]

lemma toNat_sub_one {c : UInt32} (h : c ≠ 0) : (c - 1).toNat + 1 = c.toNat := by
  have hne : c.toNat ≠ 0 := fun he => h (UInt32.toNat_inj.mp he)
  have hlt := c.toNat_lt
  rw [UInt32.toNat_sub, UInt32.toNat_one]
  omega

/-- The position after the step pin was toggled. -/
def netAfter (s : Stepper) (net : Int) : Int :=
  if startsStep s then if s.dirPin then net + 1 else net - 1 else net

lemma stepperEventEdge_spec {s : Stepper} {net : Int} (h : PositionOk s net) (hc : s.count ≠ 0)
    (hs : s.singleSched = true) :
    PositionOk (stepperEventEdge s).1 (netAfter s net) ∧
      ((stepperEventEdge s).2 = .reschedule ↔ (stepperEventEdge s).1.count ≠ 0) := by
  have hcount := toNat_sub_one hc
  have hnet : netAfter s net = if s.dirPin then net + 1 else net - 1 := by
    simp [netAfter, startsStep, hs]
  have hstart : PositionOk { s with stepPin := !s.stepPin, count := s.count - 1 }
      (netAfter s net) := by
    rw [hnet]
    refine h.started rfl rfl ?_
    unfold remaining
    simp only [hs, if_true]
    omega
  unfold stepperEventEdge
  dsimp only
  by_cases hz : s.count - 1 ≠ 0
  · rw [if_pos hz]
    refine ⟨hstart.congr rfl rfl rfl, ?_⟩
    simpa using hz
  · rw [if_neg hz]
    refine ⟨?_, stepperLoadNext_result _⟩
    rw [← stepperLoadNext_count _ (s.count - 1)]
    apply hstart.stepperLoadNext
    unfold remaining
    simp only [hs, if_true]
    rw [not_not.mp hz]
    rfl

/-- A toggle of the step pin of a double scheduled stepper starts a step or ends one. -/
lemma PositionOk.edge {s : Stepper} {net : Int} (h : PositionOk s net) (hc : s.count ≠ 0)
    (hs : s.singleSched = false) :
    PositionOk { s with stepPin := !s.stepPin, count := s.count - 1 } (netAfter s net) := by
  have hcount := toNat_sub_one hc
  have hrem : (remaining s).toNat = s.count.toNat / 2 := by
    simp [remaining, hs]
  have hrem' : (remaining { s with stepPin := !s.stepPin, count := s.count - 1 }).toNat =
      (s.count - 1).toNat / 2 := by
    simp [remaining, hs]
  have hnet : netAfter s net =
      if s.count &&& 1 = 0 then if s.dirPin then net + 1 else net - 1 else net := by
    simp [netAfter, startsStep, hs]
  rw [hnet]
  split
  · rename_i heven
    rw [and_one_eq_zero_iff] at heven
    refine h.started rfl rfl ?_
    omega
  · rename_i hodd
    rw [and_one_eq_zero_iff] at hodd
    refine h.congr rfl rfl ?_
    rw [← UInt32.toNat_inj]
    omega

lemma stepperEventFull_spec {s : Stepper} {net : Int} (curtime : UInt32) (h : PositionOk s net)
    (hc : s.count ≠ 0) (hs : s.singleSched = false) :
    (∀ r, stepperEventFull s curtime = .ok r → PositionOk r.1 (netAfter s net) ∧
      (r.2 = .reschedule ↔ r.1.count ≠ 0)) ∧
    ∀ st, stepperEventFull s curtime = .error st → PositionOk st (netAfter s net) := by
  have hstart := h.edge hc hs
  unfold stepperEventFull
  dsimp only
  by_cases hodd : s.count - 1 &&& 1 ≠ 0
  · rw [if_pos hodd]
    refine ⟨?_, by simp⟩
    intro r hr
    cases hr
    refine ⟨hstart.congr rfl rfl rfl, ?_⟩
    have hne : s.count - 1 ≠ 0 := by
      intro he
      rw [he] at hodd
      exact hodd (by decide)
    simpa using hne
  · rw [if_neg hodd]
    by_cases hz : s.count - 1 ≠ 0
    · rw [if_pos hz]
      split
      · refine ⟨?_, by simp⟩
        intro r hr
        cases hr
        exact ⟨hstart.congr rfl rfl rfl, by simpa using hz⟩
      · refine ⟨?_, by simp⟩
        intro r hr
        cases hr
        exact ⟨hstart.congr rfl rfl rfl, by simpa using hz⟩
    · rw [if_neg hz]
      have hload := hstart.stepperLoadNext (by
        simp [remaining, hs, not_not.mp hz])
      have hres := stepperLoadNext_result { s with stepPin := !s.stepPin, count := s.count - 1 }
      split
      · refine ⟨?_, by simp⟩
        intro r hr
        cases hr
        exact ⟨hload, hres⟩
      · rename_i hnot
        split
        · refine ⟨by simp, ?_⟩
          intro st hst
          cases hst
          exact hload
        · refine ⟨?_, by simp⟩
          intro r hr
          cases hr
          refine ⟨hload.congr rfl rfl rfl, ?_⟩
          have hdone : (stepperLoadNext
              { s with stepPin := !s.stepPin, count := s.count - 1 }).2 = .reschedule := by
            cases hr2 : (stepperLoadNext
              { s with stepPin := !s.stepPin, count := s.count - 1 }).2 with
            | done => exact absurd (Or.inl hr2) hnot
            | reschedule => rfl
          simpa using hres.mp hdone

lemma PositionOk.stepperStop {s : Stepper} {net : Int} (h : PositionOk s net)
    (hnet : net.natAbs < 2 ^ 30) : PositionOk (stepperStop s) net := by
  have hget := stepperGetPosition_eq h hnet
  have hlt := (stepperGetPosition s).toNat_lt
  have hz : (remaining (Motion.stepperStop s)).toNat = 0 := by
    unfold remaining Motion.stepperStop
    cases s.singleSched <;> simp
  unfold PositionOk endPosition
  rw [hz]
  simp only [Motion.stepperStop, Bool.false_eq_true, if_false, toNat_neg_eq]
  omega

structure Inv (s : State) : Prop where
  position : PositionOk s.stepper s.net
  scheduled : s.stepper.scheduled = true → s.stepper.count ≠ 0
  net_lt : s.net.natAbs < 2 ^ 30

section Steps

variable {s : State}

lemma Inv.stop (h : Inv s) : Inv { s with stepper := stepperStop s.stepper } :=
  ⟨h.position.stepperStop h.net_lt, by simp [stepperStop], h.net_lt⟩

lemma shutdown_inv {st : Stepper} (h : PositionOk st s.net) (hnet : s.net.natAbs < 2 ^ 30) :
    Inv { s with stepper := stepperShutdown st } := by
  refine ⟨?_, by simp [stepperShutdown, stepperStop], hnet⟩
  have hq : PositionOk { st with mq := [] } s.net := h.congr rfl rfl rfl
  exact hq.stepperStop hnet

lemma queueMove_inv {interval : UInt32} {add : Int16} {count : UInt16} (hc : count ≠ 0)
    (h : Inv s) : Inv { s with stepper := queueMove s.stepper interval add count hc } := by
  unfold queueMove
  dsimp only
  by_cases hn : s.stepper.count ≠ 0
  · simp only [hn, if_true, ne_eq, not_false_eq_true]
    exact ⟨h.position.congr rfl rfl rfl, fun _ => hn, h.net_lt⟩
  · rw [if_neg hn]
    split
    · exact h
    · refine ⟨?_, ?_, h.net_lt⟩
      · have hz : (remaining s.stepper).toNat = 0 := by
          unfold remaining
          rw [not_not.mp hn]
          cases s.stepper.singleSched <;> simp
        have hq : ∀ last mq, PositionOk { s.stepper with lastDir := last, mq := mq } s.net :=
          fun last mq => h.position.congr rfl rfl rfl
        have hsched : ∀ st, PositionOk st s.net → PositionOk { st with scheduled := true } s.net :=
          fun st hst => hst.congr rfl rfl rfl
        exact hsched _ ((hq _ _).stepperLoadNext hz)
      · intro _
        apply (stepperLoadNext_result _).mp
        unfold stepperLoadNext
        cases s.stepper.mq <;> rfl

lemma countStep_net (s : State) : s.countStep.net = netAfter s.stepper s.net := by
  unfold State.countStep netAfter State.net
  cases startsStep s.stepper <;> cases s.stepper.dirPin <;> simp <;> omega

lemma Inv.event {curtime : UInt32} (h : Inv s) (hs : s.stepper.scheduled = true)
    (hnet : (s.countStep.leave (eventStep s.stepper curtime)).net.natAbs < 2 ^ 30) :
    Inv (s.countStep.leave (eventStep s.stepper curtime)) := by
  have hc := h.scheduled hs
  have hspec : (∀ r, stepperEvent s.stepper curtime = .ok r →
      PositionOk r.1 s.countStep.net ∧ (r.2 = .reschedule ↔ r.1.count ≠ 0)) ∧
      ∀ st, stepperEvent s.stepper curtime = .error st → PositionOk st s.countStep.net := by
    rw [countStep_net]
    unfold stepperEvent
    cases hm : s.stepper.singleSched with
    | true =>
      refine ⟨?_, by simp⟩
      intro r hr
      cases hr
      exact stepperEventEdge_spec h.position hc hm
    | false => exact stepperEventFull_spec curtime h.position hc hm
  cases hev : stepperEvent s.stepper curtime with
  | ok r =>
    obtain ⟨hpos, hres⟩ := hspec.1 r hev
    simp only [eventStep, hev, Except.map, State.leave] at hnet ⊢
    refine ⟨hpos.congr rfl rfl rfl, ?_, hnet⟩
    intro hr
    exact hres.mp (of_decide_eq_true hr)
  | error st =>
    have hpos := hspec.2 st hev
    simp only [eventStep, hev, Except.map, State.leave] at hnet ⊢
    exact shutdown_inv hpos hnet

lemma Inv.step {a : Action} {s' : State} (h : Inv s) (hl : Legal s a)
    (hs : Motion.step s a = some s') : Inv s' := by
  unfold Legal at hl
  rw [hs, Option.all_some, decide_eq_true_eq] at hl
  cases a with
  | setNextStepDir dir =>
    cases hs
    exact ⟨h.position.congr rfl rfl rfl, h.scheduled, h.net_lt⟩
  | queueStep interval count add =>
    cases hs
    unfold commandQueueStep
    split
    · exact shutdown_inv h.position h.net_lt
    · exact queueMove_inv _ h
  | event curtime =>
    rw [Motion.step] at hs
    split at hs
    · rename_i hsched
      cases hs
      exact h.event hsched hl
    · cases hs
  | resetStepClock clock =>
    cases hs
    unfold commandResetStepClock
    split
    · exact shutdown_inv h.position h.net_lt
    · exact ⟨h.position.congr rfl rfl rfl, h.scheduled, h.net_lt⟩
  | stop =>
    cases hs
    exact h.stop
  | shutdown =>
    cases hs
    exact shutdown_inv h.position h.net_lt

end Steps

lemma inv_config (invertStep : Int) (stepPulseTicks : UInt32) :
    Inv (config invertStep stepPulseTicks) := by
  refine ⟨?_, by simp [config, commandConfigStepper], by simp [config, State.net]⟩
  have hz : remaining (config invertStep stepPulseTicks).stepper = 0 := by
    simp [remaining, config, commandConfigStepper]
  unfold PositionOk endPosition
  rw [hz]
  simp only [config, commandConfigStepper, State.net, Bool.false_eq_true, if_false]
  decide

/-- At every point of a run the reported position is the number of steps started with the
direction pin high minus the number started with it low. -/
theorem position_of_run {invertStep : Int} {stepPulseTicks : UInt32} {actions : List Action}
    {s : State} (h : Run step Legal (config invertStep stepPulseTicks) actions s) :
    (stepperGetPosition s.stepper - positionBias).toInt32.toInt = s.high - s.low := by
  have hi : Inv s := by
    refine h.invariant (inv_config invertStep stepPulseTicks) ?_
    exact fun s a s' hi hl hs => hi.step hl hs
  have hget := stepperGetPosition_eq hi.position hi.net_lt
  have hnet := hi.net_lt
  have hbias : positionBias.toNat = 2 ^ 30 := rfl
  have hlt := (stepperGetPosition s.stepper).toNat_lt
  change _ = s.net
  rw [← Int32.toInt_toBitVec, UInt32.toBitVec_toInt32, BitVec.toInt_eq_toNat_cond]
  simp only [UInt32.toNat_toBitVec, UInt32.toNat_sub, hbias]
  split <;> omega

/-- Two moves in opposite directions, the second one stopped after its first step. -/
def thereAndBack : List Action :=
  [.resetStepClock 1000, .setNextStepDir 1, .queueStep 100 3 0, .event 1100, .event 1200,
    .setNextStepDir 0, .queueStep 50 2 5, .event 1300, .event 1350, .stop]

theorem position_of_run_thereAndBack :
    ∃ s, Run step Legal (config (-1) 0) thereAndBack s ∧ s.high = 3 ∧ s.low = 1 ∧
      (stepperGetPosition s.stepper - positionBias).toInt32.toInt = 2 := by
  obtain ⟨s, hs, hp⟩ : ∃ s, Run step Legal (config (-1) 0) thereAndBack s ∧
      decide (s.high = 3 ∧ s.low = 1) :=
    Run.exists_of_exec thereAndBack _ (by decide +kernel)
  obtain ⟨hh, hl⟩ := of_decide_eq_true hp
  refine ⟨s, hs, hh, hl, ?_⟩
  rw [position_of_run hs, hh, hl]
  rfl

end KlipperMcu.Motion
