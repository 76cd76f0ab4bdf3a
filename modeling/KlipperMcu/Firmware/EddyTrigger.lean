import KlipperMcu.Firmware.Eddy
import KlipperMcu.Lib.LowPass
import KlipperMcu.Lib.Run
import KlipperMcu.Lib.Word

/-!
# The virtual endstop of the eddy probe

When `ff_eddy_check_trigger` changes the level of the virtual pin. The two counters are cleared on
different branches, so what they count depends on the level of the pin.
-/

namespace KlipperMcu.Eddy

open Lib

/-! ### The deviation and its filter -/

lemma toInt32_neg_iff (d : UInt32) : d.toInt32 < 0 ↔ 2 ^ 31 ≤ d.toNat := by
  have hd := d.toNat_lt
  rw [Int32.lt_iff_toInt_lt, ← Int32.toInt_toBitVec, UInt32.toBitVec_toInt32,
    BitVec.toInt_eq_toNat_cond, UInt32.toNat_toBitVec]
  have hzero : (0 : Int32).toInt = 0 := rfl
  rw [hzero]
  split <;> omega

lemma toNat_absLow {value baseline : UInt32}
    (h : ((value.toNat : Int) - baseline.toNat).natAbs < 2 ^ 16) :
    (absLow (value - baseline)).toNat = ((value.toNat : Int) - baseline.toNat).natAbs := by
  have hv := value.toNat_lt
  have hb := baseline.toNat_lt
  have hsub := UInt32.toNat_sub value baseline
  unfold absLow
  split
  · rename_i hneg
    rw [toInt32_neg_iff] at hneg
    rw [UInt32.toNat_toUInt16, toNat_neg_eq]
    omega
  · rename_i hneg
    rw [toInt32_neg_iff] at hneg
    rw [UInt32.toNat_toUInt16]
    omega

lemma trigFilter_eq (acc : Int) (dev : UInt32) :
    trigFilter acc dev = lowPass 4 ((dev.toNat : Int) * 16) acc := by
  unfold trigFilter lowPass
  rw [Int.shiftRight_eq_div_pow]
  rfl

lemma trigFilter_nonneg {acc : Int} (h : 0 ≤ acc) (dev : UInt32) : 0 ≤ trigFilter acc dev := by
  rw [trigFilter_eq]
  apply lowPass_nonneg
  · decide
  · omega
  · exact h

lemma toInt_sub_two {thr : Int16} (h : 0 < thr.toInt) : (thr - 2).toInt = thr.toInt - 2 := by
  have hlt := thr.toInt_lt
  have htwo : (2 : Int16).toInt = 2 := rfl
  rw [Int16.toInt_sub, htwo]
  exact Int.bmod_eq_of_le (by omega) (by omega)

/-! ### What a step does to the pin and its counters -/

/-- The variables that only `ff_eddy_check_trigger` and the resets write. -/
structure SameTrigger (p p' : Probe) : Prop where
  pinState : p'.pinState = p.pinState
  trigCount : p'.trigCount = p.trigCount
  untrigCount : p'.untrigCount = p.untrigCount
  trigAcc : p'.trigAcc = p.trigAcc

variable {p p' p'' : Probe} {s s' : State}

lemma SameTrigger.trans (h : SameTrigger p p') (h' : SameTrigger p' p'') : SameTrigger p p'' :=
  ⟨h'.pinState.trans h.pinState, h'.trigCount.trans h.trigCount,
    h'.untrigCount.trans h.untrigCount, h'.trigAcc.trans h.trigAcc⟩

lemma sameTrigger_updateStore (p : Probe) : SameTrigger p (updateStore p).1 := by
  unfold updateStore
  dsimp only
  split_ifs <;> exact ⟨rfl, rfl, rfl, rfl⟩

lemma sameTrigger_stored (p : Probe) : SameTrigger p (stored p) :=
  (sameTrigger_updateStore p).trans ⟨rfl, rfl, rfl, rfl⟩

lemma sameTrigger_ffEddyUpdate (p : Probe) (now : UInt32) :
    SameTrigger p (ffEddyUpdate p now).1 := by
  have hstored := sameTrigger_stored p
  have h := updateStep p now
  generalize ffEddyUpdate p now = r at h ⊢
  cases h with
  | unready => exact ⟨rfl, rfl, rfl, rfl⟩
  | filling => exact hstored
  | _ => exact hstored.trans ⟨rfl, rfl, rfl, rfl⟩

lemma sameTrigger_ffEddyTimerEvent (p : Probe) (now : UInt32) :
    SameTrigger p (ffEddyTimerEvent p now).1 := by
  unfold ffEddyTimerEvent ffEddyTimerEventWith
  dsimp only
  split_ifs
  · exact (sameTrigger_ffEddyUpdate p now).trans ⟨rfl, rfl, rfl, rfl⟩
  · exact sameTrigger_ffEddyUpdate p now

/-- The probe after a deviation was filtered. -/
def measured (p : Probe) (value baseline : UInt32) : Probe :=
  { p with
    peel := (value - baseline).toInt32.toInt
    lastDev := (absLow (value - baseline)).toUInt32
    trigAcc := trigFilter p.trigAcc (absLow (value - baseline)).toUInt32 }

lemma check_of_valid {value baseline : UInt32} {thr : Int16} (h : ffEddyValueBad value = false) :
    check p value baseline thr =
      (debounce (measured p value baseline) ((measured p value baseline).trigAcc >>> (4 : Nat)) thr,
        some (.filtered ((measured p value baseline).trigAcc >>> (4 : Nat)) thr.toInt)) := by
  rw [check, h]
  rfl

/-- The detector is back in the untriggered state. -/
structure Reset (p : Probe) : Prop where
  pinState : p.pinState = true
  trigCount : p.trigCount = 0
  untrigCount : p.untrigCount = 0
  trigAcc : p.trigAcc = 0

/-- Whether the rest of an evaluation is to be run, and if so after a hard trigger. -/
def Task.IsCheck : Task → Prop
  | .check _ _ _ => True
  | .checkHard _ _ => True
  | _ => False

def Task.IsHard : Task → Prop
  | .checkHard _ _ => True
  | _ => False

/-- What a step can do to the pin, its counters and the record of evaluations. -/
inductive TriggerStep (s : State) (a : Action) (s' : State) : Prop
  | same (h : SameTrigger s.probe s'.probe) (hevals : s'.evals = s.evals)
  | release (ha : a = .start (.endstopHome 0)) (h : s'.probe = { s.probe with pinState := true })
      (hevals : s'.evals = s.evals)
  | reset (htask : a = .resume → ¬s.task.IsCheck) (h : Reset s'.probe) (hevals : s'.evals = s.evals)
  | forced (htask : s.task.IsHard) (state : Bool)
      (h : s'.probe = { s.probe with
        pinState := if state then false else s.probe.pinState, trigCount := 0, untrigCount := 0 })
      (hevals : s'.evals = .forced :: s.evals)
  | filtered (value baseline : UInt32) (thr : Int16)
      (h : s'.probe = debounce (measured s.probe value baseline)
        ((measured s.probe value baseline).trigAcc >>> (4 : Nat)) thr)
      (hevals : s'.evals =
        .filtered ((measured s.probe value baseline).trigAcc >>> (4 : Nat)) thr.toInt :: s.evals)

lemma triggerStep_start {call : Call} (h : s.start call = some s') :
    TriggerStep s (.start call) s' := by
  cases call with
  | checkTrigger =>
    obtain rfl := Option.some.inj h
    apply TriggerStep.same
    · dsimp only
      unfold checkTriggerStart
      split_ifs <;> exact ⟨rfl, rfl, rfl, rfl⟩
    · rfl
  | endstopHome sampleCount =>
    obtain rfl := Option.some.inj h
    by_cases hzero : sampleCount = 0
    · subst hzero
      exact .release rfl rfl rfl
    · apply TriggerStep.reset
      · intro ha
        cases ha
      · dsimp only
        rw [if_neg hzero]
        exact ⟨rfl, rfl, rfl, rfl⟩
      · rfl
  | endstopRecoverState =>
    obtain rfl := Option.some.inj h
    exact .reset (fun ha => by cases ha) ⟨rfl, rfl, rfl, rfl⟩ rfl
  | removePeel =>
    obtain rfl := Option.some.inj h
    exact .same ⟨rfl, rfl, rfl, rfl⟩ rfl
  | getBasicParam =>
    obtain rfl := Option.some.inj h
    exact .same ⟨rfl, rfl, rfl, rfl⟩ rfl
  | setTriggerThreshold threshold =>
    obtain rfl := Option.some.inj h
    exact .same ⟨rfl, rfl, rfl, rfl⟩ rfl

lemma triggerStep_resume (h : s.resume = some s') : TriggerStep s .resume s' := by
  unfold State.resume at h
  cases htask : s.task <;> simp only [htask, Option.some.injEq, reduceCtorEq] at h
  case checkHard value state =>
    subst h
    cases hbad : ffEddyValueBad value with
    | true =>
      rw [checkHard, if_pos hbad]
      exact .same ⟨rfl, rfl, rfl, rfl⟩ rfl
    | false =>
      rw [checkHard, if_neg (Bool.not_eq_true _ ▸ hbad)]
      refine .forced ?_ state rfl rfl
      rw [htask]
      trivial
  case check value baseline thr =>
    subst h
    cases hbad : ffEddyValueBad value with
    | true =>
      rw [check, if_pos hbad]
      exact .same ⟨rfl, rfl, rfl, rfl⟩ rfl
    | false =>
      rw [check_of_valid hbad]
      exact .filtered value baseline thr rfl rfl
  case getValue baseline =>
    subst h
    exact .same ⟨rfl, rfl, rfl, rfl⟩ rfl
  case getBasicParam baseline value =>
    subst h
    exact .same ⟨rfl, rfl, rfl, rfl⟩ rfl
  case rebaseline baseline value =>
    subst h
    apply TriggerStep.reset
    · intro _
      rw [htask]
      exact id
    · exact ⟨rfl, rfl, rfl, rfl⟩
    · rfl
  case removePeel peel value =>
    subst h
    exact .same ⟨rfl, rfl, rfl, rfl⟩ rfl

lemma triggerStep {a : Action} (h : step s a = some s') : TriggerStep s a s' := by
  cases a with
  | tick cycles =>
    obtain rfl := Option.some.inj h
    exact .same ⟨rfl, rfl, rfl, rfl⟩ rfl
  | capture cnt =>
    obtain rfl := Option.some.inj h
    exact .same ⟨rfl, rfl, rfl, rfl⟩ rfl
  | timer =>
    obtain rfl := Option.some.inj h
    exact .same (sameTrigger_ffEddyTimerEvent _ _) rfl
  | start call =>
    obtain ⟨-, h⟩ := Option.ite_none_right_eq_some.mp h
    exact triggerStep_start h
  | resume => exact triggerStep_resume h

/-! ### Consecutive evaluations -/

/-- At or above the threshold in force. -/
def Eval.Above : Eval → Prop
  | .forced => False
  | .filtered value thr => thr ≤ value

/-- Below the threshold in force minus the hysteresis. -/
def Eval.Below : Eval → Prop
  | .forced => False
  | .filtered value thr => value < thr - 2

/-- The last `n` evaluations have property `P`. -/
def Latest (P : Eval → Prop) (n : Nat) (evals : List Eval) : Prop :=
  n ≤ evals.length ∧ ∀ e ∈ evals.take n, P e

variable {P : Eval → Prop} {n : Nat} {evals : List Eval}

lemma latest_zero : Latest P 0 evals := ⟨Nat.zero_le _, fun _ he => absurd he List.not_mem_nil⟩

lemma Latest.cons {e : Eval} (h : Latest P n evals) (he : P e) : Latest P (n + 1) (e :: evals) := by
  refine ⟨Nat.succ_le_succ h.1, fun e' hmem => ?_⟩
  rw [List.take_succ_cons] at hmem
  rcases List.mem_cons.mp hmem with rfl | hmem
  · exact he
  · exact h.2 e' hmem

lemma Latest.mono {m : Nat} (h : Latest P n evals) (hm : m ≤ n) : Latest P m evals := by
  refine ⟨hm.trans h.1, fun e he => h.2 e ?_⟩
  rw [← Nat.min_eq_left hm, ← List.take_take] at he
  exact List.mem_of_mem_take he

lemma debounce_above {filtered : Int} {thr : Int16} (h : thr.toInt ≤ filtered) :
    debounce p filtered thr =
      if p.trigCount + 1 < 4 then { p with untrigCount := 0, trigCount := p.trigCount + 1 }
      else { p with untrigCount := 0, pinState := false, trigCount := 4 } := by
  rw [debounce, if_pos h]

lemma debounce_below {filtered : Int} {thr : Int16} (h : filtered < (thr - 2).toInt)
    (hlt : filtered < thr.toInt) :
    debounce p filtered thr =
      if p.untrigCount + 1 < 3 then { p with trigCount := 0, untrigCount := p.untrigCount + 1 }
      else { p with trigCount := 0, pinState := true, untrigCount := 3 } := by
  rw [debounce, if_neg (not_le.mpr hlt), if_pos h]

lemma debounce_between {filtered : Int} {thr : Int16} (h : ¬filtered < (thr - 2).toInt)
    (hlt : filtered < thr.toInt) :
    debounce p filtered thr =
      if p.pinState then { p with trigCount := 0 } else { p with untrigCount := 0 } := by
  rw [debounce, if_neg (not_le.mpr hlt), if_neg h]

lemma toNat_add_one {c : UInt8} (h : c.toNat ≤ 4) : (c + 1).toNat = c.toNat + 1 := by
  rw [UInt8.toNat_add]
  have hone : (1 : UInt8).toNat = 1 := rfl
  omega

lemma trigAcc_debounce (value : Int) (thr : Int16) : (debounce p value thr).trigAcc = p.trigAcc := by
  unfold debounce
  dsimp only
  split_ifs <;> rfl

/-- While the pin is triggered, `untrigCount` counts the last evaluations below the threshold. -/
structure Releases (p : Probe) (evals : List Eval) : Prop where
  acc : 0 ≤ p.trigAcc
  count : p.untrigCount.toNat ≤ 3
  below : p.pinState = false → Latest Eval.Below p.untrigCount.toNat evals

/-- While the pin is not triggered, `trigCount` counts the last evaluations above the threshold. -/
structure Triggers (p : Probe) (evals : List Eval) : Prop where
  count : p.trigCount.toNat ≤ 4
  above : p.pinState = true → Latest Eval.Above p.trigCount.toNat evals

lemma Releases.debounce {value : Int} (h : Releases p evals) (hvalue : 0 ≤ value) (thr : Int16) :
    Releases (debounce p value thr) (.filtered value thr.toInt :: evals) ∧
    (p.pinState = false → (Eddy.debounce p value thr).pinState = true →
      Latest Eval.Below 3 (.filtered value thr.toInt :: evals)) := by
  have hadd := toNat_add_one (h.count.trans (by decide : 3 ≤ 4))
  by_cases habove : thr.toInt ≤ value
  · rw [debounce_above habove]
    split_ifs
    · exact ⟨⟨h.acc, Nat.zero_le _, fun _ => latest_zero⟩,
        fun hpin hpin' => Bool.noConfusion (hpin'.symm.trans hpin)⟩
    · exact ⟨⟨h.acc, Nat.zero_le _, fun _ => latest_zero⟩, fun _ hpin' => hpin'.elim⟩
  have hlt := not_le.mp habove
  by_cases hclear : value < (thr - 2).toInt
  · have hbelow : Eval.Below (.filtered value thr.toInt) := by
      rw [toInt_sub_two (hvalue.trans_lt hlt)] at hclear
      exact hclear
    rw [debounce_below hclear hlt]
    split_ifs with hthree
    · refine ⟨⟨h.acc, ?_, fun hpin => ?_⟩, fun hpin hpin' => Bool.noConfusion (hpin'.symm.trans hpin)⟩
      · rw [UInt8.lt_iff_toNat_lt] at hthree
        exact hthree.le
      · dsimp only
        rw [hadd]
        exact (h.below hpin).cons hbelow
    · refine ⟨⟨h.acc, le_refl 3, fun hpin => Bool.noConfusion hpin⟩, fun hpin _ => ?_⟩
      rw [UInt8.lt_iff_toNat_lt, hadd, not_lt] at hthree
      exact ((h.below hpin).cons hbelow).mono hthree
  · rw [debounce_between hclear hlt]
    split_ifs with hpin
    · exact ⟨⟨h.acc, h.count, fun hpin' => Bool.noConfusion (hpin.symm.trans hpin')⟩,
        fun hpin' => Bool.noConfusion (hpin.symm.trans hpin')⟩
    · exact ⟨⟨h.acc, Nat.zero_le _, fun _ => latest_zero⟩, fun _ hpin' => absurd hpin' hpin⟩

lemma Triggers.debounce (h : Triggers p evals) (value : Int) (thr : Int16) :
    Triggers (debounce p value thr) (.filtered value thr.toInt :: evals) ∧
    (p.pinState = true → (Eddy.debounce p value thr).pinState = false →
      Latest Eval.Above 4 (.filtered value thr.toInt :: evals)) := by
  have hadd := toNat_add_one h.count
  by_cases hle : thr.toInt ≤ value
  · have habove : Eval.Above (.filtered value thr.toInt) := hle
    rw [debounce_above hle]
    split_ifs with hfour
    · refine ⟨⟨?_, fun hpin => ?_⟩, fun hpin hpin' => Bool.noConfusion (hpin'.symm.trans hpin)⟩
      · rw [UInt8.lt_iff_toNat_lt] at hfour
        exact hfour.le
      · dsimp only
        rw [hadd]
        exact (h.above hpin).cons habove
    · refine ⟨⟨le_refl 4, fun hpin => Bool.noConfusion hpin⟩, fun hpin _ => ?_⟩
      rw [UInt8.lt_iff_toNat_lt, hadd, not_lt] at hfour
      exact ((h.above hpin).cons habove).mono hfour
  have hlt := not_le.mp hle
  by_cases hclear : value < (thr - 2).toInt
  · rw [debounce_below hclear hlt]
    split_ifs
    · exact ⟨⟨Nat.zero_le _, fun _ => latest_zero⟩,
        fun hpin hpin' => Bool.noConfusion (hpin'.symm.trans hpin)⟩
    · exact ⟨⟨Nat.zero_le _, fun _ => latest_zero⟩, fun _ hpin' => hpin'.elim⟩
  · rw [debounce_between hclear hlt]
    split_ifs with hpin
    · exact ⟨⟨Nat.zero_le _, fun _ => latest_zero⟩,
        fun hpin hpin' => Bool.noConfusion (hpin'.symm.trans hpin)⟩
    · exact ⟨⟨h.count, fun hpin' => absurd hpin' hpin⟩, fun hpin' => absurd hpin' hpin⟩

lemma Releases.congr (h : Releases p evals) (hpin : p'.pinState = p.pinState)
    (huntrig : p'.untrigCount = p.untrigCount) (hacc : 0 ≤ p'.trigAcc) : Releases p' evals where
  acc := hacc
  count := by
    rw [huntrig]
    exact h.count
  below := by
    rw [hpin, huntrig]
    exact h.below

lemma Releases.measured (h : Releases p evals) (value baseline : UInt32) :
    Releases (measured p value baseline) evals :=
  h.congr rfl rfl (trigFilter_nonneg h.acc _)

lemma Triggers.congr (h : Triggers p evals) (hpin : p'.pinState = p.pinState)
    (htrig : p'.trigCount = p.trigCount) : Triggers p' evals where
  count := by
    rw [htrig]
    exact h.count
  above := by
    rw [hpin, htrig]
    exact h.above

lemma filtered_nonneg {acc : Int} (h : 0 ≤ acc) : 0 ≤ acc >>> (4 : Nat) := by
  rw [Int.shiftRight_eq_div_pow]
  exact Int.ediv_nonneg h (by decide)

lemma Releases.step {a : Action} (h : Releases s.probe s.evals) (hs : step s a = some s') :
    Releases s'.probe s'.evals := by
  cases triggerStep hs with
  | same hsame hevals =>
    rw [hevals]
    exact h.congr hsame.pinState hsame.untrigCount (hsame.trigAcc ▸ h.acc)
  | release _ hprobe hevals =>
    rw [hprobe, hevals]
    exact ⟨h.acc, h.count, fun hpin => Bool.noConfusion hpin⟩
  | reset _ hreset _ =>
    refine ⟨hreset.trigAcc.ge, ?_, fun hpin => Bool.noConfusion (hreset.pinState.symm.trans hpin)⟩
    rw [hreset.untrigCount]
    decide
  | forced _ _ hprobe _ =>
    rw [hprobe]
    exact ⟨h.acc, Nat.zero_le _, fun _ => latest_zero⟩
  | filtered value baseline thr hprobe hevals =>
    have hm := h.measured value baseline
    rw [hprobe, hevals]
    exact (hm.debounce (filtered_nonneg hm.acc) thr).1

/-- The endstop is not disabled while the pin is triggered. -/
def KeepsPin (s : State) (a : Action) : Prop :=
  a = .start (.endstopHome 0) → s.probe.pinState = true

lemma Triggers.step {a : Action} (h : Triggers s.probe s.evals) (ha : KeepsPin s a)
    (hs : step s a = some s') : Triggers s'.probe s'.evals := by
  cases triggerStep hs with
  | same hsame hevals =>
    rw [hevals]
    exact h.congr hsame.pinState hsame.trigCount
  | release hstart hprobe hevals =>
    rw [hevals]
    refine h.congr ?_ ?_
    · rw [hprobe, ha hstart]
    · rw [hprobe]
  | reset _ hreset _ =>
    refine ⟨?_, fun _ => ?_⟩
    · rw [hreset.trigCount]
      decide
    · rw [hreset.trigCount]
      exact latest_zero
  | forced _ _ hprobe _ =>
    rw [hprobe]
    exact ⟨Nat.zero_le _, fun _ => latest_zero⟩
  | filtered value baseline thr hprobe hevals =>
    have hm : Triggers (measured s.probe value baseline) s.evals := h.congr rfl rfl
    rw [hprobe, hevals]
    exact (hm.debounce _ thr).1

/-- An evaluation releases the pin only after three filtered deviations in a row below the threshold
minus the hysteresis, and triggers it, hard triggers apart, only after four in a row at or above the
threshold. The latter needs that the endstop was never disabled while the pin was triggered. -/
theorem debounced_of_run {actions : List Action}
    (h : Run step (fun _ _ => True) {} actions s) (htask : s.task.IsCheck)
    (hs : step s .resume = some s') :
    (s.probe.pinState = false → s'.probe.pinState = true → Latest Eval.Below 3 s'.evals) ∧
    (Run step KeepsPin {} actions s → ¬s.task.IsHard → s.probe.pinState = true →
      s'.probe.pinState = false → Latest Eval.Above 4 s'.evals) := by
  have hreleases : Releases s.probe s.evals := by
    apply h.invariant
    · exact ⟨le_refl 0, Nat.zero_le _, fun hpin => Bool.noConfusion hpin⟩
    · intro s a s' hi _ hs
      exact hi.step hs
  cases triggerStep hs with
  | same hsame _ =>
    have hpin := hsame.pinState
    refine ⟨fun hfalse htrue => ?_, fun _ _ htrue hfalse => ?_⟩
    · rw [hpin, hfalse] at htrue
      cases htrue
    · rw [hpin, htrue] at hfalse
      cases hfalse
  | release hstart => cases hstart
  | reset hnot => exact absurd htask (hnot rfl)
  | forced hhard state hprobe _ =>
    refine ⟨fun hfalse htrue => ?_, fun _ hnot => absurd hhard hnot⟩
    rw [hprobe] at htrue
    simp only [hfalse, ite_self, Bool.false_eq_true] at htrue
  | filtered value baseline thr hprobe hevals =>
    rw [hprobe, hevals]
    refine ⟨fun hfalse htrue => ?_, fun hrun _ htrue hfalse => ?_⟩
    · have hm := hreleases.measured value baseline
      exact (hm.debounce (filtered_nonneg hm.acc) thr).2 hfalse htrue
    · have htriggers : Triggers s.probe s.evals := by
        apply hrun.invariant
        · exact ⟨Nat.zero_le _, fun _ => latest_zero⟩
        · intro s a s' hi ha hs
          exact hi.step ha hs
      have hm : Triggers (measured s.probe value baseline) s.evals := htriggers.congr rfl rfl
      exact (hm.debounce _ thr).2 htrue hfalse

instance Eval.decidableAbove (e : Eval) : Decidable e.Above :=
  match e with
  | .forced => instDecidableFalse
  | .filtered value thr => inferInstanceAs (Decidable (thr ≤ value))

instance decidableLatest [DecidablePred P] : Decidable (Latest P n evals) :=
  inferInstanceAs (Decidable (_ ∧ _))

instance decidableKeepsPin (s : State) (a : Action) : Decidable (KeepsPin s a) :=
  inferInstanceAs (Decidable (_ → _))

/-- A capture and its evaluation, which is not interrupted. -/
def evaluation (cnt : UInt16) : List Action := [.capture cnt, .start .checkTrigger, .resume]

theorem debounced_of_run_fourth : ∃ actions s s', Run step KeepsPin {} actions s ∧ s.task.IsCheck ∧
    ¬s.task.IsHard ∧ step s .resume = some s' ∧ s.probe.pinState = true ∧
    s'.probe.pinState = false ∧ Latest Eval.Above 4 s'.evals := by
  obtain ⟨s, hrun, hp⟩ : ∃ s, Run step KeepsPin {} (evaluation 100 ++ evaluation 200 ++
      evaluation 300 ++ [.capture 400, .start .checkTrigger]) s ∧
      decide (s.task = .check 100 0 25 ∧ s.probe.pinState = true ∧
        (step s .resume).any (fun s' => !s'.probe.pinState) = true) = true :=
    Run.exists_of_exec _ _ (by decide +kernel)
  obtain ⟨htask, hpin, hs⟩ := of_decide_eq_true hp
  obtain ⟨s', hs, hpin'⟩ := (Option.any_eq_true _ _).mp hs
  have hcheck : s.task.IsCheck := by
    rw [htask]
    trivial
  have hsoft : ¬s.task.IsHard := by
    rw [htask]
    exact id
  have hpin' : s'.probe.pinState = false := by simpa using hpin'
  exact ⟨_, s, s', hrun, hcheck, hsoft, hs, hpin, hpin',
    (debounced_of_run (hrun.mono fun _ _ _ => trivial) hcheck hs).2 hrun hsoft hpin hpin'⟩

/-- The endstop is disabled while the pin is triggered and the filtered deviation is between the two
levels. The next evaluation above the threshold triggers the pin again. -/
theorem triggered_by_one : ∃ actions s s', Run step (fun _ _ => True) {} actions s ∧
    s.task.IsCheck ∧ ¬s.task.IsHard ∧ step s .resume = some s' ∧ s.probe.pinState = true ∧
    s'.probe.pinState = false ∧ ¬Latest Eval.Above 4 s'.evals := by
  obtain ⟨s, hrun, hp⟩ : ∃ s, Run step (fun _ _ => True) {} (evaluation 100 ++ evaluation 200 ++
      evaluation 300 ++ evaluation 400 ++ evaluation 401 ++ evaluation 402 ++ evaluation 403 ++
      evaluation 408 ++ [.start (.endstopHome 0), .capture 508, .start .checkTrigger]) s ∧
      decide (s.task = .check 100 0 25 ∧ s.probe.pinState = true ∧
        (step s .resume).any (fun s' => !s'.probe.pinState && decide (¬Latest Eval.Above 4 s'.evals)) =
          true) = true :=
    Run.exists_of_exec _ _ (by decide +kernel)
  obtain ⟨htask, hpin, hs⟩ := of_decide_eq_true hp
  obtain ⟨s', hs, hpin'⟩ := (Option.any_eq_true _ _).mp hs
  have hcheck : s.task.IsCheck := by
    rw [htask]
    trivial
  have hsoft : ¬s.task.IsHard := by
    rw [htask]
    exact id
  obtain ⟨hpin', hnot⟩ := Bool.and_eq_true_iff.mp hpin'
  exact ⟨_, s, s', hrun, hcheck, hsoft, hs, hpin, by simpa using hpin', of_decide_eq_true hnot⟩

/-! ### A constant reading -/

/-- The variables that do not change while the reading is constant. -/
structure Steady (p₀ p : Probe) : Prop where
  hardTrigger : p.hardTrigger = false
  value : p.value = p₀.value
  baseline : p.baseline = p₀.baseline
  threshold : p.threshold = p₀.threshold

variable {p₀ : Probe}

lemma Steady.debounce (h : Steady p₀ p) (value : Int) (thr : Int16) :
    Steady p₀ (debounce p value thr) := by
  unfold Eddy.debounce
  dsimp only
  split_ifs <;> exact ⟨h.hardTrigger, h.value, h.baseline, h.threshold⟩

lemma Steady.measured (h : Steady p₀ p) (value baseline : UInt32) :
    Steady p₀ (measured p value baseline) :=
  ⟨h.hardTrigger, h.value, h.baseline, h.threshold⟩

lemma Steady.ffEddyCheckTrigger_eq (h : Steady p₀ p) (hvalid : ffEddyValueBad p₀.value = false) :
    ffEddyCheckTrigger p = Eddy.debounce (Eddy.measured p p₀.value p₀.baseline)
      ((Eddy.measured p p₀.value p₀.baseline).trigAcc >>> (4 : Nat)) p₀.threshold := by
  have hstart : checkTriggerStart p = (p, .check p₀.value p₀.baseline p₀.threshold) := by
    rw [checkTriggerStart, h.hardTrigger, h.value, h.baseline, h.threshold]
    rfl
  rw [ffEddyCheckTrigger, hstart]
  dsimp only
  rw [check_of_valid hvalid]

/-- The deviation that the filter sees. -/
def constantDev (p : Probe) : Int := (absLow (p.value - p.baseline)).toNat

lemma steady_iterate (hvalid : ffEddyValueBad p₀.value = false) (n : Nat) :
    Steady p₀ (ffEddyCheckTrigger^[n] (ffEddyHomeReset p₀)) ∧
      (ffEddyCheckTrigger^[n] (ffEddyHomeReset p₀)).trigAcc =
        (lowPass 4 (constantDev p₀ * 16))^[n] 0 := by
  induction n with
  | zero => exact ⟨⟨rfl, rfl, rfl, rfl⟩, rfl⟩
  | succ n ih =>
    obtain ⟨hsteady, hacc⟩ := ih
    rw [Function.iterate_succ_apply', Function.iterate_succ_apply',
      hsteady.ffEddyCheckTrigger_eq hvalid]
    refine ⟨(hsteady.measured _ _).debounce _ _, ?_⟩
    rw [trigAcc_debounce, measured, trigFilter_eq, hacc, UInt16.toNat_toUInt32]
    rfl

lemma iterate_succ_eq (hvalid : ffEddyValueBad p₀.value = false) (n : Nat) :
    ffEddyCheckTrigger^[n + 1] (ffEddyHomeReset p₀) = debounce
      (measured (ffEddyCheckTrigger^[n] (ffEddyHomeReset p₀)) p₀.value p₀.baseline)
      ((lowPass 4 (constantDev p₀ * 16))^[n + 1] 0 >>> (4 : Nat)) p₀.threshold := by
  have hacc := (steady_iterate hvalid (n + 1)).2
  rw [Function.iterate_succ_apply', (steady_iterate hvalid n).1.ffEddyCheckTrigger_eq hvalid,
    trigAcc_debounce] at hacc
  rw [Function.iterate_succ_apply', (steady_iterate hvalid n).1.ffEddyCheckTrigger_eq hvalid, hacc]

lemma debounce_of_lt {value : Int} {thr : Int16} (hlt : value < thr.toInt)
    (hpin : p.pinState = true) :
    (debounce p value thr).pinState = true := by
  by_cases hclear : value < (thr - 2).toInt
  · rw [debounce_below hclear hlt]
    split_ifs
    · exact hpin
    · rfl
  · rw [debounce_between hclear hlt, if_pos hpin]
    exact hpin

lemma filtered_lt {d : Int} (hd : 0 ≤ d) {thr : Int} (hthr : 1 ≤ thr) (h : d ≤ thr) (n : Nat) :
    (lowPass 4 (d * 16))^[n] 0 >>> (4 : Nat) < thr := by
  rw [Int.shiftRight_eq_div_pow]
  rcases hd.eq_or_lt with rfl | hpos
  · rw [Function.iterate_fixed (by decide)]
    exact hthr
  · have hle : (lowPass 4 (d * 16))^[n] 0 ≤ d * 16 - (4 - 1) :=
      iterate_lowPass_le (by decide) (by omega) n
    omega

lemma pinState_of_le (hthr : 1 ≤ p₀.threshold.toInt) (hvalid : ffEddyValueBad p₀.value = false)
    (h : constantDev p₀ ≤ p₀.threshold.toInt) (n : Nat) :
    (ffEddyCheckTrigger^[n] (ffEddyHomeReset p₀)).pinState = true := by
  induction n with
  | zero => rfl
  | succ n ih =>
    rw [iterate_succ_eq hvalid]
    exact debounce_of_lt (filtered_lt (Int.natCast_nonneg _) hthr h _) ih

lemma exists_triggered (hvalid : ffEddyValueBad p₀.value = false) (j : Nat) {n : Nat}
    (habove : ∀ m, p₀.threshold.toInt ≤ (lowPass 4 (constantDev p₀ * 16))^[n + m] 0 >>> (4 : Nat))
    (hcount : (ffEddyCheckTrigger^[n] (ffEddyHomeReset p₀)).trigCount.toNat < 4)
    (hj : 4 ≤ (ffEddyCheckTrigger^[n] (ffEddyHomeReset p₀)).trigCount.toNat + j) :
    ∃ i, (ffEddyCheckTrigger^[i] (ffEddyHomeReset p₀)).pinState = false := by
  induction j generalizing n with
  | zero => omega
  | succ j ih =>
    have hnext := iterate_succ_eq hvalid n
    rw [debounce_above (habove 1)] at hnext
    have hadd := toNat_add_one hcount.le
    split_ifs at hnext with hfour
    · apply ih
      · intro m
        rw [Nat.add_assoc]
        exact habove (1 + m)
      · rw [hnext]
        exact UInt8.lt_iff_toNat_lt.mp hfour
      · rw [hnext]
        change 4 ≤ ((ffEddyCheckTrigger^[n] (ffEddyHomeReset p₀)).trigCount + 1).toNat + j
        omega
    · exact ⟨n + 1, by rw [hnext]⟩

lemma exists_pinState (hthr : 1 ≤ p₀.threshold.toInt) (hvalid : ffEddyValueBad p₀.value = false)
    (h : p₀.threshold.toInt + 1 ≤ constantDev p₀) :
    ∃ n, (ffEddyCheckTrigger^[n] (ffEddyHomeReset p₀)).pinState = false := by
  obtain ⟨n, hn⟩ : ∃ n, ∀ m,
      (lowPass 4 (constantDev p₀ * 16))^[n + m] 0 = constantDev p₀ * 16 - (4 - 1) :=
    exists_iterate_lowPass (by decide) (by omega)
  have habove (m : Nat) :
      p₀.threshold.toInt ≤ (lowPass 4 (constantDev p₀ * 16))^[n + m] 0 >>> (4 : Nat) := by
    rw [hn, Int.shiftRight_eq_div_pow]
    omega
  have hnext := iterate_succ_eq hvalid n
  rw [debounce_above (habove 1)] at hnext
  split_ifs at hnext with hfour
  · apply exists_triggered hvalid 4 (n := n + 1)
    · intro m
      rw [Nat.add_assoc]
      exact habove (1 + m)
    · rw [hnext]
      exact UInt8.lt_iff_toNat_lt.mp hfour
    · exact Nat.le_add_left _ _
  · exact ⟨n + 1, by rw [hnext]⟩

/-- After a home reset a constant reading triggers the pin if and only if its deviation exceeds the
threshold. A deviation of `2 ^ 16` or more is cut to its low half. -/
theorem triggered_iff (p : Probe) (hthr : 1 ≤ p.threshold.toInt)
    (hvalid : ffEddyValueBad p.value = false) :
    ((∃ n, (ffEddyCheckTrigger^[n] (ffEddyHomeReset p)).pinState = false) ↔
      p.threshold.toInt < (absLow (p.value - p.baseline)).toNat) ∧
    (((p.value.toNat : Int) - p.baseline.toNat).natAbs < 2 ^ 16 →
      (absLow (p.value - p.baseline)).toNat =
        ((p.value.toNat : Int) - p.baseline.toNat).natAbs) := by
  refine ⟨⟨fun ⟨n, hn⟩ => ?_, fun h => exists_pinState hthr hvalid h⟩, toNat_absLow⟩
  by_contra hle
  rw [pinState_of_le hthr hvalid (not_lt.mp hle)] at hn
  cases hn

theorem triggered_iff_bed :
    ∃ n, (ffEddyCheckTrigger^[n] (ffEddyHomeReset { value := 1026, baseline := 1000 })).pinState =
      false :=
  ((triggered_iff { value := 1026, baseline := 1000 } (by decide) (by decide)).1.mpr (by decide))

/-- A deviation equal to the threshold never triggers. -/
theorem not_triggered_at_threshold : ¬∃ n,
    (ffEddyCheckTrigger^[n] (ffEddyHomeReset { value := 1025, baseline := 1000 })).pinState =
      false := by
  rintro ⟨n, hn⟩
  rw [pinState_of_le (by decide) (by decide) (by decide) n] at hn
  cases hn

end KlipperMcu.Eddy
