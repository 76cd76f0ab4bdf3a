import KlipperMcu.Firmware.EddyTrigger

/-!
# The ranges of the eddy probe's variables

The readings have 16 bits, and what the two filters, the recalibration, the drift correction and the
host commands compute from them stays in that range. So the deviations of `ff_eddy_update` and
`ff_eddy_check_trigger` are not cut when they are narrowed to 16 bits.
-/

namespace KlipperMcu.Eddy

open Lib

variable {p : Probe} {s s' : State}

/-! ### The statistics -/

/-- The ranges of what `ff_eddy_update` works with. -/
structure SampleBounds (p : Probe) : Prop where
  offset : p.offset = 0
  sample : p.sample.toNat ≤ 65535
  value : p.value.toNat ≤ 65535
  ring : ∀ x ∈ p.ring.toList, x.toNat ≤ 65535
  baseline : p.baseline.toNat ≤ 65535
  sampleRef : p.sampleRef.toNat ≤ 65535
  filterAcc : p.filterAcc.toNat ≤ 4 * 65535
  ringPos : p.ringPos < 11
  ringCount : p.ringCount ≤ 11
  inrange : p.inrangeCount.toNat < 100
  outrange : p.outrangeCount.toNat < 15

lemma toNat_delta_le (cnt : UInt16) (prev : UInt32) :
    (cnt.toUInt32 - prev).toUInt16.toUInt32.toNat ≤ 65535 := by
  rw [UInt16.toNat_toUInt32]
  exact Nat.le_of_lt_succ (UInt16.toNat_lt _)

lemma SampleBounds.captureIrq (h : SampleBounds p) (cnt : UInt16) :
    SampleBounds (captureIrq p cnt) :=
  { h with sample := toNat_delta_le _ _, value := toNat_delta_le _ _ }

lemma SampleBounds.updateStore (h : SampleBounds p) :
    SampleBounds (updateStore p).1 ∧ (updateStore p).2.toNat ≤ 65535 := by
  unfold Eddy.updateStore
  dsimp only
  split_ifs with _ _ hdrift _ hhard
  · exact ⟨{ h with
      inrange := Nat.zero_lt_succ _
      outrange := Nat.zero_lt_succ _
      baseline := h.sample
      sampleRef := h.sample }, h.sample⟩
  · have hlt := UInt16.lt_iff_toNat_lt.mp (UInt16.not_le.mp hdrift)
    exact ⟨{ h with inrange := hlt, outrange := Nat.zero_lt_succ _ }, h.baseline⟩
  · exact ⟨{ h with outrange := Nat.zero_lt_succ _ }, h.sample⟩
  · have hlt := UInt16.lt_iff_toNat_lt.mp (UInt16.not_le.mp hhard)
    exact ⟨{ h with outrange := hlt }, h.sample⟩
  · exact ⟨{ h with inrange := Nat.zero_lt_succ _, outrange := Nat.zero_lt_succ _ }, h.sample⟩
  · exact ⟨{ h with inrange := Nat.zero_lt_succ _, outrange := Nat.zero_lt_succ _ }, h.sample⟩

lemma SampleBounds.pushRing (h : SampleBounds p) {store : UInt32} (hstore : store.toNat ≤ 65535) :
    SampleBounds (pushRing p store) :=
  { h with
    ring := by
      intro x hx
      change x ∈ (p.ring.setIfInBounds p.ringPos store).toList at hx
      rw [Vector.toList_setIfInBounds] at hx
      rcases List.mem_or_eq_of_mem_set hx with hx | rfl
      · exact h.ring x hx
      · exact hstore
    ringPos := by
      dsimp only [Eddy.pushRing]
      split <;> omega
    ringCount := by
      have hcount := h.ringCount
      dsimp only [Eddy.pushRing]
      split <;> omega }

lemma SampleBounds.stored (h : SampleBounds p) : SampleBounds (stored p) :=
  h.updateStore.1.pushRing h.updateStore.2

lemma center_mem (p : Probe) : center p ∈ (stored p).ring.toList := by
  have hlen : (stored p).ring.toList.length = 11 := Vector.length_toList
  obtain ⟨hperm, -⟩ := InsertionSort.sortTo_sorted _ hlen
  have hlt : 5 < (InsertionSort.sortTo (stored p).ring.toList 10).length := by
    rw [hperm.length_eq, hlen]
    decide
  rw [center, ffEddyMedian, List.getD_eq_getElem _ _ hlt, ← hperm.mem_iff]
  exact List.getElem_mem hlt

lemma SampleBounds.center (h : SampleBounds p) : (center p).toNat ≤ 65535 :=
  h.stored.ring _ (center_mem p)

lemma toNat_smooth {store acc : UInt32} (hstore : store.toNat ≤ 65535)
    (hacc : acc.toNat ≤ 4 * 65535) : (store + acc * 3 / 4).toNat ≤ 4 * 65535 := by
  have hthree : (3 : UInt32).toNat = 3 := rfl
  have hfour : (4 : UInt32).toNat = 4 := rfl
  have hmul : acc.toNat * 3 % 2 ^ 32 = acc.toNat * 3 := Nat.mod_eq_of_lt (by omega)
  rw [UInt32.toNat_add, UInt32.toNat_div, UInt32.toNat_mul, hthree, hfour, hmul]
  apply (Nat.mod_le _ _).trans
  omega

lemma toNat_mul_four {x : UInt32} (h : x.toNat ≤ 65535) : (x * 4).toNat ≤ 4 * 65535 := by
  have hfour : (4 : UInt32).toNat = 4 := rfl
  rw [UInt32.toNat_mul, hfour]
  omega

lemma SampleBounds.smoothed (h : SampleBounds p) : SampleBounds (smoothed p) :=
  { h.stored with filterAcc := toNat_smooth h.updateStore.2 h.stored.filterAcc }

lemma SampleBounds.scrub (h : SampleBounds p) {center : UInt32} (hcenter : center.toNat ≤ 65535)
    (mad : UInt32) : ∀ x ∈ (scrub p center mad).toList, x.toNat ≤ 65535 := by
  obtain ⟨lim, hscrub⟩ : ∃ lim, Eddy.scrub p center mad = p.ring.mapIdx fun i x =>
      if i < p.ringCount ∧ lim < deviation center x then center else x := ⟨_, rfl⟩
  intro x hx
  rw [hscrub, Vector.toList_mapIdx] at hx
  obtain ⟨i, hi, rfl⟩ := List.mem_mapIdx.mp hx
  split
  · exact hcenter
  · exact h.ring _ (List.getElem_mem _)

lemma SampleBounds.recalibrate (h : SampleBounds p) {center : UInt32}
    (hcenter : center.toNat ≤ 65535) (mad : UInt32) :
    SampleBounds (recalibrate p center mad) := by
  have hbase : (p.offset + p.filterAcc / 4).toNat ≤ 65535 := by
    have hfour : (4 : UInt32).toNat = 4 := rfl
    have hacc := h.filterAcc
    rw [h.offset, UInt32.zero_add, UInt32.toNat_div, hfour]
    omega
  have hring := h.scrub hcenter mad
  unfold Eddy.recalibrate
  generalize p.offset + p.filterAcc / 4 = base at hbase ⊢
  generalize Eddy.scrub p center mad = ring at hring ⊢
  generalize noiseThreshold _ = threshold
  exact { h with
    ring := hring
    baseline := hbase
    sampleRef := hbase
    ringPos := Nat.zero_lt_succ _
    ringCount := Nat.zero_le _
    inrange := Nat.zero_lt_succ _
    outrange := Nat.zero_lt_succ _ }

lemma SampleBounds.ffEddyUpdate (h : SampleBounds p) (now : UInt32) :
    SampleBounds (ffEddyUpdate p now).1 := by
  have hstep := updateStep p now
  generalize Eddy.ffEddyUpdate p now = r at hstep ⊢
  cases hstep with
  | unready => exact h
  | filling => exact h.stored
  | seeded => exact { h.stored with filterAcc := toNat_mul_four h.center }
  | noisy => exact { h.smoothed with }
  | quiet => exact { h.smoothed with }
  | recalibrated =>
    apply SampleBounds.recalibrate
    · exact { h.smoothed with }
    · exact h.center

lemma SampleBounds.ffEddyTimerEvent (h : SampleBounds p) (now : UInt32) :
    SampleBounds (ffEddyTimerEvent p now).1 := by
  have hupdate := h.ffEddyUpdate now
  unfold Eddy.ffEddyTimerEvent ffEddyTimerEventWith
  dsimp only
  split_ifs
  · exact { hupdate with sampleRef := hupdate.baseline }
  · exact hupdate

/-! ### The tasks -/

lemma SampleBounds.checkHard (h : SampleBounds p) (value : UInt32) (state : Bool) :
    SampleBounds (checkHard p value state).1 := by
  unfold Eddy.checkHard
  split
  · exact h
  · exact { h with }

lemma SampleBounds.check (h : SampleBounds p) (value baseline : UInt32) (thr : Int16) :
    SampleBounds (check p value baseline thr).1 := by
  unfold Eddy.check
  split
  · exact h
  · unfold debounce
    dsimp only
    split_ifs <;> exact { h with }

lemma SampleBounds.rebaselineStart (h : SampleBounds p) : SampleBounds (rebaselineStart p) := by
  have hbase : (p.value + p.offset).toNat ≤ 65535 := by
    rw [h.offset, UInt32.add_zero]
    exact h.value
  exact { h with
    baseline := hbase
    sampleRef := hbase
    filterAcc := toNat_mul_four hbase
    ringPos := Nat.zero_lt_succ _
    ringCount := Nat.zero_le _
    inrange := Nat.zero_lt_succ _
    outrange := Nat.zero_lt_succ _ }

/-- The ranges of the locals that a task still needs. -/
def Task.Bounded : Task → Prop
  | .check value baseline _ => value.toNat ≤ 65535 ∧ baseline.toNat ≤ 65535
  | .removePeel _ value => value.toNat ≤ 65535
  | _ => True

lemma SampleBounds.start {call : Call} (h : SampleBounds s.probe) (ht : s.task.Bounded)
    (hs : s.start call = some s') : SampleBounds s'.probe ∧ s'.task.Bounded := by
  cases call with
  | checkTrigger =>
    obtain rfl := Option.some.inj hs
    dsimp only
    unfold checkTriggerStart
    split_ifs
    · exact ⟨{ h with }, trivial⟩
    · exact ⟨{ h with }, h.value, h.baseline⟩
  | endstopHome sampleCount =>
    obtain rfl := Option.some.inj hs
    dsimp only
    split_ifs <;> exact ⟨{ h with }, ht⟩
  | endstopRecoverState =>
    obtain rfl := Option.some.inj hs
    exact ⟨{ h with }, ht⟩
  | removePeel =>
    obtain rfl := Option.some.inj hs
    exact ⟨h, h.value⟩
  | getBasicParam =>
    obtain rfl := Option.some.inj hs
    exact ⟨h, trivial⟩
  | setTriggerThreshold threshold =>
    obtain rfl := Option.some.inj hs
    exact ⟨{ h with }, ht⟩

lemma SampleBounds.resume (h : SampleBounds s.probe) (ht : s.task.Bounded)
    (hs : s.resume = some s') : SampleBounds s'.probe ∧ s'.task.Bounded := by
  rw [State.resume] at hs
  generalize s.task = task at hs ht
  cases task with
  | idle => cases hs
  | checkHard value state =>
    obtain rfl := Option.some.inj hs
    exact ⟨h.checkHard value state, trivial⟩
  | check value baseline thr =>
    obtain rfl := Option.some.inj hs
    exact ⟨h.check value baseline thr, trivial⟩
  | getValue baseline =>
    obtain rfl := Option.some.inj hs
    exact ⟨h, trivial⟩
  | getBasicParam baseline value =>
    obtain rfl := Option.some.inj hs
    exact ⟨h.rebaselineStart, trivial⟩
  | rebaseline baseline value =>
    obtain rfl := Option.some.inj hs
    exact ⟨{ h with }, trivial⟩
  | removePeel peel value =>
    obtain rfl := Option.some.inj hs
    exact ⟨{ h with baseline := ht }, trivial⟩

lemma SampleBounds.step {a : Action} (h : SampleBounds s.probe) (ht : s.task.Bounded)
    (hs : step s a = some s') : SampleBounds s'.probe ∧ s'.task.Bounded := by
  cases a with
  | tick cycles =>
    obtain rfl := Option.some.inj hs
    exact ⟨h, ht⟩
  | capture cnt =>
    obtain rfl := Option.some.inj hs
    exact ⟨h.captureIrq cnt, ht⟩
  | timer =>
    obtain rfl := Option.some.inj hs
    exact ⟨h.ffEddyTimerEvent _, ht⟩
  | start call =>
    obtain ⟨-, hs⟩ := Option.ite_none_right_eq_some.mp hs
    exact h.start ht hs
  | resume => exact h.resume ht hs

/-! ### The trigger -/

/-- The ranges of what `ff_eddy_check_trigger` keeps from one evaluation to the next. -/
structure TriggerBounds (p : Probe) : Prop where
  acc_nonneg : 0 ≤ p.trigAcc
  acc_le : p.trigAcc ≤ 16 * 65535
  trigCount : p.trigCount.toNat ≤ 4
  untrigCount : p.untrigCount.toNat ≤ 3

lemma trigFilter_le {acc : Int} {dev : UInt32} (hacc : acc ≤ 16 * 65535)
    (hdev : dev.toNat ≤ 65535) :
    trigFilter acc dev ≤ 16 * 65535 := by
  unfold trigFilter
  rw [Int.shiftRight_eq_div_pow]
  omega

/-- The filter in the 32 bits that the source has for it. -/
def trigFilter32 (acc : Int32) (dev : UInt32) : Int32 := acc + ((dev.toInt32 <<< 4 - acc) >>> 2)

lemma toInt_shiftRight_two (x : Int32) : (x >>> 2).toInt = x.toInt / 4 := by
  have hshift : (x >>> 2).toBitVec = x.toBitVec.sshiftRight 2 := rfl
  rw [← Int32.toInt_toBitVec, hshift, BitVec.toInt_sshiftRight, Int32.toInt_toBitVec,
    Int.shiftRight_eq_div_pow]
  rfl

lemma toInt_shiftLeft_four {x : UInt32} (h : x.toNat ≤ 65535) :
    (x.toInt32 <<< 4).toInt = (x.toNat : Int) * 16 := by
  have hshift : (x.toInt32 <<< 4).toBitVec = x.toBitVec <<< 4 := rfl
  rw [← Int32.toInt_toBitVec, hshift, BitVec.toInt_shiftLeft, UInt32.toNat_toBitVec,
    Nat.shiftLeft_eq]
  apply Int.bmod_eq_of_le <;> omega

lemma toInt_trigFilter32 {acc : Int32} {dev : UInt32} (hnonneg : 0 ≤ acc.toInt)
    (hacc : acc.toInt ≤ 16 * 65535) (hdev : dev.toNat ≤ 65535) :
    (trigFilter32 acc dev).toInt = trigFilter acc.toInt dev := by
  have hsub : (dev.toInt32 <<< 4 - acc).toInt = (dev.toNat : Int) * 16 - acc.toInt := by
    rw [Int32.toInt_sub, toInt_shiftLeft_four hdev]
    apply Int.bmod_eq_of_le <;> omega
  unfold trigFilter32 trigFilter
  rw [Int32.toInt_add, toInt_shiftRight_two, hsub, Int.shiftRight_eq_div_pow]
  apply Int.bmod_eq_of_le <;> omega

lemma TriggerBounds.measured (h : TriggerBounds p) (value baseline : UInt32) :
    TriggerBounds (measured p value baseline) := by
  have hdev : (absLow (value - baseline)).toUInt32.toNat ≤ 65535 := by
    rw [UInt16.toNat_toUInt32]
    exact Nat.le_of_lt_succ (UInt16.toNat_lt _)
  exact { h with
    acc_nonneg := trigFilter_nonneg h.acc_nonneg _
    acc_le := trigFilter_le h.acc_le hdev }

lemma TriggerBounds.debounce (h : TriggerBounds p) (filtered : Int) (thr : Int16) :
    TriggerBounds (debounce p filtered thr) := by
  unfold Eddy.debounce
  dsimp only
  split_ifs with _ htrig _ huntrig
  · have hlt := UInt8.lt_iff_toNat_lt.mp htrig
    exact { h with trigCount := hlt.le, untrigCount := Nat.zero_le _ }
  · exact { h with trigCount := Nat.le_refl 4, untrigCount := Nat.zero_le _ }
  · have hlt := UInt8.lt_iff_toNat_lt.mp huntrig
    exact { h with trigCount := Nat.zero_le _, untrigCount := hlt.le }
  · exact { h with trigCount := Nat.zero_le _, untrigCount := Nat.le_refl 3 }
  · exact { h with trigCount := Nat.zero_le _ }
  · exact { h with untrigCount := Nat.zero_le _ }

lemma TriggerBounds.step {a : Action} (h : TriggerBounds s.probe) (hs : step s a = some s') :
    TriggerBounds s'.probe := by
  cases triggerStep hs with
  | same hsame =>
    constructor
    · rw [hsame.trigAcc]
      exact h.acc_nonneg
    · rw [hsame.trigAcc]
      exact h.acc_le
    · rw [hsame.trigCount]
      exact h.trigCount
    · rw [hsame.untrigCount]
      exact h.untrigCount
  | release _ hprobe =>
    rw [hprobe]
    exact { h with }
  | reset _ hreset =>
    constructor
    · rw [hreset.trigAcc]
    · rw [hreset.trigAcc]
      decide
    · rw [hreset.trigCount]
      decide
    · rw [hreset.untrigCount]
      decide
  | forced _ state hprobe =>
    rw [hprobe]
    exact { h with trigCount := Nat.zero_le _, untrigCount := Nat.zero_le _ }
  | filtered value baseline thr hprobe =>
    rw [hprobe]
    exact (h.measured value baseline).debounce _ _

/-! ### Runs -/

/-- The size of a difference as the firmware computes it is the size of the difference. -/
def Lossless (x ref : UInt32) : Prop :=
  (absLow (x - ref)).toNat = ((x.toNat : Int) - ref.toNat).natAbs

lemma lossless_of_le {x ref : UInt32} (hx : x.toNat ≤ 65535) (href : ref.toNat ≤ 65535) :
    Lossless x ref := by
  apply toNat_absLow
  omega

/-- The joint invariant. -/
def Bounded (s : State) : Prop := (SampleBounds s.probe ∧ s.task.Bounded) ∧ TriggerBounds s.probe

lemma bounded_init : Bounded {} := by
  refine ⟨⟨?_, trivial⟩, ?_⟩ <;> constructor
  case ring =>
    intro x hx
    obtain rfl := List.eq_of_mem_replicate (show x ∈ List.replicate 11 0 from hx)
    decide
  all_goals decide

lemma Bounded.of_run {actions : List Action} (h : Run step (fun _ _ => True) {} actions s) :
    Bounded s := by
  apply h.invariant
  · exact bounded_init
  · intro s a s' hinv _ hs
    exact ⟨hinv.1.1.step hinv.1.2 hs, hinv.2.step hs⟩

/-- The variables keep to their ranges, and neither `ff_eddy_update` nor the evaluation under way
cuts a deviation. -/
theorem bounds_of_run {actions : List Action} (h : Run step (fun _ _ => True) {} actions s) :
    SampleBounds s.probe ∧ TriggerBounds s.probe ∧
      Lossless s.probe.sample s.probe.sampleRef ∧
      ∀ value baseline thr, s.task = .check value baseline thr → Lossless value baseline := by
  obtain ⟨⟨hsample, htask⟩, htrigger⟩ := Bounded.of_run h
  refine ⟨hsample, htrigger, lossless_of_le hsample.sample hsample.sampleRef, ?_⟩
  intro value baseline thr hcheck
  rw [hcheck] at htask
  exact lossless_of_le htask.1 htask.2

/-- The largest deviation there is, about to be evaluated. -/
theorem bounds_of_run_largest : ∃ s, Run step (fun _ _ => True) {}
    [.capture 65535, .start .checkTrigger] s ∧ s.task = .check 65535 0 25 ∧
      SampleBounds s.probe ∧ TriggerBounds s.probe ∧ Lossless 65535 0 := by
  obtain ⟨s, hrun, htask⟩ : ∃ s, Run step (fun _ _ => True) {}
      [.capture 65535, .start .checkTrigger] s ∧ decide (s.task = .check 65535 0 25) = true :=
    Run.exists_of_exec _ _ (by decide +kernel)
  obtain ⟨hsample, htrigger, -, hcheck⟩ := bounds_of_run hrun
  have htask := of_decide_eq_true htask
  exact ⟨s, hrun, htask, hsample, htrigger, hcheck _ _ _ htask⟩

/-- So the accumulator can be modelled by a number without bounds. -/
theorem trigFilter32_of_run {actions : List Action} {acc : Int32} {dev : UInt32}
    (h : Run step (fun _ _ => True) {} actions s) (hacc : acc.toInt = s.probe.trigAcc)
    (hdev : dev.toNat ≤ 65535) : (trigFilter32 acc dev).toInt = trigFilter s.probe.trigAcc dev := by
  have htrigger := (Bounded.of_run h).2
  rw [← hacc]
  apply toInt_trigFilter32
  · rw [hacc]
    exact htrigger.acc_nonneg
  · rw [hacc]
    exact htrigger.acc_le
  · exact hdev

/-- The largest deviation of a probe that was started. -/
theorem trigFilter32_of_run_largest : ∃ s, Run step (fun _ _ => True) {} [.capture 65535] s ∧
    (trigFilter32 0 65535).toInt = trigFilter s.probe.trigAcc 65535 := by
  obtain ⟨s, hrun, hacc⟩ : ∃ s, Run step (fun _ _ => True) {} [.capture 65535] s ∧
      decide ((0 : Int32).toInt = s.probe.trigAcc) = true :=
    Run.exists_of_exec _ _ (by decide +kernel)
  exact ⟨s, hrun, trigFilter32_of_run hrun (of_decide_eq_true hacc) (by decide)⟩

end KlipperMcu.Eddy
