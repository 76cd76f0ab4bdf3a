import KlipperMcu.Firmware.EddyTrigger

/-!
# The hard trigger of the eddy probe

`ff_eddy_update` requests a hard trigger after 15 gross excursions in a row, by a flag that the next
evaluation consumes. The evaluation looks at a newer reading than the ones that caused the request.
-/

namespace KlipperMcu.Eddy

open Lib

variable {p p' : Probe} {s s' : State}

/-- The next timer event finds the 15th gross excursion in a row. -/
def Requests (p : Probe) : Prop :=
  p.sampleReady = true ∧ p.armed = true ∧ 150 < absLow (p.sample - p.sampleRef) ∧
    15 ≤ p.outrangeCount + 1

lemma hardTrigger_updateStore_of_requests (h : Requests p) :
    (updateStore p).1.hardTrigger = true := by
  obtain ⟨-, harmed, hgross, hcount⟩ := h
  have hnot : ¬(p.threshold.toInt.natAbs < (absLow (p.sample - p.sampleRef)).toNat ∧
      absLow (p.sample - p.sampleRef) ≤ 150) := fun hin => UInt16.not_le.mpr hgross hin.2
  rw [updateStore, if_pos harmed]
  dsimp only
  rw [if_neg hnot, if_pos hgross, if_pos hcount]

lemma hardTrigger_updateStore (h : p.hardTrigger = true) :
    (updateStore p).1.hardTrigger = true := by
  unfold updateStore
  dsimp only
  split_ifs <;> first | exact h | rfl

/-- What only the interrupts and the resets write. -/
structure SameSample (p p' : Probe) : Prop where
  value : p'.value = p.value
  hardTrigger : p'.hardTrigger = p.hardTrigger

lemma sameSample_stored (p : Probe) : SameSample (updateStore p).1 (stored p) := by
  rw [stored, pushRing]
  exact ⟨rfl, rfl⟩

lemma sameSample_smoothed (p : Probe) : SameSample (updateStore p).1 (smoothed p) := by
  rw [smoothed]
  exact ⟨(sameSample_stored p).value, (sameSample_stored p).hardTrigger⟩

lemma UpdateStep.sameSample {now : UInt32} {r : Probe × Option Mark} (h : UpdateStep p now r) :
    p.sampleReady = false ∧ r.1 = p ∨ SameSample (updateStore p).1 r.1 := by
  have hstored := sameSample_stored p
  have hsmoothed := sameSample_smoothed p
  cases h with
  | unready hready => exact Or.inl ⟨hready, rfl⟩
  | filling => exact Or.inr hstored
  | seeded => exact Or.inr ⟨hstored.value, hstored.hardTrigger⟩
  | noisy => exact Or.inr ⟨hsmoothed.value, hsmoothed.hardTrigger⟩
  | quiet => exact Or.inr ⟨hsmoothed.value, hsmoothed.hardTrigger⟩
  | recalibrated =>
    rw [recalibrate]
    exact Or.inr ⟨hsmoothed.value, hsmoothed.hardTrigger⟩

lemma sameSample_ffEddyTimerEvent (now : UInt32) :
    SameSample (ffEddyUpdate p now).1 (ffEddyTimerEvent p now).1 := by
  unfold ffEddyTimerEvent ffEddyTimerEventWith
  dsimp only
  split_ifs
  · exact ⟨rfl, rfl⟩
  · exact ⟨rfl, rfl⟩

lemma hardTrigger_ffEddyTimerEvent (now : UInt32) (hready : p.sampleReady = false → p.hardTrigger = true)
    (h : (updateStore p).1.hardTrigger = true) : (ffEddyTimerEvent p now).1.hardTrigger = true := by
  rw [(sameSample_ffEddyTimerEvent now).hardTrigger]
  rcases (updateStep p now).sameSample with ⟨hnot, hsame⟩ | hsame
  · rw [hsame]
    exact hready hnot
  · exact hsame.hardTrigger.trans h

lemma value_ffEddyTimerEvent (now : UInt32) : (ffEddyTimerEvent p now).1.value = p.value := by
  have hstore : (updateStore p).1.value = p.value := by
    unfold updateStore
    dsimp only
    split_ifs <;> rfl
  rw [(sameSample_ffEddyTimerEvent now).value]
  rcases (updateStep p now).sameSample with ⟨-, hsame⟩ | hsame
  · rw [hsame]
  · exact hsame.value.trans hstore

/-- No other evaluation, no home reset and no rebaseline. -/
def Undisturbed (s : State) : Action → Prop
  | .start .checkTrigger => False
  | .start (.endstopHome sampleCount) => sampleCount = 0
  | .start .endstopRecoverState => False
  | .start .getBasicParam => False
  | .resume => match s.task with
    | .getBasicParam _ _ => False
    | .rebaseline _ _ => False
    | _ => True
  | _ => True

lemma sameSample_checkHard (value : UInt32) (state : Bool) :
    SameSample p (checkHard p value state).1 := by
  unfold checkHard
  split_ifs <;> exact ⟨rfl, rfl⟩

lemma sameSample_check (value baseline : UInt32) (thr : Int16) :
    SameSample p (check p value baseline thr).1 := by
  unfold check
  split
  · exact ⟨rfl, rfl⟩
  · unfold debounce
    dsimp only
    split_ifs <;> exact ⟨rfl, rfl⟩

lemma value_le_step {a : Action} (h : s.probe.value ≤ 0xffff) (hs : step s a = some s') :
    s'.probe.value ≤ 0xffff := by
  cases a with
  | tick cycles =>
    obtain rfl := Option.some.inj hs
    exact h
  | capture cnt =>
    obtain rfl := Option.some.inj hs
    rw [UInt32.le_iff_toNat_le]
    change ((cnt.toUInt32 - s.probe.prevCnt).toUInt16.toUInt32).toNat ≤ _
    rw [UInt16.toNat_toUInt32]
    exact Nat.le_of_lt_succ (UInt16.toNat_lt _)
  | timer =>
    obtain rfl := Option.some.inj hs
    change (ffEddyTimerEvent s.probe (ffEddyNowMs s.clock)).1.value ≤ _
    rw [value_ffEddyTimerEvent]
    exact h
  | start call =>
    obtain ⟨-, hs⟩ := Option.ite_none_right_eq_some.mp hs
    cases call with
    | checkTrigger =>
      obtain rfl := Option.some.inj hs
      dsimp only
      unfold checkTriggerStart
      split_ifs <;> exact h
    | endstopHome sampleCount =>
      obtain rfl := Option.some.inj hs
      dsimp only
      split_ifs <;> exact h
    | _ =>
      obtain rfl := Option.some.inj hs
      exact h
  | resume =>
    rw [step, State.resume] at hs
    generalize s.task = task at hs
    cases task with
    | idle => cases hs
    | checkHard value state =>
      obtain rfl := Option.some.inj hs
      exact (sameSample_checkHard value state).value.trans_le h
    | check value baseline thr =>
      obtain rfl := Option.some.inj hs
      exact (sameSample_check value baseline thr).value.trans_le h
    | _ =>
      obtain rfl := Option.some.inj hs
      exact h

lemma hardTrigger_step {a : Action} (h : s.probe.hardTrigger = true) (ha : Undisturbed s a)
    (hs : step s a = some s') : s'.probe.hardTrigger = true := by
  cases a with
  | tick cycles =>
    obtain rfl := Option.some.inj hs
    exact h
  | capture cnt =>
    obtain rfl := Option.some.inj hs
    exact h
  | timer =>
    obtain rfl := Option.some.inj hs
    exact hardTrigger_ffEddyTimerEvent _ (fun _ => h) (hardTrigger_updateStore h)
  | start call =>
    obtain ⟨-, hs⟩ := Option.ite_none_right_eq_some.mp hs
    cases call with
    | checkTrigger => exact ha.elim
    | endstopHome sampleCount =>
      obtain rfl := Option.some.inj hs
      dsimp only
      rw [if_pos (show sampleCount = 0 from ha)]
      exact h
    | endstopRecoverState => exact ha.elim
    | removePeel =>
      obtain rfl := Option.some.inj hs
      exact h
    | getBasicParam => exact ha.elim
    | setTriggerThreshold threshold =>
      obtain rfl := Option.some.inj hs
      exact h
  | resume =>
    unfold Undisturbed at ha
    rw [step, State.resume] at hs
    generalize s.task = task at hs ha
    cases task with
    | idle => cases hs
    | checkHard value state =>
      obtain rfl := Option.some.inj hs
      exact (sameSample_checkHard value state).hardTrigger.trans h
    | check value baseline thr =>
      obtain rfl := Option.some.inj hs
      exact (sameSample_check value baseline thr).hardTrigger.trans h
    | removePeel peel value =>
      obtain rfl := Option.some.inj hs
      exact h
    | getValue baseline =>
      obtain rfl := Option.some.inj hs
      exact h
    | getBasicParam => exact ha.elim
    | rebaseline => exact ha.elim

/-- An evaluation that was interrupted after it has seen a request. -/
structure Forcing (value : UInt32) (s : State) : Prop where
  task : s.task = .checkHard value s.probe.pinState

lemma Forcing.step {value : UInt32} {a : Action} (h : Forcing value s) (ha : a ≠ .resume)
    (hs : step s a = some s') : Forcing value s' := by
  cases a with
  | tick cycles =>
    obtain rfl := Option.some.inj hs
    exact ⟨h.task⟩
  | capture cnt =>
    obtain rfl := Option.some.inj hs
    exact ⟨h.task⟩
  | timer =>
    obtain rfl := Option.some.inj hs
    refine ⟨?_⟩
    change s.task = .checkHard value (ffEddyTimerEvent s.probe (ffEddyNowMs s.clock)).1.pinState
    rw [(sameTrigger_ffEddyTimerEvent _ _).pinState]
    exact h.task
  | start call =>
    obtain ⟨hidle, -⟩ := Option.ite_none_right_eq_some.mp hs
    rw [h.task] at hidle
    cases hidle
  | resume => exact absurd rfl ha

/-- The evaluation after a hard trigger was requested leaves the pin triggered, unless the latest
reading is zero. -/
theorem hardTrigger_next_evaluation {pre mid irqs : List Action} {s₁ s₂ s₃ s₄ s₅ s₆ : State}
    (h : Run step (fun _ _ => True) {} pre s₁) (hrequest : Requests s₁.probe)
    (htimer : step s₁ .timer = some s₂) (hmid : Run step Undisturbed s₂ mid s₃)
    (hstart : step s₃ (.start .checkTrigger) = some s₄)
    (hirqs : Run step (fun _ a => a ≠ .resume) s₄ irqs s₅) (hend : step s₅ .resume = some s₆)
    (hvalue : s₃.probe.value ≠ 0) : s₆.probe.pinState = false := by
  have hvalid : ffEddyValueBad s₃.probe.value = false := by
    have hle : s₃.probe.value ≤ 0xffff := by
      apply ((h.snoc trivial htimer).append (hmid.mono fun _ _ _ => trivial)).invariant
      · exact UInt32.zero_le
      · intro s a s' hi _ hs
        exact value_le_step hi hs
    rw [ffEddyValueBad, Bool.or_eq_false_iff]
    exact ⟨beq_false_of_ne hvalue, decide_eq_false (UInt32.not_lt.mpr hle)⟩
  have hhard : s₃.probe.hardTrigger = true := by
    apply hmid.invariant
    · obtain rfl := Option.some.inj htimer
      apply hardTrigger_ffEddyTimerEvent
      · intro hready
        rw [hrequest.1] at hready
        cases hready
      · exact hardTrigger_updateStore_of_requests hrequest
    · intro s a s' hi ha hs
      exact hardTrigger_step hi ha hs
  have hforcing : Forcing s₃.probe.value s₅ := by
    apply hirqs.invariant
    · obtain ⟨-, hstart⟩ := Option.ite_none_right_eq_some.mp hstart
      obtain rfl := Option.some.inj hstart
      refine ⟨?_⟩
      dsimp only
      rw [checkTriggerStart, if_pos hhard]
    · intro s a s' hi ha hs
      exact hi.step ha hs
  rw [step, State.resume, hforcing.task] at hend
  obtain rfl := Option.some.inj hend
  change (checkHard s₅.probe s₃.probe.value s₅.probe.pinState).1.pinState = false
  rw [checkHard, hvalid]
  cases s₅.probe.pinState <;> rfl

instance decidableRequests (p : Probe) : Decidable (Requests p) :=
  inferInstanceAs (Decidable (_ ∧ _))

/-- The probe is armed by a rebaseline, and 15 captures in a row are far off. The last one is not
looked at yet. -/
def excursions : List Action :=
  [Action.capture 500, .start .getBasicParam, .resume, .resume, .resume, .timer] ++
    ((List.range 14).flatMap fun i => [Action.capture (UInt16.ofNat (1500 * (i + 2))), .timer]) ++
    [Action.capture 24000]

theorem hardTrigger_next_evaluation_excursions : ∃ s₁ s₂ s₄ s₆,
    Run step (fun _ _ => True) {} excursions s₁ ∧ Requests s₁.probe ∧ step s₁ .timer = some s₂ ∧
    step s₂ (.start .checkTrigger) = some s₄ ∧ step s₄ .resume = some s₆ ∧
    s₆.probe.pinState = false := by
  obtain ⟨s₁, hrun, hp⟩ : ∃ s₁, Run step (fun _ _ => True) {} excursions s₁ ∧
      (decide (Requests s₁.probe) && (step s₁ .timer).any fun s₂ => decide (s₂.probe.value ≠ 0) &&
        (step s₂ (.start .checkTrigger)).any fun s₄ => (step s₄ .resume).any fun _ => true) = true :=
    Run.exists_of_exec _ _ (by decide +kernel)
  obtain ⟨hrequest, hp⟩ := Bool.and_eq_true_iff.mp hp
  obtain ⟨s₂, htimer, hp⟩ := (Option.any_eq_true _ _).mp hp
  obtain ⟨hvalue, hp⟩ := Bool.and_eq_true_iff.mp hp
  obtain ⟨s₄, hstart, hp⟩ := (Option.any_eq_true _ _).mp hp
  obtain ⟨s₆, hend, -⟩ := (Option.any_eq_true _ _).mp hp
  have hrequest := of_decide_eq_true hrequest
  exact ⟨s₁, s₂, s₄, s₆, hrun, hrequest, htimer, hstart, hend,
    hardTrigger_next_evaluation hrun hrequest htimer .nil hstart .nil hend
      (of_decide_eq_true hvalue)⟩

/-- A reading of zero after the 15th excursion consumes the request and leaves the pin untriggered. -/
theorem hardTrigger_lost : ∃ s₁ s₂ s₃ s₄ s₆,
    Run step (fun _ _ => True) {} excursions s₁ ∧ Requests s₁.probe ∧ step s₁ .timer = some s₂ ∧
    step s₂ (.capture 24000) = some s₃ ∧ step s₃ (.start .checkTrigger) = some s₄ ∧
    step s₄ .resume = some s₆ ∧ s₂.probe.hardTrigger = true ∧ s₆.probe.hardTrigger = false ∧
    s₆.probe.pinState = true := by
  obtain ⟨s₁, hrun, hp⟩ : ∃ s₁, Run step (fun _ _ => True) {} excursions s₁ ∧
      (decide (Requests s₁.probe) && (step s₁ .timer).any fun s₂ => s₂.probe.hardTrigger &&
        (step s₂ (.capture 24000)).any fun s₃ => (step s₃ (.start .checkTrigger)).any fun s₄ =>
          (step s₄ .resume).any fun s₆ =>
            decide (s₆.probe.hardTrigger = false ∧ s₆.probe.pinState = true)) = true :=
    Run.exists_of_exec _ _ (by decide +kernel)
  obtain ⟨hrequest, hp⟩ := Bool.and_eq_true_iff.mp hp
  obtain ⟨s₂, htimer, hp⟩ := (Option.any_eq_true _ _).mp hp
  obtain ⟨hhard, hp⟩ := Bool.and_eq_true_iff.mp hp
  obtain ⟨s₃, hcapture, hp⟩ := (Option.any_eq_true _ _).mp hp
  obtain ⟨s₄, hstart, hp⟩ := (Option.any_eq_true _ _).mp hp
  obtain ⟨s₆, hend, hp⟩ := (Option.any_eq_true _ _).mp hp
  exact ⟨s₁, s₂, s₃, s₄, s₆, hrun, of_decide_eq_true hrequest, htimer, hcapture, hstart, hend, hhard,
    of_decide_eq_true hp⟩

end KlipperMcu.Eddy
