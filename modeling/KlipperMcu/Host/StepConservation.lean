import KlipperMcu.Host.StepQueue
import Mathlib.Algebra.BigOperators.Group.List.Basic

/-!
# Conservation of steps

The steps given to `stepcompress_append` are accounted for after every operation: each of them was
cancelled, is pending, is in the queue, or was sent to the micro-controller in its direction.
-/

namespace KlipperMcu.StepQueue

open Compress Lib

/-- The pending step, if there is one. -/
def Stepper.pending (s : Stepper) : List Step :=
  if s.nextStepClock = 0 then [] else [s.nextStep]

/-- The direction of a stepper on the micro-controller and the directions in which it moved. -/
structure Pulses where
  dir : Option Bool
  steps : List (Option Bool)

/-- What a message does on the micro-controller. -/
def deliver (invertSdir : Bool) (p : Pulses) : Message → Pulses
  | .queueStep msg => { p with steps := p.steps ++ List.replicate msg.move.count.toNat p.dir }
  | .setNextStepDir dir _ => { p with dir := some (dir ^^ invertSdir) }

/-- The moves of the stepper when the messages are carried out in order. -/
def Stepper.pulses (s : Stepper) : Pulses := s.msgs.foldl (deliver s.invertSdir) ⟨none, []⟩

def Step.sign (st : Step) : Int := if st.dir then 1 else -1

/-- The signed number of some steps. -/
def signed (steps : List Step) : Int := (steps.map Step.sign).sum

/-! ## What holds between operations -/

variable {rounds moveClock fuel : Nat} {rapid : Int → Bool} {s s' : Stepper} {pending : List Step}
  {st : Step} {move : StepMove}

/-- How the steps that count arise from those that were appended: a step is added, or it takes back
the last one, which was in the other direction. -/
inductive Cancelled : List Step → List Step → Prop
  | nil : Cancelled [] []
  | add {appended net : List Step} (st : Step) : Cancelled appended net →
      Cancelled (appended ++ [st]) (net ++ [st])
  | cancel {appended net : List Step} {st st' : Step} : Cancelled appended (net ++ [st']) →
      st.dir ≠ st'.dir → Cancelled (appended ++ [st]) net

/-- No step is lost when the steps of `pending` wait apart from the queue. -/
structure Inv (s : Stepper) (pending : List Step) : Prop where
  highest : s.lastStepClock ≤ s.highest
  queue : s.queue = s.queued.map fun st => UInt32.ofNat st.clock
  dir : ∀ st ∈ s.queued, dirInt st.dir = s.sdir
  position : s.lastPosition = signed s.emitted
  steps : s.emitted ++ s.queued ++ pending = s.net
  cancelled : Cancelled s.appended s.net
  far : ∀ n ∈ s.farQueues, n = 0
  pulses : s.pulses.steps = s.emitted.map fun st => some st.dir
  pulsesDir : ∀ dir, s.sdir = dirInt dir → s.pulses.dir = some dir

lemma dirInt_inj {a b : Bool} (h : dirInt a = dirInt b) : a = b := by
  revert h
  cases a <;> cases b <;> decide

@[simp] lemma signed_nil : signed [] = 0 := rfl

@[simp] lemma signed_append (xs ys : List Step) : signed (xs ++ ys) = signed xs + signed ys := by
  simp [signed]

@[simp] lemma signed_singleton (st : Step) : signed [st] = st.sign := by
  simp [signed]

lemma Step.sign_add_sign {st st' : Step} (h : st.dir ≠ st'.dir) : st'.sign + st.sign = 0 := by
  unfold Step.sign
  revert h
  cases st.dir <;> cases st'.dir <;> simp

lemma Cancelled.signed_eq {appended net : List Step} (h : Cancelled appended net) :
    signed net = signed appended := by
  induction h with
  | nil => rfl
  | add st _ ih => rw [signed_append, signed_append, ih]
  | @cancel appended net st st' _ hdir ih =>
    have hsign := Step.sign_add_sign hdir
    rw [signed_append, signed_singleton] at ih ⊢
    omega

lemma signed_of_dir {steps : List Step} {sdir : Int} (h : ∀ st ∈ steps, dirInt st.dir = sdir) :
    signed steps = if sdir ≠ 0 then (steps.length : Int) else -steps.length := by
  induction steps with
  | nil => simp
  | cons st steps ih =>
    have hhead : dirInt st.dir = sdir := h st List.mem_cons_self
    have htail := ih fun st' hst => h st' (List.mem_cons_of_mem _ hst)
    have hcons : signed (st :: steps) = st.sign + signed steps := List.sum_cons
    rw [hcons, htail, ← hhead, List.length_cons]
    cases hd : st.dir
    · simp [Step.sign, dirInt, hd, Int.add_comm]
    · simp [Step.sign, dirInt, hd, Int.add_comm]

lemma pulses_addMove (s : Stepper) (clock : Nat) (move : StepMove) :
    (addMove s clock move).pulses =
      ⟨s.pulses.dir, s.pulses.steps ++ List.replicate move.count.toNat s.pulses.dir⟩ := by
  simp [Stepper.pulses, addMove, deliver]

lemma Inv.replicate (h : Inv s pending) {steps : List Step}
    (hdir : ∀ st ∈ steps, dirInt st.dir = s.sdir) :
    List.replicate steps.length s.pulses.dir = steps.map fun st => some st.dir := by
  symm
  rw [← List.length_map (f := fun st : Step => some st.dir), List.eq_replicate_length]
  intro d hd
  obtain ⟨st, hst, rfl⟩ := List.mem_map.mp hd
  exact (h.pulsesDir st.dir (hdir st hst).symm).symm

lemma Inv.position_addMove (h : Inv s pending) {steps : List Step}
    (hdir : ∀ st ∈ steps, dirInt st.dir = s.sdir) (hcount : move.count.toNat = steps.length)
    (clock : Nat) : (addMove s clock move).lastPosition = signed (s.emitted ++ steps) := by
  rw [signed_append, signed_of_dir hdir, ← h.position, ← hcount]
  rfl

lemma Inv.pulses_addMove (h : Inv s pending) {steps : List Step}
    (hdir : ∀ st ∈ steps, dirInt st.dir = s.sdir) (hcount : move.count.toNat = steps.length)
    (clock : Nat) : (addMove s clock move).pulses.steps =
      (s.emitted ++ steps).map fun st => some st.dir := by
  rw [StepQueue.pulses_addMove, hcount, h.replicate hdir, h.pulses, List.map_append]

lemma Inv.pulsesDir_addMove (h : Inv s pending) (clock : Nat) (dir : Bool)
    (hdir : s.sdir = dirInt dir) : (addMove s clock move).pulses.dir = some dir := by
  rw [StepQueue.pulses_addMove]
  exact h.pulsesDir dir hdir

lemma Inv.length_take (h : Inv s pending) {n : Nat} (hn : n ≤ s.queue.length) :
    (s.queued.take n).length = n := by
  rw [h.queue, List.length_map] at hn
  rw [List.length_take, Nat.min_eq_left hn]

lemma Inv.flushRound (h : Inv s pending) (hcount : move.count.toNat ≤ s.queue.length) :
    Inv (flushRound s move) pending where
  highest := Nat.le_max_right _ _
  queue := by
    change s.queue.drop _ = (s.queued.drop _).map _
    rw [List.map_drop, ← h.queue]
  dir st hst := h.dir st (List.mem_of_mem_drop hst)
  position := h.position_addMove (fun st hst => h.dir st (List.mem_of_mem_take hst))
    (h.length_take hcount).symm ((s.lastStepClock + move.interval.toNat) % 2 ^ 64)
  steps := by
    change s.emitted ++ s.queued.take _ ++ s.queued.drop _ ++ pending = s.net
    rw [List.append_assoc s.emitted, List.take_append_drop, h.steps]
  cancelled := h.cancelled
  far := h.far
  pulses := h.pulses_addMove (fun st hst => h.dir st (List.mem_of_mem_take hst))
    (h.length_take hcount).symm _
  pulsesDir := h.pulsesDir_addMove ((s.lastStepClock + move.interval.toNat) % 2 ^ 64)

lemma Inv.stepcompressFlushFar (h : Inv s [st]) (hdir : dirInt st.dir = s.sdir)
    (hempty : s.queued = []) : Inv (stepcompressFlushFar s st) [] where
  highest := Nat.le_max_right _ _
  queue := h.queue
  dir := h.dir
  position := by
    change (addMove s st.clock (farMove s st)).lastPosition = signed (s.emitted ++ [st])
    exact h.position_addMove (by simpa using hdir) rfl _
  steps := by
    change s.emitted ++ [st] ++ s.queued ++ [] = s.net
    rw [← h.steps, hempty, List.append_nil, List.append_nil, List.append_nil]
  cancelled := h.cancelled
  far n hn := by
    rcases List.mem_append.mp hn with hn | hn
    · exact h.far n hn
    · rw [List.mem_singleton.mp hn, h.queue, hempty]
      rfl
  pulses := by
    change (addMove s st.clock (farMove s st)).pulses.steps = _
    exact h.pulses_addMove (by simpa using hdir) rfl _
  pulsesDir := by
    change ∀ dir, s.sdir = dirInt dir → (addMove s st.clock (farMove s st)).pulses.dir = some dir
    exact h.pulsesDir_addMove _

lemma Inv.push (h : Inv s [st]) (hdir : dirInt st.dir = s.sdir) : Inv (push s st) [] where
  highest := h.highest
  queue := by
    rw [StepQueue.push, h.queue, List.map_append]
    rfl
  dir st' hst := by
    rcases List.mem_append.mp hst with hst | hst
    · exact h.dir st' hst
    · rw [List.mem_singleton.mp hst]
      exact hdir
  position := h.position
  steps := by
    change s.emitted ++ (s.queued ++ [st]) ++ [] = s.net
    rw [← h.steps, List.append_nil, List.append_assoc]
  cancelled := h.cancelled
  far := h.far
  pulses := h.pulses
  pulsesDir := h.pulsesDir

lemma pulses_changeDir (s : Stepper) (sdir : Bool) :
    (changeDir s sdir).pulses = ⟨some sdir, s.pulses.steps⟩ := by
  simp [Stepper.pulses, changeDir, deliver]

lemma Inv.changeDir (h : Inv s pending) (hempty : s.queued = []) (sdir : Bool) :
    Inv (changeDir s sdir) pending where
  highest := h.highest
  queue := h.queue
  dir st hst := by
    change st ∈ s.queued at hst
    rw [hempty] at hst
    exact absurd hst List.not_mem_nil
  position := h.position
  steps := h.steps
  cancelled := h.cancelled
  far := h.far
  pulses := by
    rw [pulses_changeDir]
    exact h.pulses
  pulsesDir dir hdir := by
    rw [pulses_changeDir, dirInt_inj hdir]

lemma Inv.restart (h : Inv s pending) (hempty : s.queued = []) (clock : Nat) :
    Inv (restart s clock) pending where
  highest := Nat.le_max_right _ _
  queue := h.queue
  dir st hst := by
    change st ∈ s.queued at hst
    rw [hempty] at hst
    exact absurd hst List.not_mem_nil
  position := h.position
  steps := h.steps
  cancelled := h.cancelled
  far := h.far
  pulses := h.pulses
  pulsesDir dir hdir := by
    change -1 = dirInt dir at hdir
    cases dir <;> cases hdir

lemma Inv.cancel (h : Inv s [s.nextStep]) (hdir : st.dir ≠ s.nextStepDir) :
    Inv (cancel s st) [] where
  highest := h.highest
  queue := h.queue
  dir := h.dir
  position := h.position
  steps := by
    rw [StepQueue.cancel, ← h.steps, List.dropLast_concat, List.append_nil]
  cancelled := by
    have hnet := h.cancelled
    rw [← h.steps] at hnet
    change Cancelled (s.appended ++ [st]) s.net.dropLast
    rw [← h.steps, List.dropLast_concat]
    exact hnet.cancel hdir
  far := h.far
  pulses := h.pulses
  pulsesDir := h.pulsesDir

lemma Inv.store (h : Inv s []) : Inv (store s st) [st] where
  highest := h.highest
  queue := h.queue
  dir := h.dir
  position := h.position
  steps := by
    rw [StepQueue.store, ← h.steps, List.append_nil]
  cancelled := h.cancelled.add st
  far := h.far
  pulses := h.pulses
  pulsesDir := h.pulsesDir

/-! ## Flushing -/

/-- What flushing keeps, and the largest clock only grows. -/
structure Kept (s s' : Stepper) : Prop where
  nextStepClock : s'.nextStepClock = s.nextStepClock
  nextStepDir : s'.nextStepDir = s.nextStepDir
  sdir : s'.sdir = s.sdir
  highest : s.highest ≤ s'.highest

lemma Kept.refl (s : Stepper) : Kept s s := ⟨rfl, rfl, rfl, le_refl _⟩

lemma Kept.trans {s'' : Stepper} (h : Kept s s') (h' : Kept s' s'') : Kept s s'' :=
  ⟨h'.nextStepClock.trans h.nextStepClock, h'.nextStepDir.trans h.nextStepDir,
    h'.sdir.trans h.sdir, le_trans h.highest h'.highest⟩

lemma kept_flushRound (s : Stepper) (move : StepMove) : Kept s (flushRound s move) :=
  ⟨rfl, rfl, rfl, Nat.le_max_left _ _⟩

lemma kept_flushLoop (hs : Returns (flushLoop rounds moveClock fuel s) s') : Kept s s' := by
  induction fuel generalizing s with
  | zero => cases hs
  | succ fuel ih =>
    rw [flushLoop] at hs
    split at hs
    · cases hs
      exact Kept.refl _
    split at hs
    · cases hs
    split at hs
    · split at hs
      · cases hs
        exact kept_flushRound _ _
      · exact (kept_flushRound _ _).trans (ih hs)
    · cases hs

lemma kept_queueFlush (hs : Returns (queueFlush rounds s moveClock) s') : Kept s s' := by
  rw [queueFlush] at hs
  split at hs
  · cases hs
    exact Kept.refl _
  · exact kept_flushLoop hs

lemma Inv.flushLoop (h : Inv s pending) (hs : Returns (flushLoop rounds moveClock fuel s) s') :
    Inv s' pending ∧ (s'.queued = [] ∨ moveClock ≤ s'.lastStepClock) := by
  induction fuel generalizing s with
  | zero => cases hs
  | succ fuel ih =>
    rw [StepQueue.flushLoop] at hs
    split at hs
    · rename_i hclock
      cases hs
      exact ⟨h, Or.inr hclock⟩
    split at hs
    · cases hs
    split at hs
    · rename_i move _ hcheck
      obtain ⟨-, hcount⟩ := checkLine_count hcheck
      have hround := h.flushRound hcount
      split at hs
      · rename_i hall
        cases hs
        refine ⟨hround, Or.inl ?_⟩
        apply List.drop_eq_nil_of_le
        rwa [h.queue, List.length_map] at hall
      · exact ih hround hs
    · cases hs

lemma Inv.queueFlush (h : Inv s pending) (hs : Returns (queueFlush rounds s moveClock) s') :
    Inv s' pending ∧ (s'.queued = [] ∨ moveClock ≤ s'.lastStepClock) := by
  rw [StepQueue.queueFlush] at hs
  split at hs
  · rename_i hempty
    cases hs
    refine ⟨h, Or.inl ?_⟩
    rwa [h.queue, List.map_eq_nil_iff] at hempty
  · exact h.flushLoop hs

lemma Inv.queueFlush_all (h : Inv s pending)
    (hs : Returns (StepQueue.queueFlush rounds s uint64Max) s')
    (hlimit : s'.highest + clockDiffMax < 2 ^ 64) : Inv s' pending ∧ s'.queued = [] := by
  obtain ⟨hinv, hempty | hlate⟩ := h.queueFlush hs
  · exact ⟨hinv, hempty⟩
  · have hhigh := hinv.highest
    have hM : clockDiffMax = 805306368 := rfl
    have hmax : uint64Max = 2 ^ 64 - 1 := rfl
    omega

/-! ## Appending -/

lemma setNextStepDir_kept {dir : Bool} (hs : Returns (setNextStepDir rounds s dir) s') :
    s'.nextStepClock = s.nextStepClock ∧ s'.nextStepDir = s.nextStepDir ∧ s'.sdir = dirInt dir ∧
      s.highest ≤ s'.highest := by
  rw [setNextStepDir] at hs
  split at hs
  · rename_i hdir
    cases hs
    exact ⟨rfl, rfl, hdir, le_refl _⟩
  · obtain ⟨t, ht, hend⟩ := returns_andThen hs
    obtain rfl := returns_some hend
    have hkept := kept_queueFlush ht
    exact ⟨hkept.nextStepClock, hkept.nextStepDir, rfl, hkept.highest⟩

lemma Inv.setNextStepDir {dir : Bool} (h : Inv s pending)
    (hs : Returns (setNextStepDir rounds s dir) s') (hlimit : s'.highest + clockDiffMax < 2 ^ 64) :
    Inv s' pending := by
  rw [StepQueue.setNextStepDir] at hs
  split at hs
  · cases hs
    exact h
  · obtain ⟨t, ht, hend⟩ := returns_andThen hs
    obtain rfl := returns_some hend
    obtain ⟨hinv, hempty⟩ := h.queueFlush_all ht hlimit
    exact hinv.changeDir hempty dir

lemma highest_appendFar (s : Stepper) (st : Step) : s.highest ≤ (appendFar s st).s.highest := by
  rw [appendFar]
  split
  · exact Nat.le_max_left _ _
  · exact le_refl _

lemma sub64_of_le {a b : Nat} (h : b ≤ a) : sub64 a b = a - b := if_pos h

lemma Inv.appendFar {t : Stepper} (h : Inv t [st]) (hdir : dirInt st.dir = t.sdir)
    (hclock : clockDiffMax ≤ st.clock) (hst : st.clock < 2 ^ 64)
    (hflush : t.queued = [] ∨ farFlushClock st.clock ≤ t.lastStepClock)
    (hlimit : t.highest + clockDiffMax < 2 ^ 64) : Inv (appendFar t st).s [] := by
  rw [StepQueue.appendFar]
  split
  · rename_i hfar
    have hhigh := h.highest
    apply h.stepcompressFlushFar hdir
    apply hflush.resolve_right
    rw [Stepper.IsFar, Nat.mod_eq_of_lt (by omega)] at hfar
    have hM : clockDiffMax = 805306368 := rfl
    rw [farFlushClock, sub64_of_le hclock]
    omega
  · exact h.push hdir

lemma queueAppendFar_highest (hs : Returns (queueAppendFar rounds s) s') :
    s.highest ≤ s'.highest := by
  obtain ⟨t, ht, hend⟩ := returns_andThen hs
  obtain rfl := returns_some hend
  exact le_trans (kept_queueFlush ht).highest (highest_appendFar t _)

lemma Inv.queueAppendFar (h : Inv s [s.nextStep]) (hdir : s.sdir = dirInt s.nextStepDir)
    (hfar : s.IsFar s.nextStepClock) (hclock : s.nextStepClock < 2 ^ 64)
    (hs : Returns (queueAppendFar rounds s) s') (hlimit : s'.highest + clockDiffMax < 2 ^ 64) :
    Inv s' [] ∧ s'.nextStepClock = 0 := by
  have hhigh := h.highest
  have hle := queueAppendFar_highest hs
  obtain ⟨t, ht, hend⟩ := returns_andThen hs
  obtain rfl := returns_some hend
  have hstart : Inv { s with nextStepClock := 0 } [s.nextStep] :=
    ⟨h.highest, h.queue, h.dir, h.position, h.steps, h.cancelled, h.far, h.pulses, h.pulsesDir⟩
  have hkept := kept_queueFlush ht
  obtain ⟨hinv, hflush⟩ := hstart.queueFlush ht
  rw [Stepper.IsFar, Nat.mod_eq_of_lt (by omega)] at hfar
  constructor
  · apply hinv.appendFar (hdir.symm.trans hkept.sdir.symm) _ hclock hflush
    · have := highest_appendFar t s.nextStep
      omega
    · exact le_trans (Nat.le_add_left _ _) hfar
  · rw [StepQueue.appendFar]
    split
    · exact hkept.nextStepClock
    · exact hkept.nextStepClock

lemma Inv.appendPending (h : Inv s [s.nextStep]) (hdir : s.sdir = dirInt s.nextStepDir) :
    Inv (appendPending s) [] :=
  have hpush := h.push hdir.symm
  ⟨hpush.highest, hpush.queue, hpush.dir, hpush.position, hpush.steps, hpush.cancelled, hpush.far,
    hpush.pulses, hpush.pulsesDir⟩

lemma kept_flushLong (hs : Returns (flushLong rounds s) s') : Kept s s' := by
  rw [flushLong] at hs
  split at hs
  · exact kept_queueFlush hs
  · cases hs
    exact Kept.refl _

lemma Inv.flushLong (h : Inv s pending) (hs : Returns (flushLong rounds s) s') : Inv s' pending := by
  rw [StepQueue.flushLong] at hs
  split at hs
  · exact (h.queueFlush hs).1
  · cases hs
    exact h

lemma makeRoom_eq (s : Stepper) :
    ∃ off alloc, (makeRoom s).s = { s with queueOff := off, queueAlloc := alloc } := by
  rw [makeRoom]
  split
  · split
    · exact ⟨_, _, rfl⟩
    · exact ⟨_, _, rfl⟩
  · exact ⟨_, _, rfl⟩

lemma Inv.makeRoom (h : Inv s pending) : Inv (makeRoom s).s pending := by
  obtain ⟨off, alloc, heq⟩ := makeRoom_eq s
  rw [heq]
  exact ⟨h.highest, h.queue, h.dir, h.position, h.steps, h.cancelled, h.far, h.pulses, h.pulsesDir⟩

lemma kept_makeRoom (s : Stepper) : Kept s (makeRoom s).s := by
  obtain ⟨off, alloc, heq⟩ := makeRoom_eq s
  rw [heq]
  exact ⟨rfl, rfl, rfl, le_refl _⟩

lemma Inv.appendInDir (h : Inv s [s.nextStep]) (hdir : s.sdir = dirInt s.nextStepDir)
    (hclock : s.nextStepClock < 2 ^ 64) (hs : Returns (appendInDir rounds s) s')
    (hlimit : s'.highest + clockDiffMax < 2 ^ 64) : Inv s' [] ∧ s'.nextStepClock = 0 := by
  rw [StepQueue.appendInDir] at hs
  split at hs
  · rename_i hfar
    exact h.queueAppendFar hdir hfar hclock hs hlimit
  split at hs
  · obtain ⟨t, ht, hroom⟩ := returns_andThen hs
    obtain ⟨_, hroom, hend⟩ := returns_andThen hroom
    obtain rfl := returns_some hroom
    obtain rfl := returns_some hend
    have hkept := (kept_flushLong ht).trans (kept_makeRoom t)
    have hnext : (StepQueue.makeRoom t).s.nextStep = s.nextStep := by
      rw [Stepper.nextStep, hkept.nextStepClock, hkept.nextStepDir]
      rfl
    have hroom := (h.flushLong ht).makeRoom
    rw [← hnext] at hroom
    refine ⟨hroom.appendPending ?_, rfl⟩
    rw [hkept.sdir, hkept.nextStepDir, hdir]
  · cases hs
    exact ⟨h.appendPending hdir, rfl⟩

lemma highest_appendInDir (hs : Returns (appendInDir rounds s) s') : s.highest ≤ s'.highest := by
  rw [appendInDir] at hs
  split at hs
  · exact queueAppendFar_highest hs
  split at hs
  · obtain ⟨t, ht, hroom⟩ := returns_andThen hs
    obtain ⟨_, hroom, hend⟩ := returns_andThen hroom
    obtain rfl := returns_some hroom
    obtain rfl := returns_some hend
    exact ((kept_flushLong ht).trans (kept_makeRoom t)).highest
  · cases hs
    exact le_refl _

lemma highest_queueAppend (hs : Returns (queueAppend rounds s) s') : s.highest ≤ s'.highest := by
  obtain ⟨t, ht, hs⟩ := returns_andThen hs
  exact le_trans (setNextStepDir_kept ht).2.2.2 (highest_appendInDir hs)

lemma Inv.queueAppend (h : Inv s [s.nextStep]) (hclock : s.nextStepClock < 2 ^ 64)
    (hs : Returns (queueAppend rounds s) s') (hlimit : s'.highest + clockDiffMax < 2 ^ 64) :
    Inv s' [] ∧ s'.nextStepClock = 0 := by
  obtain ⟨t, ht, hs⟩ := returns_andThen hs
  obtain ⟨hnext, hnextDir, hdir, -⟩ := setNextStepDir_kept ht
  have hle := highest_appendInDir hs
  have hinv : Inv t [s.nextStep] := h.setNextStepDir ht (by omega)
  have hstep : t.nextStep = s.nextStep := by
    rw [Stepper.nextStep, hnext, hnextDir]
    rfl
  rw [← hstep] at hinv
  apply hinv.appendInDir _ _ hs hlimit
  · rw [hdir, hnextDir]
  · rwa [hnext]

/-! ## Runs -/

/-- What holds after every operation. -/
structure Sound (s : Stepper) : Prop where
  inv : Inv s s.pending
  clock : s.nextStepClock < 2 ^ 64

lemma sound_alloc (maxError : UInt32) (invertSdir : Bool) :
    Sound (stepcompressAlloc maxError invertSdir) where
  inv :=
    { highest := le_refl _
      queue := rfl
      dir := fun _ hst => absurd hst List.not_mem_nil
      position := rfl
      steps := rfl
      cancelled := Cancelled.nil
      far := fun _ hn => absurd hn List.not_mem_nil
      pulses := rfl
      pulsesDir := by
        intro dir hdir
        change -1 = dirInt dir at hdir
        cases dir <;> cases hdir }
  clock := Nat.two_pow_pos 64

lemma pending_of_eq (h : s.nextStepClock = 0) : s.pending = [] := if_pos h

lemma pending_of_ne (h : s.nextStepClock ≠ 0) : s.pending = [s.nextStep] := if_neg h

lemma Sound.queueAppend (h : Sound s) (hne : s.nextStepClock ≠ 0)
    (hs : Returns (queueAppend rounds s) s') (hlimit : s'.highest + clockDiffMax < 2 ^ 64) :
    Sound s' ∧ s'.nextStepClock = 0 := by
  have hinv := h.inv
  rw [pending_of_ne hne] at hinv
  obtain ⟨hinv', hzero⟩ := hinv.queueAppend h.clock hs hlimit
  refine ⟨⟨?_, ?_⟩, hzero⟩
  · rwa [pending_of_eq hzero]
  · rw [hzero]
    exact Nat.two_pow_pos 64

lemma Sound.queueFlush (h : Sound s) (hs : Returns (queueFlush rounds s moveClock) s') :
    Sound s' := by
  have hkept := kept_queueFlush hs
  have hpending : s'.pending = s.pending := by
    rw [Stepper.pending, Stepper.nextStep, hkept.nextStepClock, hkept.nextStepDir]
    rfl
  constructor
  · rw [hpending]
    exact (h.inv.queueFlush hs).1
  · rw [hkept.nextStepClock]
    exact h.clock

lemma Sound.store (h : Sound s) (hzero : s.nextStepClock = 0) (hpos : 0 < st.clock)
    (hclock : st.clock < 2 ^ 64) : Sound (store s st) := by
  have hinv := h.inv
  rw [pending_of_eq hzero] at hinv
  refine ⟨?_, hclock⟩
  have hpending : (StepQueue.store s st).pending = [st] := pending_of_ne (Nat.ne_of_gt hpos)
  rw [hpending]
  exact hinv.store

lemma Sound.append (h : Sound s) (hpos : 0 < st.clock) (hclock : st.clock < 2 ^ 64)
    (hs : Returns (stepcompressAppend rounds rapid s st) s')
    (hlimit : s'.highest + clockDiffMax < 2 ^ 64) : Sound s' := by
  rw [stepcompressAppend] at hs
  split at hs
  · rename_i hzero
    cases hs
    exact h.store hzero hpos hclock
  rename_i hne
  split at hs
  · rename_i hcancel
    cases hs
    have hinv := h.inv
    rw [pending_of_ne hne] at hinv
    exact ⟨hinv.cancel hcancel.1, Nat.two_pow_pos 64⟩
  · obtain ⟨t, ht, hend⟩ := returns_andThen hs
    obtain rfl := returns_some hend
    obtain ⟨hsound, hzero⟩ := h.queueAppend hne ht hlimit
    exact hsound.store hzero hpos hclock

lemma Sound.commit (h : Sound s) (hs : Returns (stepcompressCommit rounds s) s')
    (hlimit : s'.highest + clockDiffMax < 2 ^ 64) : Sound s' := by
  rw [stepcompressCommit] at hs
  split at hs
  · rename_i hne
    exact (h.queueAppend hne hs hlimit).1
  · cases hs
    exact h

lemma Sound.flush (h : Sound s) (hs : Returns (stepcompressFlush rounds s moveClock) s')
    (hlimit : s'.highest + clockDiffMax < 2 ^ 64) : Sound s' := by
  rw [stepcompressFlush] at hs
  split at hs
  · rename_i hnext
    obtain ⟨t, ht, hs⟩ := returns_andThen hs
    have hle := (kept_queueFlush hs).highest
    exact (h.queueAppend hnext.1 ht (by omega)).1.queueFlush hs
  · exact h.queueFlush hs

lemma Sound.flush_all (h : Sound s) (hs : Returns (stepcompressFlush rounds s uint64Max) s')
    (hlimit : s'.highest + clockDiffMax < 2 ^ 64) : s'.queued = [] := by
  rw [stepcompressFlush] at hs
  split at hs
  · rename_i hnext
    obtain ⟨t, ht, hs⟩ := returns_andThen hs
    have hle := (kept_queueFlush hs).highest
    have hsound := (h.queueAppend hnext.1 ht (by omega)).1
    exact (hsound.inv.queueFlush_all hs hlimit).2
  · exact (h.inv.queueFlush_all hs hlimit).2

lemma Sound.reset (h : Sound s) {clock : Nat} (hs : Returns (stepcompressReset rounds s clock) s')
    (hlimit : s'.highest + clockDiffMax < 2 ^ 64) : Sound s' := by
  obtain ⟨t, ht, hend⟩ := returns_andThen hs
  obtain rfl := returns_some hend
  change (restart t clock).highest + clockDiffMax < 2 ^ 64 at hlimit
  have hle : t.highest ≤ (restart t clock).highest := Nat.le_max_left _ _
  have hsound := h.flush ht (by omega)
  exact ⟨hsound.inv.restart (h.flush_all ht (by omega)) clock, hsound.clock⟩

lemma Sound.step {a : Action} (h : Sound s) (hl : Legal s a) (hs : step rounds rapid s a = some s')
    (hlimit : s'.highest + clockDiffMax < 2 ^ 64) : Sound s' := by
  cases a with
  | append st => exact h.append hl.1 hl.2.1 hs hlimit
  | commit => exact h.commit hs hlimit
  | flush moveClock => exact h.flush hs hlimit
  | reset clock => exact h.reset hs hlimit

lemma highest_stepcompressFlush (hs : Returns (stepcompressFlush rounds s moveClock) s') :
    s.highest ≤ s'.highest := by
  rw [stepcompressFlush] at hs
  split at hs
  · obtain ⟨t, ht, hs⟩ := returns_andThen hs
    exact le_trans (highest_queueAppend ht) (kept_queueFlush hs).highest
  · exact (kept_queueFlush hs).highest

lemma highest_step {a : Action} (hs : step rounds rapid s a = some s') :
    s.highest ≤ s'.highest := by
  cases a with
  | append st =>
    change Returns (stepcompressAppend rounds rapid s st) s' at hs
    rw [stepcompressAppend] at hs
    split at hs
    · cases hs
      exact le_refl _
    split at hs
    · cases hs
      exact le_refl _
    · obtain ⟨t, ht, hend⟩ := returns_andThen hs
      obtain rfl := returns_some hend
      have hle := highest_queueAppend ht
      exact hle
  | commit =>
    change Returns (stepcompressCommit rounds s) s' at hs
    rw [stepcompressCommit] at hs
    split at hs
    · exact highest_queueAppend hs
    · cases hs
      exact le_refl _
  | flush moveClock => exact highest_stepcompressFlush hs
  | reset clock =>
    change Returns (stepcompressReset rounds s clock) s' at hs
    obtain ⟨t, ht, hend⟩ := returns_andThen hs
    obtain rfl := returns_some hend
    exact le_trans (highest_stepcompressFlush ht) (Nat.le_max_left _ _)

variable {maxError : UInt32} {invertSdir : Bool} {actions : List Action}

lemma sound_of_run
    (h : Run (step rounds rapid) Legal (stepcompressAlloc maxError invertSdir) actions s)
    (hlimit : s.highest + clockDiffMax < 2 ^ 64) : Sound s := by
  revert hlimit
  apply h.invariant
  · intro _
    exact sound_alloc maxError invertSdir
  · intro s a s' hsound hl hs hlimit
    have hle := highest_step hs
    exact (hsound (by omega)).step hl hs hlimit

/-- As long as `last_step_clock` stays away from the end of its range, the position and the steps
that wait add up to the steps that were appended. The queued steps are in the direction `sdir`, a
step is sent as a far step only when no other waits, and every step that was not cancelled is sent,
queued or pending, in order and in its direction. -/
theorem steps_conserved
    (h : Run (step rounds rapid) Legal (stepcompressAlloc maxError invertSdir) actions s)
    (hlimit : s.highest + clockDiffMax < 2 ^ 64) :
    s.lastPosition + (if s.sdir ≠ 0 then (s.queue.length : Int) else -s.queue.length) +
        signed s.pending = signed s.appended ∧
      (s.queue = s.queued.map (fun st => UInt32.ofNat st.clock) ∧
        ∀ st ∈ s.queued, dirInt st.dir = s.sdir) ∧
      (∀ n ∈ s.farQueues, n = 0) ∧
      Cancelled s.appended s.net ∧ s.emitted ++ s.queued ++ s.pending = s.net ∧
      s.pulses.steps = s.emitted.map fun st => some st.dir := by
  have hinv := (sound_of_run h hlimit).inv
  refine ⟨?_, ⟨hinv.queue, hinv.dir⟩, hinv.far, hinv.cancelled, hinv.steps, hinv.pulses⟩
  rw [← hinv.cancelled.signed_eq, ← hinv.steps, signed_append, signed_append, hinv.position,
    signed_of_dir hinv.dir, hinv.queue, List.length_map]

/-- `diff < SDS_FILTER_TIME * sc->mcu_freq` for a frequency of 50 MHz. -/
def rapid50MHz (diff : Int) : Bool := decide (diff < 37500)

/-- The third step is cancelled, the direction changes twice, and the last step is far. -/
def backAndForth : List Action :=
  [.append ⟨true, 100000⟩, .append ⟨true, 160000⟩, .append ⟨true, 250000⟩,
    .append ⟨false, 250100⟩, .append ⟨false, 300000⟩, .append ⟨false, 400000⟩, .flush 310000,
    .append ⟨true, 900000000⟩, .commit]

theorem steps_conserved_backAndForth :
    ∃ s, Run (step 20 rapid50MHz) Legal (stepcompressAlloc 25 true) backAndForth s ∧
      s.emitted.length = 5 ∧ s.farQueues = [0] ∧ s.lastPosition = 1 ∧
      s.lastPosition + (if s.sdir ≠ 0 then (s.queue.length : Int) else -s.queue.length) +
        signed s.pending = signed s.appended := by
  obtain ⟨s, hrun, hs⟩ : ∃ s,
      Run (step 20 rapid50MHz) Legal (stepcompressAlloc 25 true) backAndForth s ∧
        decide (s.emitted.length = 5 ∧ s.farQueues = [0] ∧ s.lastPosition = 1 ∧
          s.highest + clockDiffMax < 2 ^ 64) = true :=
    Run.exists_of_exec backAndForth _ (by decide +kernel)
  obtain ⟨hlen, hfar, hpos, hlimit⟩ := of_decide_eq_true hs
  exact ⟨s, hrun, hlen, hfar, hpos, (steps_conserved hrun hlimit).1⟩

/-- A clock at which adding `CLOCK_DIFF_MAX` is about to wrap around. -/
def lateClock : Nat := 2 ^ 64 - clockDiffMax - 5

/-- The first two steps are sent by the flush, and the last one comes when `last_step_clock` is
beyond the limit. -/
def lateSteps : List Action :=
  [.reset lateClock, .append ⟨true, lateClock + 1000⟩, .append ⟨true, lateClock + 1010⟩,
    .append ⟨true, lateClock + 2000⟩, .commit, .flush (lateClock + 1005),
    .append ⟨true, lateClock + 3000⟩, .commit]

/-- Beyond the limit a step is taken for a far one and sent before a step that waits. -/
theorem far_before_queued :
    ∃ s, Run (step 20 rapid50MHz) Legal (stepcompressAlloc 25 false) lateSteps s ∧
      s.farQueues = [1] ∧
      s.emitted.map Step.clock = [lateClock + 1000, lateClock + 1010, lateClock + 3000] ∧
      s.queued.map Step.clock = [lateClock + 2000] := by
  obtain ⟨s, hrun, hs⟩ : ∃ s,
      Run (step 20 rapid50MHz) Legal (stepcompressAlloc 25 false) lateSteps s ∧
        decide (s.farQueues = [1] ∧
          s.emitted.map Step.clock = [lateClock + 1000, lateClock + 1010, lateClock + 3000] ∧
          s.queued.map Step.clock = [lateClock + 2000]) = true :=
    Run.exists_of_exec lateSteps _ (by decide +kernel)
  exact ⟨s, hrun, of_decide_eq_true hs⟩

end KlipperMcu.StepQueue
