import KlipperMcu.Firmware.Eddy
import KlipperMcu.Lib.Run
import Mathlib.Data.Option.Basic
import Mathlib.Tactic.SplitIfs

/-!
# The scrub of the eddy probe's ring

`ff_eddy_update` removes outliers from the ring when it recalibrates, and then empties the ring. The
firmware is compared with one that has no such loop. As long as the ring is filled again before it
is read, nothing else differs. `ff_eddy_rebaseline` breaks this: it sets `ff_eddy_have_filter` for a
ring that is empty, and the entries from before are read again.
-/

namespace KlipperMcu.Eddy

open Lib

/-! ### The firmware without the scrub -/

/-- The last part of `ff_eddy_update` without the loop that scrubs the ring. -/
def recalibrateUnscrubbed (s : Probe) (center mad : UInt32) : Probe :=
  { recalibrate s center mad with ring := s.ring }

def stepWith (cal : Probe → UInt32 → UInt32 → Probe) (s : State) : Action → Option State
  | .timer => some (s.timerWith cal)
  | a => step s a

lemma stepWith_recalibrate : stepWith recalibrate = step := by
  funext s a
  cases a with
  | _ => rfl

/-- What the host and the rest of the firmware see of the probe. -/
def State.observed (s : State) : Int16 × UInt32 × Bool × List Response :=
  (s.probe.threshold, s.probe.baseline, s.probe.pinState, s.sent)

/-! ### Another ring -/

/-- The probe with another ring. -/
def Probe.withRing (p : Probe) (ring : Vector UInt32 11) : Probe := { p with ring := ring }

def State.withRing (s : State) (ring : Vector UInt32 11) : State :=
  { s with probe := s.probe.withRing ring }

variable {p : Probe} {s s' : State} {ring : Vector UInt32 11} {marks : List (Nat × Mark)}

lemma updateStore_withRing (p : Probe) (ring : Vector UInt32 11) :
    updateStore (p.withRing ring) = ((updateStore p).1.withRing ring, (updateStore p).2) := by
  unfold updateStore Probe.withRing
  dsimp only
  split_ifs <;> rfl

lemma stored_withRing (p : Probe) (ring : Vector UInt32 11) :
    stored (p.withRing ring) =
      (stored p).withRing (ring.setIfInBounds p.ringPos (updateStore p).2) := by
  have hpos : (updateStore p).1.ringPos = p.ringPos := by
    unfold updateStore
    dsimp only
    split_ifs <;> rfl
  unfold stored
  rw [updateStore_withRing, ← hpos]
  rfl

lemma checkHard_withRing (value : UInt32) (state : Bool) :
    checkHard (p.withRing ring) value state =
      ((checkHard p value state).1.withRing ring, (checkHard p value state).2) := by
  unfold checkHard
  split <;> rfl

lemma check_withRing (value baseline : UInt32) (thr : Int16) :
    check (p.withRing ring) value baseline thr =
      ((check p value baseline thr).1.withRing ring, (check p value baseline thr).2) := by
  unfold check
  split
  · rfl
  · unfold debounce Probe.withRing
    dsimp only
    split_ifs <;> rfl

lemma start_withRing (s : State) (ring : Vector UInt32 11) (call : Call) :
    (s.withRing ring).start call = (s.start call).map (·.withRing ring) := by
  cases call with
  | checkTrigger =>
    unfold State.start checkTriggerStart State.withRing Probe.withRing
    dsimp only
    split_ifs <;> rfl
  | endstopHome sampleCount =>
    unfold State.start State.withRing Probe.withRing
    dsimp only
    split_ifs <;> rfl
  | _ => rfl

lemma resume_withRing (s : State) (ring : Vector UInt32 11) :
    (s.withRing ring).resume = s.resume.map (·.withRing ring) := by
  have htask : (s.withRing ring).task = s.task := rfl
  unfold State.resume
  rw [htask]
  cases s.task with
  | checkHard value state =>
    dsimp only
    unfold State.evaluate
    rw [State.withRing, checkHard_withRing]
    rfl
  | check value baseline thr =>
    dsimp only
    unfold State.evaluate
    rw [State.withRing, check_withRing]
    rfl
  | _ => rfl

lemma step_withRing {a : Action} (s : State) (ring : Vector UInt32 11) (ha : a ≠ .timer) :
    step (s.withRing ring) a = (step s a).map (·.withRing ring) := by
  cases a with
  | tick cycles => rfl
  | capture cnt => rfl
  | timer => exact absurd rfl ha
  | start call =>
    have htask : (s.withRing ring).task = s.task := rfl
    rw [step, step, htask, start_withRing]
    split <;> rfl
  | resume => exact resume_withRing s ring

/-! ### What differs -/

/-- The ring of the other run. It differs only while it is filled again after a recalibration, in
the entries that are not filled yet. -/
structure Agrees (p : Probe) (marks : List (Nat × Mark)) (ring : Vector UInt32 11) : Prop where
  seeded : p.haveFilter = true → ring = p.ring
  fresh : (∀ m ∈ marks, m.2 ≠ .recalibrated) → ring = p.ring
  filling : p.haveFilter = false → p.ringPos = p.ringCount ∧ p.ringCount < 11 ∧
    ∀ i < p.ringCount, ring[i]? = p.ring[i]?

lemma eq_of_filled {r r' : Vector UInt32 11} (h : ∀ i < 11, r[i]? = r'[i]?) : r = r' := by
  apply Vector.ext
  intro i hi
  have hi' := h i hi
  rw [Vector.getElem?_eq_getElem hi, Vector.getElem?_eq_getElem hi] at hi'
  exact Option.some.inj hi'

lemma filled_succ {r r' : Vector UInt32 11} {n : Nat} (h : ∀ i < n, r[i]? = r'[i]?) (hn : n < 11)
    (x : UInt32) : ∀ i < n + 1, (r.setIfInBounds n x)[i]? = (r'.setIfInBounds n x)[i]? := by
  intro i hi
  rw [Vector.getElem?_setIfInBounds, Vector.getElem?_setIfInBounds]
  split
  · rfl
  · apply h
    omega

lemma haveFilter_stored (p : Probe) : (stored p).haveFilter = p.haveFilter := by
  unfold stored updateStore
  dsimp only
  split_ifs <;> rfl

lemma ring_stored (p : Probe) :
    (stored p).ring = p.ring.setIfInBounds p.ringPos (updateStore p).2 := by
  have h := stored_withRing p p.ring
  exact congrArg Probe.ring h

lemma stored_filling (hpos : p.ringPos = p.ringCount) (hcount : p.ringCount < 11) :
    (stored p).ringCount = p.ringCount + 1 ∧
      ((stored p).ringCount ≠ 11 → (stored p).ringPos = p.ringCount + 1) := by
  have hframe : (updateStore p).1.ringPos = p.ringPos ∧
      (updateStore p).1.ringCount = p.ringCount := by
    unfold updateStore
    dsimp only
    split_ifs <;> exact ⟨rfl, rfl⟩
  unfold stored pushRing
  dsimp only
  rw [hframe.1, hframe.2, if_pos hcount, hpos]
  refine ⟨rfl, fun h => ?_⟩
  rw [if_neg (by omega)]

/-! ### One update in both runs -/

lemma ffEddyUpdateWith_eq (cal : Probe → UInt32 → UInt32 → Probe) (p : Probe) (now : UInt32) :
    ffEddyUpdateWith cal p now =
      if p.sampleReady then
        if (stored p).haveFilter then
          ((evaluateRingWith cal (stored p) (updateStore p).2 now).1,
            some (evaluateRingWith cal (stored p) (updateStore p).2 now).2)
        else if (stored p).ringCount = 11 then
          ({ stored p with filterAcc := center p * 4, haveFilter := true, quietStartMs := now },
            some .seeded)
        else (stored p, none)
      else (p, none) := rfl

lemma evaluateRingWith_stored (cal : Probe → UInt32 → UInt32 → Probe) (p : Probe) (now : UInt32) :
    evaluateRingWith cal (stored p) (updateStore p).2 now =
      if (stored p).madLimit < mad p then ({ smoothed p with quietStartMs := 0 }, .noisy)
      else if now - quietFrom p now < 2000 then
        ({ smoothed p with quietStartMs := quietFrom p now }, .quiet)
      else (cal { smoothed p with quietStartMs := quietFrom p now } (center p) (mad p),
        .recalibrated) := rfl

/-- Both runs make the same update, up to the ring, and the rings still agree. -/
def UpdatesAlike (p : Probe) (marks : List (Nat × Mark)) (ring : Vector UInt32 11) (now : UInt32)
    (t : Nat) : Prop :=
  ∃ ring', ffEddyUpdateWith recalibrateUnscrubbed (p.withRing ring) now =
      ((ffEddyUpdateWith recalibrate p now).1.withRing ring',
        (ffEddyUpdateWith recalibrate p now).2) ∧
    Agrees (ffEddyUpdateWith recalibrate p now).1
      ((ffEddyUpdateWith recalibrate p now).2.toList.map (t, ·) ++ marks) ring'

variable {now : UInt32} {t : Nat}

lemma Agrees.update_unready (h : Agrees p marks ring) (hready : p.sampleReady = false) :
    UpdatesAlike p marks ring now t := by
  have hupdate (cal : Probe → UInt32 → UInt32 → Probe) (q : Probe) (hq : q.sampleReady = false) :
      ffEddyUpdateWith cal q now = (q, none) := by
    rw [ffEddyUpdateWith_eq, hq]
    rfl
  refine ⟨ring, ?_, ?_⟩
  · rw [hupdate _ p hready, hupdate _ (p.withRing ring) hready]
  · rw [hupdate _ p hready]
    exact h

lemma Agrees.update_filling (h : Agrees p marks ring) (hready : p.sampleReady = true)
    (hfilter : p.haveFilter = false) : UpdatesAlike p marks ring now t := by
  obtain ⟨hpos, hcount, hfilled⟩ := h.filling hfilter
  obtain ⟨hcount', hpos'⟩ := stored_filling hpos hcount
  have hagree : ∀ i < p.ringCount + 1,
      (ring.setIfInBounds p.ringPos (updateStore p).2)[i]? = (stored p).ring[i]? := by
    rw [ring_stored, hpos]
    exact filled_succ hfilled hcount _
  have hother := stored_withRing p ring
  have hfresh : (∀ m ∈ marks, m.2 ≠ .recalibrated) →
      ring.setIfInBounds p.ringPos (updateStore p).2 = (stored p).ring := by
    intro hmarks
    rw [h.fresh hmarks, ring_stored]
  have hnone : ¬(stored p).haveFilter = true := by
    rw [haveFilter_stored, hfilter]
    exact Bool.false_ne_true
  have hnone' : ¬(stored (p.withRing ring)).haveFilter = true := by
    rw [hother]
    exact hnone
  have hready' : (p.withRing ring).sampleReady = true := hready
  unfold UpdatesAlike
  rw [ffEddyUpdateWith_eq, ffEddyUpdateWith_eq, if_pos hready, if_pos hready', if_neg hnone,
    if_neg hnone']
  by_cases hfull : (stored p).ringCount = 11
  · have hring : ring.setIfInBounds p.ringPos (updateStore p).2 = (stored p).ring := by
      apply eq_of_filled
      intro i hi
      apply hagree
      omega
    have hsame : stored (p.withRing ring) = stored p := by
      rw [hother, hring]
      rfl
    have hcenter : center (p.withRing ring) = center p := by
      unfold center
      rw [hsame]
    rw [hsame, hcenter, if_pos hfull]
    refine ⟨(stored p).ring, rfl, fun _ => rfl, fun _ => rfl, fun hfalse => ?_⟩
    exact Bool.noConfusion hfalse
  · have hfull' : ¬(stored (p.withRing ring)).ringCount = 11 := by
      rw [hother]
      exact hfull
    rw [if_neg hfull, if_neg hfull', hother]
    refine ⟨_, rfl, fun htrue => absurd htrue hnone, hfresh, fun _ => ?_⟩
    refine ⟨?_, ?_, ?_⟩
    · rw [hpos' hfull, hcount']
    · change (stored p).ringCount < 11
      omega
    · rw [hcount']
      exact hagree

lemma Agrees.update_seeded (h : Agrees p marks ring) (hready : p.sampleReady = true)
    (hfilter : p.haveFilter = true) : UpdatesAlike p marks ring now t := by
  obtain rfl := h.seeded hfilter
  have hsome : (stored p).haveFilter = true := by
    rw [haveFilter_stored, hfilter]
  have hsame : p.withRing p.ring = p := rfl
  have hkept {q : Probe} {m : Mark} (hq : q.haveFilter = true) :
      Agrees q ((some m).toList.map (t, ·) ++ marks) q.ring := by
    refine ⟨fun _ => rfl, fun _ => rfl, fun hfalse => ?_⟩
    rw [hq] at hfalse
    exact Bool.noConfusion hfalse
  unfold UpdatesAlike
  rw [hsame, ffEddyUpdateWith_eq, ffEddyUpdateWith_eq, if_pos hready, if_pos hready, if_pos hsome,
    if_pos hsome, evaluateRingWith_stored, evaluateRingWith_stored]
  by_cases hmad : (stored p).madLimit < mad p
  · rw [if_pos hmad, if_pos hmad]
    exact ⟨_, rfl, hkept hsome⟩
  rw [if_neg hmad, if_neg hmad]
  by_cases hquiet : now - quietFrom p now < 2000
  · rw [if_pos hquiet, if_pos hquiet]
    exact ⟨_, rfl, hkept hsome⟩
  rw [if_neg hquiet, if_neg hquiet]
  refine ⟨_, rfl, fun htrue => Bool.noConfusion htrue, fun hmarks => ?_, fun _ => ?_⟩
  · exact absurd rfl (hmarks (t, .recalibrated) List.mem_cons_self)
  · exact ⟨rfl, Nat.zero_lt_succ _, fun i hi => absurd hi (Nat.not_lt_zero i)⟩

lemma Agrees.update (h : Agrees p marks ring) : UpdatesAlike p marks ring now t := by
  cases hready : p.sampleReady with
  | false => exact h.update_unready hready
  | true =>
    cases hfilter : p.haveFilter with
    | false => exact h.update_filling hready hfilter
    | true => exact h.update_seeded hready hfilter

lemma Agrees.timer (h : Agrees s.probe s.marks ring) :
    ∃ ring', (s.withRing ring).timerWith recalibrateUnscrubbed =
        (s.timerWith recalibrate).withRing ring' ∧
      Agrees (s.timerWith recalibrate).probe (s.timerWith recalibrate).marks ring' := by
  have halike : UpdatesAlike s.probe s.marks ring (ffEddyNowMs s.clock) s.clock := h.update
  obtain ⟨ring', hupdate, hagree⟩ := halike
  refine ⟨ring', ?_, ?_⟩
  · unfold State.timerWith ffEddyTimerEventWith State.withRing
    dsimp only
    rw [hupdate]
    unfold Probe.withRing
    dsimp only
    split_ifs <;> rfl
  · unfold State.timerWith ffEddyTimerEventWith
    dsimp only
    split_ifs
    · exact { hagree with }
    · exact hagree

/-! ### Runs -/

/-- `ff_eddy_rebaseline` does not run between a recalibration and the time the filter is seeded
again. -/
def Rezeroes (s : State) (a : Action) : Prop :=
  ∀ baseline value, a = .resume → s.task = .getBasicParam baseline value →
    s.probe.haveFilter = true ∨ ∀ m ∈ s.marks, m.2 ≠ .recalibrated

/-- The states of the two runs. -/
def Alike (s t : State) : Prop := ∃ ring, t = s.withRing ring ∧ Agrees s.probe s.marks ring

lemma Agrees.start {call : Call} (h : Agrees s.probe s.marks ring) (hs : s.start call = some s') :
    Agrees s'.probe s'.marks ring := by
  cases call with
  | checkTrigger =>
    obtain rfl := Option.some.inj hs
    dsimp only
    unfold checkTriggerStart
    split_ifs <;> exact { h with }
  | endstopHome sampleCount =>
    obtain rfl := Option.some.inj hs
    dsimp only
    split_ifs <;> exact { h with }
  | _ =>
    obtain rfl := Option.some.inj hs
    exact { h with }

lemma Agrees.checkHard (h : Agrees p marks ring) (value : UInt32) (state : Bool) :
    Agrees (checkHard p value state).1 marks ring := by
  unfold Eddy.checkHard
  split
  · exact h
  · exact { h with }

lemma Agrees.check (h : Agrees p marks ring) (value baseline : UInt32) (thr : Int16) :
    Agrees (check p value baseline thr).1 marks ring := by
  unfold Eddy.check
  split
  · exact h
  · unfold debounce
    dsimp only
    split_ifs <;> exact { h with }

lemma Agrees.rebaselineStart (h : Agrees p marks ring) (m : Nat × Mark)
    (hl : p.haveFilter = true ∨ ∀ m ∈ marks, m.2 ≠ .recalibrated) :
    Agrees (rebaselineStart p) (m :: marks) ring := by
  have hring : ring = p.ring := hl.elim h.seeded h.fresh
  exact ⟨fun _ => hring, fun _ => hring, fun hfalse => Bool.noConfusion hfalse⟩

lemma Agrees.resume (h : Agrees s.probe s.marks ring) (hl : Rezeroes s .resume)
    (hs : s.resume = some s') : Agrees s'.probe s'.marks ring := by
  have hl (baseline value : UInt32) := hl baseline value rfl
  rw [State.resume] at hs
  generalize s.task = task at hs hl
  cases task with
  | idle => cases hs
  | checkHard value state =>
    obtain rfl := Option.some.inj hs
    exact h.checkHard value state
  | check value baseline thr =>
    obtain rfl := Option.some.inj hs
    exact h.check value baseline thr
  | getBasicParam baseline value =>
    obtain rfl := Option.some.inj hs
    exact h.rebaselineStart _ (hl baseline value rfl)
  | _ =>
    obtain rfl := Option.some.inj hs
    exact { h with }

lemma Agrees.step {a : Action} (h : Agrees s.probe s.marks ring) (ha : a ≠ .timer)
    (hl : Rezeroes s a) (hs : step s a = some s') : Agrees s'.probe s'.marks ring := by
  cases a with
  | timer => exact absurd rfl ha
  | start call =>
    obtain ⟨-, hs⟩ := Option.ite_none_right_eq_some.mp hs
    exact h.start hs
  | resume => exact h.resume hl hs
  | _ =>
    obtain rfl := Option.some.inj hs
    exact { h with }

lemma Alike.step {t : State} {a : Action} (h : Alike s t) (hl : Rezeroes s a) :
    ∃ f, stepWith recalibrateUnscrubbed t a = (step s a).map f ∧
      ∀ s', Eddy.step s a = some s' → Alike s' (f s') := by
  obtain ⟨ring, rfl, hagree⟩ := h
  by_cases ha : a = .timer
  · subst ha
    obtain ⟨ring', htimer, hagree'⟩ := hagree.timer
    refine ⟨(·.withRing ring'), congrArg some htimer, fun s' hs => ?_⟩
    obtain rfl := Option.some.inj hs
    exact ⟨ring', rfl, hagree'⟩
  · refine ⟨(·.withRing ring), ?_, fun s' hs => ⟨ring, rfl, hagree.step ha hl hs⟩⟩
    rw [← step_withRing s ring ha]
    cases a with
    | timer => exact absurd rfl ha
    | _ => rfl

lemma Alike.rezeroes_iff {t : State} (h : Alike s t) (a : Action) :
    Rezeroes t a ↔ Rezeroes s a := by
  obtain ⟨ring, rfl, -⟩ := h
  exact Iff.rfl

lemma Alike.observed {t : State} (h : Alike s t) : t.observed = s.observed := by
  obtain ⟨ring, rfl, -⟩ := h
  rfl

lemma alike_init : Alike {} {} := by
  refine ⟨_, rfl, fun _ => rfl, fun _ => rfl, fun _ => ?_⟩
  exact ⟨rfl, Nat.zero_lt_succ _, fun _ _ => rfl⟩

/-- With or without the scrub, the same actions are possible and what is seen after them is the
same. -/
theorem observed_scrub_iff (actions : List Action) (o : Int16 × UInt32 × Bool × List Response) :
    (∃ s, Run step Rezeroes {} actions s ∧ s.observed = o) ↔
      ∃ t, Run (stepWith recalibrateUnscrubbed) Rezeroes {} actions t ∧ t.observed = o := by
  constructor
  · rintro ⟨s, hrun, rfl⟩
    have hsim : ∃ t, Run (stepWith recalibrateUnscrubbed) Rezeroes {} actions t ∧ Alike s t := by
      apply hrun.simulate alike_init
      intro s t a s' h hl hs
      obtain ⟨f, hother, halike⟩ := h.step hl
      refine ⟨(h.rezeroes_iff a).mpr hl, f s', ?_, halike s' hs⟩
      rw [hother, hs, Option.map_some]
    obtain ⟨t, hrun', halike⟩ := hsim
    exact ⟨t, hrun', halike.observed⟩
  · rintro ⟨t, hrun, rfl⟩
    have hsim : ∃ s, Run step Rezeroes {} actions s ∧ Alike s t := by
      apply hrun.simulate (R := fun t s => Alike s t) alike_init
      intro t s a t' h hl ht
      obtain ⟨f, hother, halike⟩ := h.step ((h.rezeroes_iff a).mp hl)
      rw [hother] at ht
      obtain ⟨s', hs, rfl⟩ := Option.map_eq_some_iff.mp ht
      exact ⟨(h.rezeroes_iff a).mp hl, s', hs, halike s' hs⟩
    obtain ⟨s, hrun', halike⟩ := hsim
    exact ⟨s, hrun', halike.observed.symm⟩

/-- Eleven samples with one outlier, a recalibration, `get_basic_param`, and two more samples that
make the firmware recalibrate again. -/
def outlierActions : List Action :=
  [Action.tick 128000] ++
    ([500, 1000, 1600, 2100, 2600, 3100, 3600, 4100, 4600, 5100, 5600] : List UInt16).flatMap
      (fun cnt => [Action.capture cnt, .timer]) ++
    [Action.tick 256000000, .capture 6100, .timer] ++
    [Action.start .getBasicParam, .resume, .resume, .resume] ++
    [Action.capture 6600, .timer, .tick 256000000, .capture 7100, .timer]

/-- The second recalibration reads entries that were scrubbed by the first one. -/
theorem threshold_scrub_ne : ∃ s t, Run step (fun _ _ => True) {} outlierActions s ∧
    Run (stepWith recalibrateUnscrubbed) (fun _ _ => True) {} outlierActions t ∧
    s.probe.threshold = 20 ∧ t.probe.threshold = 60 := by
  obtain ⟨s, hs, hthr⟩ : ∃ s, Run step (fun _ _ => True) {} outlierActions s ∧
      decide (s.probe.threshold = 20) = true := Run.exists_of_exec _ _ (by decide +kernel)
  obtain ⟨t, ht, hthr'⟩ : ∃ t, Run (stepWith recalibrateUnscrubbed) (fun _ _ => True) {}
      outlierActions t ∧ decide (t.probe.threshold = 60) = true :=
    Run.exists_of_exec _ _ (by decide +kernel)
  exact ⟨s, t, hs, ht, of_decide_eq_true hthr, of_decide_eq_true hthr'⟩

end KlipperMcu.Eddy
