import KlipperMcu.Firmware.Eddy
import KlipperMcu.Lib.Run
import Mathlib.Algebra.Ring.Nat
import Mathlib.Data.List.Infix

/-!
# When the eddy probe recalibrates

`ff_eddy_update` recalibrates after the ring was quiet for 2000 ms. The time is taken from a cycle
counter of 32 bits, divided down to milliseconds, and zero stands for a quiet time that has not
begun.
-/

namespace KlipperMcu.Eddy

open Lib

/-- The quiet time begins anew. -/
def Mark.Disturbs : Mark → Prop
  | .seeded => True
  | .noisy => True
  | .rebaselined => True
  | _ => False

/-- All evaluations since the disturbance `d` were quiet. -/
structure QuietSince (clock : Nat) (d : Nat × Mark) (quiets rest marks : List (Nat × Mark)) :
    Prop where
  marks : marks = quiets ++ d :: rest
  disturbs : d.2.Disturbs
  quiet : ∀ q ∈ quiets, q.2 = .quiet
  le : d.1 ≤ clock
  times : ∀ q ∈ quiets, d.1 ≤ q.1 ∧ q.1 ≤ clock

/-- The times since the disturbance `d` at which `quiet_start_ms` is set if it is zero. -/
def startTimes (d : Nat × Mark) (quiets : List (Nat × Mark)) : List Nat :=
  (if d.2 = .seeded then [d.1] else []) ++ quiets.reverse.map Prod.fst

/-- The moment from which the quiet time is measured. It is the first one with a count other than
zero, which stands for a quiet time that has not begun. -/
def quietStart (times : List Nat) : Option Nat := times.find? fun τ => ffEddyNowMs τ ≠ 0

def startMs (times : List Nat) : UInt32 := (quietStart times).elim 0 ffEddyNowMs

/-- For a recalibration at `t`, a quiet time from `t₁` on and a disturbance at `t₀`: as long as the
count of milliseconds has not gone back since `t₁`, the counter has wrapped, or the count is larger by
more than 2000, or the fraction of a millisecond at `t₁` is made up for by the one at `t` and the time
before `t₁`. When the count has gone back, the counter has wrapped twice, or it has gone back so little
that the rest of its turn and the time before `t₁` are 2000 ms. -/
def Passed (t₀ t₁ t : Nat) : Prop :=
  if ffEddyNowMs t₁ ≤ ffEddyNowMs t then
    t₁ / 2 ^ 32 < t / 2 ^ 32 ∨ 2000 < ffEddyNowMs t - ffEddyNowMs t₁ ∨
      t₁ % 2 ^ 32 % 128000 ≤ t % 2 ^ 32 % 128000 + (t₁ - t₀)
  else
    t₁ / 2 ^ 32 + 1 < t / 2 ^ 32 ∨
      t₁ % 2 ^ 32 - t % 2 ^ 32 ≤ 2 ^ 32 - 2000 * 128000 + (t₁ - t₀)

variable {p p' : Probe} {s s' : State} {clock : Nat} {d : Nat × Mark}
  {quiets rest marks : List (Nat × Mark)}

lemma toNat_ffEddyNowMs (t : Nat) : (ffEddyNowMs t).toNat = t % 2 ^ 32 / 128000 := by
  rw [ffEddyNowMs, UInt32.toNat_div, UInt32.toNat_ofNat']
  rfl

lemma le_sub_iff_passed {t₀ t₁ t : Nat} (hle : t₀ ≤ t₁) (hle' : t₁ ≤ t)
    (hms : 2000 ≤ ffEddyNowMs t - ffEddyNowMs t₁) :
    2000 * 128000 ≤ t - t₀ ↔ Passed t₀ t₁ t := by
  have hlit : (2000 : UInt32).toNat = 2000 := rfl
  unfold Passed
  rw [UInt32.le_iff_toNat_le, hlit] at hms
  rw [UInt32.lt_iff_toNat_lt, hlit]
  split_ifs with hback
  · rw [UInt32.toNat_sub_of_le _ _ hback, toNat_ffEddyNowMs, toNat_ffEddyNowMs] at hms ⊢
    rw [UInt32.le_iff_toNat_le, toNat_ffEddyNowMs, toNat_ffEddyNowMs] at hback
    omega
  · rw [UInt32.le_iff_toNat_le, toNat_ffEddyNowMs, toNat_ffEddyNowMs] at hback
    omega

lemma QuietSince.cons (h : QuietSince clock d quiets rest marks) :
    QuietSince clock d ((clock, .quiet) :: quiets) rest ((clock, .quiet) :: marks) where
  marks := by rw [h.marks, List.cons_append]
  disturbs := h.disturbs
  quiet := by
    intro q hq
    rcases List.mem_cons.mp hq with rfl | hq
    · rfl
    · exact h.quiet q hq
  le := h.le
  times := by
    intro q hq
    rcases List.mem_cons.mp hq with rfl | hq
    · exact ⟨h.le, le_refl _⟩
    · exact h.times q hq

lemma QuietSince.mono {clock' : Nat} (h : QuietSince clock d quiets rest marks)
    (hle : clock ≤ clock') : QuietSince clock' d quiets rest marks :=
  ⟨h.marks, h.disturbs, h.quiet, h.le.trans hle,
    fun q hq => ⟨(h.times q hq).1, (h.times q hq).2.trans hle⟩⟩

lemma quietSince_of_disturbs {m : Mark} (clock : Nat) (marks : List (Nat × Mark)) (h : m.Disturbs) :
    QuietSince clock (clock, m) [] marks ((clock, m) :: marks) :=
  ⟨rfl, h, nofun, le_refl _, nofun⟩

lemma QuietSince.start_le (h : QuietSince clock d quiets rest marks) :
    d.1 ≤ (quietStart (startTimes d quiets)).getD clock ∧
      (quietStart (startTimes d quiets)).getD clock ≤ clock := by
  cases hstart : quietStart (startTimes d quiets) with
  | none => exact ⟨h.le, le_refl _⟩
  | some τ =>
    rcases List.mem_append.mp (List.mem_of_find?_eq_some hstart) with hτ | hτ
    · split_ifs at hτ
      · rw [Option.getD_some, List.mem_singleton.mp hτ]
        exact ⟨le_refl _, h.le⟩
      · cases hτ
    · obtain ⟨q, hq, rfl⟩ := List.mem_map.mp hτ
      exact h.times q (List.mem_reverse.mp hq)

lemma startMs_append (times : List Nat) (t : Nat) :
    startMs (times ++ [t]) = ffEddyNowMs ((quietStart times).getD t) := by
  unfold startMs quietStart
  rw [List.find?_append]
  cases times.find? fun τ => ffEddyNowMs τ ≠ 0 with
  | some τ => rfl
  | none =>
    rw [Option.none_or, List.find?_singleton, Option.getD_none]
    split_ifs with hne
    · rfl
    · simpa using (not_not.mp fun h => hne (decide_eq_true h)).symm

lemma startTimes_cons (d : Nat × Mark) (q : Nat × Mark) (quiets : List (Nat × Mark)) :
    startTimes d (q :: quiets) = startTimes d quiets ++ [q.1] := by
  unfold startTimes
  rw [List.reverse_cons, List.map_append, List.append_assoc]
  rfl

lemma quietFrom_eq {times : List Nat} (h : (stored p).quietStartMs = startMs times) (clock : Nat) :
    quietFrom p (ffEddyNowMs clock) = ffEddyNowMs ((quietStart times).getD clock) := by
  unfold quietFrom
  rw [h]
  unfold startMs
  cases hstart : quietStart times with
  | none => rfl
  | some τ =>
    have hne : ffEddyNowMs τ ≠ 0 := by simpa using List.find?_some hstart
    exact if_neg hne

/-! ### What a step does to the quiet time -/

/-- The variables that measure the quiet time. -/
structure SameQuiet (p p' : Probe) : Prop where
  haveFilter : p'.haveFilter = p.haveFilter
  quietStartMs : p'.quietStartMs = p.quietStartMs

lemma sameQuiet_stored (p : Probe) : SameQuiet p (stored p) := by
  unfold stored updateStore
  dsimp only
  split_ifs <;> exact ⟨rfl, rfl⟩

lemma sameQuiet_checkHard (value : UInt32) (state : Bool) :
    SameQuiet p (checkHard p value state).1 := by
  unfold checkHard
  split_ifs <;> exact ⟨rfl, rfl⟩

lemma sameQuiet_check (value baseline : UInt32) (thr : Int16) :
    SameQuiet p (check p value baseline thr).1 := by
  unfold check
  split
  · exact ⟨rfl, rfl⟩
  · unfold debounce
    dsimp only
    split_ifs <;> exact ⟨rfl, rfl⟩

/-- What a step can do to the quiet time. -/
inductive QuietStep (s : State) (s' : State) : Prop
  | same (h : SameQuiet s.probe s'.probe) (hmarks : s'.marks = s.marks) (hclock : s.clock ≤ s'.clock)
  | timer (h : s' = s.timer)
  | rebaseline (h : s'.probe = rebaselineStart s.probe)
      (hmarks : s'.marks = (s.clock, .rebaselined) :: s.marks) (hclock : s'.clock = s.clock)

lemma quietStep_start {call : Call} (h : s.start call = some s') : QuietStep s s' := by
  cases call with
  | checkTrigger =>
    obtain rfl := Option.some.inj h
    refine .same ?_ rfl (le_refl _)
    dsimp only
    unfold checkTriggerStart
    split_ifs <;> exact ⟨rfl, rfl⟩
  | endstopHome sampleCount =>
    obtain rfl := Option.some.inj h
    refine .same ?_ rfl (le_refl _)
    dsimp only
    split_ifs <;> exact ⟨rfl, rfl⟩
  | _ =>
    obtain rfl := Option.some.inj h
    exact .same ⟨rfl, rfl⟩ rfl (le_refl _)

lemma quietStep {a : Action} (hs : step s a = some s') : QuietStep s s' := by
  cases a with
  | tick cycles =>
    obtain rfl := Option.some.inj hs
    exact .same ⟨rfl, rfl⟩ rfl (Nat.le_add_right _ _)
  | capture cnt =>
    obtain rfl := Option.some.inj hs
    exact .same ⟨rfl, rfl⟩ rfl (le_refl _)
  | timer => exact .timer (Option.some.inj hs).symm
  | start call =>
    obtain ⟨-, hs⟩ := Option.ite_none_right_eq_some.mp hs
    exact quietStep_start hs
  | resume =>
    rw [step, State.resume] at hs
    cases htask : s.task <;> simp only [htask, Option.some.injEq, reduceCtorEq] at hs
    case checkHard value state =>
      subst hs
      exact .same (sameQuiet_checkHard value state) rfl (le_refl _)
    case check value baseline thr =>
      subst hs
      exact .same (sameQuiet_check value baseline thr) rfl (le_refl _)
    case getValue baseline =>
      subst hs
      exact .same ⟨rfl, rfl⟩ rfl (le_refl _)
    case getBasicParam baseline value =>
      subst hs
      exact .rebaseline rfl rfl rfl
    case rebaseline baseline value =>
      subst hs
      exact .same ⟨rfl, rfl⟩ rfl (le_refl _)
    case removePeel peel value =>
      subst hs
      exact .same ⟨rfl, rfl⟩ rfl (le_refl _)

/-! ### The quiet time over a run -/

/-- Every recalibration of the record comes after 2000 ms of the counter. -/
def Accounted (marks : List (Nat × Mark)) : Prop :=
  ∀ t older, (t, .recalibrated) :: older <:+ marks → ∃ d quiets rest,
    QuietSince t d quiets rest older ∧
      2000 ≤ ffEddyNowMs t - ffEddyNowMs ((quietStart (startTimes d quiets)).getD t)

lemma Accounted.cons {t : Nat} {m : Mark} (h : Accounted marks)
    (hm : m = .recalibrated → ∃ d quiets rest, QuietSince t d quiets rest marks ∧
      2000 ≤ ffEddyNowMs t - ffEddyNowMs ((quietStart (startTimes d quiets)).getD t)) :
    Accounted ((t, m) :: marks) := by
  intro t' older hsuffix
  rcases List.suffix_cons_iff.mp hsuffix with heq | hsuffix
  · obtain ⟨hhead, rfl⟩ := List.cons.inj heq
    obtain ⟨rfl, hmark⟩ := Prod.mk.inj hhead
    exact hm hmark.symm
  · exact h t' older hsuffix

structure Timing (s : State) : Prop where
  since : s.probe.haveFilter = true → ∃ d quiets rest, QuietSince s.clock d quiets rest s.marks ∧
    s.probe.quietStartMs = startMs (startTimes d quiets)
  accounted : Accounted s.marks

lemma Timing.update {r : Probe × Option Mark} (h : Timing s)
    (hr : UpdateStep s.probe (ffEddyNowMs s.clock) r) (hq : SameQuiet r.1 p) :
    Timing { s with probe := p, marks := r.2.toList.map (s.clock, ·) ++ s.marks } := by
  have hstored := sameQuiet_stored s.probe
  have hsince (hfilter : (stored s.probe).haveFilter = true) : ∃ d quiets rest,
      QuietSince s.clock d quiets rest s.marks ∧ quietFrom s.probe (ffEddyNowMs s.clock) =
        ffEddyNowMs ((quietStart (startTimes d quiets)).getD s.clock) := by
    obtain ⟨d, quiets, rest, hquiet, hstart⟩ := h.since (hstored.haveFilter ▸ hfilter)
    rw [← hstored.quietStartMs] at hstart
    exact ⟨d, quiets, rest, hquiet, quietFrom_eq hstart s.clock⟩
  cases hr with
  | unready =>
    refine ⟨fun hfilter => ?_, h.accounted⟩
    rw [hq.haveFilter] at hfilter
    obtain ⟨d, quiets, rest, hquiet, hstart⟩ := h.since hfilter
    exact ⟨d, quiets, rest, hquiet, hq.quietStartMs.trans hstart⟩
  | filling hno =>
    refine ⟨fun hfilter => ?_, h.accounted⟩
    rw [hq.haveFilter, hno] at hfilter
    cases hfilter
  | seeded =>
    refine ⟨fun _ => ?_, h.accounted.cons nofun⟩
    exact ⟨_, _, _, quietSince_of_disturbs s.clock s.marks trivial,
      hq.quietStartMs.trans (startMs_append [] s.clock).symm⟩
  | noisy =>
    refine ⟨fun _ => ?_, h.accounted.cons nofun⟩
    exact ⟨_, _, _, quietSince_of_disturbs s.clock s.marks trivial, hq.quietStartMs⟩
  | quiet hfilter =>
    refine ⟨fun _ => ?_, h.accounted.cons nofun⟩
    obtain ⟨d, quiets, rest, hquiet, hfrom⟩ := hsince hfilter
    refine ⟨d, _, rest, hquiet.cons, hq.quietStartMs.trans ?_⟩
    rw [startTimes_cons, startMs_append]
    exact hfrom
  | recalibrated hfilter _ hquiet =>
    refine ⟨fun hfilter' => ?_, h.accounted.cons fun _ => ?_⟩
    · rw [hq.haveFilter] at hfilter'
      cases hfilter'
    · obtain ⟨d, quiets, rest, hsince, hfrom⟩ := hsince hfilter
      rw [hfrom] at hquiet
      exact ⟨d, quiets, rest, hsince, hquiet⟩

lemma Timing.step {a : Action} (h : Timing s) (hs : step s a = some s') : Timing s' := by
  cases quietStep hs with
  | same hsame hmarks hclock =>
    refine ⟨fun hfilter => ?_, hmarks ▸ h.accounted⟩
    rw [hsame.haveFilter] at hfilter
    obtain ⟨d, quiets, rest, hquiet, hstart⟩ := h.since hfilter
    rw [hmarks, hsame.quietStartMs]
    exact ⟨d, quiets, rest, hquiet.mono hclock, hstart⟩
  | timer heq =>
    subst heq
    refine h.update (r := ffEddyUpdate s.probe (ffEddyNowMs s.clock)) (updateStep _ _) ?_
    unfold ffEddyTimerEventWith
    dsimp only
    split_ifs <;> exact ⟨rfl, rfl⟩
  | rebaseline hprobe hmarks hclock =>
    refine ⟨fun _ => ?_, ?_⟩
    · rw [hmarks, hclock, hprobe]
      exact ⟨_, _, _, quietSince_of_disturbs s.clock s.marks trivial, rfl⟩
    · rw [hmarks]
      exact h.accounted.cons nofun

/-- A recalibration comes after evaluations that were all quiet, back to the last seed, rebaseline or
noisy evaluation. When that was 2000 ms ago can be told from the counter. -/
theorem recalibrated_after_quiet {actions : List Action} {t : Nat} {older : List (Nat × Mark)}
    (h : Run step (fun _ _ => True) {} actions s) (hmark : (t, .recalibrated) :: older <:+ s.marks) :
    ∃ quiets t₀ m rest, older = quiets ++ (t₀, m) :: rest ∧ m.Disturbs ∧
      (∀ q ∈ quiets, q.2 = .quiet) ∧
      (2000 * 128000 ≤ t - t₀ ↔ Passed t₀ ((quietStart (startTimes (t₀, m) quiets)).getD t) t) := by
  have htiming : Timing s := by
    apply h.invariant
    · exact ⟨fun hfilter => Bool.noConfusion hfilter, fun _ _ hsuffix => by simp at hsuffix⟩
    · intro s a s' hi _ hs
      exact hi.step hs
  obtain ⟨⟨t₀, m⟩, quiets, rest, hsince, hms⟩ := htiming.accounted t older hmark
  obtain ⟨hle, hle'⟩ := hsince.start_le
  exact ⟨quiets, t₀, m, rest, hsince.marks, hsince.disturbs, hsince.quiet,
    le_sub_iff_passed hle hle' hms⟩

/-- Captures of a constant reading, each followed by the timer. -/
def quietPolls (n : Nat) : List Action :=
  (List.range n).flatMap fun i => [.tick 64000, .capture (UInt16.ofNat (500 * (i + 1))), .timer]

theorem recalibrated_after_quiet_polls : ∃ actions s, Run step (fun _ _ => True) {} actions s ∧
    s.marks = [(256704000, .recalibrated), (704000, .seeded)] ∧
    ∃ quiets t₀ m rest, [(704000, Mark.seeded)] = quiets ++ (t₀, m) :: rest ∧ m.Disturbs ∧
      (∀ q ∈ quiets, q.2 = .quiet) ∧
      (2000 * 128000 ≤ 256704000 - t₀ ↔
        Passed t₀ ((quietStart (startTimes (t₀, m) quiets)).getD 256704000) 256704000) := by
  obtain ⟨s, hrun, hp⟩ : ∃ s, Run step (fun _ _ => True) {}
      (quietPolls 11 ++ [.tick 256000000, .capture 6000, .timer]) s ∧
      decide (s.marks = [(256704000, .recalibrated), (704000, .seeded)]) = true :=
    Run.exists_of_exec _ _ (by decide +kernel)
  have hmarks := of_decide_eq_true hp
  exact ⟨_, s, hrun, hmarks, recalibrated_after_quiet hrun ⟨[], hmarks.symm⟩⟩

/-- The counter wraps 1.5 ms after the filter was seeded, and the next evaluation recalibrates. Without
a wrap the filter is seeded in the middle of a millisecond, and 1999.5 ms are enough. -/
theorem recalibrated_early :
    (∃ actions s, Run step (fun _ _ => True) {} actions s ∧
      s.marks = [(2 ^ 32, .recalibrated), (2 ^ 32 - 64000, .quiet), (2 ^ 32 - 128000, .quiet),
        (2 ^ 32 - 192000, .seeded)]) ∧
    ∃ actions s, Run step (fun _ _ => True) {} actions s ∧
      s.marks = [(256640000, .recalibrated), (704000, .seeded)] := by
  constructor
  · obtain ⟨s, hrun, hp⟩ : ∃ s, Run step (fun _ _ => True) {}
        ([.tick (2 ^ 32 - 896000)] ++ quietPolls 14) s ∧
        decide (s.marks = [(2 ^ 32, .recalibrated), (2 ^ 32 - 64000, .quiet),
          (2 ^ 32 - 128000, .quiet), (2 ^ 32 - 192000, .seeded)]) = true :=
      Run.exists_of_exec _ _ (by decide +kernel)
    exact ⟨_, s, hrun, of_decide_eq_true hp⟩
  · obtain ⟨s, hrun, hp⟩ : ∃ s, Run step (fun _ _ => True) {}
        (quietPolls 11 ++ [.tick 255936000, .capture 6000, .timer]) s ∧
        decide (s.marks = [(256640000, .recalibrated), (704000, .seeded)]) = true :=
      Run.exists_of_exec _ _ (by decide +kernel)
    exact ⟨_, s, hrun, of_decide_eq_true hp⟩

end KlipperMcu.Eddy
