import KlipperMcu.Lib.Run
import KlipperMcu.Lib.Streak
import Mathlib.Algebra.Order.Group.Nat
import Mathlib.Tactic.Common

/-!
# End stops

One object of endstop.c. While it is homing, its timer reads the pin. After a reading that matches
the requested level it reads more often, and triggers its trsync when `sample_count` of these
oversample readings in a row have matched. `ff_endstop_active` and the eddy probe, which the
commands also set, are left out.
-/

namespace KlipperMcu.Homing

open Lib

/-- The callbacks of the timer. -/
inductive EndstopFunc where
  | event
  | oversample
deriving DecidableEq, Repr

/-- `struct endstop` with the flags of its `flags` field and whether its timer is on the timer list.
The trsync is a pointer. -/
structure Endstop where
  waketime : UInt32 := 0
  func : EndstopFunc := .event
  scheduled : Bool := false
  restTime : UInt32 := 0
  sampleTime : UInt32 := 0
  nextwake : UInt32 := 0
  ts : Option Nat := none
  pinHigh : Bool := false
  homing : Bool := false
  sampleCount : UInt8 := 0
  triggerCount : UInt8 := 0
  triggerReason : UInt8 := 0

/-- The arguments of `trsync_do_trigger`. -/
structure DoTrigger where
  ts : Option Nat
  reason : UInt8
deriving DecidableEq, Repr

/-- `(val ? ~e->flags : e->flags) & ESF_PIN_HIGH`. -/
def Endstop.noMatch (e : Endstop) (val : Bool) : Bool := if val then !e.pinHigh else e.pinHigh

/-- `endstop_oversample_event` that reads `val`. After a trigger the timer is done. -/
def endstopOversampleEvent (e : Endstop) (val : Bool) : Endstop × Option DoTrigger :=
  if e.noMatch val then
    ({ e with func := .event, waketime := e.nextwake, triggerCount := e.sampleCount }, none)
  else
    let count := e.triggerCount - 1
    if count = 0 then ({ e with scheduled := false }, some ⟨e.ts, e.triggerReason⟩)
    else ({ e with triggerCount := count, waketime := e.waketime + e.sampleTime }, none)

/-- `endstop_event` that reads `val`, and `val'` if it goes on to `endstop_oversample_event`. -/
def endstopEvent (e : Endstop) (val val' : Bool) : Endstop × Option DoTrigger :=
  let nextwake := e.waketime + e.restTime
  if e.noMatch val then ({ e with waketime := nextwake }, none)
  else endstopOversampleEvent { e with nextwake := nextwake, func := .oversample } val'

/-- The arguments of `endstop_home`. -/
structure Home where
  clock : UInt32
  sampleTicks : UInt32
  sampleCount : UInt8
  restTicks : UInt32
  pinValue : UInt8
  triggerReason : UInt8
deriving DecidableEq, Repr

/-- `command_endstop_home`. `ts` is what `trsync_oid_lookup` returns, if it does not shut down, and
`close` tells whether the time has passed when the timer is added. A shutdown returns the object it
leaves behind. -/
def commandEndstopHome (e : Endstop) (h : Home) (ts : Option Nat) (close : Bool) :
    Except Endstop Endstop :=
  let e := { e with
    scheduled := false
    waketime := h.clock
    sampleTime := h.sampleTicks
    sampleCount := h.sampleCount }
  if h.sampleCount = 0 then .ok { e with pinHigh := false, homing := false, ts := none }
  else
    let e := { e with
      func := .event
      restTime := h.restTicks
      triggerCount := h.sampleCount
      homing := true
      pinHigh := h.pinValue ≠ 0 }
    match ts with
    | none => .error e
    | some i =>
      let e := { e with ts := some i, triggerReason := h.triggerReason }
      if close then .error e else .ok { e with scheduled := true }

/-- `command_endstop_recover_state`. -/
def commandEndstopRecoverState (e : Endstop) : Endstop :=
  { e with
    scheduled := false
    triggerCount := e.sampleCount
    ts := none
    pinHigh := false
    homing := false }

/-! ### Runs -/

/-- A reading of the pin and the callback that took it. -/
structure Reading where
  func : EndstopFunc
  val : Bool
deriving DecidableEq, Repr

/-- A trigger with the number of the homing command it belongs to, what that command asked for, and
the readings since then, latest first. -/
structure Trigger where
  homing : Nat
  sampleCount : Nat
  level : Bool
  readings : List Reading
  call : DoTrigger
deriving DecidableEq, Repr

/-- The object, the number of homing commands so far, what the last one asked for, the readings
since then and all triggers, latest first. -/
structure State where
  e : Endstop := {}
  homings : Nat := 0
  sampleCount : Nat := 0
  level : Bool := false
  readings : List Reading := []
  triggers : List Trigger := []

inductive Action where
  | home (h : Home) (ts : Option Nat) (close : Bool)
  | recoverState
  | timer (val val' : Bool)
  | shutdown
deriving DecidableEq, Repr

def State.home (s : State) (h : Home) (e : Endstop) : State :=
  { s with
    e := e
    homings := s.homings + 1
    sampleCount := h.sampleCount.toNat
    level := h.pinValue ≠ 0
    readings := [] }

/-- The state after a callback, with what it has read, latest first. -/
def State.called (s : State) (taken : List Reading) (r : Endstop × Option DoTrigger) : State :=
  { s with
    e := r.1
    readings := taken ++ s.readings
    triggers := r.2.toList.map
      (⟨s.homings, s.sampleCount, s.level, taken ++ s.readings, ·⟩) ++ s.triggers }

/-- What the callback at the head of the timer list reads. -/
def taken (e : Endstop) (val val' : Bool) : List Reading :=
  match e.func with
  | .oversample => [⟨.oversample, val⟩]
  | .event => if e.noMatch val then [⟨.event, val⟩] else [⟨.oversample, val'⟩, ⟨.event, val⟩]

/-- The timer runs only if it is on the timer list. A shutdown removes it from there. -/
def step (s : State) : Action → Option State
  | .home h ts close =>
    match commandEndstopHome s.e h ts close with
    | .ok e => some (s.home h e)
    | .error e => some (s.home h { e with scheduled := false })
  | .recoverState => some { s with e := commandEndstopRecoverState s.e }
  | .timer val val' =>
    if s.e.scheduled then
      some (s.called (taken s.e val val')
        (match s.e.func with
        | .event => endstopEvent s.e val val'
        | .oversample => endstopOversampleEvent s.e val))
    else none
  | .shutdown => some { s with e := { s.e with scheduled := false } }

/-! ### The invariant -/

/-- An oversample reading that matches. -/
def Reading.hits (level : Bool) (r : Reading) : Bool := r.func == .oversample && r.val == level

/-- While the timer is on the list, `trigger_count` is the number of matches that are missing. -/
structure Live (s : State) : Prop where
  ts : s.e.ts ≠ none
  level : s.e.pinHigh = s.level
  sampleCount : s.e.sampleCount.toNat = s.sampleCount
  missing : s.e.triggerCount.toNat + streak (Reading.hits s.level) s.readings = s.sampleCount
  pos : 1 ≤ s.e.triggerCount.toNat
  event : s.e.func = .event → streak (Reading.hits s.level) s.readings = 0
  fresh : ∀ t ∈ s.triggers, t.homing < s.homings

/-- The last readings before a trigger were oversample readings that matched. -/
structure Trigger.Sound (t : Trigger) : Prop where
  ts : t.call.ts ≠ none
  count : 1 ≤ t.sampleCount
  readings : t.sampleCount ≤ t.readings.length ∧
    ∀ r ∈ t.readings.take t.sampleCount, r.func = .oversample ∧ r.val = t.level

structure Inv (s : State) : Prop where
  live : s.e.scheduled = true → Live s
  sound : ∀ t ∈ s.triggers, t.Sound
  homings : ∀ t ∈ s.triggers, t.homing ≤ s.homings
  order : (s.triggers.map Trigger.homing).Pairwise (· > ·)

variable {s s' : State}

lemma noMatch_eq_false_iff (e : Endstop) (val : Bool) :
    e.noMatch val = false ↔ val = e.pinHigh := by
  unfold Endstop.noMatch
  cases val <;> cases e.pinHigh <;> decide

lemma hits_oversample_iff (level val : Bool) :
    Reading.hits level ⟨.oversample, val⟩ = true ↔ val = level := by
  simp [Reading.hits]

lemma hits_event (level val : Bool) : Reading.hits level ⟨.event, val⟩ = false := by
  simp [Reading.hits]

lemma Inv.unscheduled (h : Inv s) {e : Endstop} (he : e.scheduled = false) :
    Inv { s with e := e } := by
  refine { h with live := fun hlive => ?_ }
  dsimp only at hlive
  rw [he] at hlive
  exact Bool.noConfusion hlive

lemma hits_iff_match (hlive : Live s) (val : Bool) :
    Reading.hits s.level ⟨.oversample, val⟩ = true ↔ s.e.noMatch val = false := by
  rw [hits_oversample_iff, ← hlive.level, ← noMatch_eq_false_iff]

lemma Inv.miss (h : Inv s) (hlive : Live s) {val : Bool} (hno : s.e.noMatch val = true) :
    Inv (s.called [⟨.oversample, val⟩] (endstopOversampleEvent s.e val)) := by
  have hhit : Reading.hits s.level ⟨.oversample, val⟩ = false := by
    rw [Bool.eq_false_iff, ne_eq, hits_iff_match hlive, hno]
    exact Bool.noConfusion
  have hpos := hlive.pos
  have hmissing := hlive.missing
  rw [endstopOversampleEvent, if_pos hno]
  refine { h with live := fun _ => ?_ }
  refine ⟨hlive.ts, hlive.level, hlive.sampleCount, ?_, ?_, ?_, hlive.fresh⟩
  · change s.e.sampleCount.toNat + streak (Reading.hits s.level) (_ :: s.readings) = s.sampleCount
    rw [streak_cons_of_neg hhit, hlive.sampleCount]
    rfl
  · change 1 ≤ s.e.sampleCount.toNat
    rw [hlive.sampleCount]
    omega
  · intro _
    exact streak_cons_of_neg hhit

lemma Inv.trigger (h : Inv s) (hlive : Live s) {val : Bool} {e : Endstop} {call : DoTrigger}
    (hoff : e.scheduled = false) (hts : call.ts ≠ none)
    (hcount : s.sampleCount ≤ streak (Reading.hits s.level) (⟨.oversample, val⟩ :: s.readings)) :
    Inv (s.called [⟨.oversample, val⟩] (e, some call)) := by
  have hpos := hlive.pos
  have hmissing := hlive.missing
  refine ⟨fun hon => Bool.noConfusion (hoff.symm.trans hon), ?_, ?_, ?_⟩
  · intro t ht
    rcases List.mem_cons.mp ht with rfl | ht
    · obtain ⟨hlength, hall⟩ := le_streak_iff.mp hcount
      refine ⟨hts, by dsimp only; omega, hlength, fun r hr => ?_⟩
      have hr' := hall r hr
      simpa [Reading.hits] using hr'
    · exact h.sound t ht
  · intro t ht
    rcases List.mem_cons.mp ht with rfl | ht
    · exact Nat.le_refl _
    · exact h.homings t ht
  · apply List.Pairwise.cons
    · intro k hk
      obtain ⟨t, ht, rfl⟩ := List.mem_map.mp hk
      exact hlive.fresh t ht
    · exact h.order

lemma Inv.oversample (h : Inv s) (hlive : Live s) (hfunc : s.e.func = .oversample) (val : Bool) :
    Inv (s.called [⟨.oversample, val⟩] (endstopOversampleEvent s.e val)) := by
  by_cases hno : s.e.noMatch val = true
  · exact h.miss hlive hno
  have hone : (1 : UInt8).toNat = 1 := rfl
  have hpos := hlive.pos
  have hmissing := hlive.missing
  have hsub : (s.e.triggerCount - 1).toNat = s.e.triggerCount.toNat - 1 :=
    UInt8.toNat_sub_of_le _ 1 (UInt8.le_iff_toNat_le.mpr hpos)
  have hstreak : streak (Reading.hits s.level) (⟨.oversample, val⟩ :: s.readings) =
      streak (Reading.hits s.level) s.readings + 1 :=
    streak_cons_of_pos ((hits_iff_match hlive val).mpr (Bool.eq_false_iff.mpr hno))
  rw [endstopOversampleEvent, if_neg hno]
  dsimp only
  by_cases hzero : s.e.triggerCount - 1 = 0
  · rw [if_pos hzero]
    apply h.trigger hlive rfl hlive.ts
    have hz := congrArg UInt8.toNat hzero
    rw [hsub, UInt8.toNat_zero] at hz
    omega
  · rw [if_neg hzero]
    refine { h with live := fun _ => ?_ }
    refine ⟨hlive.ts, hlive.level, hlive.sampleCount, ?_, ?_, ?_, hlive.fresh⟩
    · change (s.e.triggerCount - 1).toNat + streak (Reading.hits s.level) (_ :: s.readings) =
        s.sampleCount
      rw [hstreak, hsub]
      omega
    · change 1 ≤ (s.e.triggerCount - 1).toNat
      have hne : (s.e.triggerCount - 1).toNat ≠ 0 := fun hz => hzero (UInt8.toNat_inj.mp hz)
      omega
    · intro hevent
      exact absurd (hfunc.symm.trans hevent) EndstopFunc.noConfusion

lemma Inv.timer (h : Inv s) {val val' : Bool} (hs : step s (.timer val val') = some s') :
    Inv s' := by
  obtain ⟨hscheduled, hs⟩ := Option.ite_none_right_eq_some.mp hs
  obtain rfl := Option.some.inj hs
  have hlive := h.live hscheduled
  cases hfunc : s.e.func with
  | oversample =>
    have htaken : taken s.e val val' = [⟨.oversample, val⟩] := by
      unfold taken
      rw [hfunc]
    rw [htaken]
    exact h.oversample hlive hfunc val
  | event =>
    have hzero := hlive.event hfunc
    have hmissing := hlive.missing
    have hstreak : streak (Reading.hits s.level) (⟨.event, val⟩ :: s.readings) = 0 :=
      streak_cons_of_neg (hits_event _ _)
    dsimp only
    rw [taken, hfunc, endstopEvent]
    dsimp only
    by_cases hno : s.e.noMatch val = true
    · rw [if_pos hno, if_pos hno]
      refine { h with live := fun _ => ?_ }
      refine ⟨hlive.ts, hlive.level, hlive.sampleCount, ?_, hlive.pos, ?_, hlive.fresh⟩
      · change s.e.triggerCount.toNat + streak (Reading.hits s.level) (_ :: s.readings) =
          s.sampleCount
        omega
      · intro _
        exact hstreak
    · rw [if_neg hno, if_neg hno]
      have hread : Live { s with
          e := { s.e with nextwake := s.e.waketime + s.e.restTime, func := .oversample }
          readings := ⟨.event, val⟩ :: s.readings } := by
        refine ⟨hlive.ts, hlive.level, hlive.sampleCount, ?_, hlive.pos, fun _ => hstreak,
          hlive.fresh⟩
        dsimp only
        omega
      have hinv : Inv { s with
          e := { s.e with nextwake := s.e.waketime + s.e.restTime, func := .oversample }
          readings := ⟨.event, val⟩ :: s.readings } := { h with live := fun _ => hread }
      exact hinv.oversample hread rfl val'

lemma Inv.home (h : Inv s) {args : Home} {ts : Option Nat} {close : Bool}
    (hs : step s (.home args ts close) = some s') : Inv s' := by
  have hold : ∀ t ∈ s.triggers, t.homing < s.homings + 1 :=
    fun t ht => Nat.lt_succ_of_le (h.homings t ht)
  have hquiet {e : Endstop} (he : e.scheduled = false) : Inv (s.home args e) := by
    refine ⟨fun hlive => ?_, h.sound, fun t ht => (hold t ht).le, h.order⟩
    change e.scheduled = true at hlive
    rw [he] at hlive
    exact Bool.noConfusion hlive
  rw [step, commandEndstopHome] at hs
  by_cases hzero : args.sampleCount = 0
  · rw [if_pos hzero] at hs
    obtain rfl := Option.some.inj hs
    exact hquiet rfl
  rw [if_neg hzero] at hs
  cases ts with
  | none =>
    obtain rfl := Option.some.inj hs
    exact hquiet rfl
  | some i =>
    cases close with
    | true =>
      obtain rfl := Option.some.inj hs
      exact hquiet rfl
    | false =>
      obtain rfl := Option.some.inj hs
      refine ⟨fun _ => ?_, h.sound, fun t ht => (hold t ht).le, h.order⟩
      refine ⟨Option.some_ne_none i, rfl, rfl, rfl, ?_, fun _ => rfl, hold⟩
      change 1 ≤ args.sampleCount.toNat
      have hne : args.sampleCount.toNat ≠ 0 := fun hz => hzero (UInt8.toNat_inj.mp hz)
      omega

lemma Inv.step {a : Action} (h : Inv s) (hs : step s a = some s') : Inv s' := by
  cases a with
  | home args ts close => exact h.home hs
  | recoverState =>
    obtain rfl := Option.some.inj hs
    exact h.unscheduled rfl
  | timer val val' => exact h.timer hs
  | shutdown =>
    obtain rfl := Option.some.inj hs
    exact h.unscheduled rfl

lemma inv_init : Inv {} where
  live hlive := Bool.noConfusion hlive
  sound _ ht := absurd ht List.not_mem_nil
  homings _ ht := absurd ht List.not_mem_nil
  order := List.Pairwise.nil

/-- A trigger comes after `sample_count` oversample readings in a row that all matched, there is at
most one for each homing command, and a timer on the list has its trsync. -/
theorem endstop_of_run {actions : List Action} (h : Run step (fun _ _ => True) {} actions s) :
    (∀ t ∈ s.triggers, t.Sound) ∧ (s.triggers.map Trigger.homing).Nodup ∧
      (s.e.scheduled = true → s.e.ts ≠ none) := by
  have hinv : Inv s := by
    apply h.invariant inv_init
    intro s a s' hinv _ hs
    exact hinv.step hs
  refine ⟨hinv.sound, ?_, fun hscheduled => (hinv.live hscheduled).ts⟩
  exact hinv.order.imp fun hlt => Nat.ne_of_gt hlt

/-- The second reading of the first attempt does not match. -/
def bounceActions : List Action :=
  [.home ⟨1000, 10, 2, 100, 1, 3⟩ (some 5) false, .timer false false, .timer true true,
    .timer false false, .timer true true, .timer true true]

theorem endstop_of_run_bounce : ∃ s, Run step (fun _ _ => True) {} bounceActions s ∧
    s.triggers.map Trigger.call = [⟨some 5, 3⟩] ∧ (∀ t ∈ s.triggers, t.Sound) ∧
    (s.triggers.map Trigger.homing).Nodup := by
  obtain ⟨s, hrun, hs⟩ : ∃ s, Run step (fun _ _ => True) {} bounceActions s ∧
      decide (s.triggers.map Trigger.call = [⟨some 5, 3⟩]) = true :=
    Run.exists_of_exec _ _ (by decide +kernel)
  obtain ⟨hsound, hnodup, -⟩ := endstop_of_run hrun
  exact ⟨s, hrun, of_decide_eq_true hs, hsound, hnodup⟩

end KlipperMcu.Homing
