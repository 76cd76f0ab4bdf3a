import KlipperMcu.Lib.Run
import KlipperMcu.Firmware.DigitalOut

/-!
# A digital output over time

The commands of one output and its timer take turns, since each command either disables interrupts
or first removes the timer. A shutdown takes all timers off the timer list and calls
`digital_out_shutdown`.
-/

namespace KlipperMcu.Gpio

open Lib Sched

inductive Status where
  | running
  | shutdown
deriving DecidableEq, Repr

structure State where
  out : DigitalOut
  queue : List DigitalMove
  /-- The scheduled time of the last setting that was applied. -/
  applied : UInt32
  status : Status
deriving DecidableEq, Repr

inductive Action where
  | queueDigitalOut (clock onTicks : UInt32) (close : Bool)
  | updateDigitalOut (value cur : UInt32) (close : Bool)
  | setDigitalOutPwmCycle (cycleTicks : UInt32)
  | timer
  /-- Any other code of the firmware shuts down. -/
  | shutdown
  | clearShutdown
deriving DecidableEq, Repr

/-- `run_shutdown` on one output. -/
def State.runShutdown (s : State) : State :=
  { s with
    out := { digitalOutShutdown s.out with scheduled := false }
    queue := []
    status := .shutdown }

/-- The state after a call that returned `d` or shut down. -/
def State.leave (s : State) : Except DigitalOut DigitalOut → State
  | .error d => { s with out := d }.runShutdown
  | .ok d => { s with out := d }

/-- The timer interrupt runs the callback of the output. -/
def State.dispatch (s : State) : State :=
  match s.out.func, s.queue with
  | .toggle, _ =>
    let (d, result) := digitalToggleEvent s.out
    { s with out := { d with scheduled := decide (result = .reschedule) } }
  | .load, [] => s.runShutdown
  | .load, m :: rest =>
    match digitalLoadEvent s.out m rest.head? with
    | .error d => { s with out := d }.runShutdown
    | .ok (d, result) =>
      { s with
        out := { d with scheduled := decide (result = .reschedule) }
        queue := rest
        applied := m.waketime }

def run (s : State) : Action → State
  | .queueDigitalOut clock onTicks close =>
    let m : DigitalMove := ⟨clock, onTicks⟩
    { s with queue := s.queue ++ [m] }.leave
      (commandQueueDigitalOut s.out m s.queue.isEmpty close)
  | .updateDigitalOut value cur close =>
    { s with applied := cur }.leave
      (commandUpdateDigitalOut s.out s.queue.isEmpty value cur close)
  | .setDigitalOutPwmCycle cycleTicks =>
    s.leave (commandSetDigitalOutPwmCycle s.out s.queue.isEmpty cycleTicks)
  | .timer => s.dispatch
  | .shutdown => s.runShutdown
  | .clearShutdown => { s with status := .running }

/-- When an action can happen. -/
def Enabled (s : State) : Action → Prop
  | .timer => s.status = .running ∧ s.out.scheduled = true
  | .clearShutdown => s.status = .shutdown
  | _ => s.status = .running

instance (s : State) (a : Action) : Decidable (Enabled s a) := by
  cases a <;> dsimp only [Enabled] <;> infer_instance

def step (s : State) (a : Action) : Option State := if Enabled s a then some (run s a) else none

def Legal (_ : State) (_ : Action) : Prop := True

instance (s : State) (a : Action) : Decidable (Legal s a) := .isTrue trivial

/-- The state after `config_digital_out` with `value` equal to `default_value`. -/
def configured (value maxDuration : UInt32) : State where
  out := commandConfigDigitalOut value value maxDuration
  queue := []
  applied := 0
  status := .running

section Kept

variable {max : UInt32} {P : DigitalOut → UInt32 → List DigitalMove → Prop} {d d' : DigitalOut}
  {cur : UInt32} {m : DigitalMove} {result : SchedResult} {close : Bool} {s : State}

/-- A property of a running output, of the scheduled time of its setting and of its queue that every
function keeps. -/
structure Kept (max : UInt32) (P : DigitalOut → UInt32 → List DigitalMove → Prop) : Prop where
  shutdown : ∀ d applied, P { digitalOutShutdown d with scheduled := false } applied []
  toggle : ∀ d applied queue d' result, d.scheduled = true → d.func = .toggle → P d applied queue →
    digitalToggleEvent d = (d', result) →
    P { d' with scheduled := decide (result = .reschedule) } applied queue
  load : ∀ d applied m queue d' result, d.maxDuration = max → d.scheduled = true →
    d.func = .load → P d applied (m :: queue) →
    digitalLoadEvent d m queue.head? = .ok (d', result) →
    P { d' with scheduled := decide (result = .reschedule) } m.waketime queue
  first : ∀ d applied m close d', d.maxDuration = max → P d applied [] →
    commandQueueDigitalOut d m true close = .ok d' → P d' applied [m]
  append : ∀ d applied queue m, P d applied queue → queue ≠ [] → P d applied (queue ++ [m])
  update : ∀ d value cur close d', d.maxDuration = max →
    commandUpdateDigitalOut d true value cur close = .ok d' → P d' cur []
  cycle : ∀ d applied queue cycleTicks, P d applied queue →
    P { d with cycleTime := cycleTicks } applied queue

structure Holds (max : UInt32) (P : DigitalOut → UInt32 → List DigitalMove → Prop) (s : State) :
    Prop where
  maxDuration : s.out.maxDuration = max
  running : s.status = .running → P s.out s.applied s.queue
  down : s.status = .shutdown → s = s.runShutdown

lemma holds_runShutdown (h : s.out.maxDuration = max) : Holds max P s.runShutdown where
  maxDuration := h
  running := by simp [State.runShutdown]
  down _ := rfl

lemma digitalLoadEvent_maxDuration {next : Option DigitalMove} :
    (∀ d', digitalLoadEvent d m next = .error d' → d'.maxDuration = d.maxDuration) ∧
      ∀ d' result, digitalLoadEvent d m next = .ok (d', result) →
        d'.maxDuration = d.maxDuration := by
  unfold digitalLoadEvent
  constructor
  · grind
  · grind

lemma digitalToggleEvent_keeps (d : DigitalOut) :
    (digitalToggleEvent d).1.maxDuration = d.maxDuration ∧
      (digitalToggleEvent d).1.endTime = d.endTime := by
  unfold digitalToggleEvent
  grind

lemma holds_dispatch (hk : Kept max P) (h : Holds max P s) (hr : s.status = .running)
    (hs : s.out.scheduled = true) : Holds max P s.dispatch := by
  have hp := h.running hr
  unfold State.dispatch
  split
  · rename_i hf
    refine ⟨(digitalToggleEvent_keeps _).1.trans h.maxDuration, fun _ => ?_, by simp [hr]⟩
    exact hk.toggle _ _ _ _ _ hs hf hp rfl
  · exact holds_runShutdown h.maxDuration
  · rename_i m rest hf hq
    rw [hq] at hp
    split
    · rename_i d he
      exact holds_runShutdown ((digitalLoadEvent_maxDuration.1 d he).trans h.maxDuration)
    · rename_i d result he
      have hd := digitalLoadEvent_maxDuration.2 d result he
      refine ⟨hd.trans h.maxDuration, fun _ => ?_, by simp [hr]⟩
      exact hk.load _ _ _ _ _ _ h.maxDuration hs hf hp he

lemma holds_leave {e : Except DigitalOut DigitalOut} (hr : s.status = .running)
    (herror : ∀ d, e = .error d → d.maxDuration = max)
    (hok : ∀ d, e = .ok d → d.maxDuration = max ∧ P d s.applied s.queue) :
    Holds max P (s.leave e) := by
  cases e with
  | error d => exact holds_runShutdown (herror d rfl)
  | ok d => exact ⟨(hok d rfl).1, fun _ => (hok d rfl).2, by simp [State.leave, hr]⟩

lemma commandQueueDigitalOut_maxDuration {first : Bool} :
    (∀ d', commandQueueDigitalOut d m first close = .error d' → d'.maxDuration = d.maxDuration) ∧
      ∀ d', commandQueueDigitalOut d m first close = .ok d' → d'.maxDuration = d.maxDuration := by
  unfold commandQueueDigitalOut
  constructor
  · grind
  · grind

lemma holds_queueDigitalOut (hk : Kept max P) (h : Holds max P s) (hr : s.status = .running)
    (clock onTicks : UInt32) (close : Bool) :
    Holds max P (run s (.queueDigitalOut clock onTicks close)) := by
  have hp := h.running hr
  apply holds_leave (s := { s with queue := s.queue ++ [⟨clock, onTicks⟩] }) hr
  · intro d hd
    exact (commandQueueDigitalOut_maxDuration.1 d hd).trans h.maxDuration
  · intro d hd
    refine ⟨(commandQueueDigitalOut_maxDuration.2 d hd).trans h.maxDuration, ?_⟩
    cases hq : s.queue with
    | nil =>
      rw [hq] at hp hd
      exact hk.first _ _ _ _ _ h.maxDuration hp hd
    | cons a rest =>
      rw [hq] at hp hd
      simp only [commandQueueDigitalOut, List.isEmpty_cons, Bool.not_false, if_true] at hd
      cases hd
      exact hk.append _ _ _ _ hp (by simp)

lemma commandUpdateDigitalOut_maxDuration {empty : Bool} {value : UInt32} :
    (∀ d', commandUpdateDigitalOut d empty value cur close = .error d' →
        d'.maxDuration = d.maxDuration) ∧
      ∀ d', commandUpdateDigitalOut d empty value cur close = .ok d' →
        d'.maxDuration = d.maxDuration := by
  unfold commandUpdateDigitalOut
  constructor
  · grind
  · grind

lemma holds_updateDigitalOut (hk : Kept max P) (h : Holds max P s) (hr : s.status = .running)
    (value cur : UInt32) (close : Bool) :
    Holds max P (run s (.updateDigitalOut value cur close)) := by
  apply holds_leave (s := { s with applied := cur }) hr
  · intro d hd
    exact (commandUpdateDigitalOut_maxDuration.1 d hd).trans h.maxDuration
  · intro d hd
    refine ⟨(commandUpdateDigitalOut_maxDuration.2 d hd).trans h.maxDuration, ?_⟩
    cases hq : s.queue with
    | nil =>
      rw [hq] at hd
      exact hk.update _ _ _ _ _ h.maxDuration hd
    | cons a rest =>
      rw [hq] at hd
      cases hd

lemma holds_setDigitalOutPwmCycle (hk : Kept max P) (h : Holds max P s)
    (hr : s.status = .running) (cycleTicks : UInt32) :
    Holds max P (run s (.setDigitalOutPwmCycle cycleTicks)) := by
  apply holds_leave hr
  · intro d hd
    unfold commandSetDigitalOutPwmCycle at hd
    grind [h.maxDuration]
  · intro d hd
    unfold commandSetDigitalOutPwmCycle at hd
    split at hd
    · cases hd
    · cases hd
      exact ⟨h.maxDuration, hk.cycle _ _ _ _ (h.running hr)⟩

lemma holds_run (hk : Kept max P) (h : Holds max P s) {a : Action} (ha : Enabled s a) :
    Holds max P (run s a) := by
  cases a with
  | queueDigitalOut clock onTicks close => exact holds_queueDigitalOut hk h ha clock onTicks close
  | updateDigitalOut value cur close => exact holds_updateDigitalOut hk h ha value cur close
  | setDigitalOutPwmCycle cycleTicks => exact holds_setDigitalOutPwmCycle hk h ha cycleTicks
  | timer => exact holds_dispatch hk h ha.1 ha.2
  | shutdown => exact holds_runShutdown h.maxDuration
  | clearShutdown =>
    refine ⟨h.maxDuration, fun _ => ?_, by simp [run]⟩
    rw [h.down ha]
    exact hk.shutdown _ _

end Kept

section Invariant

variable {max : UInt32} {d d' : DigitalOut} {applied cur : UInt32} {m : DigitalMove}
  {queue : List DigitalMove} {result : SchedResult} {close : Bool} {s : State}

/-- The pin is toggling or not at its default level. -/
def Away (d : DigitalOut) : Prop := d.toggling = true ∨ d.pin ≠ d.defaultOn

/-- The invariant of a running output. The timer loads the next setting at `end_time`, or toggles
the pin before it. -/
structure Settled (d : DigitalOut) (applied : UInt32) (queue : List DigitalMove) : Prop where
  load : d.scheduled = true → d.func = .load → d.waketime = d.endTime
  toggle : d.scheduled = true → d.func = .toggle →
    d.toggling = true ∧ timerIsBefore d.waketime d.endTime = true
  queued : ∀ m ∈ queue.head?, d.scheduled = true ∧ d.endTime = m.waketime
  away : Away d → d.scheduled = true ∧ d.checkEnd = true ∧
    ticksFrom applied d.endTime ≤ d.maxDuration.toNat ∧
    (queue = [] → d.endTime = applied + d.maxDuration)

lemma settled_rest (hs : d.scheduled = false) (ha : ¬ Away d) : Settled d applied [] where
  load h := absurd h (by simp [hs])
  toggle h := absurd h (by simp [hs])
  queued := by simp
  away h := absurd h ha

lemma settled_digitalToggleEvent (hs : d.scheduled = true) (hf : d.func = .toggle)
    (h : Settled d applied queue) (he : digitalToggleEvent d = (d', result)) :
    Settled { d' with scheduled := decide (result = .reschedule) } applied queue := by
  obtain ⟨htog, -⟩ := h.toggle hs hf
  obtain ⟨-, hend, hticks, hempty⟩ := h.away (Or.inl htog)
  simp only [digitalToggleEvent] at he
  generalize d.waketime + (if (!d.on) = true then d.onDuration else d.offDuration) = w at he
  split at he
  · cases he
    exact ⟨fun _ _ => rfl, fun _ h => (by cases h), fun m hm => ⟨rfl, (h.queued m hm).2⟩,
      fun _ => ⟨rfl, hend, hticks, hempty⟩⟩
  · rename_i hb
    cases he
    refine ⟨fun _ h => ?_, fun _ _ => ⟨htog, ?_⟩, fun m hm => ⟨rfl, (h.queued m hm).2⟩,
      fun _ => ⟨rfl, hend, hticks, hempty⟩⟩
    · rw [hf] at h
      cases h
    · simpa [hend] using hb

lemma digitalLoadEvent_fields {next : Option DigitalMove} (hmax : d.maxDuration ≠ 0)
    (he : digitalLoadEvent d m next = .ok (d', result)) :
    d'.maxDuration = d.maxDuration ∧
      (d'.checkEnd = true ↔ Away d' ∨ next.isSome = true) ∧
      (Away d' → d'.endTime = next.elim (d.waketime + d.maxDuration) DigitalMove.waketime ∧
        ∀ n ∈ next, timerIsBefore (d.waketime + d.maxDuration) n.waketime = false) ∧
      ∀ n ∈ next, d'.endTime = n.waketime := by
  simp only [digitalLoadEvent, hmax, ne_eq, not_false_eq_true, decide_true, Bool.and_true] at he
  unfold Away
  cases next with
  | none =>
    simp only [Option.any_none, Option.elim_none, Option.isSome_none] at he ⊢
    grind
  | some n =>
    simp only [Option.any_some, Option.elim_some, Option.isSome_some] at he ⊢
    grind

lemma digitalLoadEvent_timer {next : Option DigitalMove} (hf : d.func = .load)
    (he : digitalLoadEvent d m next = .ok (d', result)) :
    (result = .done → d'.checkEnd = false) ∧
      (d'.func = .load → result = .reschedule → d'.waketime = d'.endTime) ∧
      (d'.func = .toggle → d'.toggling = true ∧
        (d'.checkEnd = true → timerIsBefore d'.waketime d'.endTime = true)) := by
  simp only [digitalLoadEvent] at he
  grind

lemma settled_digitalLoadEvent (hmax : d.maxDuration ≠ 0) (hlt : d.maxDuration.toNat < 2 ^ 31)
    (hs : d.scheduled = true) (hf : d.func = .load) (h : Settled d applied (m :: queue))
    (he : digitalLoadEvent d m queue.head? = .ok (d', result)) :
    Settled { d' with scheduled := decide (result = .reschedule) } m.waketime queue := by
  obtain ⟨hd, hend, haway, hnext⟩ := digitalLoadEvent_fields hmax he
  obtain ⟨hdone, hload, htoggle⟩ := digitalLoadEvent_timer hf he
  have hw : d.waketime = m.waketime := (h.load hs hf).trans (h.queued m rfl).2
  have hsched : d'.checkEnd = true → result = .reschedule := by
    cases result with
    | done => exact fun h => absurd h (by simp [hdone rfl])
    | reschedule => exact fun _ => rfl
  constructor
  · intro hr hf'
    exact hload hf' (of_decide_eq_true hr)
  · intro hr hf'
    obtain ⟨htog, hb⟩ := htoggle hf'
    exact ⟨htog, hb (hend.mpr (Or.inl (Or.inl htog)))⟩
  · intro n hn
    have hsome : queue.head?.isSome = true := Option.isSome_of_mem hn
    exact ⟨decide_eq_true (hsched (hend.mpr (Or.inr hsome))), hnext n hn⟩
  · intro ha
    have hc := hend.mpr (Or.inl ha)
    obtain ⟨hlimit, hcheck⟩ := haway ha
    rw [hw] at hlimit hcheck
    refine ⟨decide_eq_true (hsched hc), hc, ?_, ?_⟩
    · show ticksFrom m.waketime d'.endTime ≤ d'.maxDuration.toNat
      rw [hd, hlimit]
      cases hq : queue.head? with
      | none => exact (ticksFrom_add _ hlt).le
      | some n => exact ticksFrom_le_of_not_wrapBefore hlt (hcheck n hq)
    · rintro rfl
      show d'.endTime = m.waketime + d'.maxDuration
      rw [hd]
      exact hlimit

lemma settled_commandQueueDigitalOut (hlt : d.maxDuration.toNat < 2 ^ 31)
    (h : Settled d applied []) (hc : commandQueueDigitalOut d m true close = .ok d') :
    Settled d' applied [m] := by
  simp only [commandQueueDigitalOut, Bool.not_true, Bool.false_eq_true, if_false] at hc
  split at hc
  · cases hc
  · rename_i hb
    have hticks : Away d → ticksFrom applied m.waketime ≤ d.maxDuration.toNat := by
      intro ha
      obtain ⟨-, hend, -, hempty⟩ := h.away ha
      apply ticksFrom_le_of_not_wrapBefore hlt
      rw [← hempty rfl]
      simpa [hend] using hb
    split at hc
    · rename_i hleft
      cases hc
      rw [Bool.and_eq_true] at hleft
      obtain ⟨hs, hend, -, -⟩ := h.away (Or.inl hleft.1)
      refine ⟨fun _ hf => ?_, fun _ _ => hleft, by simp [hs],
        fun ha => ⟨hs, rfl, hticks ha, by simp⟩⟩
      have hw := h.load hs hf
      rw [hw] at hleft
      exact absurd hb (by simp [hend, hleft.2])
    · split at hc
      · cases hc
      · rename_i hclose
        cases hc
        have hs : (!close) = true := by simpa using hclose
        exact ⟨fun _ _ => rfl, fun _ hf => (by cases hf), by simp [hs],
          fun ha => ⟨hs, rfl, hticks ha, by simp⟩⟩

lemma Settled.append (h : Settled d applied queue) (hq : queue ≠ []) :
    Settled d applied (queue ++ [m]) := by
  refine ⟨h.load, h.toggle, ?_, fun ha => ?_⟩
  · rw [List.head?_append_of_ne_nil _ hq]
    exact h.queued
  · obtain ⟨hs, hend, hticks, -⟩ := h.away ha
    exact ⟨hs, hend, hticks, by simp⟩

lemma settled_commandUpdateDigitalOut {value : UInt32} (hmax : d.maxDuration ≠ 0)
    (hlt : d.maxDuration.toNat < 2 ^ 31)
    (hc : commandUpdateDigitalOut d true value cur close = .ok d') : Settled d' cur [] := by
  simp only [commandUpdateDigitalOut, Bool.not_true, Bool.false_eq_true, if_false] at hc
  split at hc
  · split at hc
    · cases hc
    · rename_i hclose
      cases hc
      have hs : (!close) = true := by simpa using hclose
      exact ⟨fun _ _ => rfl, fun _ hf => (by cases hf), by simp,
        fun _ => ⟨hs, rfl, (ticksFrom_add cur hlt).le, fun _ => rfl⟩⟩
  · rename_i hl
    cases hc
    apply settled_rest rfl
    simpa [Away, hmax] using hl

lemma kept_settled (hmax : max ≠ 0) (hlt : max.toNat < 2 ^ 31) : Kept max Settled where
  shutdown d applied := settled_rest rfl (by simp [Away, digitalOutShutdown])
  toggle _ _ _ _ _ hs hf h he := settled_digitalToggleEvent hs hf h he
  load _ _ _ _ _ _ hd hs hf h he := settled_digitalLoadEvent (hd ▸ hmax) (hd ▸ hlt) hs hf h he
  first _ _ _ _ _ hd h hc := settled_commandQueueDigitalOut (hd ▸ hlt) h hc
  append _ _ _ _ h hq := h.append hq
  update _ _ _ _ _ hd hc := settled_commandUpdateDigitalOut (hd ▸ hmax) (hd ▸ hlt) hc
  cycle _ _ _ _ h := ⟨h.load, h.toggle, h.queued, h.away⟩

lemma holds_configured (value max : UInt32) : Holds max Settled (configured value max) where
  maxDuration := rfl
  running _ := settled_rest rfl (by simp [Away, configured, commandConfigDigitalOut])
  down := by simp [configured]

lemma holds_of_run {value : UInt32} (hpos : 0 < max) (hlt : max < 0x80000000)
    {actions : List Action} (h : Run step Legal (configured value max) actions s) :
    Holds max Settled s := by
  have hmax : max ≠ 0 := fun h => by simp [h] at hpos
  apply h.invariant (holds_configured value max)
  intro s a s' hi _ hs
  obtain ⟨ha, hs⟩ := Option.ite_none_right_eq_some.mp hs
  cases hs
  exact holds_run (kept_settled hmax hlt) hi ha

end Invariant

/-- A pin that toggles or is not at its default has an `end_time` at most `max_duration` after the
last setting and a timer no later than that. Without a queued update its timer keeps `end_time`
until it shuts the firmware down there. The clocks that are requested do not matter. -/
theorem digitalOut_deadline {value maxDuration : UInt32} (hpos : 0 < maxDuration)
    (hlt : maxDuration < 0x80000000) {actions : List Action} {s : State}
    (h : Run step Legal (configured value maxDuration) actions s) (hr : s.status = .running)
    (ha : s.out.toggling = true ∨ s.out.pin ≠ s.out.defaultOn) :
    s.out.checkEnd = true ∧ ticksFrom s.applied s.out.endTime ≤ maxDuration.toNat ∧
      s.out.scheduled = true ∧ ticksFrom s.out.endTime s.out.waketime ≤ 0 ∧
      (s.queue = [] →
        (s.out.waketime = s.out.endTime → step s .timer = some s.runShutdown) ∧
        (s.out.waketime ≠ s.out.endTime → ∃ s', step s .timer = some s' ∧ s'.status = .running ∧
          s'.queue = [] ∧ s'.applied = s.applied ∧ s'.out.endTime = s.out.endTime)) := by
  have hinv := holds_of_run hpos hlt h
  have hset := hinv.running hr
  obtain ⟨hs, hend, hticks, -⟩ := hset.away ha
  have hstep : step s .timer = some s.dispatch := if_pos ⟨hr, hs⟩
  refine ⟨hend, hinv.maxDuration ▸ hticks, hs, ?_⟩
  cases hf : s.out.func with
  | load =>
    have hw := hset.load hs hf
    refine ⟨by simp [hw], fun hq => ⟨fun _ => ?_, fun hne => absurd hw hne⟩⟩
    rw [hstep, State.dispatch, hf, hq]
  | toggle =>
    obtain ⟨-, hb⟩ := hset.toggle hs hf
    refine ⟨((wrapBefore_iff_ticksFrom _ _).mp hb).le, fun hq => ⟨fun he => ?_, fun _ => ?_⟩⟩
    · exact absurd hb (by simp [he])
    · refine ⟨s.dispatch, hstep, ?_⟩
      rw [State.dispatch, hf]
      exact ⟨hr, hq, rfl, (digitalToggleEvent_keeps s.out).2⟩

/-- A software pwm with an update that ends it. -/
def softPwm : List Action :=
  [.setDigitalOutPwmCycle 100, .queueDigitalOut 1000 30 false, .timer, .timer,
    .queueDigitalOut 1450 0 false, .timer]

theorem digitalOut_deadline_softPwm :
    ∃ s, Run step Legal (configured 0 500) softPwm s ∧ s.status = .running ∧
      s.out.toggling = true ∧ s.out.checkEnd = true ∧ ticksFrom s.applied s.out.endTime ≤ 500 ∧
      s.out.scheduled = true ∧ ticksFrom s.out.endTime s.out.waketime ≤ 0 := by
  obtain ⟨s, hs, hp⟩ : ∃ s, Run step Legal (configured 0 500) softPwm s ∧
      decide (s.status = .running ∧ s.out.toggling = true) = true :=
    Run.exists_of_exec softPwm _ (by decide +kernel)
  obtain ⟨hr, ht⟩ := of_decide_eq_true hp
  obtain ⟨hend, hticks, hsched, hle, -⟩ :=
    digitalOut_deadline (by decide) (by decide) hs hr (Or.inl ht)
  exact ⟨s, hs, hr, ht, hend, hticks, hsched, hle⟩

end KlipperMcu.Gpio
