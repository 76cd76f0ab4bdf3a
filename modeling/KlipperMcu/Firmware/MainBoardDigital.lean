import KlipperMcu.Firmware.DigitalRun

/-!
# The digital outputs of mainBoardGD

The firmware of this board moves the clock of `queue_digital_out` to at least 5 ms from now, before
it hands the request to the code that all boards share. An output whose setting has to end within
these 5 ms cannot be updated any more.
-/

namespace KlipperMcu.MainBoard

open Lib Sched Gpio

/-- The board runs at 600 MHz. -/
def timerFromUs (usecs : UInt32) : UInt32 := usecs * 600

/-- Whether `sched_add_timer` shuts down at time `cur`, for `head` the time of the first timer on
the list. -/
def tooClose (waketime head cur : UInt32) : Bool :=
  timerIsBefore waketime head && timerIsBefore waketime cur

/-- `command_queue_digital_out_impl`, which adds its timer at time `cur`. -/
def commandQueueDigitalOutImpl (s : Gpio.State) (time onDuration head cur : UInt32) : Gpio.State :=
  run s (.queueDigitalOut time onDuration (tooClose time head cur))

/-- The clock that `command_queue_digital_out` hands on when it reads the time `read`. -/
def queueTime (read requested : UInt32) : UInt32 :=
  let time := read + timerFromUs 5000
  if !timerIsBefore requested time then requested else time

def commandQueueDigitalOut (s : Gpio.State) (read requested onDuration head cur : UInt32) :
    Gpio.State :=
  commandQueueDigitalOutImpl s (queueTime read requested) onDuration head cur

/-- A digital output and the time. -/
structure State where
  gpio : Gpio.State
  now : UInt32
deriving DecidableEq, Repr

/-- The commands that add a timer see the first timer of the list. `queue_digital_out` has read the
time before interrupts are disabled. -/
inductive Action where
  | wait (ticks : UInt32)
  | queueDigitalOut (read requested onDuration head : UInt32)
  | updateDigitalOut (value head : UInt32)
  | setDigitalOutPwmCycle (cycleTicks : UInt32)
  | timer
  | shutdown
  | clearShutdown
deriving DecidableEq, Repr

def State.leave (s : State) (gpio : Option Gpio.State) : Option State :=
  gpio.map fun gpio => { s with gpio := gpio }

def step (s : State) : Action → Option State
  | .wait ticks => some { s with now := s.now + ticks }
  | .queueDigitalOut read requested onDuration head =>
    s.leave <|
      if s.gpio.status = .running then
        some (commandQueueDigitalOut s.gpio read requested onDuration head s.now)
      else none
  | .updateDigitalOut value head =>
    let close := tooClose (s.now + s.gpio.out.maxDuration) head s.now
    s.leave (Gpio.step s.gpio (.updateDigitalOut value s.now close))
  | .setDigitalOutPwmCycle cycleTicks =>
    s.leave (Gpio.step s.gpio (.setDigitalOutPwmCycle cycleTicks))
  | .timer =>
    if timerIsBefore s.now s.gpio.out.waketime then none else s.leave (Gpio.step s.gpio .timer)
  | .shutdown => s.leave (Gpio.step s.gpio .shutdown)
  | .clearShutdown => s.leave (Gpio.step s.gpio .clearShutdown)

def Legal (_ : State) (_ : Action) : Prop := True

instance instDecidableLegal (s : State) (a : Action) : Decidable (Legal s a) := .isTrue trivial

/-- The state after `config_digital_out` at time 0. -/
def configured (value defaultValue maxDuration : UInt32) : State where
  gpio :=
    { out := commandConfigDigitalOut value defaultValue maxDuration
      queue := []
      applied := 0
      status := .running }
  now := 0

/-- No update is queued, and the setting ends, `max_duration` after it was applied, before
`time`. -/
def Late (s : Gpio.State) (time : UInt32) : Prop :=
  s.queue = [] ∧ s.out.checkEnd = true ∧
    timerIsBefore (s.applied + s.out.maxDuration) time = true

instance instDecidableLate (s : Gpio.State) (time : UInt32) : Decidable (Late s time) :=
  inferInstanceAs (Decidable (_ ∧ _ ∧ _))

section Invariant

variable {max : UInt32} {d d' : DigitalOut} {applied cur : UInt32} {m : DigitalMove}
  {queue : List DigitalMove} {result : SchedResult} {close : Bool}

/-- The timer of a running output, and the end of a setting without an update. Nothing is known of
the level of its pin. -/
structure Ended (d : DigitalOut) (applied : UInt32) (queue : List DigitalMove) : Prop where
  load : d.scheduled = true → d.func = .load → d.waketime = d.endTime
  check : d.scheduled = true → d.checkEnd = true
  toggling : d.toggling = true → d.scheduled = true
  queued : ∀ m ∈ queue.head?, d.scheduled = true ∧ d.endTime = m.waketime
  ended : queue = [] → d.checkEnd = true → d.endTime = applied + d.maxDuration

lemma ended_rest (hs : d.scheduled = false) (ht : d.toggling = false) (hc : d.checkEnd = false) :
    Ended d applied [] where
  load h := absurd h (by simp [hs])
  check h := absurd h (by simp [hs])
  toggling h := absurd h (by simp [ht])
  queued := by simp
  ended _ h := absurd h (by simp [hc])

lemma ended_digitalToggleEvent (hs : d.scheduled = true) (hf : d.func = .toggle)
    (h : Ended d applied queue) (he : digitalToggleEvent d = (d', result)) :
    Ended { d' with scheduled := decide (result = .reschedule) } applied queue := by
  have hcheck := h.check hs
  simp only [digitalToggleEvent] at he
  generalize d.waketime + (if (!d.on) = true then d.onDuration else d.offDuration) = w at he
  split at he
  · cases he
    exact ⟨fun _ _ => rfl, fun _ => hcheck, fun _ => rfl, fun m hm => ⟨rfl, (h.queued m hm).2⟩,
      h.ended⟩
  · cases he
    refine ⟨fun _ hload => ?_, fun _ => hcheck, fun _ => rfl,
      fun m hm => ⟨rfl, (h.queued m hm).2⟩, h.ended⟩
    rw [hf] at hload
    cases hload

lemma digitalLoadEvent_reschedule {next : Option DigitalMove} (hmax : d.maxDuration ≠ 0)
    (he : digitalLoadEvent d m next = .ok (d', result)) (hr : result = .reschedule) :
    d'.checkEnd = true := by
  simp only [digitalLoadEvent] at he
  grind

lemma ended_digitalLoadEvent (hmax : d.maxDuration ≠ 0) (hs : d.scheduled = true)
    (hf : d.func = .load) (h : Ended d applied (m :: queue))
    (he : digitalLoadEvent d m queue.head? = .ok (d', result)) :
    Ended { d' with scheduled := decide (result = .reschedule) } m.waketime queue := by
  obtain ⟨hd, hcheck, haway, hnext⟩ := digitalLoadEvent_fields hmax he
  obtain ⟨hdone, hload, htoggle⟩ := digitalLoadEvent_timer hf he
  have hw : d.waketime = m.waketime := (h.load hs hf).trans (h.queued m rfl).2
  have hsched : d'.checkEnd = true → result = .reschedule := by
    cases result with
    | done => exact fun h => absurd h (by simp [hdone rfl])
    | reschedule => exact fun _ => rfl
  constructor
  · intro hr hf'
    exact hload hf' (of_decide_eq_true hr)
  · intro hr
    have hc := digitalLoadEvent_reschedule hmax he (of_decide_eq_true hr)
    exact hc
  · intro ht
    exact decide_eq_true (hsched (hcheck.mpr (Or.inl (Or.inl ht))))
  · intro n hn
    have hsome : queue.head?.isSome = true := Option.isSome_of_mem hn
    exact ⟨decide_eq_true (hsched (hcheck.mpr (Or.inr hsome))), hnext n hn⟩
  · rintro rfl hc
    have ha : Away d' := by simpa using hcheck.mp hc
    change d'.endTime = m.waketime + d'.maxDuration
    rw [hd, (haway ha).1, ← hw]
    rfl

/-- A load event that is due at the end of the setting is not left in place for a later update. -/
lemma ended_commandQueueDigitalOut (h : Ended d applied [])
    (hc : Gpio.commandQueueDigitalOut d m true close = .ok d') : Ended d' applied [m] := by
  simp only [Gpio.commandQueueDigitalOut, Bool.not_true, Bool.false_eq_true, if_false] at hc
  split at hc
  · cases hc
  · rename_i hb
    split at hc
    · rename_i hleft
      cases hc
      rw [Bool.and_eq_true] at hleft
      have hs := h.toggling hleft.1
      refine ⟨fun _ hf => ?_, fun _ => rfl, fun _ => hs, by simp [hs], by simp⟩
      rw [h.load hs hf] at hleft
      exact absurd hb (by simp [h.check hs, hleft.2])
    · split at hc
      · cases hc
      · rename_i hclose
        cases hc
        have hs : (!close) = true := by simpa using hclose
        exact ⟨fun _ _ => rfl, fun _ => rfl, fun _ => hs, by simp [hs], by simp⟩

lemma Ended.append (h : Ended d applied queue) (hq : queue ≠ []) :
    Ended d applied (queue ++ [m]) := by
  refine ⟨h.load, h.check, h.toggling, ?_, by simp⟩
  rw [List.head?_append_of_ne_nil _ hq]
  exact h.queued

lemma ended_commandUpdateDigitalOut {value : UInt32}
    (hc : commandUpdateDigitalOut d true value cur close = .ok d') : Ended d' cur [] := by
  simp only [commandUpdateDigitalOut, Bool.not_true, Bool.false_eq_true, if_false] at hc
  split at hc
  · split at hc
    · cases hc
    · rename_i hclose
      cases hc
      have hs : (!close) = true := by simpa using hclose
      exact ⟨fun _ _ => rfl, fun _ => rfl, fun _ => hs, by simp, fun _ _ => rfl⟩
  · cases hc
    exact ended_rest rfl rfl rfl

lemma kept_ended (hmax : max ≠ 0) : Kept max Ended where
  shutdown _ _ := ended_rest rfl rfl rfl
  toggle _ _ _ _ _ hs hf h he := ended_digitalToggleEvent hs hf h he
  load _ _ _ _ _ _ hd hs hf h he := ended_digitalLoadEvent (hd ▸ hmax) hs hf h he
  first _ _ _ _ _ _ h hc := ended_commandQueueDigitalOut h hc
  append _ _ _ _ h hq := h.append hq
  update _ _ _ _ _ _ hc := ended_commandUpdateDigitalOut hc
  cycle _ _ _ _ h := ⟨h.load, h.check, h.toggling, h.queued, h.ended⟩

end Invariant

variable {s s' : State} {read requested onDuration head : UInt32}

lemma step_cases {a : Action} (hs : step s a = some s') :
    s'.gpio = s.gpio ∨ ∃ b, Gpio.step s.gpio b = some s'.gpio := by
  have hleave : ∀ b, s.leave (Gpio.step s.gpio b) = some s' →
      ∃ b, Gpio.step s.gpio b = some s'.gpio := by
    intro b hb
    obtain ⟨gpio, hgpio, rfl⟩ := Option.map_eq_some_iff.mp hb
    exact ⟨b, hgpio⟩
  cases a with
  | wait ticks =>
    obtain rfl := Option.some.inj hs
    exact Or.inl rfl
  | queueDigitalOut read requested onDuration head =>
    obtain ⟨gpio, hgpio, rfl⟩ := Option.map_eq_some_iff.mp hs
    obtain ⟨hr, hgpio⟩ := Option.ite_none_right_eq_some.mp hgpio
    let time := queueTime read requested
    exact Or.inr ⟨.queueDigitalOut time onDuration (tooClose time head s.now),
      (if_pos hr).trans hgpio⟩
  | updateDigitalOut value head => exact Or.inr (hleave _ hs)
  | setDigitalOutPwmCycle cycleTicks => exact Or.inr (hleave _ hs)
  | timer =>
    obtain ⟨-, hs⟩ := Option.ite_none_left_eq_some.mp hs
    exact Or.inr (hleave _ hs)
  | shutdown => exact Or.inr (hleave _ hs)
  | clearShutdown => exact Or.inr (hleave _ hs)

lemma holds_configured (value defaultValue max : UInt32) :
    Holds max Ended (configured value defaultValue max).gpio where
  maxDuration := rfl
  running _ := ended_rest rfl rfl rfl
  down := by simp [configured]

lemma holds_of_run {value defaultValue max : UInt32} (hmax : max ≠ 0) {actions : List Action}
    (h : Run step Legal (configured value defaultValue max) actions s) :
    Holds max Ended s.gpio := by
  induction h with
  | nil => exact holds_configured value defaultValue max
  | snoc _ _ hs ih =>
    obtain heq | ⟨b, hb⟩ := step_cases hs
    · rw [heq]
      exact ih
    · obtain ⟨hb, heq⟩ := Option.ite_none_right_eq_some.mp hb
      rw [← Option.some.inj heq]
      exact holds_run (kept_ended hmax) ih hb

lemma leave_running_iff {s : Gpio.State} {e : Except DigitalOut DigitalOut} :
    (s.leave e).status = .running ↔ s.status = .running ∧ ∃ d, e = .ok d := by
  cases e with
  | error d => simp [Gpio.State.leave, Gpio.State.runShutdown]
  | ok d => simp [Gpio.State.leave]

lemma commandQueueDigitalOut_ok_iff {d : DigitalOut} {m : DigitalMove} {first close : Bool} :
    (∃ d', Gpio.commandQueueDigitalOut d m first close = .ok d') ↔ (first = true →
      ¬ (d.checkEnd = true ∧ timerIsBefore d.endTime m.waketime = true) ∧
      (close = true → d.toggling = true ∧ timerIsBefore d.waketime m.waketime = true)) := by
  cases first with
  | false => simp [Gpio.commandQueueDigitalOut]
  | true =>
    simp only [Gpio.commandQueueDigitalOut, Bool.not_true, Bool.false_eq_true, if_false,
      Bool.and_eq_true, forall_const]
    split
    · rename_i hend
      simp [hend]
    · rename_i hend
      split
      · rename_i hleft
        simp [hend, hleft]
      · rename_i hleft
        cases close with
        | false => simp [hend]
        | true => simp [hend, hleft]

lemma impl_running_iff {s : Gpio.State} {time cur : UInt32} :
    (commandQueueDigitalOutImpl s time onDuration head cur).status = .running ↔
      s.status = .running ∧ (s.queue = [] →
        ¬ (s.out.checkEnd = true ∧ timerIsBefore s.out.endTime time = true) ∧
        (tooClose time head cur = true →
          s.out.toggling = true ∧ timerIsBefore s.out.waketime time = true)) := by
  unfold commandQueueDigitalOutImpl run
  rw [leave_running_iff, commandQueueDigitalOut_ok_iff, List.isEmpty_iff]

lemma queueTime_eq (read requested : UInt32) :
    queueTime read requested = requested ∨ queueTime read requested = read + timerFromUs 5000 := by
  by_cases hb : timerIsBefore requested (read + timerFromUs 5000) = true
  · exact Or.inr (by simp [queueTime, hb])
  · exact Or.inl (by simp [queueTime, hb])

lemma tooClose_delay {cur : UInt32} (hread : cur - read ≤ timerFromUs 5000) :
    tooClose (read + timerFromUs 5000) head cur = false := by
  have hbefore : timerIsBefore (read + timerFromUs 5000) cur = false := by
    have hsub : read + timerFromUs 5000 - cur = timerFromUs 5000 - (cur - read) := by grind
    rw [← Bool.not_eq_true, wrapBefore_iff, hsub, UInt32.toNat_sub_of_le _ _ hread]
    have hdelay : (timerFromUs 5000).toNat = 3000000 := rfl
    omega
  rw [tooClose, hbefore, Bool.and_false]

/-- A request that the shared code takes is taken at the later time as well, unless the setting ends
before that. -/
theorem queueDigitalOut_running_iff {value defaultValue maxDuration : UInt32}
    (hmax : maxDuration ≠ 0) {actions : List Action}
    (h : Run step Legal (configured value defaultValue maxDuration) actions s)
    (hread : s.now - read ≤ timerFromUs 5000)
    (himpl :
      (commandQueueDigitalOutImpl s.gpio requested onDuration head s.now).status = .running) :
    (commandQueueDigitalOut s.gpio read requested onDuration head s.now).status = .running ↔
      ¬ Late s.gpio (queueTime read requested) := by
  have hholds := holds_of_run hmax h
  obtain ⟨hr, himpl⟩ := impl_running_iff.mp himpl
  have hlate : Late s.gpio (queueTime read requested) ↔ s.gpio.queue = [] ∧
      s.gpio.out.checkEnd = true ∧
      timerIsBefore s.gpio.out.endTime (queueTime read requested) = true := by
    unfold Late
    apply and_congr_right
    intro hq
    apply and_congr_right
    intro hcheck
    rw [(hholds.running hr).ended hq hcheck]
  rw [commandQueueDigitalOut, impl_running_iff, hlate]
  constructor
  · rintro ⟨-, hok⟩ ⟨hq, hend⟩
    exact (hok hq).1 hend
  · intro hend
    refine ⟨hr, fun hq => ⟨fun hc => hend ⟨hq, hc⟩, fun hclose => ?_⟩⟩
    obtain heq | heq := queueTime_eq read requested
    · rw [heq] at hclose ⊢
      exact (himpl hq).2 hclose
    · rw [heq, tooClose_delay hread] at hclose
      cases hclose

/-- An output that is on for at most 4000000 ticks. -/
def limitedActions (ticks : UInt32) : List Action := [.updateDigitalOut 1 60000000, .wait ticks]

theorem queueDigitalOut_running_iff_soon :
    ∃ s, Run step Legal (configured 0 0 4000000) (limitedActions 500000) s ∧
      (commandQueueDigitalOutImpl s.gpio 600000 0 60000000 s.now).status = .running ∧
      ((commandQueueDigitalOut s.gpio s.now 600000 0 60000000 s.now).status = .running ↔
        ¬ Late s.gpio (queueTime s.now 600000)) := by
  obtain ⟨s, hrun, hs⟩ : ∃ s, Run step Legal (configured 0 0 4000000) (limitedActions 500000) s ∧
      decide ((commandQueueDigitalOutImpl s.gpio 600000 0 60000000 s.now).status = .running) =
        true := Run.exists_of_exec _ _ (by decide +kernel)
  have himpl := of_decide_eq_true hs
  refine ⟨s, hrun, himpl, queueDigitalOut_running_iff (by decide) hrun ?_ himpl⟩
  rw [UInt32.sub_self]
  decide

/-- The output is updated 2000000 ticks before its limit, for a time that is 1000000 ticks before
it. -/
theorem queueDigitalOut_shutdown :
    ∃ s, Run step Legal (configured 0 0 4000000) (limitedActions 2000000) s ∧
      timerIsBefore 3000000 s.now = false ∧
      (commandQueueDigitalOutImpl s.gpio 3000000 0 60000000 s.now).status = .running ∧
      (commandQueueDigitalOut s.gpio s.now 3000000 0 60000000 s.now).status = .shutdown := by
  obtain ⟨s, hrun, hs⟩ : ∃ s, Run step Legal (configured 0 0 4000000) (limitedActions 2000000) s ∧
      decide (timerIsBefore 3000000 s.now = false ∧
        (commandQueueDigitalOutImpl s.gpio 3000000 0 60000000 s.now).status = .running ∧
        (commandQueueDigitalOut s.gpio s.now 3000000 0 60000000 s.now).status = .shutdown) = true :=
    Run.exists_of_exec _ _ (by decide +kernel)
  exact ⟨s, hrun, of_decide_eq_true hs⟩

end KlipperMcu.MainBoard
