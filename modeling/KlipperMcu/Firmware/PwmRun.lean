import KlipperMcu.Lib.Run
import KlipperMcu.Firmware.PwmOut

/-!
# A hardware PWM output over time

`command_queue_pwm_out` runs with interrupts enabled except while it pushes its update. The states
below stop it at each point where the timer of the output can run. A shutdown ends the running
command, takes all timers off the timer list and calls `pwm_shutdown`.
-/

namespace KlipperMcu.Pwm

open Lib Sched

/-- Where `command_queue_pwm_out` stands, with the update it has allocated. -/
inductive Stage where
  | idle
  | pushing (m : PwmMove)
  | deleting (m : PwmMove)
  | adding (m : PwmMove)
deriving DecidableEq, Repr

inductive Status where
  | running
  | shutdown
  /-- `pwm_event` has popped from an empty queue. -/
  | fault
deriving DecidableEq, Repr

structure State where
  out : PwmOut
  queue : List PwmMove
  stage : Stage
  /-- The scheduled time of the last value that was applied. -/
  applied : UInt32
  status : Status
deriving DecidableEq, Repr

inductive Action where
  | queuePwmOut (clock value : UInt32)
  | resume (close : Bool)
  | timer
  /-- Any other code of the firmware shuts down. -/
  | shutdown
  | clearShutdown
deriving DecidableEq, Repr

/-- `run_shutdown` on one output. -/
def State.runShutdown (s : State) : State :=
  { s with
    out := { pwmShutdown s.out with scheduled := false }
    queue := []
    stage := .idle
    status := .shutdown }

/-- The timer interrupt runs the callback of the output. -/
def State.dispatch (s : State) : State :=
  match s.out.func, s.queue with
  | .endEvent, _ => s.runShutdown
  | .event, [] => { s with status := .fault }
  | .event, m :: rest =>
    match pwmEvent s.out m rest.head? with
    | .error p => { s with out := p }.runShutdown
    | .ok (p, result) =>
      { s with
        out := { p with scheduled := decide (result = .reschedule) }
        queue := rest
        applied := m.waketime }

/-- `command_queue_pwm_out` from one stage to the next. -/
def State.resume (s : State) (close : Bool) : Option State :=
  match s.stage with
  | .idle => none
  | .pushing m =>
    some { s with
      queue := s.queue ++ [m]
      stage := if s.queue = [] then .deleting m else .idle }
  | .deleting m => some { s with out := { s.out with scheduled := false }, stage := .adding m }
  | .adding m =>
    match commandQueuePwmOut s.out m close with
    | .error p => some { s with out := p }.runShutdown
    | .ok p => some { s with out := p, stage := .idle }

def step (s : State) : Action → Option State
  | .queuePwmOut clock value =>
    if s.status = .running ∧ s.stage = .idle then
      some { s with stage := .pushing ⟨clock, value.toUInt16⟩ }
    else none
  | .resume close => if s.status = .running then s.resume close else none
  | .timer => if s.status = .running ∧ s.out.scheduled = true then some s.dispatch else none
  | .shutdown => if s.status = .running then some s.runShutdown else none
  | .clearShutdown => if s.status = .shutdown then some { s with status := .running } else none

def Legal (_ : State) (_ : Action) : Prop := True

instance (s : State) (a : Action) : Decidable (Legal s a) := .isTrue trivial

/-- The state after `config_pwm_out` with `value` equal to `default_value`. -/
def configured (value maxDuration : UInt32) : State where
  out := commandConfigPwmOut value value maxDuration
  queue := []
  stage := .idle
  applied := 0
  status := .running

section Invariant

variable {d : UInt32} {p p' : PwmOut} {applied : UInt32} {m : PwmMove} {queue : List PwmMove}
  {result : SchedResult} {s s' : State}

/-- The safety timeout is set to the end of the last value. -/
def Expiring (p : PwmOut) (applied : UInt32) : Prop :=
  p.func = .endEvent ∧ p.waketime = applied + p.maxDuration

/-- Timer and queue agree. An empty queue leaves only the safety timeout, and the timer of other
queues waits for their first update. -/
def Settled (p : PwmOut) (applied : UInt32) : List PwmMove → Prop
  | [] =>
    (p.scheduled = true → p.func = .endEvent) ∧
      (p.pin ≠ p.defaultValue → p.scheduled = true ∧ Expiring p applied)
  | m :: _ =>
    p.scheduled = true ∧ p.func = .event ∧ p.waketime = m.waketime ∧
      (p.pin ≠ p.defaultValue → ticksFrom applied p.waketime ≤ p.maxDuration.toNat)

/-- The invariant of a running output, by the stage of its command. -/
def Running (s : State) : Prop :=
  match s.stage with
  | .idle | .pushing _ => Settled s.out s.applied s.queue
  | .deleting m => s.queue = [m] ∧ Settled s.out s.applied []
  | .adding m =>
    s.queue = [m] ∧ s.out.scheduled = false ∧
      (s.out.pin ≠ s.out.defaultValue → Expiring s.out s.applied)

structure Inv (d : UInt32) (s : State) : Prop where
  maxDuration : s.out.maxDuration = d
  no_fault : s.status ≠ .fault
  running : s.status = .running → Running s
  down : s.status = .shutdown → s = s.runShutdown

lemma runShutdown_runShutdown (s : State) : s.runShutdown.runShutdown = s.runShutdown := rfl

lemma running_runShutdown (s : State) : Running s.runShutdown := by
  constructor
  · intro h
    exact absurd h Bool.false_ne_true
  · intro h
    exact absurd rfl h

lemma inv_runShutdown (h : s.out.maxDuration = d) : Inv d s.runShutdown where
  maxDuration := h
  no_fault := by simp [State.runShutdown]
  running := by simp [State.runShutdown]
  down _ := (runShutdown_runShutdown s).symm

lemma pwmEvent_maxDuration {next : Option PwmMove} :
    (∀ p', pwmEvent p m next = .error p' → p'.maxDuration = p.maxDuration) ∧
      ∀ p' result, pwmEvent p m next = .ok (p', result) → p'.maxDuration = p.maxDuration := by
  unfold pwmEvent
  constructor
  · grind
  · grind

lemma settled_pwmEvent (hd : p.maxDuration ≠ 0) (hlt : p.maxDuration.toNat < 2 ^ 31)
    (h : Settled p applied (m :: queue))
    (he : pwmEvent p m queue.head? = .ok (p', result)) :
    Settled { p' with scheduled := decide (result = .reschedule) } m.waketime queue := by
  obtain ⟨hs, hf, hw, -⟩ := h
  cases queue with
  | nil =>
    simp only [pwmEvent, List.head?_nil] at he
    split at he
    · cases he
      refine ⟨fun _ => rfl, fun _ => ⟨rfl, rfl, ?_⟩⟩
      exact congrArg (· + p.maxDuration) hw
    · rename_i hl
      cases he
      have hv : m.value = p.defaultValue := by simpa [hd] using hl
      exact ⟨fun h => absurd h Bool.false_ne_true, fun h => absurd hv h⟩
  | cons n queue =>
    simp only [pwmEvent, List.head?_cons] at he
    split at he
    · cases he
    · rename_i hl
      cases he
      refine ⟨rfl, hf, rfl, fun hv => ?_⟩
      have hb : timerIsBefore (m.waketime + p.maxDuration) n.waketime = false := by
        rw [← hw]
        have hv' : m.value ≠ p.defaultValue := hv
        simpa [hd, hv'] using hl
      exact ticksFrom_le_of_not_wrapBefore hlt hb

/-- A timer that runs on a settled output leaves it settled, and never pops from an empty queue. -/
lemma inv_dispatch_settled (hd : d ≠ 0) (hlt : d.toNat < 2 ^ 31) (hm : s.out.maxDuration = d)
    (hr : s.status = .running) (hs : s.out.scheduled = true)
    (h : Settled s.out s.applied s.queue)
    (hstage : ∀ t : State, t.stage = s.stage → Settled t.out t.applied t.queue → Running t) :
    Inv d s.dispatch := by
  unfold State.dispatch
  split
  · exact inv_runShutdown hm
  · rename_i hf hq
    rw [hq] at h
    rw [h.1 hs] at hf
    cases hf
  · rename_i m rest hf hq
    rw [hq] at h
    split
    · rename_i p he
      exact inv_runShutdown ((pwmEvent_maxDuration.1 p he).trans hm)
    · rename_i p result he
      have hset := settled_pwmEvent (hm ▸ hd) (hm ▸ hlt) h he
      refine ⟨(pwmEvent_maxDuration.2 p result he).trans hm, ?_, ?_, ?_⟩
      · simp [hr]
      · intro _
        exact hstage _ rfl hset
      · simp [hr]

lemma dispatch_endEvent (h : s.out.func = .endEvent) : s.dispatch = s.runShutdown := by
  unfold State.dispatch
  rw [h]

lemma inv_dispatch (hd : d ≠ 0) (hlt : d.toNat < 2 ^ 31) (h : Inv d s)
    (hr : s.status = .running) (hs : s.out.scheduled = true) : Inv d s.dispatch := by
  have hrun := h.running hr
  unfold Running at hrun
  split at hrun
  · rename_i hst
    apply inv_dispatch_settled hd hlt h.maxDuration hr hs hrun
    intro t ht hset
    rw [hst] at ht
    simpa [Running, ht] using hset
  · rename_i m hst
    apply inv_dispatch_settled hd hlt h.maxDuration hr hs hrun
    intro t ht hset
    rw [hst] at ht
    simpa [Running, ht] using hset
  · rw [dispatch_endEvent (hrun.2.1 hs)]
    exact inv_runShutdown h.maxDuration
  · exact absurd hs (by rw [hrun.2.1]; exact Bool.false_ne_true)

lemma settled_commandQueuePwmOut {close : Bool} (hlt : p.maxDuration.toNat < 2 ^ 31)
    (h : p.pin ≠ p.defaultValue → Expiring p applied)
    (hc : commandQueuePwmOut p m close = .ok p') : Settled p' applied [m] := by
  unfold commandQueuePwmOut at hc
  split at hc
  · cases hc
  · rename_i hb
    dsimp only at hc
    split at hc
    · cases hc
    · rename_i hclose
      cases hc
      refine ⟨by simpa using hclose, rfl, rfl, ?_⟩
      intro hpin
      obtain ⟨hf, hw⟩ := h hpin
      apply ticksFrom_le_of_not_wrapBefore hlt
      rw [← hw]
      simpa [hf] using hb

lemma commandQueuePwmOut_maxDuration {close : Bool} :
    (∀ p', commandQueuePwmOut p m close = .error p' → p'.maxDuration = p.maxDuration) ∧
      ∀ p', commandQueuePwmOut p m close = .ok p' → p'.maxDuration = p.maxDuration := by
  unfold commandQueuePwmOut
  constructor
  · grind
  · grind

lemma Settled.append (h : Settled p applied queue) (hq : queue ≠ []) :
    Settled p applied (queue ++ [m]) := by
  cases queue with
  | nil => exact absurd rfl hq
  | cons a queue => exact h

lemma inv_resume {close : Bool} (hlt : d.toNat < 2 ^ 31) (h : Inv d s)
    (hr : s.status = .running) (hs : s.resume close = some s') : Inv d s' := by
  have hrun := h.running hr
  unfold Running at hrun
  unfold State.resume at hs
  split at hs
  · cases hs
  · rename_i m hst
    cases hs
    rw [hst] at hrun
    refine ⟨h.maxDuration, h.no_fault, fun _ => ?_, by simp [hr]⟩
    by_cases hq : s.queue = []
    · rw [hq] at hrun
      simpa [Running, hq] using hrun
    · simpa [Running, hq] using hrun.append hq
  · rename_i m hst
    cases hs
    rw [hst] at hrun
    refine ⟨h.maxDuration, h.no_fault, fun _ => ?_, by simp [hr]⟩
    exact ⟨hrun.1, rfl, fun hpin => (hrun.2.2 hpin).2⟩
  · rename_i m hst
    rw [hst] at hrun
    split at hs
    · rename_i p hc
      cases hs
      exact inv_runShutdown ((commandQueuePwmOut_maxDuration.1 p hc).trans h.maxDuration)
    · rename_i p hc
      cases hs
      refine ⟨(commandQueuePwmOut_maxDuration.2 p hc).trans h.maxDuration, h.no_fault,
        fun _ => ?_, by simp [hr]⟩
      have hset := settled_commandQueuePwmOut (h.maxDuration ▸ hlt) hrun.2.2 hc
      rw [← hrun.1] at hset
      exact hset

lemma inv_step {a : Action} (hd : d ≠ 0) (hlt : d.toNat < 2 ^ 31) (h : Inv d s)
    (hs : step s a = some s') : Inv d s' := by
  cases a with
  | queuePwmOut clock value =>
    obtain ⟨⟨hr, hst⟩, hs⟩ := Option.ite_none_right_eq_some.mp hs
    cases hs
    refine ⟨h.maxDuration, h.no_fault, fun _ => ?_, by simp [hr]⟩
    have hrun := h.running hr
    unfold Running at hrun
    rw [hst] at hrun
    exact hrun
  | resume close =>
    obtain ⟨hr, hs⟩ := Option.ite_none_right_eq_some.mp hs
    exact inv_resume hlt h hr hs
  | timer =>
    obtain ⟨⟨hr, hsched⟩, hs⟩ := Option.ite_none_right_eq_some.mp hs
    cases hs
    exact inv_dispatch hd hlt h hr hsched
  | shutdown =>
    obtain ⟨-, hs⟩ := Option.ite_none_right_eq_some.mp hs
    cases hs
    exact inv_runShutdown h.maxDuration
  | clearShutdown =>
    obtain ⟨hdown, hs⟩ := Option.ite_none_right_eq_some.mp hs
    cases hs
    refine ⟨h.maxDuration, by simp, fun _ => ?_, by simp⟩
    have hrun := running_runShutdown s
    rw [← h.down hdown] at hrun
    exact hrun

lemma inv_configured (value d : UInt32) : Inv d (configured value d) where
  maxDuration := rfl
  no_fault := by simp [configured]
  running _ := ⟨fun h => absurd h Bool.false_ne_true, fun h => absurd rfl h⟩
  down := by simp [configured]

end Invariant

/-- `pwm_event` never runs with an empty queue. Between commands an output that is not at its
default has its timer at most `max_duration` after the last value, for the next update or, without
one, for the shutdown. The clocks that are requested do not matter. -/
theorem pwmOut_deadline {value maxDuration : UInt32} (hpos : 0 < maxDuration)
    (hlt : maxDuration < 0x80000000) {actions : List Action} {s : State}
    (h : Run step Legal (configured value maxDuration) actions s) :
    s.status ≠ .fault ∧
      (s.status = .running → s.stage = .idle → s.out.pin ≠ s.out.defaultValue →
        s.out.scheduled = true ∧ ticksFrom s.applied s.out.waketime ≤ maxDuration.toNat ∧
        (s.queue ≠ [] → s.out.func = .event) ∧
        (s.queue = [] → s.out.func = .endEvent ∧ step s .timer = some s.runShutdown)) := by
  have hd : maxDuration ≠ 0 := fun h => by simp [h] at hpos
  have hlt' : maxDuration.toNat < 2 ^ 31 := hlt
  have hinv : Inv maxDuration s := h.invariant (inv_configured value maxDuration)
    fun _ _ _ hi _ hs => inv_step hd hlt' hi hs
  refine ⟨hinv.no_fault, fun hr hst hpin => ?_⟩
  have hrun := hinv.running hr
  unfold Running at hrun
  rw [hst] at hrun
  cases hq : s.queue with
  | nil =>
    rw [hq] at hrun
    obtain ⟨hs, hf, hw⟩ := hrun.2 hpin
    refine ⟨hs, ?_, by simp, fun _ => ⟨hf, ?_⟩⟩
    · rw [hw, hinv.maxDuration, ticksFrom_add _ hlt']
    · simp [step, hr, hs, dispatch_endEvent hf]
  | cons m rest =>
    rw [hq] at hrun
    refine ⟨hrun.1, ?_, fun _ => hrun.2.1, by simp⟩
    exact hinv.maxDuration ▸ hrun.2.2.2 hpin

/-- The timer applies a value while the command for the next one is between its stages. -/
def overlap : List Action :=
  [.queuePwmOut 1000 200, .resume false, .resume false, .resume false, .queuePwmOut 1400 100,
    .timer, .resume false, .resume false, .resume false]

theorem pwmOut_deadline_overlap :
    ∃ s, Run step Legal (configured 0 500) overlap s ∧
      s.status = .running ∧ s.stage = .idle ∧ s.out.pin ≠ s.out.defaultValue ∧
      s.out.scheduled = true ∧ ticksFrom s.applied s.out.waketime ≤ 500 ∧ s.out.func = .event := by
  obtain ⟨s, hs, hp⟩ : ∃ s, Run step Legal (configured 0 500) overlap s ∧
      decide (s.status = .running ∧ s.stage = .idle ∧ s.out.pin ≠ s.out.defaultValue ∧
        s.queue ≠ []) = true :=
    Run.exists_of_exec overlap _ (by decide +kernel)
  obtain ⟨hr, hst, hpin, hq⟩ := of_decide_eq_true hp
  obtain ⟨hsched, ht, hf, -⟩ := (pwmOut_deadline (by decide) (by decide) hs).2 hr hst hpin
  exact ⟨s, hs, hr, hst, hpin, hsched, ht, hf hq⟩

end KlipperMcu.Pwm
