import KlipperMcu.Lib.Run

/-!
# The error code of a shutdown

`shutdown_ec` of command.h stores a numeric code in `ff_shutdown_code` and then shuts down.
`run_shutdown` of sched.c keeps the reason of the first shutdown only, while the code is that of the
last request that has one.
-/

namespace KlipperMcu.ShutdownCode

open Lib

/-- The shutdown requests of the firmware. Those of sensor and bus drivers, which have no code, are
`driver`, with whether they are made by `try_shutdown`. -/
inductive Cause where
  | trsyncSignalActive
  | tmcuartDataTooLarge
  | gpioNotAnOutput
  | gpioNotAnInput
  | stepperTooFarPast
  | stepperBadCount
  | stepperActive
  | clearWhenNotShutdown
  | pwmMissedEvent
  | pwmMaxDuration
  | pwmQueueMaxDuration
  | neopixelDataSize
  | neopixelUpdate
  | digitalMissedEvent
  | digitalMaxDuration
  | softPwmUpdatesPending
  | digitalQueueMaxDuration
  | digitalActiveQueue
  | tooManyButtons
  | buttonOutOfRange
  | buttonRetransmitCount
  | allocChunk
  | allocChunks
  | moveQueueOverflow
  | moveRequestSize
  | alreadyFinalized
  | invalidOidType
  | cannotAssignOid
  | oidsAlreadyAllocated
  | hostEmergencyStop
  | timerTooClose
  | sentinelTimerCalled
  | rescheduledTimerInThePast
  | adcOutOfRange
  | commandParserError
  | messageEncodeError
  | invalidCommand
  | configResetWhenNotShutdown
  | driver (id : UInt8) (tries : Bool)
deriving DecidableEq, Repr

/-- The argument of `shutdown_ec`. The sites that use `shutdown` or `try_shutdown` have none. -/
def Cause.code : Cause → Option UInt32
  | .trsyncSignalActive => some 1
  | .tmcuartDataTooLarge => some 2
  | .gpioNotAnOutput => some 11
  | .gpioNotAnInput => some 12
  | .stepperTooFarPast => some 14
  | .stepperBadCount => some 15
  | .stepperActive => some 16
  | .clearWhenNotShutdown => some 22
  | .pwmMissedEvent => some 23
  | .pwmMaxDuration => some 24
  | .pwmQueueMaxDuration => some 25
  | .neopixelDataSize => some 26
  | .neopixelUpdate => some 27
  | .digitalMissedEvent => some 29
  | .digitalMaxDuration => some 30
  | .softPwmUpdatesPending => some 31
  | .digitalQueueMaxDuration => some 32
  | .digitalActiveQueue => some 33
  | .tooManyButtons => some 37
  | .buttonOutOfRange => some 38
  | .buttonRetransmitCount => some 39
  | .allocChunk => some 40
  | .allocChunks => some 41
  | .moveQueueOverflow => some 42
  | .moveRequestSize => some 43
  | .alreadyFinalized => some 44
  | .invalidOidType => some 45
  | .cannotAssignOid => some 46
  | .oidsAlreadyAllocated => some 47
  | .hostEmergencyStop => some 49
  | .timerTooClose => none
  | .sentinelTimerCalled => none
  | .rescheduledTimerInThePast => none
  | .adcOutOfRange => none
  | .commandParserError => none
  | .messageEncodeError => none
  | .invalidCommand => none
  | .configResetWhenNotShutdown => none
  | .driver _ _ => none

/-- Whether the request is made by `sched_try_shutdown`, which does nothing while the machine is
shut down. -/
def Cause.tries : Cause → Bool
  | .timerTooClose => true
  | .rescheduledTimerInThePast => true
  | .adcOutOfRange => true
  | .driver _ tries => tries
  | _ => false

/-- The variables of a shutdown, the request of the main program that has stored its code and not
shut down yet, and the requests that took effect since the firmware was running, latest first. -/
structure State where
  shutdownStatus : UInt8 := 0
  shutdownReason : Option Cause := none
  ffShutdownCode : UInt32 := 0
  pending : Option Cause := none
  taken : List Cause := []

/-- The first part of `shutdown_ec`. -/
def State.latch (s : State) (c : Cause) : State :=
  { s with ffShutdownCode := c.code.getD s.ffShutdownCode }

/-- `run_shutdown` up to the shutdown functions. What the main program was doing is lost. -/
def State.runShutdown (s : State) (c : Cause) : State :=
  { s with
    shutdownReason := if s.shutdownStatus = 0 then some c else s.shutdownReason
    shutdownStatus := 2
    pending := none
    taken := c :: s.taken }

/-- `sched_shutdown` or `sched_try_shutdown`. -/
def State.request (s : State) (c : Cause) : State :=
  if c.tries && s.shutdownStatus != 0 then { s with pending := none } else s.runShutdown c

/-- A request of the main program, in two parts, a request of an interrupt, the end of the shutdown
functions, and `sched_clear_shutdown`. -/
inductive Action where
  | latch (c : Cause)
  | shutdown
  | interrupt (c : Cause)
  | shutdownDone
  | clearShutdown
deriving DecidableEq, Repr

/-- The shutdown functions run with interrupts disabled. An interrupt whose request has no effect
leaves the main program as it was. -/
def step (s : State) : Action → Option State
  | .latch c =>
    if s.shutdownStatus ≠ 2 ∧ s.pending = none then some { s.latch c with pending := some c }
    else none
  | .shutdown => s.pending.map s.request
  | .interrupt c =>
    if s.shutdownStatus ≠ 2 then
      let s' := s.latch c
      some (if c.tries && s.shutdownStatus != 0 then s' else s'.runShutdown c)
    else none
  | .shutdownDone => if s.shutdownStatus = 2 then some { s with shutdownStatus := 1 } else none
  | .clearShutdown =>
    if s.shutdownStatus ≠ 2 ∧ s.pending = none then
      if s.shutdownStatus = 0 then
        some { s.latch .clearWhenNotShutdown with pending := some .clearWhenNotShutdown }
      else some { s with shutdownStatus := 0, taken := [] }
    else none

/-- Requests that are made while the firmware runs have a code, and those that are made while it is
shut down have none. -/
def Coded (s : State) (c : Cause) : Prop :=
  if s.shutdownStatus = 0 then c.code.isSome = true else c.code = none

def Legal (s : State) : Action → Prop
  | .latch c => Coded s c
  | .interrupt c => Coded s c
  | _ => True

instance (s : State) (c : Cause) : Decidable (Coded s c) :=
  inferInstanceAs (Decidable (if s.shutdownStatus = 0 then _ else _))

instance (s : State) (a : Action) : Decidable (Legal s a) :=
  match a with
  | .latch c => inferInstanceAs (Decidable (Coded s c))
  | .interrupt c => inferInstanceAs (Decidable (Coded s c))
  | .shutdown => .isTrue trivial
  | .shutdownDone => .isTrue trivial
  | .clearShutdown => .isTrue trivial

/-! ### Runs -/

/-- The code that is stored belongs to the request that has set the reason, or to the one that is
about to. -/
structure Inv (s : State) : Prop where
  reason : s.shutdownStatus ≠ 0 → ∃ c, s.shutdownReason = some c ∧ s.taken.getLast? = some c ∧
    c.code = some s.ffShutdownCode
  running : s.shutdownStatus = 0 → s.taken = []
  pending : ∀ c, s.pending = some c → s.shutdownStatus = 0 → c.code = some s.ffShutdownCode

variable {s s' : State} {c : Cause}

lemma latch_of_running (h : Coded s c) (hzero : s.shutdownStatus = 0) :
    c.code = some (s.latch c).ffShutdownCode := by
  rw [Coded, if_pos hzero] at h
  obtain ⟨code, hcode⟩ := Option.isSome_iff_exists.mp h
  unfold State.latch
  rw [hcode]
  rfl

lemma latch_of_shutdown (h : Coded s c) (hne : s.shutdownStatus ≠ 0) :
    (s.latch c).ffShutdownCode = s.ffShutdownCode := by
  rw [Coded, if_neg hne] at h
  unfold State.latch
  rw [h]
  rfl

lemma Inv.latch (h : Inv s) (hl : Coded s c) {pending : Option Cause}
    (hpending : ∀ c', pending = some c' → s.shutdownStatus = 0 → c' = c) :
    Inv { s.latch c with pending := pending } := by
  constructor
  · intro hne
    obtain ⟨c', hreason, htaken, hcode⟩ := h.reason hne
    refine ⟨c', hreason, htaken, ?_⟩
    rw [hcode, ← latch_of_shutdown hl hne]
  · exact h.running
  · intro c' hc' hzero
    rw [hpending c' hc' hzero]
    exact latch_of_running hl hzero

lemma Inv.runShutdown (h : Inv s) (hcode : s.shutdownStatus = 0 → c.code = some s.ffShutdownCode) :
    Inv (s.runShutdown c) := by
  constructor
  · intro _
    by_cases hzero : s.shutdownStatus = 0
    · refine ⟨c, if_pos hzero, ?_, hcode hzero⟩
      change (c :: s.taken).getLast? = some c
      rw [h.running hzero]
      rfl
    · obtain ⟨c', hreason, htaken, hcode'⟩ := h.reason hzero
      refine ⟨c', (if_neg hzero).trans hreason, ?_, hcode'⟩
      change (c :: s.taken).getLast? = some c'
      rw [List.getLast?_cons, htaken]
      rfl
  · intro hzero
    exact absurd hzero (by decide : (2 : UInt8) ≠ 0)
  · intro _ _ hzero
    exact absurd hzero (by decide : (2 : UInt8) ≠ 0)

lemma Inv.interrupt (h : Inv s) (hl : Coded s c) (hs : step s (.interrupt c) = some s') :
    Inv s' := by
  obtain ⟨-, hs⟩ := Option.ite_none_right_eq_some.mp hs
  obtain rfl := Option.some.inj hs
  split
  · rename_i hnone
    apply h.latch hl
    intro c' _ hzero
    rw [hzero] at hnone
    simp at hnone
  · have hlatch : Inv { s.latch c with pending := none } :=
      h.latch hl fun c' hc' => absurd hc' (Option.some_ne_none c').symm
    exact hlatch.runShutdown (latch_of_running hl)

lemma Inv.clearShutdown (h : Inv s) (hs : step s .clearShutdown = some s') : Inv s' := by
  obtain ⟨⟨-, hpending⟩, hs⟩ := Option.ite_none_right_eq_some.mp hs
  split at hs
  · rename_i hzero
    obtain rfl := Option.some.inj hs
    apply h.latch
    · rw [Coded, if_pos hzero]
      rfl
    · exact fun c' hc' _ => (Option.some.inj hc').symm
  · obtain rfl := Option.some.inj hs
    exact ⟨fun hne => absurd rfl hne, fun _ => rfl,
      fun c hc => absurd (hpending.symm.trans hc) (Option.some_ne_none c).symm⟩

lemma Inv.step {a : Action} (h : Inv s) (hl : Legal s a) (hs : step s a = some s') : Inv s' := by
  cases a with
  | latch c =>
    obtain ⟨-, hs⟩ := Option.ite_none_right_eq_some.mp hs
    obtain rfl := Option.some.inj hs
    exact h.latch hl fun c' hc' _ => (Option.some.inj hc').symm
  | shutdown =>
    obtain ⟨c, hc, rfl⟩ := Option.map_eq_some_iff.mp hs
    unfold State.request
    split
    · exact { h with pending := fun c' hc' => absurd hc' (Option.some_ne_none c').symm }
    · exact h.runShutdown (h.pending c hc)
  | interrupt c => exact h.interrupt hl hs
  | shutdownDone =>
    obtain ⟨hstatus, hs⟩ := Option.ite_none_right_eq_some.mp hs
    obtain rfl := Option.some.inj hs
    have hne : s.shutdownStatus ≠ 0 := by
      rw [hstatus]
      decide
    exact ⟨fun _ => h.reason hne, fun hzero => absurd hzero (by decide : (1 : UInt8) ≠ 0),
      fun c hc hzero => absurd hzero (by decide : (1 : UInt8) ≠ 0)⟩
  | clearShutdown => exact h.clearShutdown hs

lemma inv_init : Inv {} :=
  ⟨fun hne => absurd rfl hne, fun _ => rfl, fun c hc => absurd hc (Option.some_ne_none c).symm⟩

/-- While the firmware is shut down, the code is that of the first request since it was running,
which has also set the reason. -/
theorem ffShutdownCode_of_run {actions : List Action} (h : Run step Legal {} actions s)
    (hs : s.shutdownStatus ≠ 0) :
    ∃ c, s.shutdownReason = some c ∧ s.taken.getLast? = some c ∧
      c.code = some s.ffShutdownCode := by
  have hinv : Inv s := by
    apply h.invariant inv_init
    intro s a s' hinv hl hs
    exact hinv.step hl hs
  exact hinv.reason hs

/-- A stepper that is late, and later requests without a code. -/
def stepperActions : List Action :=
  [.interrupt .stepperTooFarPast, .shutdownDone, .interrupt .adcOutOfRange,
    .latch .commandParserError, .shutdown, .shutdownDone]

theorem ffShutdownCode_of_run_stepper : ∃ s, Run step Legal {} stepperActions s ∧
    s.shutdownStatus = 1 ∧
    ∃ c, s.shutdownReason = some c ∧ s.taken.getLast? = some c ∧
      c.code = some s.ffShutdownCode := by
  obtain ⟨s, hrun, hstatus⟩ : ∃ s, Run step Legal {} stepperActions s ∧
      decide (s.shutdownStatus = 1) = true := Run.exists_of_exec _ _ (by decide +kernel)
  have hstatus := of_decide_eq_true hstatus
  refine ⟨s, hrun, hstatus, ffShutdownCode_of_run hrun ?_⟩
  rw [hstatus]
  decide

/-- An emergency stop of the host replaces the code of the shutdown that came before it. After
`clear_shutdown` its code is still there when a timer that is too close shuts the firmware down. -/
theorem ffShutdownCode_of_other_request :
    (∃ s, Run step (fun _ _ => True) {}
      [.interrupt .stepperTooFarPast, .shutdownDone, .latch .hostEmergencyStop, .shutdown,
        .shutdownDone] s ∧
      s.shutdownStatus = 1 ∧ s.shutdownReason = some .stepperTooFarPast ∧ s.ffShutdownCode = 49) ∧
    ∃ s, Run step (fun _ _ => True) {}
      [.latch .hostEmergencyStop, .shutdown, .shutdownDone, .clearShutdown,
        .interrupt .timerTooClose, .shutdownDone] s ∧
      s.shutdownStatus = 1 ∧ s.shutdownReason = some .timerTooClose ∧ s.ffShutdownCode = 49 := by
  constructor
  · obtain ⟨s, hrun, hs⟩ : ∃ s, Run step (fun _ _ => True) {}
        [.interrupt .stepperTooFarPast, .shutdownDone, .latch .hostEmergencyStop, .shutdown,
          .shutdownDone] s ∧
        decide (s.shutdownStatus = 1 ∧ s.shutdownReason = some .stepperTooFarPast ∧
          s.ffShutdownCode = 49) = true := Run.exists_of_exec _ _ (by decide +kernel)
    exact ⟨s, hrun, of_decide_eq_true hs⟩
  · obtain ⟨s, hrun, hs⟩ : ∃ s, Run step (fun _ _ => True) {}
        [.latch .hostEmergencyStop, .shutdown, .shutdownDone, .clearShutdown,
          .interrupt .timerTooClose, .shutdownDone] s ∧
        decide (s.shutdownStatus = 1 ∧ s.shutdownReason = some .timerTooClose ∧
          s.ffShutdownCode = 49) = true := Run.exists_of_exec _ _ (by decide +kernel)
    exact ⟨s, hrun, of_decide_eq_true hs⟩

end KlipperMcu.ShutdownCode
