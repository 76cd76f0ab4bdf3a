import KlipperMcu.Lib.Run
import KlipperMcu.Host.Trdispatch

/-!
# Synchronised triggers

The host and the objects of `n` micro-controllers that it has started, with a reliable channel in
each direction. On a micro-controller the timers and endstops interrupt the main program, which
runs commands and `trsync_task`. A report leaves it in a step of its own, so that it can be stale
when it is sent.
-/

namespace KlipperMcu.TriggerLink

open Lib Trigger

/-- What the main program of a micro-controller is doing. -/
inductive Main where
  | idle
  /-- `trsync_task` has cleared `trsync_wake`. -/
  | scanning
  | reporting (msg : TrsyncState)
deriving DecidableEq, Repr

structure Mcu where
  ts : Trsync
  wake : Bool
  main : Main
deriving DecidableEq, Repr

inductive Event (n : Nat) where
  | reported (i : Fin n) (msg : TrsyncState)
  | received (i : Fin n) (msg : TrsyncState)
  | sent (i : Fin n) (cmd : Command)
deriving DecidableEq, Repr

structure State (n : Nat) (τ : Type) where
  td : Trdispatch n τ
  mcus : Fin n → Mcu
  toHost : Fin n → List TrsyncState
  toMcu : Fin n → List Command
  log : List (Event n)

inductive Action (n : Nat) (τ : Type) where
  /-- An endstop or sensor calls `trsync_do_trigger`. -/
  | trigger (i : Fin n) (reason : UInt8)
  | expireEvent (i : Fin n)
  | reportEvent (i : Fin n)
  | task (i : Fin n)
  | scan (i : Fin n) (clock : UInt32)
  | report (i : Fin n)
  | command (i : Fin n)
  | handle (i : Fin n) (ce : ClockEstimate τ)

def Mcu.doTrigger (c : Mcu) (reason : UInt8) : Mcu :=
  { c with ts := c.ts.doTrigger reason, wake := c.ts.canTrigger || c.wake }

/-- The timer of `trsync_expire_event`. -/
def Mcu.expireEvent (c : Mcu) : Option Mcu :=
  if c.ts.expireTime.scheduled then
    let c := c.doTrigger c.ts.expireReason
    some { c with ts := { c.ts with expireTime := c.ts.expireTime.delete } }
  else none

/-- The timer of `trsync_report_event`. -/
def Mcu.reportEvent (c : Mcu) : Option Mcu :=
  if c.ts.reportTime.scheduled then some { c with ts := c.ts.reportEvent, wake := true } else none

/-- The start of `trsync_task`. -/
def Mcu.task (c : Mcu) : Option Mcu :=
  if c.main = .idle ∧ c.wake = true then some { c with wake := false, main := .scanning } else none

/-- `trsync_task` looks at the object. -/
def Mcu.scan (c : Mcu) (clock : UInt32) : Option Mcu :=
  if c.main = .scanning then
    if c.ts.report then
      some { c with ts := (c.ts.takeReport clock).1, main := .reporting (c.ts.takeReport clock).2 }
    else some { c with main := .idle }
  else none

/-- A command up to its report. Timers are never added too late. -/
def Mcu.command (c : Mcu) : Command → Mcu
  | .trsyncTrigger reason =>
    let c := c.doTrigger reason.toUInt8
    { c with ts := c.ts.quiet, main := .reporting ⟨false, c.ts.triggerReason, 0⟩ }
  | .trsyncSetTimeout clock =>
    match c.ts.setTimeout clock false with
    | .error ts | .ok ts => { c with ts := ts }

section Memory

/-! The steps of a micro-controller are those of its memory, seen at one object. -/

variable {κ : Type} {m : Mem κ} {lists : Nat → List Nat}

def Mcu.ofMem (m : Mem κ) (i : Nat) (main : Main) : Mcu := ⟨m.trsyncs i, m.wake, main⟩

theorem ofMem_trsyncDoTrigger (h : Listed m lists) (i : Nat) (reason : UInt8) (main : Main) :
    (trsyncDoTrigger m i reason).map (fun r => Mcu.ofMem r.1 i main) =
      some ((Mcu.ofMem m i main).doTrigger reason) := by
  rw [h.trsyncDoTrigger_eq]
  split
  · rename_i hc
    simp [Mcu.ofMem, Mcu.doTrigger, Mem.set, hc]
  · rename_i hc
    simp [Mcu.ofMem, Mcu.doTrigger, Trsync.doTrigger, hc]

theorem ofMem_trsyncExpireEvent (h : Listed m lists) (i : Nat) (main : Main)
    (hs : (m.trsyncs i).expireTime.scheduled = true) :
    (trsyncExpireEvent m i).map (fun r => Mcu.ofMem r.1 i main) =
      (Mcu.ofMem m i main).expireEvent := by
  have htrig := ofMem_trsyncDoTrigger h i (m.trsyncs i).expireReason main
  obtain ⟨r, hr, he⟩ := Option.map_eq_some_iff.mp htrig
  have hts := congrArg Mcu.ts he
  have hwake := congrArg Mcu.wake he
  simp only [Mcu.ofMem] at hts hwake
  rw [trsyncExpireEvent, hr, Mcu.expireEvent, Mcu.ofMem, if_pos hs]
  simp [Mcu.ofMem, Mem.set, hts, hwake, Mcu.doTrigger]

theorem ofMem_commandTrsyncTrigger (h : Listed m lists) (i : Nat) (reason : UInt32) (main : Main) :
    (commandTrsyncTrigger m i reason).map (fun r =>
        Mcu.ofMem r.1 i (.reporting ⟨false, (r.1.trsyncs i).triggerReason, 0⟩)) =
      some ((Mcu.ofMem m i main).command (.trsyncTrigger reason)) := by
  have htrig := ofMem_trsyncDoTrigger h i reason.toUInt8 main
  obtain ⟨r, hr, he⟩ := Option.map_eq_some_iff.mp htrig
  rw [commandTrsyncTrigger, hr, Mcu.command, ← he]
  simp [Mcu.ofMem, Mem.set, Trsync.quiet]

theorem ofMem_commandTrsyncSetTimeout (i : Nat) (clock : UInt32) (main : Main) :
    (commandTrsyncSetTimeout m i clock false).map (fun m => Mcu.ofMem m i main) =
      .ok ((Mcu.ofMem m i main).command (.trsyncSetTimeout clock)) := by
  cases hc : (m.trsyncs i).canTrigger <;>
    simp [commandTrsyncSetTimeout, Trsync.setTimeout, Mcu.command, Mcu.ofMem, Mem.set, hc,
      Except.map]

theorem ofMem_trsyncTask (i : Nat) (clock : UInt32) :
    (Mcu.ofMem m i .scanning).scan clock =
      some (Mcu.ofMem (trsyncTask m i clock).1 i
        ((trsyncTask m i clock).2.elim .idle .reporting)) := by
  cases hr : (m.trsyncs i).report <;>
    simp [Mcu.scan, Mcu.ofMem, trsyncTask, Mem.set, hr]

end Memory

variable {n : Nat} {τ : Type}

def State.setMcu (s : State n τ) (i : Fin n) (c : Mcu) : State n τ :=
  { s with mcus := Function.update s.mcus i c }

section Step

variable [LT τ] [DecidableLT τ] [BEq τ]

/-- The host handles the message `msg`. -/
def State.handle (never : τ) (s : State n τ) (i : Fin n) (ce : ClockEstimate τ)
    (msg : TrsyncState) : State n τ :=
  let r := handleTrsyncState never s.td i ce msg
  { s with
    td := r.1
    toMcu := fun j => s.toMcu j ++ (r.2.filter fun c => c.1 = j).map Prod.snd
    log := s.log ++ .received i msg :: r.2.map fun c => .sent c.1 c.2 }

def step (never : τ) (s : State n τ) : Action n τ → Option (State n τ)
  | .trigger i reason => some (s.setMcu i ((s.mcus i).doTrigger reason))
  | .expireEvent i => (s.mcus i).expireEvent.map (s.setMcu i)
  | .reportEvent i => (s.mcus i).reportEvent.map (s.setMcu i)
  | .task i => (s.mcus i).task.map (s.setMcu i)
  | .scan i clock => ((s.mcus i).scan clock).map (s.setMcu i)
  | .report i =>
    match (s.mcus i).main with
    | .reporting msg =>
      some { s.setMcu i { s.mcus i with main := .idle } with
        toHost := Function.update s.toHost i (s.toHost i ++ [msg])
        log := s.log ++ [.reported i msg] }
    | _ => none
  | .command i =>
    match (s.mcus i).main, s.toMcu i with
    | .idle, cmd :: rest =>
      some { s.setMcu i ((s.mcus i).command cmd) with toMcu := Function.update s.toMcu i rest }
    | _, _ => none
  | .handle i ce =>
    match s.toHost i with
    | msg :: rest => some ({ s with toHost := Function.update s.toHost i rest }.handle never i ce msg)
    | [] => none

end Step

def Legal (_ : State n τ) (_ : Action n τ) : Prop := True

instance (s : State n τ) (a : Action n τ) : Decidable (Legal s a) := .isTrue trivial

/-- A started dispatch over objects that can trigger, with empty channels. -/
structure Started (s : State n τ) : Prop where
  td : ∃ td reason, td.isActive = false ∧ s.td = trdispatchStart td reason
  mcus : ∀ i, (s.mcus i).ts.canTrigger = true ∧ (s.mcus i).main = .idle
  toHost : ∀ i, s.toHost i = []
  toMcu : ∀ i, s.toMcu i = []
  log : s.log = []

def State.Triggered (s : State n τ) (i : Fin n) : Prop := (s.mcus i).ts.canTrigger = false

/-- All messages have been delivered and no report is pending. -/
structure Quiescent (s : State n τ) : Prop where
  toHost : ∀ i, s.toHost i = []
  toMcu : ∀ i, s.toMcu i = []
  report : ∀ i, (s.mcus i).ts.report = false
  main : ∀ i msg, (s.mcus i).main ≠ .reporting msg

/-- The event sends `trsync_trigger` to micro-controller `i`. -/
def Event.triggers (i : Fin n) : Event n → Bool
  | .sent j (.trsyncTrigger _) => decide (j = i)
  | _ => false

section Invariant

variable {s s' : State n τ} {i j : Fin n} {c : Mcu} {msg : TrsyncState}

/-- The event `b` does not extend a timeout after the report `a` of a trigger. -/
def NoLateTimeout (a b : Event n) : Prop := ∀ i msg j clock, a = .received i msg →
  msg.canTrigger = false → b ≠ .sent j (.trsyncSetTimeout clock)

/-- A report of the trigger of object `i` is on its way. -/
def Pending (c : Mcu) (toHost : List TrsyncState) : Prop :=
  c.ts.report = true ∨ (∃ msg, c.main = .reporting msg ∧ msg.canTrigger = false) ∨
    ∃ msg ∈ toHost, msg.canTrigger = false

structure Inv (s : State n τ) : Prop where
  /-- A trigger of an object reaches the host. -/
  pending : ∀ i, s.Triggered i → s.td.canTrigger = true → Pending (s.mcus i) (s.toHost i)
  /-- The triggers of the host reach all objects. -/
  broadcast : s.td.canTrigger = false →
    ∀ i, s.Triggered i ∨ ∃ reason, .trsyncTrigger reason ∈ s.toMcu i
  reported : ∀ i, ∀ msg ∈ s.toHost i, .reported i msg ∈ s.log
  active : s.td.canTrigger = true →
    (∀ i cmd, .sent i cmd ∈ s.log → ∀ reason, cmd ≠ .trsyncTrigger reason) ∧
    ∀ i msg, .received i msg ∈ s.log → msg.canTrigger = true
  cause : s.td.canTrigger = false → ∃ pre tail i msg, s.log = pre ++ .received i msg :: tail ∧
    msg.canTrigger = false ∧ .reported i msg ∈ pre ∧ ∀ j reason, .sent j (.trsyncTrigger reason) ∉ pre
  once : ∀ i, (s.log.countP (Event.triggers i)) ≤ if s.td.canTrigger then 0 else 1
  timeouts : s.log.Pairwise NoLateTimeout

lemma Inv.timeouts_snoc (h : Inv s) {e : Event n} (he : ∀ j cmd, e ≠ .sent j cmd) :
    (s.log ++ [e]).Pairwise NoLateTimeout := by
  rw [List.pairwise_append]
  refine ⟨h.timeouts, List.pairwise_singleton _ _, fun a _ b hb => ?_⟩
  rw [List.mem_singleton.mp hb]
  exact fun _ _ j clock _ _ => he j _

lemma countP_triggers_eq_zero {log : List (Event n)}
    (h : ∀ j cmd, .sent j cmd ∈ log → ∀ reason, cmd ≠ .trsyncTrigger reason) (i : Fin n) :
    log.countP (Event.triggers i) = 0 := by
  rw [List.countP_eq_zero]
  intro e he
  cases e with
  | reported j msg => exact Bool.false_ne_true
  | received j msg => exact Bool.false_ne_true
  | sent j cmd =>
    cases cmd with
    | trsyncSetTimeout clock => exact Bool.false_ne_true
    | trsyncTrigger reason => exact absurd rfl (h j _ he reason)

lemma pairwise_noLateTimeout {log : List (Event n)}
    (h : ∀ i msg, .received i msg ∈ log → msg.canTrigger = true) : log.Pairwise NoLateTimeout := by
  refine List.pairwise_of_forall_mem_list fun a ha b _ i msg j clock he hm => ?_
  rw [h i msg (he ▸ ha)] at hm
  cases hm

lemma Pending.tail {rest : List TrsyncState} (h : Pending c (msg :: rest))
    (hm : msg.canTrigger = true) : Pending c rest := by
  rcases h with hr | hr | ⟨m, hmem, hf⟩
  · exact Or.inl hr
  · exact Or.inr (Or.inl hr)
  · rcases List.mem_cons.mp hmem with rfl | hmem
    · rw [hm] at hf
      cases hf
    · exact Or.inr (Or.inr ⟨m, hmem, hf⟩)

lemma Inv.setMcu (h : Inv s) (i : Fin n) (c : Mcu)
    (htrig : (s.mcus i).ts.canTrigger = false → c.ts.canTrigger = false)
    (hpend : c.ts.canTrigger = false →
      ((s.mcus i).ts.canTrigger = false → Pending (s.mcus i) (s.toHost i)) →
        Pending c (s.toHost i)) :
    Inv (s.setMcu i c) where
  pending j hj hc := by
    by_cases hji : j = i
    · subst hji
      simp only [State.setMcu, State.Triggered, Function.update_self] at hj ⊢
      exact hpend hj fun ht => h.pending j ht hc
    · simp only [State.setMcu, State.Triggered, Function.update_of_ne hji] at hj ⊢
      exact h.pending j hj hc
  broadcast hc j := by
    refine (h.broadcast hc j).imp_left fun ht => ?_
    by_cases hji : j = i
    · subst hji
      simpa only [State.setMcu, State.Triggered, Function.update_self] using htrig ht
    · simpa only [State.setMcu, State.Triggered, Function.update_of_ne hji] using ht
  reported := h.reported
  active := h.active
  cause := h.cause
  once := h.once
  timeouts := h.timeouts

lemma doTrigger_canTrigger (c : Mcu) (reason : UInt8) : (c.doTrigger reason).ts.canTrigger = false := by
  unfold Mcu.doTrigger Trsync.doTrigger
  grind [Trsync.fire]

lemma pending_doTrigger (c : Mcu) (reason : UInt8) {toHost : List TrsyncState}
    (h : c.ts.canTrigger = false → Pending c toHost) : Pending (c.doTrigger reason) toHost := by
  cases hc : c.ts.canTrigger with
  | true =>
    left
    simp [Mcu.doTrigger, Trsync.doTrigger, hc, Trsync.fire]
  | false =>
    have hsame : c.doTrigger reason = c := by simp [Mcu.doTrigger, Trsync.doTrigger, hc]
    rw [hsame]
    exact h hc

lemma Inv.trigger (h : Inv s) (i : Fin n) (reason : UInt8) :
    Inv (s.setMcu i ((s.mcus i).doTrigger reason)) :=
  h.setMcu i _ (fun _ => doTrigger_canTrigger _ _) fun _ hp => pending_doTrigger _ _ hp

lemma Inv.expireEvent (h : Inv s) (hc : (s.mcus i).expireEvent = some c) : Inv (s.setMcu i c) := by
  obtain ⟨-, hc⟩ := Option.ite_none_right_eq_some.mp hc
  cases hc
  exact h.setMcu i _ (fun _ => doTrigger_canTrigger _ _) fun _ hp => pending_doTrigger _ _ hp

lemma Inv.reportEvent (h : Inv s) (hc : (s.mcus i).reportEvent = some c) : Inv (s.setMcu i c) := by
  obtain ⟨-, hc⟩ := Option.ite_none_right_eq_some.mp hc
  cases hc
  exact h.setMcu i _ (fun ht => ht) fun _ _ => Or.inl rfl

lemma Inv.task (h : Inv s) (hc : (s.mcus i).task = some c) : Inv (s.setMcu i c) := by
  obtain ⟨⟨hmain, -⟩, hc⟩ := Option.ite_none_right_eq_some.mp hc
  cases hc
  refine h.setMcu i _ (fun ht => ht) fun ht hp => ?_
  rcases hp ht with hr | ⟨msg, hm, -⟩ | hmsg
  · exact Or.inl hr
  · rw [hmain] at hm
    cases hm
  · exact Or.inr (Or.inr hmsg)

lemma Inv.scan (h : Inv s) {clock : UInt32} (hc : (s.mcus i).scan clock = some c) :
    Inv (s.setMcu i c) := by
  obtain ⟨hmain, hc⟩ := Option.ite_none_right_eq_some.mp hc
  split at hc
  · cases hc
    exact h.setMcu i _ (fun ht => ht) fun ht _ => Or.inr (Or.inl ⟨_, rfl, ht⟩)
  · rename_i hr
    cases hc
    refine h.setMcu i _ (fun ht => ht) fun ht hp => ?_
    rcases hp ht with hr' | ⟨msg, hm, -⟩ | hmsg
    · exact absurd hr' hr
    · rw [hmain] at hm
      cases hm
    · exact Or.inr (Or.inr hmsg)

lemma Inv.report (h : Inv s) (hmain : (s.mcus i).main = .reporting msg) :
    Inv { s.setMcu i { s.mcus i with main := .idle } with
      toHost := Function.update s.toHost i (s.toHost i ++ [msg])
      log := s.log ++ [.reported i msg] } where
  pending j hj hc := by
    by_cases hji : j = i
    · subst hji
      simp only [State.setMcu, State.Triggered, Function.update_self] at hj ⊢
      rcases h.pending j hj hc with hr | ⟨m, hm, hf⟩ | ⟨m, hm, hf⟩
      · exact Or.inl hr
      · rw [hmain] at hm
        cases hm
        exact Or.inr (Or.inr ⟨msg, by simp, hf⟩)
      · exact Or.inr (Or.inr ⟨m, by simp [hm], hf⟩)
    · simp only [State.setMcu, State.Triggered, Function.update_of_ne hji] at hj ⊢
      exact h.pending j hj hc
  broadcast hc j := by
    refine (h.broadcast hc j).imp_left fun ht => ?_
    by_cases hji : j = i
    · subst hji
      simpa only [State.setMcu, State.Triggered, Function.update_self] using ht
    · simpa only [State.setMcu, State.Triggered, Function.update_of_ne hji] using ht
  reported j m hm := by
    by_cases hji : j = i
    · subst hji
      simp only [Function.update_self, List.mem_append, List.mem_singleton] at hm
      rcases hm with hm | rfl
      · exact List.mem_append_left _ (h.reported j m hm)
      · simp
    · simp only [Function.update_of_ne hji] at hm
      exact List.mem_append_left _ (h.reported j m hm)
  active hc := by
    obtain ⟨hs, hr⟩ := h.active hc
    exact ⟨fun j cmd hm => hs j cmd (by simpa using hm), fun j m hm => hr j m (by simpa using hm)⟩
  cause hc := by
    obtain ⟨pre, tail, j, m, hlog, hm⟩ := h.cause hc
    exact ⟨pre, tail ++ [.reported i msg], j, m, by rw [hlog]; simp, hm⟩
  once j := by
    have hzero : List.countP (Event.triggers j) [.reported i msg] = 0 := rfl
    rw [List.countP_append, hzero]
    exact h.once j
  timeouts := h.timeouts_snoc (by simp)

lemma Inv.pop (h : Inv s) {cmd : Command} {rest : List Command} (hcmd : s.toMcu i = cmd :: rest)
    (hdone : ∀ reason, cmd = .trsyncTrigger reason → s.Triggered i) :
    Inv { s with toMcu := Function.update s.toMcu i rest } where
  pending := h.pending
  broadcast hc j := by
    by_cases hji : j = i
    · subst hji
      rcases h.broadcast hc j with ht | ⟨reason, hm⟩
      · exact Or.inl ht
      · rw [hcmd] at hm
        rcases List.mem_cons.mp hm with hm | hm
        · exact Or.inl (hdone reason hm.symm)
        · exact Or.inr ⟨reason, by simpa using hm⟩
    · refine (h.broadcast hc j).imp_right fun hm => ?_
      simpa only [Function.update_of_ne hji] using hm
  reported := h.reported
  active := h.active
  cause := h.cause
  once := h.once
  timeouts := h.timeouts

lemma Inv.command (h : Inv s) {cmd : Command} {rest : List Command} (hcmd : s.toMcu i = cmd :: rest) :
    Inv { s.setMcu i ((s.mcus i).command cmd) with toMcu := Function.update s.toMcu i rest } := by
  cases cmd with
  | trsyncTrigger reason =>
    have hset : Inv (s.setMcu i ((s.mcus i).command (.trsyncTrigger reason))) :=
      h.setMcu i _ (fun _ => rfl) fun _ _ => Or.inr (Or.inl ⟨_, rfl, rfl⟩)
    apply hset.pop hcmd
    intro _ _
    simp [State.Triggered, State.setMcu, Mcu.command, Trsync.quiet]
  | trsyncSetTimeout clock =>
    have hflags : ((s.mcus i).command (.trsyncSetTimeout clock)).ts.canTrigger =
          (s.mcus i).ts.canTrigger ∧
        ((s.mcus i).command (.trsyncSetTimeout clock)).ts.report = (s.mcus i).ts.report ∧
        ((s.mcus i).command (.trsyncSetTimeout clock)).main = (s.mcus i).main := by
      unfold Mcu.command Trsync.setTimeout
      grind
    have hset : Inv (s.setMcu i ((s.mcus i).command (.trsyncSetTimeout clock))) := by
      refine h.setMcu i _ (fun ht => hflags.1.trans ht) fun ht hp => ?_
      unfold Pending
      rw [hflags.2.1, hflags.2.2]
      exact hp (hflags.1.symm.trans ht)
    apply hset.pop hcmd
    intro _ hne
    cases hne

section Handle

variable [LT τ] [DecidableLT τ] [BEq τ] {never : τ} {ce : ClockEstimate τ} {rest : List TrsyncState}

omit [LT τ] [DecidableLT τ] [BEq τ] in
lemma Inv.reported_tail (h : Inv s) (hmsg : s.toHost i = msg :: rest) (events : List (Event n)) :
    ∀ j, ∀ m ∈ Function.update s.toHost i rest j, .reported j m ∈ s.log ++ events := by
  intro j m hm
  apply List.mem_append_left
  by_cases hji : j = i
  · subst hji
    rw [Function.update_self] at hm
    exact h.reported j m (by rw [hmsg]; simp [hm])
  · rw [Function.update_of_ne hji] at hm
    exact h.reported j m hm

lemma Inv.handle_inactive (h : Inv s) (hmsg : s.toHost i = msg :: rest)
    (hc : s.td.canTrigger = false) :
    Inv ({ s with toHost := Function.update s.toHost i rest }.handle never i ce msg) := by
  simp only [State.handle, handleTrsyncState_inactive hc, List.filter_nil, List.map_nil,
    List.append_nil]
  have hoff : ¬ s.td.canTrigger = true := by simp [hc]
  constructor
  · exact fun j _ hc' => absurd hc' hoff
  · exact fun _ j => h.broadcast hc j
  · exact h.reported_tail hmsg _
  · exact fun hc' => absurd hc' hoff
  · intro _
    obtain ⟨pre, tail, j, m, hlog, hm⟩ := h.cause hc
    exact ⟨pre, tail ++ [.received i msg], j, m, by simp [hlog], hm⟩
  · intro j
    have hzero : List.countP (Event.triggers j) [.received i msg] = 0 := rfl
    rw [List.countP_append, hzero]
    exact h.once j
  · exact h.timeouts_snoc (by simp)

lemma Inv.handle_trigger (h : Inv s) (hmsg : s.toHost i = msg :: rest)
    (hc : s.td.canTrigger = true) (hm : msg.canTrigger = false) :
    Inv ({ s with toHost := Function.update s.toHost i rest }.handle never i ce msg) := by
  obtain ⟨hsent, hrecv⟩ := h.active hc
  simp only [State.handle, handleTrsyncState_trigger hc hm, List.map_map]
  constructor
  · exact fun j _ hc' => absurd hc' Bool.false_ne_true
  · intro _ j
    exact Or.inr ⟨s.td.dispatchReason, by simp⟩
  · exact h.reported_tail hmsg _
  · exact fun hc' => absurd hc' Bool.false_ne_true
  · intro _
    refine ⟨s.log, _, i, msg, rfl, hm, h.reported i msg (by simp [hmsg]), ?_⟩
    exact fun j reason hj => hsent j _ hj reason rfl
  · intro j
    have hcount : List.countP (Event.triggers j) ((List.finRange n).map fun m =>
        Event.sent m (.trsyncTrigger s.td.dispatchReason)) = (List.finRange n).count j := by
      rw [List.countP_map]
      rfl
    rw [List.countP_append, countP_triggers_eq_zero hsent j, Nat.zero_add,
      List.countP_cons_of_neg Bool.false_ne_true]
    refine (le_of_eq hcount).trans ?_
    exact List.nodup_iff_count_le_one.mp (List.nodup_finRange n) j
  · have hlater : ∀ b ∈ .received i msg :: (List.finRange n).map
        ((fun c => Event.sent c.1 c.2) ∘ fun m => (m, .trsyncTrigger s.td.dispatchReason)),
        ∀ j clock, b ≠ .sent j (.trsyncSetTimeout clock) := by
      intro b hb j clock
      rcases List.mem_cons.mp hb with rfl | hb
      · simp
      · obtain ⟨k, -, rfl⟩ := List.mem_map.mp hb
        simp
    rw [List.pairwise_append]
    refine ⟨h.timeouts, List.pairwise_of_forall_mem_list fun a _ b hb => ?_, fun a _ b hb => ?_⟩
    · intro _ _ j clock _ _
      exact hlater b hb j clock
    · intro _ _ j clock _ _
      exact hlater b hb j clock

lemma Inv.handle_status (h : Inv s) (hmsg : s.toHost i = msg :: rest)
    (hc : s.td.canTrigger = true) (hm : msg.canTrigger = true) :
    Inv ({ s with toHost := Function.update s.toHost i rest }.handle never i ce msg) := by
  obtain ⟨hsent, hrecv⟩ := h.active hc
  obtain ⟨hc', htimeouts⟩ := @handleTrsyncState_status n τ _ _ _ never s.td i ce msg hc hm
  unfold State.handle
  generalize handleTrsyncState never s.td i ce msg = r at hc' htimeouts
  have hoff : ¬ r.1.canTrigger = false := by simp [hc']
  have hsent' : ∀ j cmd, .sent j cmd ∈ s.log ++ .received i msg :: r.2.map
      (fun c => Event.sent c.1 c.2) → ∀ reason, cmd ≠ .trsyncTrigger reason := by
    intro j cmd hmem reason
    rcases List.mem_append.mp hmem with hmem | hmem
    · exact hsent j cmd hmem reason
    · rcases List.mem_cons.mp hmem with he | hmem
      · cases he
      · obtain ⟨c, hcmem, he⟩ := List.mem_map.mp hmem
        obtain ⟨clock, hclock⟩ := htimeouts c hcmem
        cases he
        simp [hclock]
  have hrecv' : ∀ j m, .received j m ∈ s.log ++ .received i msg :: r.2.map
      (fun c => Event.sent c.1 c.2) → m.canTrigger = true := by
    intro j m hmem
    rcases List.mem_append.mp hmem with hmem | hmem
    · exact hrecv j m hmem
    · rcases List.mem_cons.mp hmem with he | hmem
      · cases he
        exact hm
      · obtain ⟨c, -, he⟩ := List.mem_map.mp hmem
        cases he
  constructor
  · intro j hj _
    by_cases hji : j = i
    · subst hji
      have hpend := h.pending j hj hc
      rw [hmsg] at hpend
      simpa using hpend.tail hm
    · simpa [Function.update_of_ne hji] using h.pending j hj hc
  · exact fun hc'' => absurd hc'' hoff
  · exact h.reported_tail hmsg _
  · exact fun _ => ⟨hsent', hrecv'⟩
  · exact fun hc'' => absurd hc'' hoff
  · intro j
    exact (countP_triggers_eq_zero hsent' j).le.trans (Nat.zero_le _)
  · exact pairwise_noLateTimeout hrecv'

lemma inv_step {a : Action n τ} (h : Inv s) (hs : step never s a = some s') : Inv s' := by
  cases a with
  | trigger i reason =>
    cases hs
    exact h.trigger i reason
  | expireEvent i =>
    obtain ⟨c, hc, rfl⟩ := Option.map_eq_some_iff.mp hs
    exact h.expireEvent hc
  | reportEvent i =>
    obtain ⟨c, hc, rfl⟩ := Option.map_eq_some_iff.mp hs
    exact h.reportEvent hc
  | task i =>
    obtain ⟨c, hc, rfl⟩ := Option.map_eq_some_iff.mp hs
    exact h.task hc
  | scan i clock =>
    obtain ⟨c, hc, rfl⟩ := Option.map_eq_some_iff.mp hs
    exact h.scan hc
  | report i =>
    simp only [step] at hs
    split at hs
    · rename_i msg hmain
      cases hs
      exact h.report hmain
    · cases hs
  | command i =>
    simp only [step] at hs
    split at hs
    · rename_i cmd rest hmain hcmd
      cases hs
      exact h.command hcmd
    · cases hs
  | handle i ce =>
    simp only [step] at hs
    split at hs
    · rename_i msg rest hmsg
      cases hs
      cases hc : s.td.canTrigger with
      | false => exact h.handle_inactive hmsg hc
      | true =>
        cases hm : msg.canTrigger with
        | false => exact h.handle_trigger hmsg hc hm
        | true => exact h.handle_status hmsg hc hm
    · cases hs

omit [LT τ] [DecidableLT τ] [BEq τ] in
lemma Started.inv (h : Started s) (hn : 1 ≤ n) : Inv s := by
  obtain ⟨td, reason, hactive, htd⟩ := h.td
  have hc : s.td.canTrigger = true := by
    rw [htd, trdispatchStart, if_neg]
    simp [hactive]
    omega
  have hoff : ¬ s.td.canTrigger = false := by simp [hc]
  constructor
  · intro i hi
    rw [State.Triggered, (h.mcus i).1] at hi
    cases hi
  · exact fun hc' => absurd hc' hoff
  · simp [h.toHost]
  · simp [h.log]
  · exact fun hc' => absurd hc' hoff
  · simp [h.log]
  · rw [h.log]
    exact List.Pairwise.nil

end Handle

end Invariant

lemma subset_of_append_eq {α : Type*} {a b c d : List α} {x : α} (h : a ++ b = c ++ x :: d)
    (hx : x ∉ a) : a ⊆ c := by
  rcases List.append_eq_append_iff.mp h with ⟨a', rfl, -⟩ | ⟨c', rfl, hd⟩
  · exact List.subset_append_left a a'
  · cases c' with
    | nil => simp
    | cons y c' =>
      cases hd
      exact absurd (by simp) hx

/-- The host sends each object at most one trigger, and only after a report of a trigger. After
such a report it extends no timeout. Once all messages have been delivered and no report is pending,
all objects have triggered or none has. -/
theorem triggers_agree [LT τ] [DecidableLT τ] [BEq τ] {never : τ} (hn : 1 ≤ n) {s₀ s : State n τ}
    (h₀ : Started s₀) {actions : List (Action n τ)} (h : Run (step never) Legal s₀ actions s) :
    (∀ i, s.log.countP (Event.triggers i) ≤ 1) ∧
    (∀ pre i reason post, s.log = pre ++ .sent i (.trsyncTrigger reason) :: post →
      ∃ j msg, msg.canTrigger = false ∧ .reported j msg ∈ pre ∧ .received j msg ∈ pre) ∧
    (∀ pre i msg post, s.log = pre ++ .received i msg :: post → msg.canTrigger = false →
      ∀ j clock, .sent j (.trsyncSetTimeout clock) ∉ post) ∧
    (Quiescent s → (∃ i, s.Triggered i) → ∀ j, s.Triggered j) := by
  have hinv : Inv s := h.invariant (h₀.inv hn) fun _ _ _ hi _ hs => inv_step hi hs
  refine ⟨fun i => ?_, ?_, ?_, ?_⟩
  · refine (hinv.once i).trans ?_
    split <;> omega
  · intro pre i reason post hlog
    have hmem : .sent i (.trsyncTrigger reason) ∈ s.log := by simp [hlog]
    have hc : s.td.canTrigger = false := by
      rw [← Bool.not_eq_true]
      exact fun hc => (hinv.active hc).1 i _ hmem reason rfl
    obtain ⟨pre₀, tail, j, msg, hlog₀, hm, hrep, hnone⟩ := hinv.cause hc
    have hsub : pre₀ ++ [.received j msg] ⊆ pre := by
      apply subset_of_append_eq (b := tail) (x := .sent i (.trsyncTrigger reason)) (d := post)
      · rw [List.append_assoc, List.singleton_append, ← hlog₀, hlog]
      · simpa using hnone i reason
    exact ⟨j, msg, hm, hsub (by simp [hrep]), hsub (by simp)⟩
  · intro pre i msg post hlog hm j clock hmem
    have hpair := hinv.timeouts
    rw [hlog, List.pairwise_append, List.pairwise_cons] at hpair
    exact hpair.2.1.1 _ hmem i msg j clock rfl hm rfl
  · rintro hq ⟨i, hi⟩ j
    have hc : s.td.canTrigger = false := by
      rw [← Bool.not_eq_true]
      intro hc
      rcases hinv.pending i hi hc with hr | ⟨msg, hr, -⟩ | ⟨msg, hr, -⟩
      · rw [hq.report i] at hr
        cases hr
      · exact hq.main i msg hr
      · simp [hq.toHost i] at hr
    rcases hinv.broadcast hc j with ht | ⟨reason, hr⟩
    · exact ht
    · simp [hq.toMcu j] at hr

/-- Clocks that are their own times. -/
def identityClock : ClockEstimate Nat where
  lastClock := 0
  clockToTime := UInt64.toNat
  clockFromTime := UInt64.ofNat

/-- Two micro-controllers that report every 100 ticks. -/
def twoMcus : State 2 Nat where
  td := trdispatchStart ⟨false, false, 0, fun _ => ⟨0, 0, 1000, 10, identityClock⟩⟩ 4
  mcus _ := ⟨⟨⟨100, true⟩, ⟨0, false⟩, 100, none, true, false, 0, 2⟩, false, .idle⟩
  toHost _ := []
  toMcu _ := []
  log := []

lemma started_twoMcus : Started twoMcus where
  td := ⟨⟨false, false, 0, _⟩, 4, rfl, rfl⟩
  mcus _ := ⟨rfl, rfl⟩
  toHost _ := rfl
  toMcu _ := rfl
  log := rfl

/-- Both report, then the first one triggers. -/
def firstTriggers : List (Action 2 Nat) :=
  [.reportEvent 0, .reportEvent 1, .task 0, .task 1, .scan 0 100, .scan 1 100, .report 0, .report 1,
    .handle 0 identityClock, .trigger 0 1, .handle 1 identityClock, .command 0, .command 0, .task 0,
    .scan 0 150, .command 1, .report 0, .handle 0 identityClock, .command 0, .report 0, .command 1,
    .report 1, .handle 0 identityClock, .handle 1 identityClock]

theorem triggers_agree_firstTriggers :
    ∃ s, Run (step 1000000) Legal twoMcus firstTriggers s ∧ Quiescent s ∧ s.Triggered 0 ∧
      s.Triggered 1 ∧ s.log.countP (Event.triggers 1) ≤ 1 := by
  obtain ⟨s, hs, hp⟩ : ∃ s, Run (step 1000000) Legal twoMcus firstTriggers s ∧
      decide ((∀ i, s.toHost i = [] ∧ s.toMcu i = [] ∧ (s.mcus i).ts.report = false ∧
        (s.mcus i).main = .idle) ∧ (s.mcus 0).ts.canTrigger = false) = true :=
    Run.exists_of_exec firstTriggers _ (by decide +kernel)
  obtain ⟨hquiet, hfirst⟩ := of_decide_eq_true hp
  have hq : Quiescent s := by
    refine ⟨fun i => (hquiet i).1, fun i => (hquiet i).2.1, fun i => (hquiet i).2.2.1, ?_⟩
    intro i msg
    rw [(hquiet i).2.2.2]
    simp
  obtain ⟨honce, -, -, hagree⟩ := triggers_agree (by decide) started_twoMcus hs
  exact ⟨s, hs, hq, hfirst, hagree hq ⟨0, hfirst⟩ 1, honce 1⟩

end KlipperMcu.TriggerLink
