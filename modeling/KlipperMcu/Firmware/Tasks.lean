import KlipperMcu.Lib.Run
import Mathlib.Logic.Function.Basic

/-!
# Tasks

`run_tasks` and the wake flags of sched.c. The main loop stores to `tasks_status` and to the flags
without disabling interrupts, and interrupts store to both at any time. The task functions test
their flags in a fixed order, and `ff_eddy_wake` is tested after them.
-/

namespace KlipperMcu.Tasks

open Lib

/-- `tasks_status`: `TS_IDLE`, `TS_REQUESTED` or `TS_RUNNING`. -/
inductive TasksStatus where
  | idle
  | requested
  | running
deriving DecidableEq, Repr

/-- The `struct task_wake` objects. -/
inductive Flag (κ : Type) where
  | task (k : κ)
  | ffEddy
deriving DecidableEq, Repr

/-- Where `run_tasks` is. In a pass `rest` are the flags that are still to be tested. -/
inductive Pc (κ : Type) where
  | poll
  /-- Interrupts are disabled. -/
  | locked
  /-- At the call of `irq_wait`, with interrupts disabled. -/
  | sleep
  /-- In `irq_wait`, which lets interrupts run. -/
  | wait
  | start
  | test (rest : List (Flag κ))
  /-- `sched_check_wake` has read the flag and has not cleared it yet. -/
  | clear (f : Flag κ) (rest : List (Flag κ))
  /-- In a task function, or in `ff_eddy_check_trigger`. -/
  | body (rest : List (Flag κ))
  /-- In `sched_wake_task`, behind `sched_wake_tasks`. -/
  | wake (f : Flag κ) (rest : List (Flag κ))
deriving DecidableEq, Repr

inductive Event (κ : Type) where
  | wake (f : Flag κ)
  /-- The code that waits for the flag is run. -/
  | run (f : Flag κ)
  | sleep
deriving DecidableEq, Repr

structure State (κ : Type) where
  status : TasksStatus
  wake : Flag κ → Bool
  pc : Pc κ
  log : List (Event κ)

inductive Action (κ : Type) where
  /-- An interrupt calls `sched_wake_tasks` or `sched_wake_task`. -/
  | irqWakeTasks
  | irqWakeTask (f : Flag κ)
  /-- The next access of the main loop. -/
  | main
  /-- A task function that has no flag is called. -/
  | call
  /-- The running task function calls `sched_wake_tasks` or `sched_wake_task`, or returns. -/
  | wakeTasks
  | wakeTask (f : Flag κ)
  | leave
deriving DecidableEq, Repr

variable {κ : Type} [DecidableEq κ]

/-- The flags that are tested in a pass. -/
def pass (tests : List κ) : List (Flag κ) := tests.map .task ++ [.ffEddy]

def Pc.interruptible : Pc κ → Bool
  | .locked => false
  | .sleep => false
  | _ => true

/-- The test of `tasks_status` with interrupts disabled. -/
def State.sleepOrStart (s : State κ) (status : TasksStatus) : State κ :=
  if s.status ≠ .requested then
    { s with status := status, pc := .sleep, log := s.log ++ [.sleep] }
  else { s with pc := .start }

/-- The next access of `run_tasks` outside of the task functions. -/
def State.main (tests : List κ) (s : State κ) : Option (State κ) :=
  match s.pc with
  | .poll => some { s with pc := if s.status ≠ .requested then .locked else .start }
  | .locked => some (s.sleepOrStart .idle)
  | .sleep => some { s with pc := .wait }
  | .wait => some (s.sleepOrStart s.status)
  | .start => some { s with status := .running, pc := .test (pass tests) }
  | .test [] => some { s with pc := .poll }
  | .test (f :: rest) => some { s with pc := if s.wake f then .clear f rest else .test rest }
  | .clear f rest =>
    some { s with
      wake := Function.update s.wake f false
      pc := .body rest
      log := s.log ++ [.run f] }
  | .wake f rest =>
    some { s with
      wake := Function.update s.wake f true
      pc := .body rest
      log := s.log ++ [.wake f] }
  | .body _ => none

def step (tests : List κ) (s : State κ) : Action κ → Option (State κ)
  | .irqWakeTasks => if s.pc.interruptible then some { s with status := .requested } else none
  | .irqWakeTask f =>
    if s.pc.interruptible then
      some { s with
        status := .requested
        wake := Function.update s.wake f true
        log := s.log ++ [.wake f] }
    else none
  | .main => s.main tests
  | .call =>
    match s.pc with
    | .test rest => some { s with pc := .body rest }
    | _ => none
  | .wakeTasks =>
    match s.pc with
    | .body _ => some { s with status := .requested }
    | _ => none
  | .wakeTask f =>
    match s.pc with
    | .body rest => some { s with status := .requested, pc := .wake f rest }
    | _ => none
  | .leave =>
    match s.pc with
    | .body rest => some { s with pc := .test rest }
    | _ => none

def Legal (_ : State κ) (_ : Action κ) : Prop := True

instance (s : State κ) (a : Action κ) : Decidable (Legal s a) := .isTrue trivial

/-- The start of `run_tasks`, with the flags that the initialisation has set. -/
def boot (wake : Flag κ → Bool) : State κ := ⟨.requested, wake, .poll, []⟩

section Invariant

variable {tests : List κ} {s s' : State κ} {f g : Flag κ} {log log' : List (Event κ)}

/-- The flags that the main loop tests before it can sleep. -/
def Pc.ahead (tests : List κ) : Pc κ → List (Flag κ)
  | .start => pass tests
  | .test rest => rest
  | .clear f rest => f :: rest
  | .body rest => rest
  | .wake _ rest => rest
  | _ => []

/-- Whether a wake of `f` is still to be followed by a run, after the event. -/
def after (f : Flag κ) (unserved : Bool) : Event κ → Bool
  | .wake g => if g = f then true else unserved
  | .run g => if g = f then false else unserved
  | .sleep => unserved

def unserved (f : Flag κ) (log : List (Event κ)) : Bool := log.foldl (after f) false

structure Inv (tests : List κ) (s : State κ) : Prop where
  flag : ∀ f ∈ pass tests, s.wake f = true → s.status = .requested ∨ f ∈ s.pc.ahead tests
  waking : ∀ f rest, s.pc = .wake f rest → s.status = .requested
  asleep : s.pc = .sleep → s.status ≠ .requested
  pending : ∀ f ∈ pass tests, unserved f s.log = true →
    s.wake f = true ∨ ∃ rest, s.pc = .clear f rest
  rested : ∀ pre post, s.log = pre ++ .sleep :: post → ∀ f ∈ pass tests, unserved f pre = false

lemma unserved_snoc (f : Flag κ) (log : List (Event κ)) (e : Event κ) :
    unserved f (log ++ [e]) = after f (unserved f log) e := by
  rw [unserved, List.foldl_append]
  rfl

lemma run_mem_of_served (h : (log.foldl (after f) true) = false) : .run f ∈ log := by
  induction log with
  | nil => cases h
  | cons e log ih =>
    by_cases he : e = .run f
    · rw [he]
      exact List.mem_cons_self
    · apply List.mem_cons_of_mem
      apply ih
      have hkeep : after f true e = true := by
        cases e with
        | wake g => exact ite_self _
        | run g => exact if_neg fun hg : g = f => he (congrArg Event.run hg)
        | sleep => rfl
      rwa [List.foldl_cons, hkeep] at h

lemma rested_snoc {e : Event κ} (he : e ≠ .sleep)
    (h : ∀ pre post, log = pre ++ .sleep :: post → ∀ f ∈ pass tests, unserved f pre = false) :
    ∀ pre post, log ++ [e] = pre ++ .sleep :: post → ∀ f ∈ pass tests, unserved f pre = false := by
  intro pre post heq
  rcases List.eq_nil_or_concat post with rfl | ⟨post', e', rfl⟩
  · exact absurd (List.append_inj_right' heq rfl) (by simpa using he)
  · rw [List.concat_eq_append, ← List.cons_append, ← List.append_assoc] at heq
    exact h pre post' (List.append_inj_left' heq rfl)

lemma rested_sleep (h : ∀ pre post, log = pre ++ .sleep :: post → ∀ f ∈ pass tests,
    unserved f pre = false) (hnow : ∀ f ∈ pass tests, unserved f log = false) :
    ∀ pre post, log ++ [.sleep] = pre ++ .sleep :: post → ∀ f ∈ pass tests,
      unserved f pre = false := by
  intro pre post heq
  rcases List.eq_nil_or_concat post with rfl | ⟨post', e', rfl⟩
  · rw [← List.append_inj_left' heq rfl]
    exact hnow
  · rw [List.concat_eq_append, ← List.cons_append, ← List.append_assoc] at heq
    exact h pre post' (List.append_inj_left' heq rfl)

lemma Inv.move (h : Inv tests s) (status : TasksStatus) (pc : Pc κ)
    (hclear : ∀ f rest, s.pc = .clear f rest → pc = s.pc)
    (hflag : ∀ f ∈ pass tests, s.wake f = true → s.status = .requested ∨ f ∈ s.pc.ahead tests →
      status = .requested ∨ f ∈ pc.ahead tests)
    (hwaking : ∀ f rest, pc = .wake f rest → status = .requested)
    (hasleep : pc = .sleep → status ≠ .requested) :
    Inv tests { s with status := status, pc := pc } where
  flag f hf hw := hflag f hf hw (h.flag f hf hw)
  waking := hwaking
  asleep := hasleep
  pending f hf hu := by
    rcases h.pending f hf hu with hw | ⟨rest, hpc⟩
    · exact Or.inl hw
    · exact Or.inr ⟨rest, (hclear f rest hpc).trans hpc⟩
  rested := h.rested

lemma Inv.goto (h : Inv tests s) {pc pc' : Pc κ} (hpc : s.pc = pc)
    (hclear : ∀ f rest, pc ≠ .clear f rest) (hwake : ∀ f rest, pc' ≠ .wake f rest)
    (hsleep : pc' ≠ .sleep)
    (hahead : ∀ f ∈ pc.ahead tests, s.wake f = true → f ∈ pc'.ahead tests) :
    Inv tests { s with pc := pc' } := by
  apply h.move
  · exact fun f rest hc => absurd (hpc.symm.trans hc) (hclear f rest)
  · exact fun f _ hw hflag => hflag.imp_right fun hmem => hahead f (hpc ▸ hmem) hw
  · exact fun f rest hw => absurd hw (hwake f rest)
  · exact fun hs => absurd hs hsleep

lemma Inv.request (h : Inv tests s) {pc : Pc κ} (hclear : ∀ f rest, s.pc = .clear f rest → pc = s.pc)
    (hsleep : pc ≠ .sleep) : Inv tests { s with status := .requested, pc := pc } := by
  apply h.move
  · exact hclear
  · exact fun _ _ _ _ => Or.inl rfl
  · exact fun _ _ _ => rfl
  · exact fun hs => absurd hs hsleep

lemma Inv.sleepOrStart (h : Inv tests s) {pc : Pc κ} (hpc : s.pc = pc) (hahead : pc.ahead tests = [])
    (hclear : ∀ f rest, pc ≠ .clear f rest) {status : TasksStatus}
    (hstatus : s.status ≠ .requested → status ≠ .requested) :
    Inv tests (s.sleepOrStart status) := by
  subst hpc
  unfold State.sleepOrStart
  split
  · rename_i hs
    have hoff : ∀ f ∈ pass tests, s.wake f = false := by
      intro f hf
      apply eq_false_of_ne_true
      intro hw
      rcases h.flag f hf hw with hreq | hmem
      · exact hs hreq
      · rw [hahead] at hmem
        cases hmem
    have hserved : ∀ f ∈ pass tests, unserved f s.log = false := by
      intro f hf
      apply eq_false_of_ne_true
      intro hu
      rcases h.pending f hf hu with hw | ⟨rest, hpc⟩
      · rw [hoff f hf] at hw
        cases hw
      · exact hclear f rest hpc
    constructor
    · intro f hf hw
      rw [hoff f hf] at hw
      cases hw
    · exact fun _ _ hpc => by cases hpc
    · exact fun _ => hstatus hs
    · intro f hf hu
      rw [unserved_snoc] at hu
      exact absurd ((hserved f hf).symm.trans hu) Bool.false_ne_true
    · exact rested_sleep h.rested hserved
  · exact h.goto rfl hclear nofun nofun fun f hf => by rw [hahead] at hf; cases hf

lemma Inv.setFlag (h : Inv tests s) (f : Flag κ) {pc : Pc κ}
    (hclear : ∀ g rest, s.pc = .clear g rest → pc = s.pc) (hsleep : pc ≠ .sleep) :
    Inv tests { s with
      status := .requested
      wake := Function.update s.wake f true
      pc := pc
      log := s.log ++ [.wake f] } where
  flag _ _ _ := Or.inl rfl
  waking _ _ _ := rfl
  asleep hpc := absurd hpc hsleep
  pending g hg hu := by
    by_cases hgf : g = f
    · left
      rw [hgf]
      exact Function.update_self f true s.wake
    · rw [unserved_snoc] at hu
      have hkeep : after g (unserved g s.log) (.wake f) = unserved g s.log :=
        if_neg fun hfg => hgf hfg.symm
      rw [hkeep] at hu
      rcases h.pending g hg hu with hw | ⟨rest, hpc⟩
      · left
        exact (Function.update_of_ne hgf true s.wake).trans hw
      · exact Or.inr ⟨rest, (hclear g rest hpc).trans hpc⟩
  rested := rested_snoc nofun h.rested

lemma Inv.clear (h : Inv tests s) {rest : List (Flag κ)} (hpc : s.pc = .clear f rest) :
    Inv tests { s with
      wake := Function.update s.wake f false
      pc := .body rest
      log := s.log ++ [.run f] } := by
  constructor
  · intro g hg hw
    by_cases hgf : g = f
    · rw [hgf] at hw
      exact absurd ((Function.update_self f false s.wake).symm.trans hw) Bool.false_ne_true
    · have hold : s.wake g = true := (Function.update_of_ne hgf false s.wake).symm.trans hw
      have hflag := h.flag g hg hold
      rw [hpc] at hflag
      apply hflag.imp_right
      intro hmem
      exact (List.mem_cons.mp hmem).resolve_left hgf
  · exact fun _ _ hw => by cases hw
  · exact fun hs => by cases hs
  · intro g hg hu
    rw [unserved_snoc] at hu
    by_cases hgf : g = f
    · have hrun : after g (unserved g s.log) (.run f) = false := if_pos hgf.symm
      rw [hrun] at hu
      cases hu
    · have hkeep : after g (unserved g s.log) (.run f) = unserved g s.log :=
        if_neg fun hfg => hgf hfg.symm
      rw [hkeep] at hu
      rcases h.pending g hg hu with hw | ⟨rest', hpc'⟩
      · left
        exact (Function.update_of_ne hgf false s.wake).trans hw
      · rw [hpc] at hpc'
        cases hpc'
        exact absurd rfl hgf
  · exact rested_snoc nofun h.rested

lemma Inv.main (h : Inv tests s) (hs : s.main tests = some s') : Inv tests s' := by
  unfold State.main at hs
  split at hs
  case h_1 hpc =>
    cases hs
    split <;> exact h.goto hpc nofun nofun nofun nofun
  case h_2 hpc =>
    cases hs
    exact h.sleepOrStart hpc rfl nofun fun _ => nofun
  case h_3 hpc =>
    cases hs
    exact h.goto hpc nofun nofun nofun nofun
  case h_4 hpc =>
    cases hs
    exact h.sleepOrStart hpc rfl nofun id
  case h_5 hpc =>
    cases hs
    apply h.move
    · exact fun f rest hc => by cases hpc.symm.trans hc
    · exact fun f hf _ _ => Or.inr hf
    · exact fun _ _ hw => by cases hw
    · exact fun hsleep => by cases hsleep
  case h_6 hpc =>
    cases hs
    exact h.goto hpc nofun nofun nofun nofun
  case h_7 f rest hpc =>
    cases hs
    split
    · exact h.goto hpc nofun nofun nofun fun g hg _ => hg
    · rename_i hoff
      refine h.goto hpc nofun nofun nofun fun g hg hw => ?_
      rcases List.mem_cons.mp hg with rfl | hrest
      · exact absurd hw hoff
      · exact hrest
  case h_8 f rest hpc =>
    cases hs
    exact h.clear hpc
  case h_9 f rest hpc =>
    cases hs
    have hreq := h.waking f rest hpc
    have hset := @Inv.setFlag κ _ tests s h f (.body rest)
      (fun g rest' hc => by cases hpc.symm.trans hc) nofun
    rwa [← hreq] at hset
  case h_10 => cases hs

omit [DecidableEq κ] in
lemma ne_sleep_of_interruptible (h : s.pc.interruptible = true) : s.pc ≠ .sleep := by
  intro hpc
  rw [hpc] at h
  cases h

lemma Inv.step {a : Action κ} (h : Inv tests s) (hs : step tests s a = some s') : Inv tests s' := by
  cases a with
  | irqWakeTasks =>
    obtain ⟨hirq, hs⟩ := Option.ite_none_right_eq_some.mp hs
    cases hs
    exact h.request (fun _ _ _ => rfl) (ne_sleep_of_interruptible hirq)
  | irqWakeTask f =>
    obtain ⟨hirq, hs⟩ := Option.ite_none_right_eq_some.mp hs
    cases hs
    exact h.setFlag f (fun _ _ _ => rfl) (ne_sleep_of_interruptible hirq)
  | main => exact h.main hs
  | call =>
    rw [Tasks.step] at hs
    split at hs
    · rename_i rest hpc
      cases hs
      exact h.goto hpc nofun nofun nofun fun f hf _ => hf
    · cases hs
  | wakeTasks =>
    rw [Tasks.step] at hs
    split at hs
    · rename_i rest hpc
      cases hs
      exact h.request (fun _ _ _ => rfl) fun hsleep => by cases hpc.symm.trans hsleep
    · cases hs
  | wakeTask f =>
    rw [Tasks.step] at hs
    split at hs
    · rename_i rest hpc
      cases hs
      exact h.request (fun f rest hc => by cases hpc.symm.trans hc) nofun
    · cases hs
  | leave =>
    rw [Tasks.step] at hs
    split at hs
    · rename_i rest hpc
      cases hs
      exact h.goto hpc nofun nofun nofun fun f hf _ => hf
    · cases hs

lemma inv_boot (tests : List κ) (wake : Flag κ → Bool) : Inv tests (boot wake) where
  flag _ _ _ := Or.inl rfl
  waking _ _ _ := rfl
  asleep := nofun
  pending _ _ hu := by cases hu
  rested pre _ heq := absurd heq.symm (by simp [boot])

end Invariant

/-- When the processor goes to sleep no flag is set that a task function or `run_tasks` tests, and
every wake-up before it was followed by a run of the code that waits for the flag. -/
theorem no_lost_wake {tests : List κ} {wake : Flag κ → Bool} {actions : List (Action κ)}
    {s : State κ} (h : Run (step tests) Legal (boot wake) actions s) :
    (s.pc = .sleep → ∀ f ∈ pass tests, s.wake f = false) ∧
      ∀ pre mid post, ∀ f ∈ pass tests, s.log = pre ++ .wake f :: mid ++ .sleep :: post →
        .run f ∈ mid := by
  have hinv : Inv tests s :=
    h.invariant (inv_boot tests wake) fun _ _ _ hi _ hs => hi.step hs
  constructor
  · intro hpc f hf
    apply eq_false_of_ne_true
    intro hw
    rcases hinv.flag f hf hw with hreq | hmem
    · exact hinv.asleep hpc hreq
    · rw [hpc] at hmem
      cases hmem
  · intro pre mid post f hf hlog
    have hserved := hinv.rested _ _ hlog f hf
    rw [unserved, List.foldl_append, List.foldl_cons] at hserved
    have hwake : after f (pre.foldl (after f) false) (.wake f) = true := if_pos rfl
    rw [hwake] at hserved
    exact run_mem_of_served hserved

/-- An interrupt sets the flag of a task again while the task is about to clear it, and another one
sets `ff_eddy_wake` behind its test. -/
def wakeAgain : List (Action Unit) :=
  [.main, .main, .irqWakeTask (.task ()), .main, .irqWakeTask (.task ()), .main, .leave, .main,
    .irqWakeTask .ffEddy, .main, .main, .main, .main, .main, .main, .leave, .main, .main, .main]

theorem no_lost_wake_wakeAgain :
    ∃ s, Run (step [()]) Legal (boot fun _ => false) wakeAgain s ∧ s.pc = .sleep ∧
      s.wake (.task ()) = false ∧ s.wake .ffEddy = false ∧
      s.log = [.wake (.task ()), .wake (.task ()), .run (.task ()), .wake .ffEddy, .run .ffEddy,
        .sleep] := by
  obtain ⟨s, hs, hp⟩ : ∃ s, Run (step [()]) Legal (boot fun _ => false) wakeAgain s ∧
      decide (s.pc = .sleep ∧ s.log = [.wake (.task ()), .wake (.task ()), .run (.task ()),
        .wake .ffEddy, .run .ffEddy, .sleep]) = true :=
    Run.exists_of_exec wakeAgain _ (by decide +kernel)
  obtain ⟨hpc, hlog⟩ := of_decide_eq_true hp
  have hoff := (no_lost_wake hs).1 hpc
  exact ⟨s, hs, hpc, hoff _ (by decide), hoff _ (by decide), hlog⟩

end KlipperMcu.Tasks
