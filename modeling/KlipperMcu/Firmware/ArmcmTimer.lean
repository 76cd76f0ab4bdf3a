import KlipperMcu.Firmware.TimerRun

/-!
# The SysTick handler

armcm_timer.c drives the timer list from the one-shot SysTick counter. The handler is cut at the
points where it reads the cycle counter. Time is counted without wrapping, and the cycle counter
is its value modulo `2 ^ 32`.
-/

namespace KlipperMcu.ArmcmTimer

open Lib Sched

/-- The position of the processor in `SysTick_Handler`. -/
inductive Pc where
  | idle
  | dispatch (tru : UInt32)
  | check (tru next : UInt32)
  | wait (tru next : UInt32) (diff : Int32)
  | setDiff (diff : UInt32)
deriving DecidableEq, Repr

def Pc.isDispatch : Pc → Bool
  | .dispatch _ => true
  | _ => false

/-- `armed` is the earliest time at which the SysTick counter can expire. -/
structure State where
  mem : Mem
  now : Nat
  armed : Option Nat
  repeatUntil : UInt32
  pc : Pc

/-- `timer_read_time`. -/
def State.clock (s : State) : UInt32 := UInt32.ofNat s.now

/-- The return of a call, or the jump to `run_shutdown`, which leaves the handler. -/
def State.leave (s : State) : Except Exit Mem → Option State
  | .ok m => some { s with mem := m }
  | .error .fault => none
  | .error (.shutdown m reason) => some { s with mem := runShutdown m reason, pc := .idle }

/-- `timer_dispatch_many` from the return of `sched_timer_dispatch` to the wait loop. -/
def checkTime (s : State) (tru next : UInt32) : State :=
  let now := s.clock
  let diff := (next - now).toInt32
  if (timerFromUs 2).toInt32 < diff then { s with pc := .setDiff (next - now) }
  else if timerIsBefore tru now then
    if diff < (-timerFromUs 1000).toInt32 ∧ s.mem.shutdownStatus = 0 then
      { s with mem := runShutdown s.mem .rescheduledTimerInThePast, pc := .idle }
    else if s.mem.tasksStatus ≠ .idle then
      { s with repeatUntil := now + timerFromUs 100, pc := .setDiff (timerFromUs 5) }
    else
      { s with
        repeatUntil := now + timerFromUs 500
        pc := .wait (now + timerFromUs 500) next diff }
  else { s with pc := .wait tru next diff }

/-- One step of the handler. The callback is that of the timer at the head of the list. -/
def handlerStep (s : State) (cb : Callback) : Option State :=
  match s.pc with
  | .idle => none
  | .dispatch tru =>
    match schedTimerDispatch s.mem cb with
    | .ok (m, next) => some { s with mem := m, pc := .check tru next }
    | .error e => s.leave (.error e)
  | .check tru next => some (checkTime s tru next)
  | .wait tru next diff =>
    if 0 < diff then some { s with pc := .wait tru next (next - s.clock).toInt32 }
    else some { s with pc := .dispatch tru }
  | .setDiff diff => some { s with armed := some (s.now + diff.toNat), pc := .idle }

/-- `timer_task`. -/
def timerTask (s : State) : State :=
  if timerIsBefore s.repeatUntil s.clock then { s with repeatUntil := s.clock } else s

inductive Action where
  | tick
  | sysTick
  | handler (cb : Callback)
  | addTimer (t : TimerId) (waketime : UInt32) (tag : UInt8)
  | delTimer (t : TimerId)
  | timerReset
  | shutdown (id : UInt8)
  | shutdownDone
  | clearShutdown
  | timerTask
  | tasks (status : TasksStatus)

def step (s : State) : Action → Option State
  | .tick => some { s with now := s.now + 1 }
  | .sysTick => some { s with mem := { s.mem with kicked := false }, pc := .dispatch s.repeatUntil }
  | .handler cb => handlerStep s cb
  | .addTimer t waketime tag =>
    s.leave (schedAddTimer { s.mem with waketime := Function.update s.mem.waketime t waketime }
      s.clock t tag)
  | .delTimer t => s.leave (schedDelTimer s.mem t)
  | .timerReset => s.leave (.ok (schedTimerReset s.mem))
  | .shutdown id => s.leave (.error (.shutdown s.mem (.callback id)))
  | .shutdownDone => s.leave (.ok (shutdownDone s.mem))
  | .clearShutdown => s.leave (schedClearShutdown s.mem)
  | .timerTask => some (ArmcmTimer.timerTask s)
  | .tasks status => s.leave (.ok { s.mem with tasksStatus := status })

/-- The handler is entered for a pending kick or when the counter has expired. Tasks run outside
the handler, and waketimes stay within `2 ^ 30` ticks of the current time. -/
def Legal (s : State) : Action → Prop
  | .tick => ∀ t ∈ s.mem.listed, Within (UInt32.ofNat (s.now + 1)) (s.mem.waketime t)
  | .sysTick => s.pc = .idle ∧ (s.mem.kicked = true ∨ s.armed.any (· ≤ s.now) = true)
  | .handler cb => s.pc ≠ .idle ∧ (s.pc.isDispatch = true → CallbackOk s.mem s.clock cb)
  | .addTimer t waketime _ =>
    s.pc = .idle ∧ t.IsCaller ∧ t ∈ s.mem.timers ∧ t ∉ s.mem.listed ∧ Within s.clock waketime
  | .delTimer t => s.pc = .idle ∧ t.IsCaller
  | _ => s.pc = .idle

instance (s : State) (a : Action) : Decidable (Legal s a) := by
  cases a <;> unfold Legal <;> infer_instance

/-- The state after `timer_init`: the counter at zero and a kick pending. -/
def boot (users : Nat) : State where
  mem := timerKick (bootMem users)
  now := 0
  armed := none
  repeatUntil := 0
  pc := .idle

/-- The head of the list is `deleted_timer` or is due at time `d`. -/
def HeadBy (s : State) (d : Int) : Prop :=
  s.mem.timerList = .deleted ∨ (s.now : Int) + lead s.clock (s.mem.waketime s.mem.timerList) ≤ d

def PcInv (s : State) : Prop :=
  match s.pc with
  | .idle => True
  | .dispatch _ => HeadBy s s.now
  | .check _ next => next = s.mem.waketime s.mem.timerList
  | .wait _ next diff => next = s.mem.waketime s.mem.timerList ∧ lead s.clock next ≤ diff.toInt
  | .setDiff d => (1 ≤ d ∧ d ≤ 0xffffff) ∧ HeadBy s (s.now + d.toNat)

/-- The head of the list is never due later than the handler is entered. -/
structure Inv (s : State) : Prop where
  ordered : Ordered s.mem s.clock s.mem.listed
  period : lead s.clock (s.mem.waketime .periodic) ≤ 12800000
  kicked : s.mem.kicked = true → s.pc = .idle ∧ HeadBy s s.now
  armed : s.pc = .idle → ∀ d : Nat, s.armed = some d → HeadBy s d
  pc : PcInv s

section Steps

variable {s : State}

lemma Inv.head_mem (h : Inv s) : s.mem.timerList ∈ s.mem.listed := by
  obtain ⟨rest, hl⟩ := h.ordered.shape.head
  rw [hl]
  simp

lemma Inv.head_within (h : Inv s) : Within s.clock (s.mem.waketime s.mem.timerList) :=
  h.ordered.within _ h.head_mem

lemma Inv.head_le (h : Inv s) :
    lead s.clock (s.mem.waketime s.mem.timerList) ≤ 12800000 := by
  have hp := h.ordered.shape.periodic
  have hle := (not_wrapBefore_iff_lead (h.ordered.within _ hp) h.head_within).mp
    (h.ordered.head_earliest _ hp)
  have := h.period
  omega

lemma HeadBy.mono {d d' : Int} (h : HeadBy s d) (hd : d ≤ d') : HeadBy s d' :=
  h.imp id fun hl => Int.le_trans hl hd

lemma Inv.call {m : Mem} {l : List TimerId} (h : Inv s) (hpc : s.pc = .idle)
    (ho : Ordered m s.clock l) (hp : m.waketime .periodic = s.mem.waketime .periodic)
    (hhead : m.timerList = .deleted ∨ m.timerList = s.mem.timerList ∧
      m.waketime m.timerList = s.mem.waketime s.mem.timerList ∧ m.kicked = s.mem.kicked) :
    Inv { s with mem := m } := by
  have hby : ∀ d, HeadBy s d → HeadBy { s with mem := m } d := by
    intro d hd
    rcases hhead with hdel | ⟨htl, hw, -⟩
    · exact Or.inl hdel
    · refine hd.imp (fun he => htl.trans he) ?_
      intro hl
      change (s.now : Int) + lead s.clock (m.waketime m.timerList) ≤ d
      rwa [hw]
  refine ⟨?_, ?_, ?_, ?_, ?_⟩
  · dsimp only
    rw [ho.shape.listed_eq]
    exact ho
  · change lead s.clock (m.waketime .periodic) ≤ _
    rw [hp]
    exact h.period
  · intro hk
    refine ⟨hpc, ?_⟩
    rcases hhead with hdel | ⟨htl, hw, hke⟩
    · exact Or.inl hdel
    · exact hby _ (h.kicked (hke ▸ hk)).2
  · exact fun hi d hd => hby _ (h.armed hi d hd)
  · unfold PcInv
    dsimp only
    rw [hpc]
    trivial

lemma Inv.of_runShutdown {m : Mem} {l : List TimerId} (ho : Ordered m s.clock l)
    (hp : lead s.clock (m.waketime .periodic) ≤ 12800000) (reason : Reason) :
    Inv { s with mem := runShutdown m reason, pc := .idle } := by
  have hs := runShutdown_ordered ho reason
  have hdel : ∀ d, HeadBy { s with mem := runShutdown m reason, pc := .idle } d :=
    fun d => Or.inl rfl
  refine ⟨?_, ?_, fun _ => ⟨rfl, hdel _⟩, fun _ d _ => hdel _, trivial⟩
  · dsimp only
    rw [hs.shape.listed_eq]
    exact hs
  · have hw : (runShutdown m reason).waketime .periodic = m.waketime .periodic := by
      simp [runShutdown, schedTimerReset, timerKick]
    change lead s.clock ((runShutdown m reason).waketime .periodic) ≤ _
    rw [hw]
    exact hp

lemma clock_tick (s : State) : UInt32.ofNat (s.now + 1) = s.clock + 1 := by
  rw [State.clock, UInt32.ofNat_add]
  rfl

lemma Inv.tick (h : Inv s) (hl : Legal s .tick) : Inv { s with now := s.now + 1 } := by
  have hclock := clock_tick s
  have hwithin : ∀ t ∈ s.mem.listed, Within (s.clock + 1) (s.mem.waketime t) := by
    intro t ht
    rw [← hclock]
    exact hl t ht
  have hlead : ∀ t ∈ s.mem.listed,
      lead (s.clock + 1) (s.mem.waketime t) = lead s.clock (s.mem.waketime t) - 1 :=
    fun t ht => lead_tick (h.ordered.within t ht) (hwithin t ht)
  have hby : ∀ d, HeadBy s d → HeadBy { s with now := s.now + 1 } d := by
    intro d hd
    refine hd.imp id ?_
    intro hle
    change ((s.now + 1 : Nat) : Int) +
      lead (UInt32.ofNat (s.now + 1)) (s.mem.waketime s.mem.timerList) ≤ d
    rw [hclock, hlead _ h.head_mem]
    omega
  refine ⟨⟨h.ordered.shape, h.ordered.sorted, hl, h.ordered.sentinel⟩, ?_, ?_, ?_, ?_⟩
  · change lead (UInt32.ofNat (s.now + 1)) (s.mem.waketime .periodic) ≤ _
    rw [hclock, hlead _ h.ordered.shape.periodic]
    have := h.period
    omega
  · intro hk
    obtain ⟨hpc, hd⟩ := h.kicked hk
    exact ⟨hpc, (hby _ hd).mono (by push_cast; omega)⟩
  · exact fun hi d hd => hby _ (h.armed hi d hd)
  · have hpc := h.pc
    unfold PcInv at hpc ⊢
    dsimp only
    cases hs : s.pc with
    | idle => trivial
    | dispatch tru =>
      rw [hs] at hpc
      exact (hby _ hpc).mono (by push_cast; omega)
    | check tru next =>
      rw [hs] at hpc
      exact hpc
    | wait tru next diff =>
      rw [hs] at hpc
      refine ⟨hpc.1, ?_⟩
      change lead (UInt32.ofNat (s.now + 1)) next ≤ _
      have hle := hpc.2
      rw [hpc.1] at hle ⊢
      rw [hclock, hlead _ h.head_mem]
      omega
    | setDiff d =>
      rw [hs] at hpc
      exact ⟨hpc.1, (hby _ hpc.2).mono (by push_cast; omega)⟩

lemma Inv.sysTick (h : Inv s) (hl : Legal s .sysTick) :
    Inv { s with mem := { s.mem with kicked := false }, pc := .dispatch s.repeatUntil } := by
  obtain ⟨hpc, hent⟩ := hl
  have hby : HeadBy s s.now := by
    rcases hent with hk | ha
    · exact (h.kicked hk).2
    · obtain ⟨d, hd, hle⟩ := (Option.any_eq_true _ _).mp ha
      exact (h.armed hpc d hd).mono (by simpa using hle)
  have ho : Ordered { s.mem with kicked := false } s.clock s.mem.listed :=
    h.ordered.congr_waketime (h.ordered.shape.congr rfl rfl rfl rfl) (fun _ _ => rfl) rfl
  refine ⟨?_, h.period, ?_, ?_, hby⟩
  · dsimp only
    rw [ho.shape.listed_eq]
    exact ho
  · intro hk
    cases hk
  · intro hi
    cases hi

lemma Inv.not_kicked (h : Inv s) (hpc : s.pc ≠ .idle) : s.mem.kicked ≠ true :=
  fun hk => hpc (h.kicked hk).1

lemma Inv.dispatch {tru : UInt32} {cb : Callback} (h : Inv s) (hpc : s.pc = .dispatch tru)
    (hcb : CallbackOk s.mem s.clock cb) : ∃ s', handlerStep s cb = some s' ∧ Inv s' := by
  have hby : HeadBy s s.now := by
    have hp := h.pc
    unfold PcInv at hp
    rwa [hpc] at hp
  simp only [handlerStep, hpc]
  rw [schedTimerDispatch]
  rcases timerFunc_called h.ordered hcb with
    ⟨m₁, res, rest, hf, hc⟩ | ⟨m₁, l₁, id, hf, ho, hw⟩
  · obtain ⟨m', w, l', hok, ho, -, hwake, hw, -, hkick, -⟩ := hc.updateTimerList
    simp only [hf, hok]
    refine ⟨_, rfl, ?_, ?_, ?_, ?_, ?_⟩
    · dsimp only
      rw [ho.shape.listed_eq]
      exact ho
    · change lead s.clock (m'.waketime .periodic) ≤ _
      rw [hwake]
      by_cases hp : s.mem.timerList = .periodic
      · have hdue : lead s.clock (s.mem.waketime .periodic) ≤ 0 := by
          rcases hby with hd | hle
          · rw [hp] at hd
            cases hd
          · rw [hp] at hle
            omega
        unfold CallbackOk at hcb
        rw [hp] at hf hcb
        cases hf
        have hadd := lead_add (h.ordered.within _ h.ordered.shape.periodic) hcb (by decide)
        dsimp only
        rw [Function.update_of_ne (by simp), Function.update_self, hadd]
        have h100 : (timerFromUs 100000).toNat = 12800000 := by decide
        rw [h100]
        omega
      · rw [hc.waketime _ (Ne.symm hp) (by simp)]
        exact h.period
    · intro hk
      rw [hkick] at hk
      exact absurd hk (h.not_kicked (by rw [hpc]; simp))
    · intro hi
      cases hi
    · exact hw
  · simp only [hf]
    refine ⟨_, rfl, Inv.of_runShutdown ho ?_ _⟩
    rw [hw]
    exact h.period

lemma Inv.of_pc {pc : Pc} {r : UInt32} (h : Inv s) (hpc : s.pc ≠ .idle) (hne : pc ≠ .idle)
    (hp : PcInv { s with repeatUntil := r, pc := pc }) :
    Inv { s with repeatUntil := r, pc := pc } :=
  ⟨h.ordered, h.period, fun hk => absurd hk (h.not_kicked hpc), fun hi => absurd hi hne, hp⟩

lemma Inv.checkTime {tru next : UInt32} (h : Inv s) (hpc : s.pc = .check tru next) :
    Inv (checkTime s tru next) := by
  have hnext : next = s.mem.waketime s.mem.timerList := by
    have hp := h.pc
    unfold PcInv at hp
    rwa [hpc] at hp
  have hne : s.pc ≠ .idle := by
    rw [hpc]
    simp
  have hw : Within s.clock next := hnext ▸ h.head_within
  have hlead := toInt_sub_eq_lead hw
  have hle : lead s.clock next ≤ 12800000 := hnext ▸ h.head_le
  have hby : ∀ d : Int, s.now + lead s.clock next ≤ d → ∀ r pc,
      HeadBy { s with repeatUntil := r, pc := pc } d :=
    fun d hd r pc => Or.inr (hnext ▸ hd)
  have htwo : (timerFromUs 2).toInt32.toInt = 256 := by decide
  unfold ArmcmTimer.checkTime
  dsimp only
  by_cases hfar : (timerFromUs 2).toInt32 < (next - s.clock).toInt32
  · rw [if_pos hfar]
    rw [Int32.lt_iff_toInt_lt, htwo, hlead] at hfar
    have hnat := toNat_sub_eq_lead hw (by omega)
    refine h.of_pc hne (by simp) ⟨⟨?_, ?_⟩, hby _ ?_ _ _⟩
    · rw [UInt32.le_iff_toNat_le, UInt32.toNat_one]
      omega
    · rw [UInt32.le_iff_toNat_le]
      have hmax : (0xffffff : UInt32).toNat = 16777215 := rfl
      omega
    · change (s.now : Int) + lead s.clock next ≤ s.now + (next - s.clock).toNat
      omega
  · rw [if_neg hfar]
    rw [Int32.lt_iff_toInt_lt, htwo, hlead] at hfar
    have hwait : ∀ r t, Inv { s with
        repeatUntil := r
        pc := .wait t next (next - s.clock).toInt32 } := by
      intro r t
      refine h.of_pc hne (by simp) ⟨hnext, ?_⟩
      rw [hlead]
      exact Int.le_refl _
    split
    · split
      · exact Inv.of_runShutdown h.ordered h.period _
      · split
        · have hfive : (timerFromUs 5).toNat = 640 := by decide
          refine h.of_pc hne (by simp) ⟨by decide, hby _ ?_ _ _⟩
          change (s.now : Int) + lead s.clock next ≤ s.now + (timerFromUs 5).toNat
          rw [hfive]
          omega
        · exact hwait _ _
    · exact hwait _ _

lemma Inv.wait {tru next : UInt32} {diff : Int32} (h : Inv s) (hpc : s.pc = .wait tru next diff)
    (cb : Callback) : ∃ s', handlerStep s cb = some s' ∧ Inv s' := by
  have hp := h.pc
  unfold PcInv at hp
  rw [hpc] at hp
  obtain ⟨hnext, hdiff⟩ := hp
  have hne : s.pc ≠ .idle := by
    rw [hpc]
    simp
  simp only [handlerStep, hpc]
  split
  · refine ⟨_, rfl, h.of_pc hne (by simp) ⟨hnext, ?_⟩⟩
    rw [toInt_sub_eq_lead (hnext ▸ h.head_within)]
    exact Int.le_refl _
  · rename_i hle
    rw [Int32.lt_iff_toInt_lt, Int32.toInt_zero] at hle
    refine ⟨_, rfl, h.of_pc hne (by simp) (Or.inr ?_)⟩
    change (s.now : Int) + lead s.clock (s.mem.waketime s.mem.timerList) ≤ s.now
    rw [← hnext]
    omega

lemma Inv.setDiff {d : UInt32} (h : Inv s) (hpc : s.pc = .setDiff d) :
    Inv { s with armed := some (s.now + d.toNat), pc := .idle } := by
  have hp := h.pc
  unfold PcInv at hp
  rw [hpc] at hp
  refine ⟨h.ordered, h.period, fun hk => absurd hk (h.not_kicked (by rw [hpc]; simp)), ?_, trivial⟩
  intro _ e he
  cases he
  exact hp.2.mono (by push_cast; omega)

lemma Inv.handler {cb : Callback} (h : Inv s) (hl : Legal s (.handler cb)) :
    ∃ s', handlerStep s cb = some s' ∧ Inv s' := by
  obtain ⟨hne, hcb⟩ := hl
  cases hpc : s.pc with
  | idle => exact absurd hpc hne
  | dispatch tru => exact h.dispatch hpc (hcb (by rw [hpc]; rfl))
  | check tru next => exact ⟨_, by simp only [handlerStep, hpc], h.checkTime hpc⟩
  | wait tru next diff => exact h.wait hpc cb
  | setDiff d => exact ⟨_, by simp only [handlerStep, hpc], h.setDiff hpc⟩

lemma Inv.addTimer {t : TimerId} {w : UInt32} {tag : UInt8} (h : Inv s)
    (hl : Legal s (.addTimer t w tag)) : ∃ s', step s (.addTimer t w tag) = some s' ∧ Inv s' := by
  obtain ⟨hpc, hc, ha, hn, hw⟩ := hl
  have hwake : ∀ x, x ≠ t → Function.update s.mem.waketime t w x = s.mem.waketime x :=
    fun x hx => Function.update_of_ne hx _ _
  have hp := hwake _ (IsCaller.ne_periodic hc)
  have hhead := hwake s.mem.timerList (fun he => hn (he ▸ h.head_mem))
  have ho : Ordered { s.mem with waketime := Function.update s.mem.waketime t w } s.clock
      s.mem.listed :=
    h.ordered.congr_waketime (h.ordered.shape.congr rfl rfl rfl rfl)
      (fun x hx => hwake x (fun he => hn (he ▸ hx))) (hwake _ (IsCaller.ne_sentinel hc))
  rw [step]
  rcases schedAddTimer_ordered s.clock tag ho hc ha hn (by simpa using hw) with
    ⟨m', l', hok, ho', -, hwake', hkick, -⟩ | ⟨herr, -⟩
  · rw [hok]
    refine ⟨_, rfl, h.call hpc ho' ((hwake' _ (by simp)).trans hp) ?_⟩
    rcases hkick with ⟨hd, -⟩ | ⟨htl, hweq, hk⟩
    · exact Or.inl hd
    · exact Or.inr ⟨htl, by rw [htl, hweq]; exact hhead, hk⟩
  · rw [herr]
    refine ⟨_, rfl, Inv.of_runShutdown (ho.of_noteLate _ _ _) ?_ _⟩
    change lead s.clock (Function.update s.mem.waketime t w .periodic) ≤ _
    rw [hp]
    exact h.period

lemma Inv.call_same {m : Mem} (h : Inv s) (hpc : s.pc = .idle) (hw : m.waketime = s.mem.waketime)
    (hn : m.next = s.mem.next) (ht : m.timerList = s.mem.timerList)
    (hli : m.lastInsert = s.mem.lastInsert) (hu : m.users = s.mem.users)
    (hk : m.kicked = s.mem.kicked) : Inv { s with mem := m } :=
  h.call hpc (h.ordered.congr_waketime (h.ordered.shape.congr hn ht hli hu)
    (fun t _ => by rw [hw]) (by rw [hw])) (by rw [hw]) (Or.inr ⟨ht, by rw [ht, hw], hk⟩)

/-- Every legal step can be taken, and keeps the invariant. -/
theorem Inv.step {a : Action} (h : Inv s) (hl : Legal s a) :
    ∃ s', ArmcmTimer.step s a = some s' ∧ Inv s' := by
  cases a with
  | tick => exact ⟨_, rfl, h.tick hl⟩
  | sysTick => exact ⟨_, rfl, h.sysTick hl⟩
  | handler cb => exact h.handler hl
  | addTimer t w tag => exact h.addTimer hl
  | delTimer t =>
    obtain ⟨hpc, hc⟩ := hl
    obtain ⟨m', l', hok, ho, -, hwake, hhead, htl, -, hk, -⟩ := schedDelTimer_ordered h.ordered hc
    rw [ArmcmTimer.step, hok]
    refine ⟨_, rfl, h.call hpc ho (hwake _ (by simp)) ?_⟩
    rcases htl with ⟨he, -⟩ | hd
    · exact Or.inr ⟨he, hhead, hk⟩
    · exact Or.inl hd
  | timerReset =>
    refine ⟨_, rfl, h.call hl (schedTimerReset_ordered h.ordered) ?_ (Or.inl rfl)⟩
    simp [schedTimerReset, timerKick]
  | shutdown id => exact ⟨_, rfl, Inv.of_runShutdown h.ordered h.period _⟩
  | shutdownDone => exact ⟨_, rfl, h.call_same hl rfl rfl rfl rfl rfl rfl⟩
  | clearShutdown =>
    rw [ArmcmTimer.step, schedClearShutdown]
    split
    · exact ⟨_, rfl, Inv.of_runShutdown h.ordered h.period _⟩
    · split
      · exact ⟨_, rfl, h.call_same hl rfl rfl rfl rfl rfl rfl⟩
      · exact ⟨_, rfl, h.call_same hl rfl rfl rfl rfl rfl rfl⟩
  | timerTask =>
    refine ⟨_, rfl, ?_⟩
    unfold ArmcmTimer.timerTask
    split
    · exact ⟨h.ordered, h.period, h.kicked, h.armed, by unfold PcInv; rw [hl]; trivial⟩
    · exact h
  | tasks status => exact ⟨_, rfl, h.call_same hl rfl rfl rfl rfl rfl rfl⟩

end Steps

lemma inv_boot (users : Nat) : Inv (boot users) := by
  have hs : Shape (boot users).mem [.periodic] := (bootMem_shape users).congr rfl rfl rfl rfl
  have hw : (boot users).mem.waketime .periodic = 0 := by simp [boot, timerKick, bootMem]
  have hdue : HeadBy (boot users) (boot users).now := by
    right
    change (0 : Int) + lead 0 ((boot users).mem.waketime .periodic) ≤ 0
    rw [hw, lead_self]
    decide
  refine ⟨?_, ?_, fun _ => ⟨rfl, hdue⟩, ?_, trivial⟩
  · rw [hs.listed_eq]
    refine ⟨hs, by simp, ?_, by simp [boot, timerKick, bootMem]⟩
    intro t ht
    rw [List.mem_singleton.mp ht, hw]
    exact within_self 0
  · change lead 0 ((boot users).mem.waketime .periodic) ≤ 12800000
    rw [hw, lead_self]
    decide
  · intro _ d hd
    cases hd

/-- A timer is added in front of the list, and the handler waits for it. -/
def addedInFront : List Action :=
  [.tick, .sysTick, .handler ⟨[], none, 0, .done⟩, .handler ⟨[], none, 0, .done⟩,
    .handler ⟨[], none, 0, .done⟩, .tasks .idle, .addTimer (.user 0) 3 1, .sysTick,
    .handler ⟨[], none, 0, .done⟩, .handler ⟨[], none, 0, .done⟩, .tick, .tick,
    .handler ⟨[], none, 0, .done⟩, .handler ⟨[], none, 0, .done⟩]

end KlipperMcu.ArmcmTimer
