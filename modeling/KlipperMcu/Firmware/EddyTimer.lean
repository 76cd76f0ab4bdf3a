import KlipperMcu.Firmware.TimerRun

/-!
# The eddy sampling timer

`sched_main` adds `ff_eddy_timer` once, before `setjmp`. Nothing else adds or deletes it, so it
stays listed until the list is reset by a shutdown, and is then gone for good. No assumption is
made about waketimes here.
-/

namespace KlipperMcu.Sched

open Lib

/-- `ff_eddy_timer_init`. -/
def ffEddyTimerInit (s : State) : Option State :=
  let waketime := s.now + timerFromUs 500
  s.leave [.scheduled .ffEddy waketime] (schedAddTimer { s.mem with
    waketime := Function.update s.mem.waketime .ffEddy waketime
    next := Function.update s.mem.next .ffEddy none } s.now .ffEddy 98)

/-- Before `ff_eddy_timer_init` only interrupts run. -/
def InitLegal (s : State) : Action → Prop
  | .tick ticks => Legal s (.tick ticks)
  | .dispatch cb => Legal s (.dispatch cb)
  | _ => False

def TimerId.IsUser : TimerId → Prop
  | .user _ => True
  | _ => False

instance (t : TimerId) : Decidable t.IsUser :=
  t.casesOn (motive := fun t => Decidable t.IsUser) (.isFalse id) (.isFalse id) (.isFalse id)
    (.isFalse id) fun _ => .isTrue trivial

/-- What happens after `sched_main`'s initialisation: configured objects add and delete their own
timers, and `config_reset` resets the list of a firmware that is shut down. -/
def Uses (s : State) : Action → Prop
  | .addTimer t _ _ => t.IsUser ∧ t ∈ s.mem.timers ∧ t ∉ s.mem.listed
  | .delTimer t => t.IsUser
  | .dispatch cb => ∀ d ∈ callbackDels s.mem cb, d.IsUser ∧ d ≠ s.mem.timerList
  | .timerReset => s.mem.shutdownStatus ≠ 0
  | .shutdownDone => s.mem.shutdownStatus = 2
  | _ => True

instance (s : State) (a : Action) : Decidable (InitLegal s a) :=
  a.casesOn (motive := fun a => Decidable (InitLegal s a))
    (fun ticks => inferInstanceAs (Decidable (Legal s (.tick ticks)))) (fun _ _ _ => .isFalse id)
    (fun _ => .isFalse id) (fun cb => inferInstanceAs (Decidable (Legal s (.dispatch cb))))
    (.isFalse id) (fun _ => .isFalse id) (.isFalse id) (.isFalse id)

instance (s : State) (a : Action) : Decidable (Uses s a) :=
  a.casesOn (motive := fun a => Decidable (Uses s a))
    (fun _ => .isTrue trivial)
    (fun t _ _ => inferInstanceAs (Decidable (t.IsUser ∧ t ∈ s.mem.timers ∧ t ∉ s.mem.listed)))
    (fun t => inferInstanceAs (Decidable t.IsUser))
    (fun cb => inferInstanceAs
      (Decidable (∀ d ∈ callbackDels s.mem cb, d.IsUser ∧ d ≠ s.mem.timerList)))
    (inferInstanceAs (Decidable (s.mem.shutdownStatus ≠ 0)))
    (fun _ => .isTrue trivial)
    (inferInstanceAs (Decidable (s.mem.shutdownStatus = 2)))
    (.isTrue trivial)

lemma IsUser.isCaller {t : TimerId} (h : t.IsUser) : t.IsCaller := by
  cases t with
  | user n => trivial
  | _ => exact h.elim

lemma IsUser.ne_ffEddy {t : TimerId} (h : t.IsUser) : TimerId.ffEddy ≠ t := by
  rintro rfl
  exact h

/-- The eddy timer is listed as long as the list was not reset. -/
structure EddyInv (s : State) : Prop where
  shape : Shape s.mem s.mem.listed
  listed_iff : .ffEddy ∈ s.mem.listed ↔ .reset ∉ s.log
  status : s.mem.shutdownStatus ≠ 0 → .reset ∈ s.log

lemma EddyInv.of_shape {s : State} {m : Mem} {l : List TimerId} {events : List Event}
    (h : EddyInv s) (hs : Shape m l) (hl : .ffEddy ∈ l ↔ .ffEddy ∈ s.mem.listed)
    (hst : m.shutdownStatus = s.mem.shutdownStatus ∨ m.shutdownStatus = 0 ∨ .reset ∈ s.log)
    (hev : .reset ∉ events) : EddyInv { s with mem := m, log := s.log ++ events } := by
  refine ⟨?_, ?_, ?_⟩
  · dsimp only
    rwa [hs.listed_eq]
  · dsimp only
    rw [hs.listed_eq, hl, h.listed_iff, List.mem_append]
    simp [hev]
  · intro hne
    rcases hst with heq | hz | hr
    · exact List.mem_append_left _ (h.status (heq ▸ hne))
    · exact absurd hz hne
    · exact List.mem_append_left _ hr

lemma EddyInv.of_reset {m : Mem} {now : UInt32} {log : List Event}
    (hs : Shape m [.deleted, .periodic]) : EddyInv ⟨m, now, log ++ [.reset]⟩ := by
  refine ⟨?_, ?_, ?_⟩
  · dsimp only
    rwa [hs.listed_eq]
  · dsimp only
    rw [hs.listed_eq]
    simp
  · intro _
    simp

lemma EddyInv.leave_shutdown {s s' : State} {m : Mem} {l : List TimerId} {events : List Event}
    {reason : Reason} (hs : Shape m l)
    (he : s.leave events (.error (.shutdown m reason)) = some s') : EddyInv s' := by
  cases he
  exact EddyInv.of_reset (hs.of_runShutdown reason)

lemma timerFunc_shape {m : Mem} {l : List TimerId} {cb : Callback} (h : Shape m l)
    (hd : ∀ d ∈ callbackDels m cb, d.IsCaller ∧ d ≠ m.timerList) :
    (∃ m₁ res rest, timerFunc m m.timerList cb = .ok (m₁, res) ∧ Shape m₁ (m.timerList :: rest) ∧
      (m.timerList :: rest = l.filter (· ∉ callbackDels m cb)) ∧
      (res = .reschedule → m.timerList.IsCaller ∨ m.timerList = .periodic) ∧
      (res = .done → m.timerList ≠ .periodic ∧ m.timerList ≠ .ffEddy) ∧
      m₁.shutdownStatus = m.shutdownStatus) ∨
    ∃ m₁ l₁ id, timerFunc m m.timerList cb = .error (.shutdown m₁ (.callback id)) ∧ Shape m₁ l₁ := by
  obtain ⟨rest, hl⟩ := h.head
  have hnil : m.timerList :: rest = l.filter (· ∉ ([] : List TimerId)) := by simp [hl]
  have hs := h
  rw [hl] at hs
  unfold timerFunc
  unfold callbackDels at hd ⊢
  cases ht : m.timerList with
  | periodic =>
    rw [ht] at hs hnil
    refine Or.inl ⟨_, _, rest, rfl, ?_, hnil, fun _ => Or.inr rfl, ?_, rfl⟩
    · exact Shape.congr hs rfl rfl rfl rfl
    · intro he
      cases he
  | sentinel =>
    rw [ht] at hs
    exact absurd hs.sentinel_notMem (by simp)
  | deleted =>
    rw [ht] at hs hnil
    refine Or.inl ⟨_, _, rest, rfl, hs, hnil, ?_, by simp, rfl⟩
    intro he
    cases he
  | ffEddy =>
    rw [ht] at hs hnil
    refine Or.inl ⟨_, _, rest, rfl, ?_, hnil, fun _ => Or.inl trivial, ?_, rfl⟩
    · exact Shape.congr hs rfl rfl rfl rfl
    · intro he
      cases he
  | user n =>
    have hd' : ∀ d ∈ cb.dels, d.IsCaller ∧ d ≠ m.timerList := by
      rw [ht] at hd ⊢
      exact hd
    obtain ⟨next', last', hdels, hshape⟩ := delTimers_spec h hd'
    unfold userEvent
    rw [hdels]
    cases hsd : cb.shutdown with
    | some id => exact Or.inr ⟨_, _, id, rfl, hshape⟩
    | none =>
      obtain ⟨rest', hl'⟩ := hshape.head
      have hu : l.filter (· ∉ cb.dels) = .user n :: rest' := by
        rw [hl']
        exact congrArg (· :: rest') ht
      rw [hu] at hshape
      exact Or.inl ⟨_, cb.result, rest', rfl, Shape.congr hshape rfl rfl rfl rfl, hu.symm,
        fun _ => Or.inl trivial, by simp, rfl⟩

section Steps

variable {s s' : State}

lemma EddyInv.addTimer {t : TimerId} {w : UInt32} {tag : UInt8} (h : EddyInv s)
    (hl : Uses s (.addTimer t w tag)) (he : step s (.addTimer t w tag) = some s') :
    EddyInv s' := by
  obtain ⟨hu, ha, hn⟩ := hl
  rw [step] at he
  have hs : Shape { s.mem with waketime := Function.update s.mem.waketime t w } s.mem.listed :=
    h.shape.congr rfl rfl rfl rfl
  cases hr : schedAddTimer { s.mem with waketime := Function.update s.mem.waketime t w } s.now t
      tag with
  | error e =>
    rw [hr] at he
    cases e with
    | fault => cases he
    | shutdown m reason =>
      rw [schedAddTimer_shutdown hr] at he
      exact EddyInv.leave_shutdown (hs.of_noteLate _ _ _) he
  | ok m =>
    rw [hr] at he
    cases he
    rcases schedAddTimer_cases hs (IsUser.isCaller hu) ha hn hr with
      ⟨-, hm, hs'⟩ | ⟨-, a, b, next', hab, rfl, hs', -⟩
    · refine h.of_shape hs' ?_ (Or.inl ?_) (by simp)
      · rw [mem_linkAtHead (by simp)]
        simp [IsUser.ne_ffEddy hu]
      · rcases hm with rfl | rfl <;> rfl
    · refine h.of_shape hs' ?_ (Or.inl rfl) (by simp)
      rw [mem_insert_iff, ← hab]
      simp [IsUser.ne_ffEddy hu]

lemma EddyInv.delTimer {t : TimerId} (h : EddyInv s) (hu : t.IsUser)
    (he : step s (.delTimer t) = some s') : EddyInv s' := by
  rw [step] at he
  have hc := IsUser.isCaller hu
  by_cases ht : s.mem.timerList = t
  · obtain ⟨rest, hl⟩ := h.shape.head
    have hs := h.shape
    rw [hl, ht] at hs
    obtain ⟨next', last', hdel, hs'⟩ := schedDelTimer_head hs hc
    rw [hdel] at he
    cases he
    refine h.of_shape hs' ?_ (Or.inl rfl) (by simp)
    rw [hl, ht]
    simp [IsUser.ne_ffEddy hu]
  · obtain ⟨next', last', hdel, hs'⟩ := schedDelTimer_rest h.shape hc ht
    rw [hdel] at he
    cases he
    refine h.of_shape hs' ?_ (Or.inl rfl) (by simp)
    simp [IsUser.ne_ffEddy hu]

lemma reset_notMem_dispatchEvents (m : Mem) (cb : Callback) : .reset ∉ dispatchEvents m cb := by
  unfold dispatchEvents
  split
  · simp
  · intro hm
    rw [List.cons_append, List.mem_cons, List.mem_append] at hm
    rcases hm with hm | hm | hm
    · cases hm
    · simp at hm
    · split at hm <;> simp at hm

lemma EddyInv.dispatch {cb : Callback} (h : EddyInv s) (hl : Uses s (.dispatch cb))
    (he : step s (.dispatch cb) = some s') : EddyInv s' := by
  rw [step, schedTimerDispatch] at he
  have hd : ∀ d ∈ callbackDels s.mem cb, d.IsCaller ∧ d ≠ s.mem.timerList :=
    fun d hd => ⟨IsUser.isCaller (hl d hd).1, (hl d hd).2⟩
  rcases timerFunc_shape h.shape hd with
    ⟨m₁, res, rest, hf, hs, hmem, hagain, hdone, hst⟩ | ⟨m₁, l₁, id, hf, hs⟩
  · have heddy : .ffEddy ∈ s.mem.timerList :: rest ↔ .ffEddy ∈ s.mem.listed := by
      rw [hmem, List.mem_filter, decide_eq_true_eq]
      constructor
      · exact fun hm => hm.1
      · exact fun hm => ⟨hm, fun hdel => IsUser.ne_ffEddy (hl _ hdel).1 rfl⟩
    simp only [hf] at he
    cases res with
    | done =>
      obtain ⟨n, last', -, hok, hs'⟩ := updateTimerList_done hs (hdone rfl).1
      rw [hok] at he
      cases he
      refine h.of_shape hs' ?_ (Or.inl hst) (reset_notMem_dispatchEvents _ _)
      rw [← heddy, List.mem_cons]
      simp [(hdone rfl).2.symm]
    | reschedule =>
      cases hok : updateTimerList m₁ s.mem.timerList .reschedule with
      | error e =>
        rw [hok] at he
        rcases e with _ | ⟨m', reason⟩
        · cases he
        · exact absurd hok (updateTimerList_ne_shutdown _)
      | ok r =>
        obtain ⟨m', w⟩ := r
        rw [hok] at he
        cases he
        rcases updateTimerList_reschedule hs (hagain rfl) hok with
          ⟨rfl, -, -⟩ | ⟨a, b, n, next', rfl, -, -, rfl, hs', -⟩
        · exact h.of_shape hs heddy (Or.inl hst) (reset_notMem_dispatchEvents _ _)
        · refine h.of_shape hs' ?_ (Or.inl hst) (reset_notMem_dispatchEvents _ _)
          rw [← heddy, mem_insert_iff, List.mem_cons]
          exact or_comm
  · simp only [hf] at he
    exact EddyInv.leave_shutdown hs he

lemma EddyInv.step {a : Action} (h : EddyInv s) (hl : Uses s a)
    (he : Sched.step s a = some s') : EddyInv s' := by
  cases a with
  | tick ticks =>
    cases he
    exact ⟨h.shape, h.listed_iff, h.status⟩
  | addTimer t w tag => exact h.addTimer hl he
  | delTimer t => exact h.delTimer hl he
  | dispatch cb => exact h.dispatch hl he
  | timerReset =>
    cases he
    exact EddyInv.of_reset h.shape.of_schedTimerReset
  | shutdown id => exact EddyInv.leave_shutdown h.shape he
  | shutdownDone =>
    cases he
    have hs : Shape (shutdownDone s.mem) s.mem.listed := h.shape.congr rfl rfl rfl rfl
    have hst : s.mem.shutdownStatus ≠ 0 := by
      rw [hl]
      decide
    exact h.of_shape hs Iff.rfl (Or.inr (Or.inr (h.status hst))) (by simp)
  | clearShutdown =>
    rw [Sched.step, schedClearShutdown] at he
    split at he
    · exact EddyInv.leave_shutdown h.shape he
    · split at he
      · cases he
        exact h.of_shape h.shape Iff.rfl (Or.inl rfl) (by simp)
      · cases he
        have hs : Shape { s.mem with shutdownStatus := 0 } s.mem.listed :=
          h.shape.congr rfl rfl rfl rfl
        exact h.of_shape hs Iff.rfl (Or.inr (Or.inl rfl)) (by simp)

end Steps

/-- While the initialisation runs, the periodic timer is the only one. -/
structure InitInv (s : State) : Prop extends Inv s where
  listed : s.mem.listed = [.periodic]
  status : s.mem.shutdownStatus = 0
  log : .reset ∉ s.log

lemma initInv_of_run {users : Nat} {actions : List Action} {s : State}
    (h : Run step InitLegal (boot users) actions s) : InitInv s := by
  refine h.invariant ⟨inv_boot users, (bootMem_shape users).listed_eq, rfl, by simp [boot]⟩ ?_
  intro s a s' hi hl hs
  cases a with
  | tick ticks =>
    obtain ⟨t, ht, hinv⟩ := hi.toInv.tick hl
    rw [hs] at ht
    cases ht
    cases hs
    exact ⟨hinv, hi.listed, hi.status, hi.log⟩
  | dispatch cb =>
    obtain ⟨t, ht, hinv⟩ := hi.toInv.dispatch hl
    rw [hs] at ht
    cases ht
    have hp : s.mem.timerList = .periodic := by
      obtain ⟨rest, hr⟩ := hi.ordered.shape.head
      rw [hi.listed] at hr
      exact (List.cons.inj hr).1.symm
    rw [step, schedTimerDispatch] at hs
    rcases timerFunc_called hi.ordered hl with
      ⟨m₁, res, rest, hf, hc⟩ | ⟨m₁, l₁, id, hf, ho, -⟩
    · obtain ⟨m', w, l', hok, ho, hmem, hwake, -, -, -, hst⟩ := hc.updateTimerList
      simp only [hf, hok] at hs
      cases hs
      refine ⟨hinv, ?_, hst.trans hi.status, ?_⟩
      · have hsub : ∀ x ∈ l', x = .periodic := by
          intro x hx
          rcases (hmem x).mp hx with hr | ⟨he, -⟩
          · have hx' := ((hc.mem_rest x).mp hr).1
            rw [hi.listed] at hx'
            exact List.mem_singleton.mp hx'
          · exact he.trans hp
        dsimp only
        rw [ho.shape.listed_eq]
        have hrep := List.eq_replicate_of_mem hsub
        have hlen := List.nodup_replicate.mp (hrep ▸ ho.shape.nodup_list)
        have hne : l'.length ≠ 0 := by
          intro hz
          have := ho.shape.periodic
          rw [List.length_eq_zero_iff.mp hz] at this
          simp at this
        have h1 : l'.length = 1 := by omega
        rw [h1] at hrep
        exact hrep
      · intro hm
        rcases List.mem_append.mp hm with hm | hm
        · exact hi.log hm
        · exact reset_notMem_dispatchEvents _ _ hm
    · rw [hp] at hf
      cases hf
  | _ => exact hl.elim

lemma EddyInv.init {s s₀ : State} (h : InitInv s) (hinit : ffEddyTimerInit s = some s₀) :
    EddyInv s₀ := by
  have hseg : Seg (Function.update s.mem.next .ffEddy none) (some s.mem.timerList)
      ([TimerId.periodic] ++ [.sentinel]) none := by
    rw [seg_update_of_notMem (by simp), ← h.listed]
    exact h.ordered.shape.seg
  have hper : Function.update s.mem.waketime .ffEddy (s.now + timerFromUs 500) .periodic =
      s.mem.waketime .periodic := Function.update_of_ne (by simp) _ _
  have hsent : Function.update s.mem.waketime .ffEddy (s.now + timerFromUs 500) .sentinel =
      s.mem.waketime .sentinel := Function.update_of_ne (by simp) _ _
  have hshape := h.ordered.shape
  have hwithin := h.ordered.within
  rw [h.listed] at hshape hwithin
  have ho : Ordered { s.mem with
      waketime := Function.update s.mem.waketime .ffEddy (s.now + timerFromUs 500)
      next := Function.update s.mem.next .ffEddy none } s.now [.periodic] := by
    refine ⟨⟨hseg, hshape.allocated, by simp, by simp, hshape.lastInsert, hshape.lastInsert_ne⟩,
      by simp, ?_, ?_⟩
    · intro t ht
      rw [List.mem_singleton.mp ht]
      dsimp only
      rw [hper]
      exact hwithin _ (by simp)
    · dsimp only
      rw [hper, hsent]
      exact h.ordered.sentinel
  have hnow : Within s.now (s.now + timerFromUs 500) := by
    unfold Within
    rw [offset_add]
    decide
  have hc : TimerId.ffEddy.IsCaller := trivial
  simp only [ffEddyTimerInit] at hinit
  rcases schedAddTimer_ordered s.now 98 ho hc (by simp [Mem.timers]) (by simp)
    (by simpa using hnow) with ⟨m', l', hok, ho', hmem, -, -, -, hst⟩ | ⟨-, -, hlate⟩
  · rw [hok] at hinit
    cases hinit
    refine ⟨?_, ?_, ?_⟩
    · dsimp only
      rw [ho'.shape.listed_eq]
      exact ho'.shape
    · dsimp only
      rw [ho'.shape.listed_eq, hmem _ (by simp)]
      simp [h.log]
    · intro hne
      exact absurd (hst.trans h.status) hne
  · simp only [Function.update_self, timerIsBefore, wrapBefore_add] at hlate
    exact absurd hlate (by decide)

lemma eddyInv_of_run {users : Nat} {early actions : List Action} {s₁ s₀ s : State}
    (hearly : Run step InitLegal (boot users) early s₁) (hinit : ffEddyTimerInit s₁ = some s₀)
    (h : Run step Uses s₀ actions s) : EddyInv s := by
  apply h.invariant (EddyInv.init (initInv_of_run hearly) hinit)
  intro s a s' hi hl hs
  exact hi.step hl hs

/-- After `sched_main`'s initialisation the eddy timer is listed exactly as long as no shutdown
has reset the list. -/
theorem ffEddy_listed_iff {users : Nat} {early actions : List Action} {s₁ s₀ s : State}
    (hearly : Run step InitLegal (boot users) early s₁) (hinit : ffEddyTimerInit s₁ = some s₀)
    (h : Run step Uses s₀ actions s) : .ffEddy ∈ s.mem.listed ↔ .reset ∉ s.log :=
  (eddyInv_of_run hearly hinit h).listed_iff

lemma exists_run_of_exec (users : Nat) (early actions : List Action) (P : State → Bool)
    (h : (((exec step InitLegal (boot users) early).bind ffEddyTimerInit).bind
      fun s => exec step Uses s actions).any P = true) :
    ∃ s₁ s₀ s, Run step InitLegal (boot users) early s₁ ∧ ffEddyTimerInit s₁ = some s₀ ∧
      Run step Uses s₀ actions s ∧ P s = true := by
  obtain ⟨s, hs, hp⟩ := (Option.any_eq_true _ _).mp h
  obtain ⟨s₀, hs₀, hrun⟩ := Option.bind_eq_some_iff.mp hs
  obtain ⟨s₁, hs₁, hinit⟩ := Option.bind_eq_some_iff.mp hs₀
  exact ⟨s₁, s₀, s, by simpa using Run.nil.of_exec hs₁, hinit,
    by simpa using Run.nil.of_exec hrun, hp⟩

/-- The first periodic event comes before the eddy timer is added. -/
def earlyTicks : List Action := [.tick 1000, .dispatch ⟨[], none, 0, .done⟩]

theorem ffEddy_listed_iff_running :
    ∃ s₁ s₀ s, Run step InitLegal (boot 1) earlyTicks s₁ ∧
      ffEddyTimerInit s₁ = some s₀ ∧
      Run step Uses s₀ [.addTimer (.user 0) 70000 22, .dispatch ⟨[], none, 0, .done⟩] s ∧
      .ffEddy ∈ s.mem.listed := by
  obtain ⟨s₁, s₀, s, h₁, h₀, h, hp⟩ := exists_run_of_exec 1 earlyTicks
    [.addTimer (.user 0) 70000 22, .dispatch ⟨[], none, 0, .done⟩] (fun s => .reset ∉ s.log)
    (by decide +kernel)
  exact ⟨s₁, s₀, s, h₁, h₀, h, (ffEddy_listed_iff h₁ h₀ h).mpr (by simpa using hp)⟩

/-- An emergency stop followed by `clear_shutdown` leaves the firmware running without its eddy
timer. -/
theorem ffEddy_lost_after_shutdown :
    ∃ s₁ s₀ s, Run step InitLegal (boot 1) earlyTicks s₁ ∧
      ffEddyTimerInit s₁ = some s₀ ∧
      Run step Uses s₀ [.shutdown 1, .shutdownDone, .clearShutdown] s ∧
      s.mem.shutdownStatus = 0 ∧ .ffEddy ∉ s.mem.listed := by
  obtain ⟨s₁, s₀, s, h₁, h₀, h, hp⟩ :=
    exists_run_of_exec 1 earlyTicks [.shutdown 1, .shutdownDone, .clearShutdown]
      (fun s => s.mem.shutdownStatus = 0 ∧ .ffEddy ∉ s.mem.listed) (by decide +kernel)
  exact ⟨s₁, s₀, s, h₁, h₀, h, by simpa using hp⟩

end KlipperMcu.Sched
