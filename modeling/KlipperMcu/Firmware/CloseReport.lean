import KlipperMcu.Firmware.AnalogIn
import KlipperMcu.Firmware.EddyTimer
import KlipperMcu.Firmware.Encode

/-!
# The report of a late timer

A request that comes too late shuts the firmware down, and `run_shutdown` sends the host its tag,
the clock and the requested waketime. The three variables are only written by `sched_add_timer`,
which `analog_in_shutdown` calls again while the machine is being shut down. The `timer_reset` of the
board returns at once at 128 MHz, and the other shutdown functions delete timers at most.
-/

namespace KlipperMcu.Sched

open Lib Analog Wire

/-- An analog input with the number of its timer, and the time at which `analog_in_shutdown` adds
the timer again. -/
structure AnalogTimer where
  timer : Nat
  a : AnalogIn
  cur : UInt32
deriving DecidableEq, Repr

/-- The loop of `analog_in_shutdown`. -/
def addAnalogTimers (m : Mem) : List AnalogTimer → Except Exit Mem
  | [] => .ok m
  | o :: objects =>
    if o.a.sampleCount = 0 then addAnalogTimers m objects
    else
      match schedAddTimer { m with
          waketime := Function.update m.waketime (.user o.timer) (analogInShutdown o.a).waketime }
        o.cur (.user o.timer) 0 with
      | .error e => .error e
      | .ok m => addAnalogTimers m objects

/-- `ctr_run_shutdownfuncs`, with the timers that are deleted by the functions that run before and
after `analog_in_shutdown`. -/
def ctrRunShutdownfuncs (m : Mem) (before : List TimerId) (objects : List AnalogTimer)
    (after : List TimerId) : Except Exit Mem :=
  match delTimers m before with
  | .error e => .error e
  | .ok m =>
    match addAnalogTimers m objects with
    | .error e => .error e
    | .ok m => delTimers m after

/-- `run_shutdown` up to its first message. -/
def runShutdownfuncs (m : Mem) (reason : Reason) (before : List TimerId)
    (objects : List AnalogTimer) (after : List TimerId) : Except Exit Mem :=
  (ctrRunShutdownfuncs (runShutdown m reason) before objects after).map shutdownDone

/-- Timer interrupts that return. They can come between `irq_enable` and the message. -/
inductive Interrupted (m : Mem) : Mem → Prop
  | none : Interrupted m m
  | dispatch {m₁ m₂ : Mem} {cb : Callback} {next : UInt32} :
      Interrupted m m₁ → schedTimerDispatch m₁ cb = .ok (m₂, next) → Interrupted m m₂

/-! ### Who writes the report -/

/-- The waketime of the sentinel, half a period behind that of the periodic timer. -/
def Anchored (m : Mem) : Prop := m.waketime .sentinel = m.waketime .periodic + 0x80000000

/-- The report is not touched, and the sentinel stays where it is. -/
structure Frame (m m' : Mem) : Prop where
  close : ffReportClose m' = ffReportClose m
  anchored : Anchored m → Anchored m'

variable {m m' m'' : Mem}

lemma Frame.refl (m : Mem) : Frame m m := ⟨rfl, id⟩

lemma Frame.trans (h : Frame m m') (h' : Frame m' m'') : Frame m m'' :=
  ⟨h'.close.trans h.close, h'.anchored ∘ h.anchored⟩

lemma Frame.of_waketime (hclose : ffReportClose m' = ffReportClose m)
    (hsentinel : m'.waketime .sentinel = m.waketime .sentinel)
    (hperiodic : m'.waketime .periodic = m.waketime .periodic) : Frame m m' := by
  refine ⟨hclose, fun h => ?_⟩
  unfold Anchored
  rw [hsentinel, hperiodic]
  exact h

lemma Frame.of_update {t : TimerId} (w : UInt32) (hsentinel : t ≠ .sentinel)
    (hperiodic : t ≠ .periodic) :
    Frame m { m with waketime := Function.update m.waketime t w } := by
  apply Frame.of_waketime
  · rfl
  · exact Function.update_of_ne hsentinel.symm _ _
  · exact Function.update_of_ne hperiodic.symm _ _

lemma frame_delSearch {del pos : TimerId} {fuel : Nat} (h : delSearch m del fuel pos = .ok m') :
    Frame m m' := by
  induction fuel generalizing pos with
  | zero => cases h
  | succ fuel ih =>
    rw [delSearch] at h
    split at h
    · obtain rfl := Except.ok.inj h
      exact Frame.refl _
    · split at h
      · obtain rfl := Except.ok.inj h
        exact ⟨rfl, id⟩
      · exact ih h

lemma frame_schedDelTimer {del : TimerId} (h : schedDelTimer m del = .ok m') : Frame m m' := by
  rw [schedDelTimer] at h
  split at h
  · cases h
  · rename_i m₁ hunlink
    obtain rfl := Except.ok.inj h
    have hframe : Frame m m₁ := by
      unfold unlinkTimer at hunlink
      split at hunlink
      · obtain rfl := Except.ok.inj hunlink
        have hupdate : Frame m { m with
            waketime := Function.update m.waketime .deleted (m.waketime del) } :=
          Frame.of_update _ TimerId.noConfusion TimerId.noConfusion
        exact ⟨rfl, hupdate.anchored⟩
      · exact frame_delSearch hunlink
    exact ⟨hframe.close, hframe.anchored⟩

lemma frame_delTimers {dels : List TimerId} (h : delTimers m dels = .ok m') : Frame m m' := by
  induction dels generalizing m with
  | nil =>
    obtain rfl := Except.ok.inj h
    exact Frame.refl _
  | cons del dels ih =>
    rw [delTimers] at h
    split at h
    · cases h
    · rename_i hdel
      exact (frame_schedDelTimer hdel).trans (ih h)

lemma delSearch_error {del pos : TimerId} {fuel : Nat} {e : Exit}
    (h : delSearch m del fuel pos = .error e) : e = .fault := by
  induction fuel generalizing pos with
  | zero => exact (Except.error.inj h).symm
  | succ fuel ih =>
    rw [delSearch] at h
    split at h
    · cases h
    · split at h
      · cases h
      · exact ih h

lemma schedDelTimer_error {del : TimerId} {e : Exit} (h : schedDelTimer m del = .error e) :
    e = .fault := by
  rw [schedDelTimer] at h
  split at h
  · rename_i hunlink
    obtain rfl := Except.error.inj h
    unfold unlinkTimer at hunlink
    split at hunlink
    · cases hunlink
    · exact delSearch_error hunlink
  · cases h

lemma delTimers_error {dels : List TimerId} {e : Exit} (h : delTimers m dels = .error e) :
    e = .fault := by
  induction dels generalizing m with
  | nil => cases h
  | cons del dels ih =>
    rw [delTimers] at h
    split at h
    · rename_i hdel
      obtain rfl := Except.error.inj h
      exact schedDelTimer_error hdel
    · exact ih h

lemma frame_periodicEvent (m : Mem) : Frame m (periodicEvent m).1 := by
  refine ⟨rfl, fun _ => ?_⟩
  unfold Anchored periodicEvent
  dsimp only
  rw [Function.update_self, Function.update_of_ne TimerId.noConfusion, Function.update_self]

lemma frame_timerFunc {t : TimerId} {cb : Callback} {res : SchedResult}
    (h : timerFunc m t cb = .ok (m', res)) : Frame m m' := by
  cases t with
  | periodic =>
    obtain rfl := congrArg Prod.fst (Except.ok.inj h)
    exact frame_periodicEvent m
  | sentinel => cases h
  | deleted =>
    obtain rfl := congrArg Prod.fst (Except.ok.inj h)
    exact Frame.refl m
  | ffEddy =>
    obtain rfl := congrArg Prod.fst (Except.ok.inj h)
    exact Frame.of_update _ TimerId.noConfusion TimerId.noConfusion
  | user n =>
    rw [timerFunc, userEvent] at h
    split at h
    · cases h
    · rename_i m₁ hdels
      split at h
      · cases h
      · obtain rfl := congrArg Prod.fst (Except.ok.inj h)
        exact (frame_delTimers hdels).trans
          (Frame.of_update _ TimerId.noConfusion TimerId.noConfusion)

lemma frame_timerFunc_shutdown {t : TimerId} {cb : Callback} {reason : Reason}
    (h : timerFunc m t cb = .error (.shutdown m' reason)) : Frame m m' := by
  cases t with
  | sentinel =>
    cases h
    exact Frame.refl m
  | user n =>
    rw [timerFunc, userEvent] at h
    split at h
    · rename_i hdels
      obtain rfl := Except.error.inj h
      exact Exit.noConfusion (delTimers_error hdels)
    · rename_i m₁ hdels
      split at h
      · cases h
        exact frame_delTimers hdels
      · cases h
  | _ => cases h

lemma frame_insertTimer {pos t : TimerId} {w : UInt32} (h : insertTimer m pos t w = .ok m') :
    Frame m m' := by
  unfold insertTimer at h
  split at h
  · cases h
  · obtain rfl := Except.ok.inj h
    exact ⟨rfl, id⟩

lemma frame_updateTimerList {t : TimerId} {res : SchedResult} {next : UInt32}
    (h : updateTimerList m t res = .ok (m', next)) : Frame m m' := by
  rw [updateTimerList] at h
  split at h
  · cases h
  · split at h
    · obtain rfl := congrArg Prod.fst (Except.ok.inj h)
      exact ⟨rfl, id⟩
    · split at h
      · obtain rfl := congrArg Prod.fst (Except.ok.inj h)
        exact Frame.refl _
      · dsimp only at h
        split at h
        · cases h
        · rename_i m₁ hinsert
          obtain rfl := congrArg Prod.fst (Except.ok.inj h)
          have hframe := frame_insertTimer hinsert
          exact ⟨hframe.close, hframe.anchored⟩

lemma frame_schedTimerDispatch {cb : Callback} {next : UInt32}
    (h : schedTimerDispatch m cb = .ok (m', next)) : Frame m m' := by
  rw [schedTimerDispatch] at h
  split at h
  · cases h
  · rename_i hfunc
    exact (frame_timerFunc hfunc).trans (frame_updateTimerList h)

lemma frame_schedTimerDispatch_shutdown {cb : Callback} {reason : Reason}
    (h : schedTimerDispatch m cb = .error (.shutdown m' reason)) : Frame m m' := by
  rw [schedTimerDispatch] at h
  split at h
  · rename_i hfunc
    obtain rfl := Except.error.inj h
    exact frame_timerFunc_shutdown hfunc
  · exact absurd h (updateTimerList_ne_shutdown _)

lemma Interrupted.frame (h : Interrupted m m') : Frame m m' := by
  induction h with
  | none => exact Frame.refl m
  | dispatch _ hdispatch ih => exact ih.trans (frame_schedTimerDispatch hdispatch)

lemma frame_linkAtHead (m : Mem) (add : TimerId) (w : UInt32) : Frame m (linkAtHead m add w) := by
  have hupdate : Frame m { m with waketime := Function.update m.waketime .deleted w } :=
    Frame.of_update _ TimerId.noConfusion TimerId.noConfusion
  exact ⟨rfl, hupdate.anchored⟩

lemma frame_runShutdown (m : Mem) (reason : Reason) : Frame m (runShutdown m reason) := by
  have hupdate : Frame m { m with
      waketime := Function.update m.waketime .deleted (m.waketime .periodic) } :=
    Frame.of_update _ TimerId.noConfusion TimerId.noConfusion
  exact ⟨rfl, hupdate.anchored⟩

/-- The arguments of the message. -/
def closeArgs (tag : UInt8) (cur w : UInt32) : List Arg :=
  [.int .uint16 tag.toUInt32, .int .uint16 cur, .int .uint16 w]

lemma closeArgs_inj {tag tag' : UInt8} {cur cur' w w' : UInt32} :
    closeArgs tag cur w = closeArgs tag' cur' w' ↔ tag = tag' ∧ cur = cur' ∧ w = w' := by
  have htag : tag.toUInt32 = tag'.toUInt32 ↔ tag = tag' := by
    constructor
    · intro h
      have hnat := congrArg UInt32.toNat h
      rw [UInt8.toNat_toUInt32, UInt8.toNat_toUInt32] at hnat
      exact UInt8.toNat_inj.mp hnat
    · exact congrArg UInt8.toUInt32
  simp [closeArgs, htag]

lemma waketime_linkAtHead (m : Mem) (add : TimerId) (w : UInt32) :
    (linkAtHead m add w).waketime .deleted = w := by
  change Function.update m.waketime TimerId.deleted w TimerId.deleted = w
  exact Function.update_self ..

lemma schedAddTimer_report {cur w head : UInt32} {add : TimerId} {tag : UInt8}
    (hlist : m.timerList = .deleted) (hw : m.waketime add = w) (hhead : m.waketime .deleted = head)
    (h : schedAddTimer m cur add tag = .ok m') :
    if timerIsBefore w head then
      m'.waketime .deleted = w ∧ ffReportClose m' =
        if timerIsBefore w cur then closeArgs tag cur w else ffReportClose m
    else m'.waketime .deleted = head ∧ ffReportClose m' = ffReportClose m := by
  rw [schedAddTimer, hlist, hw, hhead] at h
  split_ifs at h ⊢ with hbefore hlate hzero
  · obtain rfl := Except.ok.inj h
    exact ⟨waketime_linkAtHead _ _ _, rfl⟩
  · obtain rfl := Except.ok.inj h
    exact ⟨waketime_linkAtHead _ _ _, rfl⟩
  · refine ⟨?_, (frame_insertTimer h).close⟩
    unfold insertTimer at h
    split at h
    · cases h
    · obtain rfl := Except.ok.inj h
      exact hhead

lemma Anchored.schedAddTimer {cur : UInt32} {add : TimerId} {tag : UInt8} (h : Anchored m)
    (hok : schedAddTimer m cur add tag = .ok m') : Anchored m' := by
  rw [Sched.schedAddTimer] at hok
  split at hok
  · split at hok
    · split at hok
      · cases hok
      · obtain rfl := Except.ok.inj hok
        exact (frame_linkAtHead (noteLate m _ _ _) add _).anchored h
    · obtain rfl := Except.ok.inj hok
      exact (frame_linkAtHead m add _).anchored h
  · exact (frame_insertTimer hok).anchored h

/-! ### The sentinel over runs -/

lemma Anchored.leave {s s' : State} {events : List Event} {r : Except Exit Mem}
    (hok : ∀ m, r = .ok m → Anchored m)
    (hshutdown : ∀ m reason, r = .error (.shutdown m reason) → Anchored m)
    (hs : s.leave events r = some s') : Anchored s'.mem := by
  cases r with
  | ok m =>
    obtain rfl := Option.some.inj hs
    exact hok m rfl
  | error e =>
    cases e with
    | fault => cases hs
    | shutdown m reason =>
      obtain rfl := Option.some.inj hs
      exact (frame_runShutdown m reason).anchored (hshutdown m reason rfl)

lemma Anchored.addTimer {s s' : State} {events : List Event} {t : TimerId} {w cur : UInt32}
    {tag : UInt8} {next : TimerId → Option TimerId} (h : Anchored s.mem) (hsentinel : t ≠ .sentinel)
    (hperiodic : t ≠ .periodic)
    (hs : s.leave events (Sched.schedAddTimer
      { s.mem with waketime := Function.update s.mem.waketime t w, next := next } cur t tag) =
        some s') : Anchored s'.mem := by
  have hupdate : Anchored
      { s.mem with waketime := Function.update s.mem.waketime t w, next := next } :=
    (Frame.of_update w hsentinel hperiodic).anchored h
  apply Anchored.leave _ _ hs
  · intro m hok
    exact hupdate.schedAddTimer hok
  · intro m reason herror
    rw [schedAddTimer_shutdown herror]
    exact hupdate

lemma Anchored.dispatch {s s' : State} {cb : Callback} (h : Anchored s.mem)
    (hs : step s (.dispatch cb) = some s') : Anchored s'.mem := by
  apply Anchored.leave _ _ hs
  · intro m hok
    cases hdispatch : schedTimerDispatch s.mem cb with
    | error e =>
      rw [hdispatch] at hok
      cases hok
    | ok r =>
      rw [hdispatch] at hok
      obtain rfl := Except.ok.inj hok
      exact (frame_schedTimerDispatch hdispatch).anchored h
  · intro m reason herror
    cases hdispatch : schedTimerDispatch s.mem cb with
    | error e =>
      rw [hdispatch] at herror
      obtain rfl := Except.error.inj herror
      exact (frame_schedTimerDispatch_shutdown hdispatch).anchored h
    | ok r =>
      rw [hdispatch] at herror
      cases herror

lemma Anchored.step {s s' : State} {a : Action} (h : Anchored s.mem) (hl : Uses s a)
    (hs : step s a = some s') : Anchored s'.mem := by
  cases a with
  | tick ticks =>
    obtain rfl := Option.some.inj hs
    exact h
  | addTimer t w tag =>
    have hcaller := IsUser.isCaller hl.1
    exact h.addTimer (IsCaller.ne_sentinel hcaller).symm (IsCaller.ne_periodic hcaller).symm hs
  | delTimer t =>
    apply Anchored.leave _ _ hs
    · intro m hok
      exact (frame_schedDelTimer hok).anchored h
    · intro m reason herror
      exact Exit.noConfusion (schedDelTimer_error herror)
  | dispatch cb => exact h.dispatch hs
  | timerReset =>
    obtain rfl := Option.some.inj hs
    exact (frame_runShutdown s.mem .timerTooClose).anchored h
  | shutdown id =>
    obtain rfl := Option.some.inj hs
    exact (frame_runShutdown s.mem _).anchored h
  | shutdownDone =>
    obtain rfl := Option.some.inj hs
    exact h
  | clearShutdown =>
    apply Anchored.leave _ _ hs
    · intro m hok
      rw [schedClearShutdown] at hok
      split at hok
      · cases hok
      · split at hok <;> obtain rfl := Except.ok.inj hok <;> exact h
    · intro m reason herror
      rw [schedClearShutdown] at herror
      split at herror
      · cases herror
        exact h
      · split at herror <;> cases herror

lemma anchored_boot (users : Nat) : Anchored (boot users).mem := by
  change (0x80000000 : UInt32) = 0 + 0x80000000
  exact (UInt32.zero_add _).symm

lemma anchored_of_run {users : Nat} {early actions : List Action} {s₁ s₀ s : State}
    (hearly : Run step InitLegal (boot users) early s₁) (hinit : ffEddyTimerInit s₁ = some s₀)
    (h : Run step Uses s₀ actions s) : Anchored s.mem := by
  have hstart : Anchored s₁.mem := by
    clear hinit
    induction hearly with
    | nil => exact anchored_boot users
    | @snoc _ _ _ a _ hl hs ih =>
      cases a with
      | tick ticks =>
        obtain rfl := Option.some.inj hs
        exact ih
      | dispatch cb => exact ih.dispatch hs
      | _ => exact hl.elim
  have hinited : Anchored s₀.mem := by
    rw [ffEddyTimerInit] at hinit
    exact hstart.addTimer TimerId.noConfusion TimerId.noConfusion hinit
  induction h with
  | nil => exact hinited
  | snoc _ hl hs ih => exact ih.step hl hs

/-! ### The shutdown functions -/

/-- The memory between `sched_timer_reset` and the end of the shutdown functions. -/
structure Closing (m : Mem) (l : List TimerId) : Prop where
  shape : Shape m l
  anchored : Anchored m
  head : m.timerList = .deleted
  status : m.shutdownStatus = 2

variable {l : List TimerId}

lemma Closing.insertTimer_ok (h : Closing m l) (t : TimerId) (w : UInt32) :
    ∃ m', insertTimer m m.timerList t w = .ok m' := by
  obtain ⟨rest, hl⟩ := h.shape.head
  have hseg := h.shape.seg
  have hlen := h.shape.length_lt
  rw [hl] at hseg hlen
  have hperiodic : TimerId.periodic ∈ rest := by
    have hmem := h.shape.periodic
    rw [hl, h.head] at hmem
    exact (List.mem_cons.mp hmem).resolve_left TimerId.noConfusion
  apply insertTimer_total t hseg.2
  · exact Nat.lt_of_succ_lt hlen
  · by_cases hbefore : timerIsBefore w (m.waketime .periodic) = true
    · exact ⟨.periodic, List.mem_append_left _ hperiodic, hbefore⟩
    · refine ⟨.sentinel, List.mem_append_right _ (List.mem_singleton_self _), ?_⟩
      rw [h.anchored]
      exact wrapBefore_half_turn (Bool.eq_false_iff.mpr hbefore)

lemma Closing.schedAddTimer (h : Closing m l) {t : TimerId} (ht : t.IsUser) (hmem : t ∈ m.timers)
    (hn : t ∉ l) (cur : UInt32) (tag : UInt8) :
    ∃ m' l', schedAddTimer m cur t tag = .ok m' ∧ Closing m' l' ∧ m'.users = m.users ∧
      ∀ x ∈ l', x ∈ l ∨ x = t ∨ x = .deleted := by
  obtain ⟨m', hok⟩ : ∃ m', Sched.schedAddTimer m cur t tag = .ok m' := by
    rw [Sched.schedAddTimer]
    by_cases hbefore : timerIsBefore (m.waketime t) (m.waketime m.timerList) = true
    · rw [if_pos hbefore]
      by_cases hlate : timerIsBefore (m.waketime t) cur = true
      · rw [if_pos hlate, if_neg (by rw [h.status]; decide)]
        exact ⟨_, rfl⟩
      · rw [if_neg hlate]
        exact ⟨_, rfl⟩
    · rw [if_neg hbefore]
      exact h.insertTimer_ok t _
  have hanchored := h.anchored.schedAddTimer hok
  rcases schedAddTimer_cases h.shape (IsUser.isCaller ht) hmem hn hok with
    ⟨-, hm', hshape⟩ | ⟨-, a, b, next', hl, hm', hshape, -⟩
  · refine ⟨m', _, hok, ⟨hshape, hanchored, ?_, ?_⟩, ?_, ?_⟩
    · rcases hm' with rfl | rfl <;> rfl
    · rcases hm' with rfl | rfl <;> exact h.status
    · rcases hm' with rfl | rfl <;> rfl
    · intro x hx
      rcases List.mem_cons.mp hx with rfl | hx
      · exact Or.inr (Or.inr rfl)
      · rcases List.mem_cons.mp hx with rfl | hx
        · exact Or.inr (Or.inl rfl)
        · exact Or.inl (List.mem_filter.mp hx).1
  · subst hm'
    refine ⟨_, _, hok, ⟨hshape, hanchored, h.head, h.status⟩, rfl, fun x hx => ?_⟩
    rw [hl]
    rcases mem_insert_iff.mp hx with hx | rfl
    · exact Or.inl hx
    · exact Or.inr (Or.inl rfl)

/-- The timers that `analog_in_shutdown` adds too late, with the clock and the waketime of each. A
timer that does not come before `head`, the waketime in front of the list, is not compared with the
clock. -/
def lateAdds (head : UInt32) : List AnalogTimer → List (UInt32 × UInt32)
  | [] => []
  | o :: objects =>
    let w := o.a.nextBeginTime + o.a.restTime
    if o.a.sampleCount = 0 then lateAdds head objects
    else if timerIsBefore w head then
      if timerIsBefore w o.cur then (o.cur, w) :: lateAdds w objects else lateAdds w objects
    else lateAdds head objects

/-- The report of a request is not written over, or the last time with its own values. -/
def Intact (tag : UInt8) (cur w head : UInt32) (objects : List AnalogTimer) : Prop :=
  ∀ late ∈ (lateAdds head objects).getLast?, tag = 0 ∧ late = (cur, w)

def overwrite (report : List Arg) (lates : List (UInt32 × UInt32)) : List Arg :=
  lates.foldl (fun _ late => closeArgs 0 late.1 late.2) report

lemma overwrite_eq_iff {tag : UInt8} {cur w : UInt32} (lates : List (UInt32 × UInt32)) :
    overwrite (closeArgs tag cur w) lates = closeArgs tag cur w ↔
      ∀ late ∈ lates.getLast?, tag = 0 ∧ late = (cur, w) := by
  unfold overwrite
  rcases List.eq_nil_or_concat lates with rfl | ⟨lates, late, rfl⟩
  · simp
  · rw [List.concat_eq_append, List.foldl_append, List.getLast?_concat]
    simp [closeArgs_inj, Prod.ext_iff, eq_comm]

lemma waketime_analogInShutdown {a : AnalogIn} (h : a.sampleCount ≠ 0) :
    (analogInShutdown a).waketime = a.nextBeginTime + a.restTime := by
  unfold analogInShutdown
  rw [if_pos h]
  rfl

/-- `analog_in_shutdown` adds all timers, and those that come too late write over the report. -/
lemma Closing.addAnalogTimers (h : Closing m l) {objects : List AnalogTimer}
    (hnodup : (objects.map AnalogTimer.timer).Nodup)
    (hmem : ∀ o ∈ objects, .user o.timer ∈ m.timers) (hn : ∀ o ∈ objects, .user o.timer ∉ l) :
    ∃ m' l', addAnalogTimers m objects = .ok m' ∧ Closing m' l' ∧
      ffReportClose m' = overwrite (ffReportClose m) (lateAdds (m.waketime .deleted) objects) := by
  induction objects generalizing m l with
  | nil => exact ⟨m, l, rfl, h, rfl⟩
  | cons o objects ih =>
    have hnodup' := List.nodup_cons.mp hnodup
    rw [Sched.addAnalogTimers, lateAdds]
    by_cases hzero : o.a.sampleCount = 0
    · rw [if_pos hzero, if_pos hzero]
      exact ih h hnodup'.2 (fun x hx => hmem x (List.mem_cons_of_mem o hx))
        (fun x hx => hn x (List.mem_cons_of_mem o hx))
    rw [if_neg hzero, if_neg hzero, waketime_analogInShutdown hzero]
    generalize o.a.nextBeginTime + o.a.restTime = w
    have hupdate : Frame m { m with waketime := Function.update m.waketime (.user o.timer) w } :=
      Frame.of_update _ TimerId.noConfusion TimerId.noConfusion
    have hset : Closing { m with waketime := Function.update m.waketime (.user o.timer) w } l :=
      ⟨h.shape.congr rfl rfl rfl rfl, hupdate.anchored h.anchored, h.head, h.status⟩
    obtain ⟨m₁, l₁, hadd, hclosing₁, husers, hsub⟩ := hset.schedAddTimer (t := .user o.timer)
      trivial (hmem o List.mem_cons_self) (hn o List.mem_cons_self) o.cur 0
    obtain ⟨m', l', hok, hclosing, hclose⟩ := ih hclosing₁ hnodup'.2
      (by
        intro x hx
        unfold Mem.timers
        rw [husers]
        exact hmem x (List.mem_cons_of_mem o hx))
      (by
        intro x hx hmem'
        rcases hsub _ hmem' with hl | heq | hdel
        · exact hn x (List.mem_cons_of_mem o hx) hl
        · rw [← TimerId.user.inj heq] at hnodup'
          exact hnodup'.1 (List.mem_map_of_mem hx)
        · exact TimerId.noConfusion hdel)
    refine ⟨m', l', ?_, hclosing, ?_⟩
    · rw [hadd]
      exact hok
    · have hhead : Function.update m.waketime (.user o.timer) w .deleted = m.waketime .deleted :=
        Function.update_of_ne TimerId.noConfusion _ _
      have hreport := schedAddTimer_report hset.head (Function.update_self ..) hhead hadd
      rw [hclose]
      split_ifs at hreport ⊢ with hbefore hlate
      · rw [hreport.1, hreport.2]
        rfl
      · rw [hreport.1, hreport.2]
        rfl
      · rw [hreport.1, hreport.2]
        rfl

lemma Closing.delTimers (h : Closing m l) {dels : List TimerId} (hd : ∀ d ∈ dels, d.IsUser) :
    ∃ m', delTimers m dels = .ok m' ∧ Closing m' (l.filter (· ∉ dels)) ∧ m'.users = m.users ∧
      m'.waketime = m.waketime := by
  obtain ⟨next', last', hok, hshape⟩ := delTimers_spec h.shape fun d hmem =>
    ⟨IsUser.isCaller (hd d hmem), by
      rw [h.head]
      exact (IsCaller.ne_deleted (IsUser.isCaller (hd d hmem))).symm⟩
  exact ⟨_, hok, ⟨hshape, (frame_delTimers hok).anchored h.anchored, h.head, h.status⟩, rfl, rfl⟩

lemma closing_runShutdown (h : Shape m l) (ha : Anchored m) (reason : Reason) :
    Closing (runShutdown m reason) [.deleted, .periodic] :=
  ⟨h.of_runShutdown reason, (frame_runShutdown m reason).anchored ha, rfl, rfl⟩

lemma ctrRunShutdownfuncs_ok {before after : List TimerId} {objects : List AnalogTimer}
    (h : Closing m [.deleted, .periodic]) (hbefore : ∀ d ∈ before, d.IsUser)
    (hafter : ∀ d ∈ after, d.IsUser) (hnodup : (objects.map AnalogTimer.timer).Nodup)
    (hmem : ∀ o ∈ objects, .user o.timer ∈ m.timers) :
    ∃ m', ctrRunShutdownfuncs m before objects after = .ok m' ∧
      ffReportClose m' = overwrite (ffReportClose m) (lateAdds (m.waketime .deleted) objects) := by
  obtain ⟨m₁, hdels₁, hclosing₁, husers, hwaketime⟩ := h.delTimers hbefore
  obtain ⟨m₂, l₂, hadd, hclosing₂, hclose⟩ := hclosing₁.addAnalogTimers hnodup
    (by
      intro o ho
      unfold Mem.timers
      rw [husers]
      exact hmem o ho)
    (by
      intro o _ hlisted
      have hlisted := (List.mem_filter.mp hlisted).1
      simp at hlisted)
  obtain ⟨m₃, hdels₃, -, -, -⟩ := hclosing₂.delTimers hafter
  refine ⟨m₃, ?_, ?_⟩
  · rw [ctrRunShutdownfuncs, hdels₁]
    dsimp only
    rw [hadd]
    exact hdels₃
  · rw [(frame_delTimers hdels₃).close, hclose, (frame_delTimers hdels₁).close, hwaketime]

/-- A late request shuts down. The message carries the tag of the request, the clock and its waketime
exactly when no analog input that is added again writes over them. -/
theorem ffReportClose_of_late {users n : Nat} {early actions : List Action} {s₁ s₀ s : State}
    {w : UInt32} {tag : UInt8} {before after : List TimerId} {objects : List AnalogTimer}
    (hearly : Run step InitLegal (boot users) early s₁) (hinit : ffEddyTimerInit s₁ = some s₀)
    (h : Run step Uses s₀ actions s)
    (hlate : schedAddTimer
      { s.mem with waketime := Function.update s.mem.waketime (.user n) w } s.now (.user n) tag =
        .error (.shutdown m .timerTooClose))
    (hbefore : ∀ d ∈ before, d.IsUser) (hafter : ∀ d ∈ after, d.IsUser)
    (hnodup : (objects.map AnalogTimer.timer).Nodup)
    (hmem : ∀ o ∈ objects, .user o.timer ∈ s.mem.timers) :
    ∃ m', runShutdownfuncs m .timerTooClose before objects after = .ok m' ∧
      ∀ m'', Interrupted m' m'' →
        (ffReportClose m'' = [.int .uint16 tag.toUInt32, .int .uint16 s.now, .int .uint16 w] ↔
          Intact tag s.now w (s.mem.waketime .periodic) objects) := by
  have hshape : Shape { s.mem with waketime := Function.update s.mem.waketime (.user n) w }
      s.mem.listed := (eddyInv_of_run hearly hinit h).shape.congr rfl rfl rfl rfl
  have hanchored : Anchored { s.mem with waketime := Function.update s.mem.waketime (.user n) w } :=
    (Frame.of_update w TimerId.noConfusion TimerId.noConfusion).anchored
      (anchored_of_run hearly hinit h)
  obtain rfl := schedAddTimer_shutdown hlate
  have hclosing := closing_runShutdown (hshape.of_noteLate w s.now tag) hanchored .timerTooClose
  have hhead : (runShutdown (noteLate
      { s.mem with waketime := Function.update s.mem.waketime (.user n) w } w s.now tag)
        .timerTooClose).waketime .deleted = s.mem.waketime .periodic := by
    change Function.update (Function.update s.mem.waketime (.user n) w) TimerId.deleted
      (Function.update s.mem.waketime (.user n) w .periodic) TimerId.deleted = _
    rw [Function.update_self, Function.update_of_ne TimerId.noConfusion]
  dsimp only
  rw [Function.update_self]
  obtain ⟨m', hok, hclose⟩ := ctrRunShutdownfuncs_ok hclosing hbefore hafter hnodup hmem
  refine ⟨shutdownDone m', ?_, fun m'' hirq => ?_⟩
  · rw [runShutdownfuncs, hok]
    rfl
  · rw [hhead] at hclose
    rw [hirq.frame.close, Intact, ← overwrite_eq_iff]
    exact Eq.congr_left hclose

/-- What `run_shutdown` reports after a late request for timer 0, if it is one. -/
def lateReport (s : State) (w : UInt32) (tag : UInt8) (objects : List AnalogTimer) :
    Option (UInt8 × UInt32 × UInt32) :=
  match schedAddTimer
      { s.mem with waketime := Function.update s.mem.waketime (.user 0) w } s.now (.user 0) tag with
  | .error (.shutdown m .timerTooClose) =>
    (runShutdownfuncs m .timerTooClose [] objects []).toOption.map
      fun m => (m.ffTimerClose, m.ffCloseNum, m.ffTempWaketime)
  | _ => none

lemma exists_of_lateReport {s : State} {w close temp : UInt32} {tag tag' : UInt8}
    {objects : List AnalogTimer} (h : lateReport s w tag objects = some (tag', close, temp)) :
    ∃ m m', schedAddTimer { s.mem with waketime := Function.update s.mem.waketime (.user 0) w }
        s.now (.user 0) tag = .error (.shutdown m .timerTooClose) ∧
      runShutdownfuncs m .timerTooClose [] objects [] = .ok m' ∧
      ffReportClose m' = [.int .uint16 tag'.toUInt32, .int .uint16 close, .int .uint16 temp] := by
  unfold lateReport at h
  split at h
  · rename_i m hlate
    cases hrun : runShutdownfuncs m .timerTooClose [] objects [] with
    | error e =>
      rw [hrun] at h
      cases h
    | ok m' =>
      rw [hrun] at h
      cases h
      exact ⟨m, m', hlate, hrun, rfl⟩
  · cases h

/-- An analog input that is queried for clock 500 with pauses of `restTicks`. -/
def analogTimer (restTicks : UInt32) : AnalogTimer where
  timer := 0
  a := commandQueryAnalogIn commandConfigAnalogIn ⟨500, 10, 1, restTicks, 0, 4095, 1⟩
  cur := 1010

/-- The query comes at clock 1000, but the next cycle is still ahead. -/
theorem ffReportClose_of_late_query : ∃ s₁ s₀ s m m', Run step InitLegal (boot 1) earlyTicks s₁ ∧
    ffEddyTimerInit s₁ = some s₀ ∧ Run step Uses s₀ [] s ∧
    runShutdownfuncs m .timerTooClose [] [analogTimer 1000] [] = .ok m' ∧
    ffReportClose m' = [.int .uint16 31, .int .uint16 1000, .int .uint16 500] := by
  obtain ⟨s₁, s₀, s, h₁, h₀, h, hp⟩ := exists_run_of_exec 1 earlyTicks []
    (fun s => s.now = 1000 ∧ .user 0 ∈ s.mem.timers ∧
      lateAdds (s.mem.waketime .periodic) [analogTimer 1000] = [] ∧
      lateReport s 500 31 [analogTimer 1000] = some (31, 1000, 500)) (by decide +kernel)
  obtain ⟨hnow, hmem, hlates, hreport⟩ := of_decide_eq_true hp
  obtain ⟨m, m₁, hlate, -, -⟩ := exists_of_lateReport hreport
  have hnone : ∀ d ∈ ([] : List TimerId), d.IsUser := fun d hd => absurd hd List.not_mem_nil
  have hnodup : ([analogTimer 1000].map AnalogTimer.timer).Nodup := List.nodup_singleton _
  have hintact : Intact 31 s.now 500 (s.mem.waketime .periodic) [analogTimer 1000] := by
    rw [Intact, hlates]
    nofun
  have hmem' : ∀ o ∈ [analogTimer 1000], .user o.timer ∈ s.mem.timers := by
    intro o ho
    obtain rfl := List.mem_singleton.mp ho
    exact hmem
  obtain ⟨m', hok, hclose⟩ := ffReportClose_of_late h₁ h₀ h hlate hnone hnone hnodup hmem'
  refine ⟨s₁, s₀, s, m, m', h₁, h₀, h, hok, ?_⟩
  rw [(hclose m' .none).mpr hintact, hnow]
  rfl

/-- The query comes so late that the next cycle has passed as well. The message then carries what
`analog_in_shutdown` has asked for. -/
theorem ffReportClose_overwritten : ∃ s₁ s₀ s m m', Run step InitLegal (boot 1) earlyTicks s₁ ∧
    ffEddyTimerInit s₁ = some s₀ ∧ Run step Uses s₀ [] s ∧ s.now = 1000 ∧
    schedAddTimer { s.mem with waketime := Function.update s.mem.waketime (.user 0) 500 }
      s.now (.user 0) 31 = .error (.shutdown m .timerTooClose) ∧
    runShutdownfuncs m .timerTooClose [] [analogTimer 100] [] = .ok m' ∧
    ffReportClose m' = [.int .uint16 0, .int .uint16 1010, .int .uint16 600] := by
  obtain ⟨s₁, s₀, s, h₁, h₀, h, hp⟩ := exists_run_of_exec 1 earlyTicks []
    (fun s => s.now = 1000 ∧ lateReport s 500 31 [analogTimer 100] = some (0, 1010, 600))
    (by decide +kernel)
  obtain ⟨hnow, hreport⟩ := of_decide_eq_true hp
  obtain ⟨m, m', hlate, hok, hclose⟩ := exists_of_lateReport hreport
  exact ⟨s₁, s₀, s, m, m', h₁, h₀, h, hnow, hlate, hok, hclose⟩

end KlipperMcu.Sched
