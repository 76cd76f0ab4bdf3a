import KlipperMcu.Firmware.TimerOrder

/-!
# One dispatch of the timer list

`sched_timer_dispatch` calls back the head of the list and then takes it out or finds it a new
place. The callback may delete other timers and may shut the firmware down.
-/

namespace KlipperMcu.Sched

open Lib

variable {m : Mem} {now : UInt32} {l : List TimerId} {cb : Callback}

/-- The timers deleted by the callback of the head of the list. -/
def callbackDels (m : Mem) (cb : Callback) : List TimerId :=
  match m.timerList with
  | .user _ => cb.dels
  | _ => []

/-- A callback deletes other timers only, and leaves its own waketime near the current time
when it asks to be called again. -/
def CallbackOk (m : Mem) (now : UInt32) (cb : Callback) : Prop :=
  match m.timerList with
  | .periodic => Within now (m.waketime .periodic + timerFromUs 100000)
  | .ffEddy => Within now (m.waketime .ffEddy + timerFromUs 500)
  | .user n => (∀ d ∈ cb.dels, d.IsCaller ∧ d ≠ .user n) ∧
      (cb.shutdown = none → cb.result = .reschedule → Within now cb.waketime)
  | _ => True

instance (m : Mem) (now : UInt32) (cb : Callback) : Decidable (CallbackOk m now cb) := by
  unfold CallbackOk
  split <;> infer_instance

/-- The memory `m₁` after the head of the list `l` of `m` was called back. The head still stands
in front of the timers `rest` that are left. -/
structure Called (m m₁ : Mem) (now : UInt32) (dels : List TimerId) (res : SchedResult)
    (l rest : List TimerId) : Prop where
  shape : Shape m₁ (m.timerList :: rest)
  sorted : rest.Pairwise fun x y => timerIsBefore (m₁.waketime y) (m₁.waketime x) = false
  within : ∀ x ∈ rest, Within now (m₁.waketime x)
  sentinel : m₁.waketime .sentinel = m₁.waketime .periodic + 0x80000000
  again : res = .reschedule →
    (m.timerList.IsCaller ∨ m.timerList = .periodic) ∧ Within now (m₁.waketime m.timerList)
  done : res = .done → m.timerList ≠ .periodic
  mem_rest : ∀ x, x ∈ rest ↔ x ∈ l ∧ x ≠ m.timerList ∧ x ∉ dels
  waketime : ∀ x, x ≠ m.timerList → x ≠ .sentinel → m₁.waketime x = m.waketime x
  users : m₁.users = m.users
  kicked : m₁.kicked = m.kicked
  shutdownStatus : m₁.shutdownStatus = m.shutdownStatus

/-- The callbacks that delete nothing, write their own waketime and keep the sentinel half a turn
behind the periodic timer. -/
lemma Called.of_waketime {rest : List TimerId} {res : SchedResult} {waketime : TimerId → UInt32}
    {status : TasksStatus} (h : Ordered m now l) (hl : l = m.timerList :: rest)
    (hw : ∀ x, x ≠ m.timerList → x ≠ .sentinel → waketime x = m.waketime x)
    (hs : waketime .sentinel = waketime .periodic + 0x80000000)
    (hagain : res = .reschedule →
      (m.timerList.IsCaller ∨ m.timerList = .periodic) ∧ Within now (waketime m.timerList))
    (hdone : res = .done → m.timerList ≠ .periodic) :
    Called m { m with waketime := waketime, tasksStatus := status } now [] res l rest := by
  have hnd := h.shape.nodup_list
  have hsorted := h.sorted
  rw [hl] at hnd hsorted
  have hrest : ∀ x ∈ rest, waketime x = m.waketime x := by
    intro x hx
    apply hw
    · exact fun he => (List.nodup_cons.mp hnd).1 (he ▸ hx)
    · exact fun he => h.shape.sentinel_notMem (by rw [hl, ← he]; simp [hx])
  refine ⟨(hl ▸ h.shape).congr rfl rfl rfl rfl, ?_, ?_, hs, hagain, hdone, ?_, hw, rfl, rfl, rfl⟩
  · refine (List.pairwise_cons.mp hsorted).2.imp_of_mem ?_
    intro x y hx hy hxy
    dsimp only
    rw [hrest x hx, hrest y hy]
    exact hxy
  · intro x hx
    dsimp only
    rw [hrest x hx]
    exact h.within x (by rw [hl]; simp [hx])
  · intro x
    rw [hl, List.mem_cons]
    constructor
    · intro hx
      exact ⟨Or.inr hx, fun he => (List.nodup_cons.mp hnd).1 (he ▸ hx), by simp⟩
    · rintro ⟨hx, hne, -⟩
      exact hx.resolve_left hne

lemma userEvent_called {n : Nat} (h : Ordered m now l) (ht : m.timerList = .user n)
    (hd : ∀ d ∈ cb.dels, d.IsCaller ∧ d ≠ .user n)
    (hw : cb.shutdown = none → cb.result = .reschedule → Within now cb.waketime) :
    (∃ m₁ res rest, userEvent m (.user n) cb = .ok (m₁, res) ∧
      Called m m₁ now cb.dels res l rest) ∨
    ∃ m₁ l₁ id, userEvent m (.user n) cb = .error (.shutdown m₁ (.callback id)) ∧
      Ordered m₁ now l₁ ∧ m₁.waketime = m.waketime := by
  obtain ⟨next', last', hdels, hshape⟩ := delTimers_spec h.shape (ht ▸ hd)
  obtain ⟨hsorted, hwithin⟩ := h.filter_rest (· ∉ cb.dels)
  have ho : Ordered { m with next := next', lastInsert := last' } now (l.filter (· ∉ cb.dels)) :=
    ⟨hshape, hsorted, hwithin, h.sentinel⟩
  unfold userEvent
  rw [hdels]
  cases hs : cb.shutdown with
  | some id => exact Or.inr ⟨_, _, id, rfl, ho, rfl⟩
  | none =>
    left
    obtain ⟨rest, hl⟩ := ho.shape.head
    have hne : ∀ x, x ≠ TimerId.user n →
        Function.update m.waketime (.user n) cb.waketime x = m.waketime x :=
      fun x hx => Function.update_of_ne hx _ _
    have hc : Called _ _ now [] cb.result _ rest :=
      @Called.of_waketime _ now _ rest cb.result
        (Function.update m.waketime (.user n) cb.waketime) m.tasksStatus ho hl
        (fun x hx _ => hne x (ht ▸ hx))
        (by rw [hne _ (by simp), hne _ (by simp)]; exact h.sentinel)
        (fun hr => ⟨Or.inl (by dsimp only; rw [ht]; trivial), by
          dsimp only
          rw [ht, Function.update_self]
          exact hw hs hr⟩)
        (fun _ => by dsimp only; rw [ht]; simp)
    refine ⟨_, cb.result, rest, rfl, hc.shape, hc.sorted, hc.within, hc.sentinel, hc.again, hc.done,
      ?_, hc.waketime, rfl, rfl, rfl⟩
    intro x
    rw [hc.mem_rest, List.mem_filter, decide_eq_true_eq]
    constructor
    · rintro ⟨⟨hx, hxd⟩, hxt, -⟩
      exact ⟨hx, hxt, hxd⟩
    · rintro ⟨hx, hxt, hxd⟩
      exact ⟨⟨hx, hxd⟩, hxt, by simp⟩

/-- What the callback of the head leaves behind. -/
theorem timerFunc_called (h : Ordered m now l) (hcb : CallbackOk m now cb) :
    (∃ m₁ res rest, timerFunc m m.timerList cb = .ok (m₁, res) ∧
      Called m m₁ now (callbackDels m cb) res l rest) ∨
    ∃ m₁ l₁ id, timerFunc m m.timerList cb = .error (.shutdown m₁ (.callback id)) ∧
      Ordered m₁ now l₁ ∧ m₁.waketime = m.waketime := by
  obtain ⟨rest, hl⟩ := h.shape.head
  unfold CallbackOk at hcb
  unfold timerFunc callbackDels
  cases ht : m.timerList with
  | periodic =>
    rw [ht] at hcb
    left
    refine ⟨_, _, rest, rfl, Called.of_waketime h hl ?_ ?_ ?_ ?_⟩
    · intro x hx hs
      rw [Function.update_of_ne hs, Function.update_of_ne (ht ▸ hx)]
    · simp
    · intro _
      rw [ht]
      exact ⟨Or.inr rfl, by simpa using hcb⟩
    · intro he
      cases he
  | sentinel =>
    have hs := h.shape.sentinel_notMem
    rw [hl, ht] at hs
    simp at hs
  | deleted =>
    left
    refine ⟨_, _, rest, rfl, @Called.of_waketime _ now _ rest _ m.waketime m.tasksStatus h hl
      (fun _ _ _ => rfl) h.sentinel ?_ ?_⟩
    · intro he
      cases he
    · intro _
      rw [ht]
      simp
  | ffEddy =>
    rw [ht] at hcb
    left
    refine ⟨_, _, rest, rfl, @Called.of_waketime _ now _ rest _
      (Function.update m.waketime .ffEddy (m.waketime .ffEddy + timerFromUs 500)) m.tasksStatus
      h hl ?_ ?_ ?_ ?_⟩
    · exact fun x hx _ => Function.update_of_ne (ht ▸ hx) _ _
    · rw [Function.update_of_ne (by simp), Function.update_of_ne (by simp)]
      exact h.sentinel
    · intro _
      rw [ht, Function.update_self]
      exact ⟨Or.inl trivial, hcb⟩
    · intro he
      cases he
  | user n =>
    rw [ht] at hcb
    exact userEvent_called h ht hcb.1 hcb.2

/-- After the callback, the head leaves the list when it is done and finds its new place
otherwise. -/
theorem Called.updateTimerList {m₁ : Mem} {dels rest : List TimerId} {res : SchedResult}
    (h : Called m m₁ now dels res l rest) :
    ∃ m' w l', updateTimerList m₁ m.timerList res = .ok (m', w) ∧ Ordered m' now l' ∧
      (∀ x, x ∈ l' ↔ x ∈ rest ∨ x = m.timerList ∧ res = .reschedule) ∧
      m'.waketime = m₁.waketime ∧ w = m'.waketime m'.timerList ∧ m'.users = m.users ∧
      m'.kicked = m.kicked ∧ m'.shutdownStatus = m.shutdownStatus := by
  cases res with
  | done =>
    obtain ⟨n, last', hn, hok, hshape⟩ := updateTimerList_done h.shape (h.done rfl)
    refine ⟨_, _, rest, hok, ⟨hshape, h.sorted, h.within, h.sentinel⟩, ?_, rfl, rfl, h.users,
      h.kicked, h.shutdownStatus⟩
    intro x
    simp
  | reschedule =>
    obtain ⟨hc, hw⟩ := h.again rfl
    have hwithin : ∀ x ∈ m.timerList :: rest, Within now (m₁.waketime x) := by
      intro x hx
      rcases List.mem_cons.mp hx with rfl | hx
      · exact hw
      · exact h.within x hx
    obtain ⟨⟨m', w⟩, hok⟩ := updateTimerList_total h.shape h.sorted hwithin h.sentinel
    obtain ⟨l', ho, hmem, hwake, hw', hu, hk, hs⟩ :=
      updateTimerList_ordered h.shape hc h.sorted hwithin h.sentinel hok
    refine ⟨m', w, l', hok, ho, ?_, hwake, by rw [hw', hwake], hu.trans h.users,
      hk.trans h.kicked, hs.trans h.shutdownStatus⟩
    intro x
    rw [hmem, List.mem_cons]
    simp only [and_true]
    exact or_comm

/-- `run_shutdown` leaves the periodic timer behind `deleted_timer`. -/
theorem runShutdown_ordered (h : Ordered m now l) (reason : Reason) :
    Ordered (runShutdown m reason) now [.deleted, .periodic] :=
  schedTimerReset_ordered (h.congr_waketime (h.shape.congr rfl rfl rfl rfl) (fun _ _ => rfl) rfl)

end KlipperMcu.Sched
