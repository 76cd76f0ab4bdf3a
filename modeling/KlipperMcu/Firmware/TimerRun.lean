import KlipperMcu.Firmware.TimerDispatch
import KlipperMcu.Lib.Run

/-!
# Runs of the scheduler

The calls of sched.c made by interrupts, tasks and callbacks, in any order. A log records every
request for a callback, every callback and every deletion, and `ledger` checks the log of one
timer: a callback answers exactly one request, at the waketime that was asked for.
-/

namespace KlipperMcu.Sched

open Lib

/-- The timers met by following `next` from `timer_list`, without the sentinel. -/
def Mem.listed (m : Mem) : List TimerId :=
  (walk m.next m.timers.length (some m.timerList)).filter (· ≠ .sentinel)

lemma Shape.listed_eq {m : Mem} {l : List TimerId} (h : Shape m l) : m.listed = l := by
  have hlen : (l ++ [TimerId.sentinel]).length ≤ m.timers.length := by
    have hlt := h.length_lt
    rw [List.length_append, List.length_singleton]
    omega
  rw [Mem.listed, walk_eq h.seg hlen, List.filter_append]
  have hs : [TimerId.sentinel].filter (· ≠ .sentinel) = [] := by simp
  have hl : l.filter (· ≠ .sentinel) = l := by
    rw [List.filter_eq_self]
    intro t ht
    exact decide_eq_true (fun he => h.sentinel_notMem (he ▸ ht))
  rw [hs, hl, List.append_nil]

inductive Event where
  | scheduled (t : TimerId) (waketime : UInt32)
  | ran (t : TimerId) (waketime : UInt32)
  | cancelled (t : TimerId)
  | reset
deriving DecidableEq, Repr

/-- The open request of timer `t` after one more event, if the event is in order. -/
def ledgerStep (t : TimerId) (pending : Option UInt32) : Event → Option (Option UInt32)
  | .scheduled t' w => if t' = t then if pending = none then some (some w) else none else some pending
  | .ran t' w => if t' = t then if pending = some w then some none else none else some pending
  | .cancelled t' => if t' = t then some none else some pending
  | .reset => some none

/-- The open request of timer `t` after the events of `log`. It is `none` when `t` was called
back without a request, at another waketime than requested, or requested twice. -/
def ledger (t : TimerId) (log : List Event) : Option (Option UInt32) :=
  log.foldlM (ledgerStep t) none

lemma ledger_append {t : TimerId} {log : List Event} {pending : Option UInt32}
    (h : ledger t log = some pending) (events : List Event) :
    ledger t (log ++ events) = events.foldlM (ledgerStep t) pending := by
  unfold ledger at h ⊢
  rw [List.foldlM_append, h]
  rfl

lemma foldlM_cancelled (t : TimerId) (dels : List TimerId) (pending : Option UInt32) :
    (dels.map Event.cancelled).foldlM (ledgerStep t) pending =
      some (if t ∈ dels then none else pending) := by
  induction dels generalizing pending with
  | nil => simp
  | cons d dels ih =>
    rw [List.map_cons, List.foldlM_cons]
    by_cases hd : d = t
    · subst hd
      simp only [ledgerStep, if_true, Option.bind_eq_bind, Option.bind_some, ih]
      simp
    · have hd' : t ≠ d := Ne.symm hd
      simp only [ledgerStep, hd, if_false, Option.bind_eq_bind, Option.bind_some, ih, List.mem_cons,
        hd', false_or]

structure State where
  mem : Mem
  now : UInt32
  log : List Event

inductive Action where
  | tick (ticks : UInt32)
  | addTimer (t : TimerId) (waketime : UInt32) (tag : UInt8)
  | delTimer (t : TimerId)
  | dispatch (cb : Callback)
  | timerReset
  | shutdown (id : UInt8)
  | shutdownDone
  | clearShutdown

/-- The return of a call, or the jump to `run_shutdown`. -/
def State.leave (s : State) (events : List Event) : Except Exit Mem → Option State
  | .ok m => some { s with mem := m, log := s.log ++ events }
  | .error .fault => none
  | .error (.shutdown m reason) =>
    some { s with mem := runShutdown m reason, log := s.log ++ events ++ [.reset] }

/-- The events of one dispatch. -/
def dispatchEvents (m : Mem) (cb : Callback) : List Event :=
  if m.timerList = .deleted then []
  else
    .ran m.timerList (m.waketime m.timerList) :: (callbackDels m cb).map .cancelled ++
      match timerFunc m m.timerList cb with
      | .ok (m', .reschedule) => [.scheduled m.timerList (m'.waketime m.timerList)]
      | _ => []

def step (s : State) : Action → Option State
  | .tick ticks => some { s with now := s.now + ticks }
  | .addTimer t waketime tag =>
    s.leave [.scheduled t waketime] (schedAddTimer
      { s.mem with waketime := Function.update s.mem.waketime t waketime } s.now t tag)
  | .delTimer t => s.leave [.cancelled t] (schedDelTimer s.mem t)
  | .dispatch cb => s.leave (dispatchEvents s.mem cb) ((schedTimerDispatch s.mem cb).map Prod.fst)
  | .timerReset => s.leave [.reset] (.ok (schedTimerReset s.mem))
  | .shutdown id => s.leave [] (.error (.shutdown s.mem (.callback id)))
  | .shutdownDone => s.leave [] (.ok (shutdownDone s.mem))
  | .clearShutdown => s.leave [] (schedClearShutdown s.mem)

/-- How the rest of the firmware uses sched.c: it adds timers that are not listed, callbacks
delete other timers only, and waketimes stay within `2 ^ 30` ticks of the current time. -/
def Legal (s : State) : Action → Prop
  | .tick ticks => ∀ t ∈ s.mem.listed, Within (s.now + ticks) (s.mem.waketime t)
  | .addTimer t waketime _ =>
    t.IsCaller ∧ t ∈ s.mem.timers ∧ t ∉ s.mem.listed ∧ Within s.now waketime
  | .delTimer t => t.IsCaller
  | .dispatch cb => CallbackOk s.mem s.now cb
  | _ => True

instance (s : State) (a : Action) : Decidable (Legal s a) := by
  cases a <;> unfold Legal <;> infer_instance

/-- The scheduler after reset, with the cycle counter at zero. -/
def boot (users : Nat) : State where
  mem := bootMem users
  now := 0
  log := []

/-- The open request of `t` that the list stands for. -/
def Mem.pending (m : Mem) (t : TimerId) : Option UInt32 :=
  if t ∈ m.listed then some (m.waketime t) else none

structure Inv (s : State) : Prop where
  ordered : Ordered s.mem s.now s.mem.listed
  ledger_eq : ∀ t, t.IsCaller → ledger t s.log = some (s.mem.pending t)

lemma Inv.of_ordered {m : Mem} {now : UInt32} {log : List Event} {l : List TimerId}
    (ho : Ordered m now l)
    (hl : ∀ t, t.IsCaller → ledger t log = some (if t ∈ l then some (m.waketime t) else none)) :
    Inv ⟨m, now, log⟩ := by
  have he := ho.shape.listed_eq
  refine ⟨?_, ?_⟩
  · dsimp only
    rw [he]
    exact ho
  · intro t ht
    simp only [Mem.pending, he]
    exact hl t ht

lemma Inv.of_reset {m : Mem} {now : UInt32} {log : List Event}
    (ho : Ordered m now [.deleted, .periodic])
    (hl : ∀ t, t.IsCaller → ∃ pending, ledger t log = some pending) :
    Inv ⟨m, now, log ++ [.reset]⟩ := by
  refine Inv.of_ordered ho ?_
  intro t ht
  obtain ⟨pending, hp⟩ := hl t ht
  rw [ledger_append hp, if_neg]
  · rfl
  · simp [(IsCaller.ne_deleted ht).symm, (IsCaller.ne_periodic ht).symm]

section Steps

variable {s : State}

lemma Inv.tick (h : Inv s) {ticks : UInt32} (hl : Legal s (.tick ticks)) :
    ∃ s', step s (.tick ticks) = some s' ∧ Inv s' :=
  ⟨_, rfl, ⟨h.ordered.shape, h.ordered.sorted, hl, h.ordered.sentinel⟩, h.ledger_eq⟩

lemma leave_shutdown {events : List Event} {m : Mem} {l : List TimerId} (reason : Reason)
    (ho : Ordered m s.now l)
    (hl : ∀ t, t.IsCaller → ∃ pending, ledger t (s.log ++ events) = some pending) :
    ∃ s', s.leave events (.error (.shutdown m reason)) = some s' ∧ Inv s' :=
  ⟨_, rfl, Inv.of_reset (runShutdown_ordered ho reason) hl⟩

lemma Inv.addTimer (h : Inv s) {t : TimerId} {w : UInt32} {tag : UInt8}
    (hl : Legal s (.addTimer t w tag)) :
    ∃ s', step s (.addTimer t w tag) = some s' ∧ Inv s' := by
  obtain ⟨hc, ha, hn, hw⟩ := hl
  have hwake : ∀ x, x ≠ t → Function.update s.mem.waketime t w x = s.mem.waketime x :=
    fun x hx => Function.update_of_ne hx _ _
  have ho : Ordered { s.mem with waketime := Function.update s.mem.waketime t w } s.now
      s.mem.listed :=
    h.ordered.congr_waketime (h.ordered.shape.congr rfl rfl rfl rfl)
      (fun x hx => hwake x (fun he => hn (he ▸ hx))) (hwake _ (IsCaller.ne_sentinel hc))
  have hlog : ∀ x, x.IsCaller → ledger x (s.log ++ [.scheduled t w]) =
      some (if x = t then some w else s.mem.pending x) := by
    intro x hx
    rw [ledger_append (h.ledger_eq x hx)]
    by_cases hxt : x = t
    · subst hxt
      simp [ledgerStep, Mem.pending, hn]
    · simp [ledgerStep, Ne.symm hxt, hxt]
  rw [step]
  rcases schedAddTimer_ordered s.now tag ho hc ha hn (by simpa using hw) with
    ⟨m', l', hok, ho', hmem, hwake', -⟩ | ⟨herr, -⟩
  · rw [hok]
    refine ⟨_, rfl, Inv.of_ordered ho' ?_⟩
    intro x hx
    have hxd : x ≠ .deleted := (IsCaller.ne_deleted hx).symm
    rw [hlog x hx, hwake' x hxd]
    by_cases hxt : x = t
    · subst hxt
      rw [if_pos rfl, if_pos ((hmem x hxd).mpr (Or.inr rfl))]
      simp
    · rw [if_neg hxt, Mem.pending]
      simp only [hmem x hxd, hxt, or_false, hwake x hxt]
  · rw [herr]
    refine leave_shutdown _ (ho.of_noteLate _ _ _) ?_
    exact fun x hx => ⟨_, hlog x hx⟩

lemma Inv.delTimer (h : Inv s) {t : TimerId} (hc : t.IsCaller) :
    ∃ s', step s (.delTimer t) = some s' ∧ Inv s' := by
  obtain ⟨m', l', hok, ho, hmem, hwake, -⟩ := schedDelTimer_ordered h.ordered hc
  rw [step, hok]
  refine ⟨_, rfl, Inv.of_ordered ho ?_⟩
  intro x hx
  have hxd : x ≠ .deleted := (IsCaller.ne_deleted hx).symm
  rw [ledger_append (h.ledger_eq x hx), hwake x hxd]
  simp only [hmem x hxd]
  by_cases hxt : x = t
  · subst hxt
    simp [ledgerStep]
  · simp [ledgerStep, Ne.symm hxt, hxt, Mem.pending]

lemma Inv.ledger_ran (h : Inv s) (dels : List TimerId) {t : TimerId} (ht : t.IsCaller) :
    ledger t (s.log ++ (.ran s.mem.timerList (s.mem.waketime s.mem.timerList) ::
      dels.map .cancelled)) =
      some (if t = s.mem.timerList ∨ t ∈ dels then none else s.mem.pending t) := by
  rw [ledger_append (h.ledger_eq t ht), List.foldlM_cons]
  by_cases he : t = s.mem.timerList
  · obtain ⟨rest, hl⟩ := h.ordered.shape.head
    have hm : t ∈ s.mem.listed := by rw [hl, he]; simp
    have hran : ledgerStep t (s.mem.pending t)
        (.ran s.mem.timerList (s.mem.waketime s.mem.timerList)) = some none := by
      rw [← he]
      simp [ledgerStep, Mem.pending, hm]
    rw [hran, Option.bind_eq_bind, Option.bind_some, foldlM_cancelled]
    simp [he]
  · have hran : ledgerStep t (s.mem.pending t)
        (.ran s.mem.timerList (s.mem.waketime s.mem.timerList)) = some (s.mem.pending t) := by
      simp [ledgerStep, Ne.symm he]
    rw [hran, Option.bind_eq_bind, Option.bind_some, foldlM_cancelled]
    simp only [he, false_or]

lemma dispatchEvents_ok {m m₁ : Mem} {cb : Callback} {res : SchedResult}
    (hd : m.timerList ≠ .deleted) (hf : timerFunc m m.timerList cb = .ok (m₁, res)) :
    dispatchEvents m cb = .ran m.timerList (m.waketime m.timerList) ::
      (callbackDels m cb).map .cancelled ++
      if res = .reschedule then [.scheduled m.timerList (m₁.waketime m.timerList)] else [] := by
  unfold dispatchEvents
  rw [if_neg hd, hf]
  cases res <;> rfl

lemma dispatchEvents_ran {m : Mem} (cb : Callback) (hd : m.timerList ≠ .deleted) :
    ∃ events, dispatchEvents m cb = .ran m.timerList (m.waketime m.timerList) :: events ∧
      ∀ t w, .ran t w ∉ events := by
  refine ⟨_, by rw [dispatchEvents, if_neg hd]; rfl, ?_⟩
  intro t w hm
  rcases List.mem_append.mp hm with hm | hm
  · simp at hm
  · split at hm <;> simp at hm

lemma leave_log {s' : State} {events : List Event} {r : Except Exit Mem}
    (h : s.leave events r = some s') :
    s'.log = s.log ++ events ∨ s'.log = s.log ++ events ++ [.reset] := by
  unfold State.leave at h
  split at h
  · cases h
    exact Or.inl rfl
  · cases h
  · cases h
    exact Or.inr rfl

lemma Inv.ledger_dispatch (h : Inv s) {m₁ : Mem} {cb : Callback} {res : SchedResult}
    {rest : List TimerId} (hf : timerFunc s.mem s.mem.timerList cb = .ok (m₁, res))
    (hc : Called s.mem m₁ s.now (callbackDels s.mem cb) res s.mem.listed rest) {t : TimerId}
    (ht : t.IsCaller) :
    ledger t (s.log ++ dispatchEvents s.mem cb) =
      some (if t ∈ rest ∨ t = s.mem.timerList ∧ res = .reschedule then some (m₁.waketime t)
        else none) := by
  have hts : t ≠ .sentinel := (IsCaller.ne_sentinel ht).symm
  have hrest : t ≠ s.mem.timerList → (if t ∈ callbackDels s.mem cb then none
      else s.mem.pending t) = if t ∈ rest then some (m₁.waketime t) else none := by
    intro hne
    rw [hc.waketime t hne hts, Mem.pending]
    by_cases hd : t ∈ callbackDels s.mem cb
    · simp [hc.mem_rest, hd]
    · simp [hc.mem_rest, hd, hne]
  by_cases hd : s.mem.timerList = .deleted
  · have hne : t ≠ s.mem.timerList := fun he => IsCaller.ne_deleted ht (hd.symm.trans he.symm)
    have hdels : callbackDels s.mem cb = [] := by rw [callbackDels, hd]
    have hr := hrest hne
    rw [hdels] at hr
    rw [dispatchEvents, if_pos hd, List.append_nil, h.ledger_eq t ht]
    simpa [hne] using hr
  · rw [dispatchEvents_ok hd hf, ← List.append_assoc, ledger_append (h.ledger_ran _ ht)]
    by_cases he : t = s.mem.timerList
    · have hnot : t ∉ rest := fun hm => ((hc.mem_rest t).mp hm).2.1 he
      rw [if_pos (Or.inl he)]
      cases res with
      | done => simp [hnot]
      | reschedule => simp [← he, ledgerStep]
    · have hsched : ∀ pending w, ledgerStep t pending (.scheduled s.mem.timerList w) =
          some pending := fun pending w => by simp [ledgerStep, Ne.symm he]
      simp only [he, false_or, false_and, or_false]
      rw [← hrest he]
      cases res with
      | done => simp
      | reschedule => simp [hsched]

lemma Inv.dispatch (h : Inv s) {cb : Callback} (hcb : CallbackOk s.mem s.now cb) :
    ∃ s', step s (.dispatch cb) = some s' ∧ Inv s' := by
  rw [step, schedTimerDispatch]
  rcases timerFunc_called h.ordered hcb with
    ⟨m₁, res, rest, hf, hc⟩ | ⟨m₁, l₁, id, hf, ho, -⟩
  · obtain ⟨m', w, l', hok, ho, hmem, hwake, -⟩ := hc.updateTimerList
    simp only [hf, hok]
    refine ⟨_, rfl, Inv.of_ordered ho ?_⟩
    intro t ht
    rw [h.ledger_dispatch hf hc ht, hwake]
    simp only [hmem]
  · simp only [hf]
    refine leave_shutdown _ ho ?_
    intro t ht
    by_cases hd : s.mem.timerList = .deleted
    · rw [dispatchEvents, if_pos hd, List.append_nil]
      exact ⟨_, h.ledger_eq t ht⟩
    · rw [dispatchEvents, if_neg hd, hf, List.append_nil]
      exact ⟨_, h.ledger_ran _ ht⟩

lemma Inv.timerReset (h : Inv s) : ∃ s', step s .timerReset = some s' ∧ Inv s' :=
  ⟨_, rfl, Inv.of_reset (schedTimerReset_ordered h.ordered) fun t ht => ⟨_, h.ledger_eq t ht⟩⟩

lemma Inv.congr {m : Mem} (h : Inv s) (hw : m.waketime = s.mem.waketime)
    (hn : m.next = s.mem.next) (ht : m.timerList = s.mem.timerList)
    (hli : m.lastInsert = s.mem.lastInsert) (hu : m.users = s.mem.users) :
    Inv ⟨m, s.now, s.log ++ []⟩ := by
  refine Inv.of_ordered (h.ordered.congr_waketime (h.ordered.shape.congr hn ht hli hu)
    (fun t _ => by rw [hw]) (by rw [hw])) ?_
  intro t hc
  rw [List.append_nil, h.ledger_eq t hc, Mem.pending, hw]

lemma Inv.clearShutdown (h : Inv s) : ∃ s', step s .clearShutdown = some s' ∧ Inv s' := by
  rw [step, schedClearShutdown]
  split
  · exact leave_shutdown _ h.ordered fun t ht => ⟨_, by rw [List.append_nil]; exact h.ledger_eq t ht⟩
  · split
    · exact ⟨_, rfl, h.congr rfl rfl rfl rfl rfl⟩
    · exact ⟨_, rfl, h.congr rfl rfl rfl rfl rfl⟩

/-- Every legal call returns, and keeps the invariant. -/
theorem Inv.step (h : Inv s) {a : Action} (hl : Legal s a) :
    ∃ s', Sched.step s a = some s' ∧ Inv s' := by
  cases a with
  | tick ticks => exact h.tick hl
  | addTimer t w tag => exact h.addTimer hl
  | delTimer t => exact h.delTimer hl
  | dispatch cb => exact h.dispatch hl
  | timerReset => exact h.timerReset
  | shutdown id =>
    exact leave_shutdown _ h.ordered fun t ht => ⟨_, by rw [List.append_nil]; exact h.ledger_eq t ht⟩
  | shutdownDone => exact ⟨_, rfl, h.congr rfl rfl rfl rfl rfl⟩
  | clearShutdown => exact h.clearShutdown

end Steps

lemma bootMem_shape (users : Nat) : Shape (bootMem users) [.periodic] := by
  refine ⟨⟨rfl, ?_⟩, ?_, by simp, by simp, by simp [bootMem], by simp [bootMem]⟩
  · simp [bootMem]
  · intro t ht
    rw [List.mem_singleton.mp ht]
    simp [Mem.timers]

lemma inv_boot (users : Nat) : Inv (boot users) := by
  refine Inv.of_ordered ⟨bootMem_shape users, by simp, ?_, by simp [bootMem]⟩ ?_
  · intro t ht
    rw [List.mem_singleton.mp ht]
    change Within 0 0
    decide
  · intro t ht
    rw [if_neg]
    · rfl
    · simpa using (IsCaller.ne_periodic ht).symm

lemma inv_of_run {users : Nat} {actions : List Action} {s : State}
    (h : Run step Legal (boot users) actions s) : Inv s := by
  refine h.invariant (inv_boot users) ?_
  intro s a s' hi hl hs
  obtain ⟨t, ht, hinv⟩ := hi.step hl
  rw [hs] at ht
  cases ht
  exact hinv

/-- Between the calls of a run, the timer list is a finite chain without repetition that ends in
the sentinel, sorted by waketime, with the periodic timer once, `deleted_timer` only in front and
`last_insert` inside. Every further call returns. The callback of an added timer runs once for
every request, at the requested waketime, and a dispatch calls back the earliest timer. -/
theorem timerList_of_run {users : Nat} {actions : List Action} {s : State}
    (h : Run step Legal (boot users) actions s) :
    Seg s.mem.next (some s.mem.timerList) (s.mem.listed ++ [.sentinel]) none ∧
    (s.mem.listed ++ [TimerId.sentinel]).Nodup ∧
    (s.mem.listed.Pairwise fun x y =>
      timerIsBefore (s.mem.waketime y) (s.mem.waketime x) = false) ∧
    s.mem.listed.count .periodic = 1 ∧ .deleted ∉ s.mem.listed.tail ∧
    s.mem.lastInsert ∈ s.mem.listed ∧ s.mem.lastInsert ≠ .sentinel ∧
    (∀ a, Legal s a → ∃ s', step s a = some s') ∧
    (∀ t, t.IsCaller → ledger t s.log = some (s.mem.pending t)) ∧
    (∀ t ∈ s.mem.listed,
      timerIsBefore (s.mem.waketime t) (s.mem.waketime s.mem.timerList) = false) ∧
    ∀ cb s', step s (.dispatch cb) = some s' → s.mem.timerList ≠ .deleted →
      ∃ events, s'.log =
        s.log ++ .ran s.mem.timerList (s.mem.waketime s.mem.timerList) :: events ∧
        ∀ t w, .ran t w ∉ events := by
  have hi := inv_of_run h
  have hs := hi.ordered.shape
  refine ⟨hs.seg, hs.nodup, hi.ordered.sorted, ?_, hs.deleted, hs.lastInsert, ?_, ?_, hi.ledger_eq,
    hi.ordered.head_earliest, ?_⟩
  · exact List.count_eq_one_of_mem hs.nodup_list hs.periodic
  · exact fun he => hs.sentinel_notMem (he ▸ hs.lastInsert)
  · intro a ha
    obtain ⟨s', hs', -⟩ := hi.step ha
    exact ⟨s', hs'⟩
  · intro cb s' hs' hd
    obtain ⟨events, hev, hran⟩ := dispatchEvents_ran cb hd
    rcases leave_log hs' with hlog | hlog
    · exact ⟨events, by rw [hlog, hev], hran⟩
    · refine ⟨events ++ [.reset], by rw [hlog, hev]; simp, ?_⟩
      intro t w hm
      simp [hran t w] at hm

/-- Two timers are added and run, one deletes the other, and the list is reset. -/
def twoTimers : List Action :=
  [.addTimer (.user 0) 1000 1, .addTimer (.user 1) 500 2, .dispatch ⟨[], none, 0, .done⟩,
    .tick 500, .dispatch ⟨[.user 0], none, 2000, .reschedule⟩, .delTimer (.user 1),
    .addTimer (.user 0) 600 3, .dispatch ⟨[], none, 0, .done⟩, .timerReset]

theorem timerList_of_run_twoTimers :
    ∃ s, Run step Legal (boot 2) twoTimers s ∧ s.mem.listed.count .periodic = 1 ∧
      ledger (.user 0) s.log = some (s.mem.pending (.user 0)) := by
  obtain ⟨s, hs, -⟩ : ∃ s, Run step Legal (boot 2) twoTimers s ∧ true :=
    Run.exists_of_exec twoTimers (fun _ => true) (by decide +kernel)
  have h := timerList_of_run hs
  exact ⟨s, hs, h.2.2.2.1, h.2.2.2.2.2.2.2.2.1 _ trivial⟩

end KlipperMcu.Sched
