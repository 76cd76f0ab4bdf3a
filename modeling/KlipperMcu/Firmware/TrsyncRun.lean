import KlipperMcu.Lib.Run
import KlipperMcu.Firmware.Trsync

/-!
# Triggers over time

Commands, timers and endstops act on the objects of trsync.c with interrupts disabled, in any
order. The log of a run records which sources called `trsync_do_trigger` and which signals it
called. `Phase` is the protocol that the log of one object follows.
-/

namespace KlipperMcu.Trigger

open Lib

variable {κ : Type}

inductive Event (κ : Type) where
  | start (i : Nat)
  | register (i tss : Nat) (func : κ)
  /-- A source calls `trsync_do_trigger`. -/
  | trigger (i : Nat) (reason : UInt8)
  | invoke (i tss : Nat) (func : κ) (reason : UInt8)
  | shutdown
deriving DecidableEq, Repr

structure State (κ : Type) where
  mem : Mem κ
  isShutdown : Bool
  log : List (Event κ)

inductive Action (κ : Type) where
  | trsyncStart (i : Nat) (reportClock reportTicks expireReason : UInt32) (close : Bool)
  | addSignal (i tss : Nat) (func : Option κ)
  | trsyncSetTimeout (i : Nat) (clock : UInt32) (close : Bool)
  | trsyncTrigger (i : Nat) (reason : UInt32)
  | expireEvent (i : Nat)
  | reportEvent (i : Nat)
  | endstopEvent (i : Nat) (reason : UInt8)
  | task (i : Nat) (clock : UInt32)
  /-- Any other code of the firmware shuts down. -/
  | shutdown
  | clearShutdown

/-- `run_shutdown` on all objects. -/
def State.runShutdown (s : State κ) : Option (State κ) :=
  (trsyncShutdown s.mem.trsyncCount s.mem).map fun m =>
    { mem := m, isShutdown := true, log := s.log ++ [.shutdown] }

/-- The state after a call that returned a memory or shut down. -/
def State.leave (s : State κ) (events : List (Event κ)) :
    Except (Mem κ) (Mem κ) → Option (State κ)
  | .error m => { s with mem := m }.runShutdown
  | .ok m => some { s with mem := m, log := s.log ++ events }

/-- The state after a source has called `trsync_do_trigger`. -/
def State.triggered (s : State κ) (i : Nat) (reason : UInt8) (r : Mem κ × List (Nat × κ)) :
    State κ :=
  { s with
    mem := r.1
    log := s.log ++ .trigger i reason :: r.2.map fun c => .invoke i c.1 c.2 reason }

/-- When an action can happen. -/
def Enabled (s : State κ) : Action κ → Prop
  | .trsyncStart i _ _ _ _ | .trsyncSetTimeout i _ _ | .trsyncTrigger i _ | .endstopEvent i _ =>
    s.isShutdown = false ∧ i < s.mem.trsyncCount
  | .addSignal i tss _ => s.isShutdown = false ∧ i < s.mem.trsyncCount ∧ tss < s.mem.signalCount
  | .expireEvent i =>
    s.isShutdown = false ∧ i < s.mem.trsyncCount ∧ (s.mem.trsyncs i).expireTime.scheduled = true
  | .reportEvent i =>
    s.isShutdown = false ∧ i < s.mem.trsyncCount ∧ (s.mem.trsyncs i).reportTime.scheduled = true
  | .task i _ => i < s.mem.trsyncCount
  | .shutdown => s.isShutdown = false
  | .clearShutdown => s.isShutdown = true

instance (s : State κ) (a : Action κ) : Decidable (Enabled s a) := by
  cases a <;> dsimp only [Enabled] <;> infer_instance

def run (s : State κ) : Action κ → Option (State κ)
  | .trsyncStart i reportClock reportTicks expireReason close =>
    (commandTrsyncStart s.mem i reportClock reportTicks expireReason close).bind
      (s.leave [.start i])
  | .addSignal i tss func =>
    s.leave (func.toList.map fun f => .register i tss f) (trsyncAddSignal s.mem i tss func)
  | .trsyncSetTimeout i clock close => s.leave [] (commandTrsyncSetTimeout s.mem i clock close)
  | .trsyncTrigger i reason =>
    (commandTrsyncTrigger s.mem i reason).map (s.triggered i reason.toUInt8)
  | .expireEvent i =>
    (trsyncExpireEvent s.mem i).map (s.triggered i (s.mem.trsyncs i).expireReason)
  | .reportEvent i => some { s with mem := trsyncReportEvent s.mem i }
  | .endstopEvent i reason => (trsyncDoTrigger s.mem i reason).map (s.triggered i reason)
  | .task i clock => some { s with mem := (trsyncTask s.mem i clock).1 }
  | .shutdown => s.runShutdown
  | .clearShutdown => some { s with isShutdown := false }

def step (s : State κ) (a : Action κ) : Option (State κ) := if Enabled s a then run s a else none

def Legal (_ : State κ) (_ : Action κ) : Prop := True

instance (s : State κ) (a : Action κ) : Decidable (Legal s a) := .isTrue trivial

/-- The memory after `n` objects and `k` signals have been allocated. -/
def boot (κ : Type) (n k : Nat) : State κ where
  mem :=
    { trsyncCount := n
      signalCount := k
      trsyncs := fun _ => ⟨⟨0, false⟩, ⟨0, false⟩, 0, none, false, false, 0, 0⟩
      func := fun _ => none
      next := fun _ => none
      wake := false }
  isShutdown := false
  log := []

/-! ## The log of one object -/

/-- The signals that were registered on object `i`. -/
def registered (i : Nat) (log : List (Event κ)) : List (Nat × κ) :=
  log.filterMap fun
    | .register j tss func => if j = i then some (tss, func) else none
    | _ => none

/-- The calls of signals by object `i`, with the reason. -/
def invoked (i : Nat) (log : List (Event κ)) : List (Nat × κ × UInt8) :=
  log.filterMap fun
    | .invoke j tss func reason => if j = i then some (tss, func, reason) else none
    | _ => none

/-- The object that an event is about. -/
def Event.object : Event κ → Option Nat
  | .start i | .register i _ _ | .trigger i _ | .invoke i _ _ _ => some i
  | .shutdown => none

inductive Phase (κ : Type) where
  | off
  | armed (signals : List (Nat × κ))
  | fired (reason : UInt8) (pending : List (Nat × κ))

section Phase

variable [DecidableEq κ]

/-- What an event of the object itself, or a shutdown, may do in a phase. -/
def Phase.own : Phase κ → Event κ → Option (Phase κ)
  | _, .start _ => some (.armed [])
  | .fired _ (_ :: _), .shutdown => none
  | _, .shutdown => some .off
  | .armed l, .register _ tss func =>
    if tss ∈ l.map Prod.fst then none else some (.armed ((tss, func) :: l))
  | .armed l, .trigger _ reason => some (.fired reason l)
  | .fired reason (c :: l), .invoke _ tss func reason' =>
    if c = (tss, func) ∧ reason' = reason then some (.fired reason l) else none
  | _, .invoke _ _ _ _ => none
  | ph, _ => some ph

/-- The phase of object `i` after an event. -/
def Phase.next (i : Nat) (ph : Phase κ) (e : Event κ) : Option (Phase κ) :=
  if e.object = some i ∨ e.object = none then ph.own e else some ph

/-- The phase of object `i` after a log, if the log follows the protocol. -/
def watch (i : Nat) (log : List (Event κ)) : Option (Phase κ) := log.foldlM (Phase.next i) .off

variable {i : Nat} {e : Event κ} {log : List (Event κ)} {ph : Phase κ} {l : List (Nat × κ)}
  {reason : UInt8}

omit [DecidableEq κ] in
lemma invoked_cons (i : Nat) (e : Event κ) (log : List (Event κ)) :
    invoked i (e :: log) = invoked i [e] ++ invoked i log := by
  unfold invoked
  rw [← List.filterMap_append, List.singleton_append]

omit [DecidableEq κ] in
lemma registered_cons (i : Nat) (e : Event κ) (log : List (Event κ)) :
    registered i (e :: log) = registered i [e] ++ registered i log := by
  unfold registered
  rw [← List.filterMap_append, List.singleton_append]

omit [DecidableEq κ] in
lemma notMine (h : ¬ (e.object = some i ∨ e.object = none)) :
    registered i [e] = [] ∧ invoked i [e] = [] := by
  cases e with
  | register j tss func =>
    have hj : j ≠ i := fun hj => h (.inl (congrArg some hj))
    simp [registered, invoked, hj]
  | invoke j tss func reason =>
    have hj : j ≠ i := fun hj => h (.inl (congrArg some hj))
    simp [registered, invoked, hj]
  | _ => exact ⟨rfl, rfl⟩

lemma next_start (i : Nat) (ph : Phase κ) : Phase.next i ph (.start i) = some (.armed []) :=
  (if_pos (Or.inl rfl)).trans (by cases ph <;> rfl)

lemma next_trigger (i : Nat) (l : List (Nat × κ)) (reason : UInt8) :
    Phase.next i (.armed l) (.trigger i reason) = some (.fired reason l) :=
  if_pos (Or.inl rfl)

lemma next_off (hs : e ≠ .start i) (h : Phase.next i .off e = some ph) :
    ph = .off ∧ invoked i [e] = [] := by
  unfold Phase.next at h
  split at h
  · rename_i hmine
    cases e <;> simp_all [Phase.own, invoked, Event.object]
  · rename_i hmine
    cases h
    exact ⟨rfl, (notMine hmine).2⟩

lemma next_armed (hs : e ≠ .start i) (ht : ∀ r, e ≠ .trigger i r) (hd : e ≠ .shutdown)
    (h : Phase.next i (.armed l) e = some ph) :
    ph = .armed ((registered i [e]).reverse ++ l) ∧ invoked i [e] = [] ∧
      ((l.map Prod.fst).Nodup → (((registered i [e]).reverse ++ l).map Prod.fst).Nodup) := by
  unfold Phase.next at h
  split at h
  · rename_i hmine
    cases e with
    | start j => exact absurd hmine (by simp_all [Event.object])
    | trigger j r => exact absurd hmine (by simp_all [Event.object])
    | shutdown => exact absurd rfl hd
    | invoke j tss f r => simp [Phase.own] at h
    | register j tss f =>
      obtain rfl : j = i := by simpa [Event.object] using hmine
      obtain ⟨hfresh, rfl⟩ : tss ∉ l.map Prod.fst ∧ .armed ((tss, f) :: l) = ph := by
        simpa only [Phase.own, Option.ite_none_left_eq_some, Option.some.injEq] using h
      refine ⟨by simp [registered], by simp [invoked], fun hnd => ?_⟩
      simpa [registered] using ⟨by simpa using hfresh, hnd⟩
  · rename_i hmine
    cases h
    obtain ⟨hreg, hinv⟩ := notMine hmine
    rw [hreg]
    exact ⟨rfl, hinv, fun h => h⟩

lemma foldlM_armed (hs : ∀ e ∈ log, e ≠ .start i) (ht : ∀ e ∈ log, ∀ r, e ≠ .trigger i r)
    (hd : ∀ e ∈ log, e ≠ .shutdown) (hnd : (l.map Prod.fst).Nodup)
    (h : log.foldlM (Phase.next i) (.armed l) = some ph) :
    ph = .armed ((registered i log).reverse ++ l) ∧ invoked i log = [] ∧
      (((registered i log).reverse ++ l).map Prod.fst).Nodup := by
  induction log generalizing l with
  | nil =>
    cases h
    exact ⟨rfl, rfl, hnd⟩
  | cons e log ih =>
    rw [List.foldlM_cons] at h
    obtain ⟨ph', he, hrest⟩ := Option.bind_eq_some_iff.mp h
    obtain ⟨rfl, hinv, hkeep⟩ := next_armed (hs e (by simp)) (ht e (by simp)) (hd e (by simp)) he
    obtain ⟨rfl, hinv', hnd'⟩ := ih (fun a ha => hs a (by simp [ha])) (fun a ha => ht a (by simp [ha]))
      (fun a ha => hd a (by simp [ha])) (hkeep hnd) hrest
    rw [registered_cons i e log, invoked_cons i e log, List.reverse_append, List.append_assoc, hinv,
      hinv']
    exact ⟨rfl, rfl, hnd'⟩

lemma foldlM_off (hs : ∀ e ∈ log, e ≠ .start i)
    (h : log.foldlM (Phase.next i) .off = some ph) : ph = .off ∧ invoked i log = [] := by
  induction log with
  | nil =>
    cases h
    exact ⟨rfl, rfl⟩
  | cons e log ih =>
    rw [List.foldlM_cons] at h
    obtain ⟨ph', he, hrest⟩ := Option.bind_eq_some_iff.mp h
    obtain ⟨rfl, hinv⟩ := next_off (hs e (by simp)) he
    obtain ⟨rfl, hinv'⟩ := ih (fun a ha => hs a (by simp [ha])) hrest
    rw [invoked_cons, hinv, hinv']
    exact ⟨rfl, rfl⟩

lemma next_fired (hs : e ≠ .start i) (h : Phase.next i (.fired reason l) e = some ph) :
    (∃ taken rest, l = taken ++ rest ∧ invoked i [e] = taken.map (fun c => (c.1, c.2, reason)) ∧
        ph = .fired reason rest) ∨
      (l = [] ∧ invoked i [e] = [] ∧ e = .shutdown ∧ ph = .off) := by
  unfold Phase.next at h
  split at h
  · rename_i hmine
    cases e with
    | start j => exact absurd hmine (by simp_all [Event.object])
    | trigger j r =>
      refine Or.inl ⟨[], l, rfl, rfl, ?_⟩
      simpa [Phase.own] using h.symm
    | register j tss f =>
      refine Or.inl ⟨[], l, rfl, rfl, ?_⟩
      simpa [Phase.own] using h.symm
    | shutdown =>
      cases l with
      | nil =>
        refine Or.inr ⟨rfl, rfl, rfl, ?_⟩
        simpa [Phase.own] using h.symm
      | cons c l => simp [Phase.own] at h
    | invoke j tss f r =>
      obtain rfl : j = i := by simpa [Event.object] using hmine
      cases l with
      | nil => simp [Phase.own] at h
      | cons c l =>
        obtain ⟨⟨rfl, rfl⟩, rfl⟩ : (c = (tss, f) ∧ r = reason) ∧ .fired reason l = ph := by
          simpa only [Phase.own, Option.ite_none_right_eq_some, Option.some.injEq] using h
        exact Or.inl ⟨[(tss, f)], l, rfl, by simp [invoked], rfl⟩
  · rename_i hmine
    cases h
    exact Or.inl ⟨[], l, rfl, (notMine hmine).2, rfl⟩

lemma foldlM_fired (hs : ∀ e ∈ log, e ≠ .start i)
    (h : log.foldlM (Phase.next i) (.fired reason l) = some ph) :
    ∃ taken rest, l = taken ++ rest ∧ invoked i log = taken.map (fun c => (c.1, c.2, reason)) ∧
      (ph = .fired reason rest ∨ (rest = [] ∧ .shutdown ∈ log ∧ ph = .off)) := by
  induction log generalizing l with
  | nil =>
    cases h
    exact ⟨[], l, rfl, rfl, Or.inl rfl⟩
  | cons e log ih =>
    rw [List.foldlM_cons] at h
    obtain ⟨ph', he, hrest⟩ := Option.bind_eq_some_iff.mp h
    have hs' : ∀ a ∈ log, a ≠ .start i := fun a ha => hs a (by simp [ha])
    rw [invoked_cons]
    rcases next_fired (hs e (by simp)) he with ⟨taken, rest, rfl, hinv, rfl⟩ | ⟨rfl, hinv, rfl, rfl⟩
    · obtain ⟨taken', rest', rfl, hinv', hph⟩ := ih hs' hrest
      refine ⟨taken ++ taken', rest', by simp, by rw [hinv, hinv', List.map_append], ?_⟩
      exact hph.imp_right fun h => ⟨h.1, by simp [h.2.1], h.2.2⟩
    · obtain ⟨rfl, hinv'⟩ := foldlM_off hs' hrest
      exact ⟨[], [], rfl, by rw [hinv, hinv']; rfl, Or.inr ⟨rfl, by simp, rfl⟩⟩

lemma foldlM_untriggered (hs : .start i ∉ log)
    (ht : ∀ pre r post, log = pre ++ .trigger i r :: post → .shutdown ∈ pre)
    (h : log.foldlM (Phase.next i) (.armed l) = some ph) : invoked i log = [] := by
  induction log generalizing l with
  | nil => rfl
  | cons e log ih =>
    rw [List.foldlM_cons] at h
    obtain ⟨ph', he, hrest⟩ := Option.bind_eq_some_iff.mp h
    have hs' : .start i ∉ log := fun hm => hs (by simp [hm])
    rw [invoked_cons]
    by_cases hd : e = .shutdown
    · subst hd
      cases he
      exact (foldlM_off (fun a ha e => hs' (e ▸ ha)) hrest).2
    · have hne : ∀ r, e ≠ .trigger i r := fun r her => by
        have hpre := ht [] r log (by rw [her]; rfl)
        exact absurd hpre List.not_mem_nil
      obtain ⟨rfl, hinv, -⟩ := next_armed (fun her => hs (by simp [her])) hne hd he
      have hrec := ih hs' (fun pre r post hlog => by
        have hpre := ht (e :: pre) r post (by rw [hlog]; rfl)
        exact (List.mem_cons.mp hpre).resolve_left (Ne.symm hd)) hrest
      rw [hinv, hrec]
      rfl

lemma foldlM_own (h : ∀ e ∈ log, e.object = some i) :
    log.foldlM (Phase.next i) ph = log.foldlM Phase.own ph := by
  induction log generalizing ph with
  | nil => rfl
  | cons e log ih =>
    have he : Phase.next i ph e = ph.own e := if_pos (Or.inl (h e (by simp)))
    rw [List.foldlM_cons, List.foldlM_cons, he]
    congr 1
    funext ph'
    exact ih fun a ha => h a (by simp [ha])

lemma foldlM_other {j : Nat} (hj : j ≠ i) (h : ∀ e ∈ log, e.object = some i) :
    log.foldlM (Phase.next j) ph = some ph := by
  induction log with
  | nil => rfl
  | cons e log ih =>
    have he : Phase.next j ph e = some ph := by
      apply if_neg
      rw [h e (by simp)]
      simpa using hj.symm
    rw [List.foldlM_cons, he]
    exact ih fun a ha => h a (by simp [ha])

lemma foldlM_invokes (i : Nat) (reason : UInt8) (l : List (Nat × κ)) :
    (l.map fun c => Event.invoke i c.1 c.2 reason).foldlM Phase.own (.fired reason l) =
      some (.fired reason []) := by
  induction l with
  | nil => rfl
  | cons c l ih =>
    rw [List.map_cons, List.foldlM_cons]
    have hc : Phase.own (.fired reason (c :: l)) (.invoke i c.1 c.2 reason) =
        some (.fired reason l) := if_pos ⟨rfl, rfl⟩
    rw [hc]
    exact ih

lemma watch_append (i : Nat) (log events : List (Event κ)) :
    watch i (log ++ events) = (watch i log).bind (events.foldlM (Phase.next i)) := by
  unfold watch
  rw [List.foldlM_append]
  rfl

end Phase

/-! ## The memory follows the log -/

section Invariant

variable {m m' : Mem κ} {lists lists' : Nat → List Nat} {i j : Nat} {ph ph' : Phase κ}
  {reason : UInt8} {s s' : State κ} {events : List (Event κ)} {ts : Trsync}

/-- The memory of object `i` in a phase between two calls. -/
def Agrees (m : Mem κ) (lists : Nat → List Nat) (i : Nat) : Phase κ → Prop
  | .off => (m.trsyncs i).canTrigger = false
  | .armed l => (m.trsyncs i).canTrigger = true ∧ m.calls (lists i) = l
  | .fired reason pending =>
    (m.trsyncs i).canTrigger = false ∧ (m.trsyncs i).triggerReason = reason ∧ pending = []

lemma Agrees.congr (h : Agrees m lists i ph)
    (hc : (m'.trsyncs i).canTrigger = (m.trsyncs i).canTrigger)
    (hr : (m'.trsyncs i).triggerReason = (m.trsyncs i).triggerReason)
    (hl : m'.calls (lists' i) = m.calls (lists i)) : Agrees m' lists' i ph := by
  cases ph with
  | off => exact hc.trans h
  | armed l => exact ⟨hc.trans h.1, hl.trans h.2⟩
  | fired r pending => exact ⟨hc.trans h.1, hr.trans h.2.1, h.2.2⟩

lemma Agrees.of_eq (h : Agrees m lists j ph) (hts : m'.trsyncs j = m.trsyncs j)
    (hl : m'.calls (lists' j) = m.calls (lists j)) : Agrees m' lists' j ph :=
  h.congr (congrArg Trsync.canTrigger hts) (congrArg Trsync.triggerReason hts) hl

variable [DecidableEq κ]

structure Inv (n : Nat) (s : State κ) : Prop where
  count : s.mem.trsyncCount = n
  listed : ∃ lists, Listed s.mem lists ∧
    ∀ i < n, ∃ ph, watch i s.log = some ph ∧ Agrees s.mem lists i ph

lemma Listed.advance {n : Nat} (hlisted : Listed m' lists') (i : Nat) (hcount : m'.trsyncCount = n)
    (hphase : ∀ i < n, ∃ ph, watch i s.log = some ph ∧ Agrees m lists i ph)
    (hevents : ∀ e ∈ events, e.object = some i)
    (hother : ∀ j ph, j ≠ i → Agrees m lists j ph → Agrees m' lists' j ph)
    (hown : ∀ ph, Agrees m lists i ph → ∃ ph', events.foldlM Phase.own ph = some ph' ∧
      Agrees m' lists' i ph') (down : Bool) :
    Inv n { mem := m', isShutdown := down, log := s.log ++ events } := by
  refine ⟨hcount, lists', hlisted, fun j hj => ?_⟩
  obtain ⟨ph, hw, ha⟩ := hphase j hj
  by_cases hji : j = i
  · subst hji
    obtain ⟨ph', hfold, ha'⟩ := hown ph ha
    refine ⟨ph', ?_, ha'⟩
    rw [watch_append, hw, Option.bind_some, foldlM_own hevents, hfold]
  · refine ⟨ph, ?_, hother j ph hji ha⟩
    rw [watch_append, hw, Option.bind_some, foldlM_other hji hevents]

lemma Inv.set {n : Nat} (h : Inv n s) (i : Nat) (ts : Trsync) (hl : ts.signals = (s.mem.trsyncs i).signals)
    (hc : ts.canTrigger = (s.mem.trsyncs i).canTrigger)
    (hr : ts.triggerReason = (s.mem.trsyncs i).triggerReason) (wake : Bool) :
    Inv n { s with mem := { s.mem.set i ts with wake := wake } } := by
  obtain ⟨hcount, lists, hlisted, hphase⟩ := h
  have hset := hlisted.set i hl
  refine ⟨hcount, lists, ⟨hset.seg, hset.bound, hset.disjoint, hset.func, hset.configured⟩, ?_⟩
  intro j hj
  obtain ⟨ph, hw, ha⟩ := hphase j hj
  refine ⟨ph, hw, ?_⟩
  by_cases hji : j = i
  · subst hji
    apply ha.congr
    · exact congrArg Trsync.canTrigger (set_trsyncs_self s.mem j ts) |>.trans hc
    · exact congrArg Trsync.triggerReason (set_trsyncs_self s.mem j ts) |>.trans hr
    · rfl
  · exact ha.of_eq (set_trsyncs_of_ne _ hji _) rfl

lemma Inv.runShutdown {n : Nat} (hcount : m.trsyncCount = n) (hlisted : Listed m lists')
    (hphase : ∀ i < n, ∃ ph, watch i s.log = some ph ∧ Agrees s.mem lists i ph) :
    ∃ s', { s with mem := m }.runShutdown = some s' ∧ Inv n s' := by
  obtain ⟨m', lists₁, hs, hl, hcount', hoff⟩ := hlisted.trsyncShutdown m.trsyncCount
  refine ⟨{ mem := m', isShutdown := true, log := s.log ++ [.shutdown] }, ?_,
    hcount'.trans hcount, lists₁, hl, ?_⟩
  · simp only [State.runShutdown, hs, Option.map_some]
  · intro i hi
    obtain ⟨ph, hw, ha⟩ := hphase i hi
    refine ⟨.off, ?_, hoff i (by rwa [hcount])⟩
    have hown : Phase.next i ph .shutdown = some .off := by
      cases ph with
      | off => rfl
      | armed l => rfl
      | fired r pending =>
        rw [ha.2.2]
        rfl
    rw [watch_append, hw, Option.bind_some, List.foldlM_cons, hown]
    rfl

lemma Listed.fired {n : Nat} (hlisted : Listed s.mem lists) (hcount : s.mem.trsyncCount = n)
    (hphase : ∀ i < n, ∃ ph, watch i s.log = some ph ∧ Agrees s.mem lists i ph)
    (hcan : (s.mem.trsyncs i).canTrigger = true) (hl : ts.signals = none)
    (hc : ts.canTrigger = false) (hr : ts.triggerReason = reason) :
    Inv n (s.triggered i reason
      ({ (s.mem.forget (lists i)).set i ts with wake := true }, s.mem.calls (lists i))) := by
  have hset := hlisted.forget i hl
  have hwake : Listed { (s.mem.forget (lists i)).set i ts with wake := true }
      (Function.update lists i []) :=
    ⟨hset.seg, hset.bound, hset.disjoint, hset.func, hset.configured⟩
  apply hwake.advance i hcount hphase
  · intro e he
    rcases List.mem_cons.mp he with rfl | he
    · rfl
    · obtain ⟨c, -, rfl⟩ := List.mem_map.mp he
      rfl
  · intro j ph hji ha
    apply ha.of_eq
    · exact set_trsyncs_of_ne _ hji ts
    · rw [Function.update_of_ne hji]
      exact hlisted.calls_forget hji
  · intro ph ha
    cases ph with
    | off => exact absurd hcan (Bool.eq_false_iff.mp ha)
    | fired r pending => exact absurd hcan (Bool.eq_false_iff.mp ha.1)
    | armed l =>
      refine ⟨.fired reason [], ?_, ?_⟩
      · rw [ha.2]
        exact foldlM_invokes i reason l
      · have hself := set_trsyncs_self (s.mem.forget (lists i)) i ts
        exact ⟨(congrArg Trsync.canTrigger hself).trans hc,
          (congrArg Trsync.triggerReason hself).trans hr, rfl⟩

lemma Listed.ignored {n : Nat} (hlisted : Listed s.mem lists) (hcount : s.mem.trsyncCount = n)
    (hphase : ∀ i < n, ∃ ph, watch i s.log = some ph ∧ Agrees s.mem lists i ph)
    (hcan : (s.mem.trsyncs i).canTrigger = false) (hl : ts.signals = (s.mem.trsyncs i).signals)
    (hc : ts.canTrigger = false) (hr : ts.triggerReason = (s.mem.trsyncs i).triggerReason)
    (reason : UInt8) : Inv n (s.triggered i reason (s.mem.set i ts, [])) := by
  apply (hlisted.set i hl).advance i hcount hphase
  · simp [Event.object]
  · intro j ph hji ha
    exact ha.of_eq (set_trsyncs_of_ne _ hji _) rfl
  · intro ph ha
    have hself := set_trsyncs_self s.mem i ts
    have hagree : Agrees (s.mem.set i ts) lists i ph := by
      apply ha.congr
      · exact (congrArg Trsync.canTrigger hself).trans (hc.trans hcan.symm)
      · exact (congrArg Trsync.triggerReason hself).trans hr
      · rfl
    refine ⟨ph, ?_, hagree⟩
    cases ph with
    | off => rfl
    | fired r pending =>
      obtain ⟨-, -, rfl⟩ := ha
      rfl
    | armed l => exact absurd ha.1 (Bool.eq_false_iff.mp hcan)

lemma Inv.triggered {n : Nat} (h : Inv n s) (i : Nat) (reason : UInt8) :
    ∃ r, trsyncDoTrigger s.mem i reason = some r ∧ (r.1.trsyncs i).canTrigger = false ∧
      ∀ ts : Trsync, ts.signals = (r.1.trsyncs i).signals → ts.canTrigger = false →
        ts.triggerReason = (r.1.trsyncs i).triggerReason →
        Inv n (s.triggered i reason (r.1.set i ts, r.2)) := by
  obtain ⟨hcount, lists, hlisted, hphase⟩ := h
  rw [hlisted.trsyncDoTrigger_eq i reason]
  split
  · rename_i hcan
    have hobj : ({ (s.mem.forget (lists i)).set i ((s.mem.trsyncs i).doTrigger reason) with
        wake := true } : Mem κ).trsyncs i =
          { (s.mem.trsyncs i).fire reason with signals := none } := by
      rw [Trsync.doTrigger, if_pos hcan]
      exact set_trsyncs_self _ _ _
    refine ⟨_, rfl, by rw [hobj]; rfl, fun ts hl hc hr => ?_⟩
    rw [hobj] at hl hr
    dsimp only
    rw [set_wake]
    exact hlisted.fired hcount hphase hcan hl hc hr
  · rename_i hcan
    have hoff : (s.mem.trsyncs i).canTrigger = false := Bool.not_eq_true _ ▸ hcan
    exact ⟨_, rfl, hoff, fun ts hl hc hr => hlisted.ignored hcount hphase hoff hl hc hr reason⟩

lemma Inv.trsyncStart {n : Nat} (h : Inv n s) (i : Nat)
    (reportClock reportTicks expireReason : UInt32) (close : Bool) :
    ∃ s', run s (.trsyncStart i reportClock reportTicks expireReason close) = some s' ∧
      Inv n s' := by
  obtain ⟨hcount, lists, hlisted, hphase⟩ := h
  simp only [run, commandTrsyncStart, hlisted.trsyncClear_eq i, Option.map_some, Option.bind_some,
    set_trsyncs_self]
  cases hs : (s.mem.trsyncs i).clear.start reportClock reportTicks expireReason close with
  | error ts =>
    have hl : ts.signals = none := by
      unfold Trsync.start at hs
      grind [Trsync.clear]
    dsimp only
    rw [set_set]
    exact Inv.runShutdown hcount (hlisted.forget i hl) hphase
  | ok ts =>
    have hl : ts.signals = none ∧ ts.canTrigger = true := by
      unfold Trsync.start at hs
      grind [Trsync.clear]
    dsimp only
    rw [set_set]
    refine ⟨_, rfl, ?_⟩
    apply (hlisted.forget i hl.1).advance i hcount hphase
    · simp [Event.object]
    · intro j ph hji ha
      apply ha.of_eq
      · exact set_trsyncs_of_ne _ hji ts
      · rw [Function.update_of_ne hji]
        exact hlisted.calls_forget hji
    · intro ph ha
      refine ⟨.armed [], by cases ph <;> rfl, ?_, ?_⟩
      · rw [set_trsyncs_self]
        exact hl.2
      · rw [Function.update_self]
        rfl

lemma Listed.registered {n : Nat} {tss : Nat} {f : κ} (hlisted : Listed s.mem lists)
    (hcount : s.mem.trsyncCount = n)
    (hphase : ∀ i < n, ∃ ph, watch i s.log = some ph ∧ Agrees s.mem lists i ph)
    (hfresh : ∀ j, tss ∉ lists j) (hi : i < s.mem.trsyncCount) (ht : tss < s.mem.signalCount)
    (ha : Trigger.trsyncAddSignal s.mem i tss (some f) = .ok m) (down : Bool) :
    Inv n { mem := m, isShutdown := down, log := s.log ++ [.register i tss f] } := by
  have hadd := hlisted.trsyncAddSignal hi ht ha
  have hm := trsyncAddSignal_eq ha
  subst hm
  have hcalls : ∀ j, ({ s.mem with func := Function.update s.mem.func tss (some f) } : Mem κ).calls
      (lists j) = s.mem.calls (lists j) := fun j => calls_update_func (hfresh j)
  apply hadd.advance i hcount hphase
  · simp [Event.object]
  · intro j ph hji ha
    apply ha.of_eq
    · exact set_trsyncs_of_ne _ hji _
    · rw [Function.update_of_ne hji]
      exact hcalls j
  · intro ph ha
    have hself := set_trsyncs_self { s.mem with
      func := Function.update s.mem.func tss (some f)
      next := Function.update s.mem.next tss (s.mem.trsyncs i).signals } i
      { s.mem.trsyncs i with signals := some tss }
    cases ph with
    | off => exact ⟨.off, rfl, (congrArg Trsync.canTrigger hself).trans ha⟩
    | fired r pending =>
      obtain ⟨hc, hr, rfl⟩ := ha
      exact ⟨.fired r [], rfl, (congrArg Trsync.canTrigger hself).trans hc,
        (congrArg Trsync.triggerReason hself).trans hr, rfl⟩
    | armed l =>
      have hl : tss ∉ l.map Prod.fst := by
        rw [← ha.2, hlisted.calls_map_fst]
        exact hfresh i
      refine ⟨.armed ((tss, f) :: l), ?_, (congrArg Trsync.canTrigger hself).trans ha.1, ?_⟩
      · rw [List.foldlM_cons]
        exact congrArg (· >>= _) (if_neg hl)
      · rw [Function.update_self, ← ha.2, ← hcalls i]
        simp [Mem.calls, Mem.set]

lemma Inv.addSignal {n : Nat} (h : Inv n s) {tss : Nat} (hi : i < s.mem.trsyncCount)
    (ht : tss < s.mem.signalCount) (func : Option κ) :
    ∃ s', run s (.addSignal i tss func) = some s' ∧ Inv n s' := by
  obtain ⟨hcount, lists, hlisted, hphase⟩ := h
  simp only [run]
  cases ha : trsyncAddSignal s.mem i tss func with
  | error m =>
    have hm : m = s.mem := by
      unfold trsyncAddSignal at ha
      grind
    subst hm
    exact Inv.runShutdown hcount hlisted hphase
  | ok m =>
    obtain ⟨hnone, f, rfl⟩ : s.mem.func tss = none ∧ ∃ f, func = some f := by
      unfold trsyncAddSignal at ha
      cases hf : s.mem.func tss <;> cases func <;> simp_all
    have hfresh : ∀ j, tss ∉ lists j := fun j hj => by
      have hsome := (hlisted.func tss).mpr ⟨j, hj⟩
      rw [hnone] at hsome
      cases hsome
    exact ⟨_, rfl, hlisted.registered hcount hphase hfresh hi ht ha s.isShutdown⟩

lemma Inv.trsyncSetTimeout {n : Nat} (h : Inv n s) (i : Nat) (clock : UInt32) (close : Bool) :
    ∃ s', run s (.trsyncSetTimeout i clock close) = some s' ∧ Inv n s' := by
  simp only [run, commandTrsyncSetTimeout]
  cases hs : (s.mem.trsyncs i).setTimeout clock close with
  | error ts =>
    have hl : ts.signals = (s.mem.trsyncs i).signals := by
      unfold Trsync.setTimeout at hs
      grind
    obtain ⟨hcount, lists, hlisted, hphase⟩ := h
    exact Inv.runShutdown hcount (hlisted.set i hl) hphase
  | ok ts =>
    have hl : ts.signals = (s.mem.trsyncs i).signals ∧
        ts.canTrigger = (s.mem.trsyncs i).canTrigger ∧
        ts.triggerReason = (s.mem.trsyncs i).triggerReason := by
      unfold Trsync.setTimeout at hs
      grind
    refine ⟨{ s with mem := s.mem.set i ts }, by simp [State.leave], ?_⟩
    exact h.set i ts hl.1 hl.2.1 hl.2.2 s.mem.wake

lemma inv_run {n : Nat} (h : Inv n s) {a : Action κ} (ha : Enabled s a) :
    ∃ s', run s a = some s' ∧ Inv n s' := by
  cases a with
  | trsyncStart i reportClock reportTicks expireReason close =>
    exact h.trsyncStart i reportClock reportTicks expireReason close
  | addSignal i tss func => exact h.addSignal ha.2.1 ha.2.2 func
  | trsyncSetTimeout i clock close => exact h.trsyncSetTimeout i clock close
  | trsyncTrigger i reason =>
    obtain ⟨r, hr, -, hinv⟩ := h.triggered i reason.toUInt8
    refine ⟨_, ?_, hinv (r.1.trsyncs i).quiet rfl rfl rfl⟩
    simp only [run, commandTrsyncTrigger, hr, Option.map_some]
  | expireEvent i =>
    obtain ⟨r, hr, hoff, hinv⟩ := h.triggered i (s.mem.trsyncs i).expireReason
    refine ⟨_, ?_, hinv { r.1.trsyncs i with expireTime := (r.1.trsyncs i).expireTime.delete }
      rfl hoff rfl⟩
    simp only [run, trsyncExpireEvent, hr, Option.map_some]
  | reportEvent i => exact ⟨_, rfl, h.set i (s.mem.trsyncs i).reportEvent rfl rfl rfl true⟩
  | endstopEvent i reason =>
    obtain ⟨r, hr, hoff, hinv⟩ := h.triggered i reason
    refine ⟨_, ?_, hinv (r.1.trsyncs i) rfl hoff rfl⟩
    simp [run, hr, Mem.set]
  | task i clock =>
    refine ⟨_, rfl, ?_⟩
    simp only [trsyncTask]
    split
    · exact h.set i ((s.mem.trsyncs i).takeReport clock).1 rfl rfl rfl s.mem.wake
    · exact h
  | shutdown =>
    obtain ⟨hcount, lists, hlisted, hphase⟩ := h
    exact Inv.runShutdown hcount hlisted hphase
  | clearShutdown => exact ⟨_, rfl, h.count, h.listed⟩

lemma inv_boot (κ : Type) [DecidableEq κ] (n k : Nat) : Inv n (boot κ n k) where
  count := rfl
  listed := by
    refine ⟨fun _ => [], ⟨by simp [boot], by simp, by simp, by simp [boot], by simp⟩, ?_⟩
    intro i _
    exact ⟨.off, rfl, rfl⟩

lemma inv_of_run {n k : Nat} {actions : List (Action κ)}
    (h : Run step Legal (boot κ n k) actions s) : Inv n s := by
  apply h.invariant (inv_boot κ n k)
  intro s a s' hi _ hs
  obtain ⟨ha, hs⟩ := Option.ite_none_right_eq_some.mp hs
  obtain ⟨s₁, hrun, hinv⟩ := inv_run hi ha
  rw [hs] at hrun
  cases hrun
  exact hinv

/-- No action is stuck in a loop of trsync.c. -/
theorem step_of_enabled {n k : Nat} {actions : List (Action κ)}
    (h : Run step Legal (boot κ n k) actions s) {a : Action κ} (ha : Enabled s a) :
    ∃ s', step s a = some s' := by
  obtain ⟨s', hs, -⟩ := inv_run (inv_of_run h) ha
  exact ⟨s', (if_pos ha).trans hs⟩

/-- The trigger of an object with two signals. -/
theorem step_of_enabled_trigger : ∃ s s' : State Unit, Run step Legal (boot Unit 1 2)
    [.trsyncStart 0 0 0 2 false, .addSignal 0 0 (some ()), .addSignal 0 1 (some ())] s ∧
    step s (.trsyncTrigger 0 4) = some s' := by
  obtain ⟨s, hs, ha⟩ : ∃ s : State Unit, Run step Legal (boot Unit 1 2)
      [.trsyncStart 0 0 0 2 false, .addSignal 0 0 (some ()), .addSignal 0 1 (some ())] s ∧
      decide (Enabled s (.trsyncTrigger 0 4)) = true :=
    Run.exists_of_exec _ _ (by decide +kernel)
  obtain ⟨s', hstep⟩ := step_of_enabled hs (of_decide_eq_true ha)
  exact ⟨s, s', hs, hstep⟩

end Invariant

/-- A signal is active exactly when it is on the list of one object. From a start of object `i` on,
nothing is called unless a trigger comes before a shutdown. The first trigger then fixes the reason
and calls the signals registered since the start, each once. Later triggers change nothing. -/
theorem trsync_triggers_once {n k : Nat} {actions : List (Action κ)} {s : State κ}
    (h : Run step Legal (boot κ n k) actions s) :
    (∀ tss, ((s.mem.func tss).isSome = true ↔ ∃! i, i < n ∧ OnList s.mem i tss) ∧
      (s.mem.func tss = none → ∀ i < n, ¬ OnList s.mem i tss)) ∧
    ∀ i < n, ∀ before since, s.log = before ++ .start i :: since → .start i ∉ since →
      ((∀ pre r post, since = pre ++ .trigger i r :: post → .shutdown ∈ pre) →
        invoked i since = []) ∧
      ∀ pre r post, since = pre ++ .trigger i r :: post → (∀ r', .trigger i r' ∉ pre) →
        .shutdown ∉ pre →
          invoked i pre = [] ∧ ((registered i pre).map Prod.fst).Nodup ∧
          invoked i post = (registered i pre).reverse.map (fun c => (c.1, c.2, r)) ∧
          (.shutdown ∉ post → (s.mem.trsyncs i).triggerReason = r) := by
  classical
  obtain ⟨hcount, lists, hlisted, hphase⟩ := inv_of_run h
  refine ⟨fun tss => ⟨⟨fun hf => ?_, fun hex => ?_⟩, fun hf i _ hon => ?_⟩, ?_⟩
  · obtain ⟨i, hi⟩ := (hlisted.func tss).mp hf
    refine ⟨i, ⟨Nat.lt_of_not_le fun hle => ?_, hlisted.onList.mpr hi⟩, ?_⟩
    · rw [hlisted.configured i (hcount ▸ hle)] at hi
      exact absurd hi List.not_mem_nil
    · rintro j ⟨-, hj⟩
      exact hlisted.disjoint j i tss (hlisted.onList.mp hj) hi
  · obtain ⟨i, ⟨-, hon⟩, -⟩ := hex
    exact (hlisted.func tss).mpr ⟨i, hlisted.onList.mp hon⟩
  · have hsome := (hlisted.func tss).mpr ⟨i, hlisted.onList.mp hon⟩
    rw [hf] at hsome
    exact absurd hsome Bool.false_ne_true
  · intro i hi before since hlog hstart
    obtain ⟨ph, hw, ha⟩ := hphase i hi
    rw [hlog, watch_append] at hw
    obtain ⟨ph₀, -, hw⟩ := Option.bind_eq_some_iff.mp hw
    rw [List.foldlM_cons, next_start, Option.bind_eq_bind, Option.bind_some] at hw
    refine ⟨fun hnone => foldlM_untriggered hstart hnone hw, ?_⟩
    rintro pre r post rfl hfirst hdown
    have hpre : ∀ e ∈ pre, e ≠ .start i := fun e he her => hstart (by simp [← her, he])
    have hpost : ∀ e ∈ post, e ≠ .start i := fun e he her => hstart (by simp [← her, he])
    rw [List.foldlM_append] at hw
    obtain ⟨ph₁, hw₁, hw₂⟩ := Option.bind_eq_some_iff.mp hw
    obtain ⟨rfl, hinv, hnd⟩ := foldlM_armed hpre (fun e he r' her => hfirst r' (her ▸ he))
      (fun e he her => hdown (her ▸ he)) (by simp) hw₁
    rw [List.append_nil] at hnd hw₂
    rw [List.foldlM_cons, next_trigger, Option.bind_eq_bind, Option.bind_some] at hw₂
    obtain ⟨taken, rest, hsplit, hcalls, hend⟩ := foldlM_fired hpost hw₂
    have hdone : rest = [] ∧ (.shutdown ∉ post → (s.mem.trsyncs i).triggerReason = r) := by
      rcases hend with rfl | ⟨hrest, hmem, rfl⟩
      · exact ⟨ha.2.2, fun _ => ha.2.1⟩
      · exact ⟨hrest, fun hn => absurd hmem hn⟩
    refine ⟨hinv, ?_, ?_, hdone.2⟩
    · rwa [List.map_reverse, List.nodup_reverse] at hnd
    · rw [hcalls, hsplit, hdone.1, List.append_nil]

/-- An endstop triggers before the timeout and the command of the host. -/
def endstopFirst : List (Action Unit) :=
  [.trsyncStart 0 0 0 2 false, .addSignal 0 0 (some ()), .addSignal 0 1 (some ()),
    .trsyncSetTimeout 0 100 false, .endstopEvent 0 1, .expireEvent 0, .trsyncTrigger 0 4]

theorem trsync_triggers_once_endstopFirst :
    ∃ s, Run step Legal (boot Unit 1 2) endstopFirst s ∧
      invoked 0 s.log = [(1, (), 1), (0, (), 1)] ∧ (s.mem.trsyncs 0).triggerReason = 1 := by
  obtain ⟨s, hs, hp⟩ : ∃ s, Run step Legal (boot Unit 1 2) endstopFirst s ∧
      decide (s.log = [] ++ .start 0 :: ([.register 0 0 (), .register 0 1 ()] ++ .trigger 0 1 ::
        [.invoke 0 1 () 1, .invoke 0 0 () 1, .trigger 0 2, .trigger 0 4])) = true :=
    Run.exists_of_exec endstopFirst _ (by decide +kernel)
  have hlog := of_decide_eq_true hp
  obtain ⟨-, hall⟩ := trsync_triggers_once hs
  obtain ⟨-, hreason⟩ := hall 0 (by decide) _ _ hlog (by decide)
  obtain ⟨-, -, -, hr⟩ := hreason _ _ _ rfl (by simp) (by decide)
  exact ⟨s, hs, by rw [hlog]; rfl, hr (by decide)⟩

end KlipperMcu.Trigger
