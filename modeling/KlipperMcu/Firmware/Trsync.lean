import KlipperMcu.Lib.Chain
import Mathlib.Tactic.Common

/-!
# Trigger synchronisation

The functions of trsync.c. Signals are nodes of intrusive lists that start at a `struct trsync`,
numbered by address. A function that shuts down returns the memory it leaves behind. The callbacks
of signals do not touch this memory. `κ` is the type of their function pointers.
-/

namespace KlipperMcu.Trigger

open Lib

/-- A `struct timer` and whether it is on the timer list. -/
structure Timer where
  waketime : UInt32
  scheduled : Bool
deriving DecidableEq, Repr

/-- `struct trsync` with the flags of its `flags` field. -/
structure Trsync where
  reportTime : Timer
  expireTime : Timer
  reportTicks : UInt32
  signals : Option Nat
  canTrigger : Bool
  report : Bool
  triggerReason : UInt8
  expireReason : UInt8
deriving DecidableEq, Repr

/-- All objects, the fields of all signals, and `trsync_wake`. -/
structure Mem (κ : Type) where
  trsyncCount : Nat
  signalCount : Nat
  trsyncs : Nat → Trsync
  func : Nat → Option κ
  next : Nat → Option Nat
  wake : Bool

/-- The fields of a `trsync_state` message, its `oid` apart. -/
structure TrsyncState where
  canTrigger : Bool
  triggerReason : UInt8
  clock : UInt32
deriving DecidableEq, Repr

section Object

/-! ## The fields of one object -/

def Timer.delete (t : Timer) : Timer := { t with scheduled := false }

/-- The flags and the reason that `trsync_do_trigger` sets before it calls the signals. -/
def Trsync.fire (ts : Trsync) (reason : UInt8) : Trsync :=
  { ts with triggerReason := reason, canTrigger := false, report := true }

/-- The object after `trsync_do_trigger`. -/
def Trsync.doTrigger (ts : Trsync) (reason : UInt8) : Trsync :=
  if ts.canTrigger then { ts.fire reason with signals := none } else ts

/-- The object after `trsync_clear`. -/
def Trsync.clear (ts : Trsync) : Trsync :=
  { ts with
    reportTime := ts.reportTime.delete
    expireTime := ts.expireTime.delete
    signals := none
    canTrigger := false
    report := false
    triggerReason := 0
    expireReason := 0 }

/-- `command_trsync_start` after `trsync_clear`. `close` tells whether the time has passed when
the timer is added. -/
def Trsync.start (ts : Trsync) (reportClock reportTicks expireReason : UInt32) (close : Bool) :
    Except Trsync Trsync :=
  let ts := { ts with
    canTrigger := true
    reportTime := { ts.reportTime with waketime := reportClock }
    reportTicks := reportTicks }
  let add := decide (reportTicks ≠ 0)
  if add && close then .error ts
  else .ok { ts with
    reportTime := { ts.reportTime with scheduled := add || ts.reportTime.scheduled }
    expireReason := expireReason.toUInt8 }

/-- `command_trsync_set_timeout`. -/
def Trsync.setTimeout (ts : Trsync) (clock : UInt32) (close : Bool) : Except Trsync Trsync :=
  if ts.canTrigger then
    if close then .error { ts with expireTime := ⟨clock, false⟩ }
    else .ok { ts with expireTime := ⟨clock, true⟩ }
  else .ok ts

/-- What `command_trsync_trigger` does after `trsync_do_trigger`. -/
def Trsync.quiet (ts : Trsync) : Trsync :=
  { ts with
    reportTime := ts.reportTime.delete
    expireTime := ts.expireTime.delete
    canTrigger := false
    report := false }

/-- `trsync_report_event`. -/
def Trsync.reportEvent (ts : Trsync) : Trsync :=
  { ts with
    report := true
    reportTime := { ts.reportTime with waketime := ts.reportTime.waketime + ts.reportTicks } }

/-- The message that `trsync_task` sends for an object at time `clock`, and the object after it. -/
def Trsync.takeReport (ts : Trsync) (clock : UInt32) : Trsync × TrsyncState :=
  ({ ts with report := false }, ⟨ts.canTrigger, ts.triggerReason, clock⟩)

end Object

variable {κ : Type}

def Mem.set (m : Mem κ) (i : Nat) (ts : Trsync) : Mem κ :=
  { m with trsyncs := Function.update m.trsyncs i ts }

/-- Clears both fields of a signal. -/
def Mem.unlink (m : Mem κ) (tss : Nat) : Mem κ :=
  { m with func := Function.update m.func tss none, next := Function.update m.next tss none }

/-- The loop of `trsync_do_trigger` with the signals it calls. It is `none` when it calls a null
pointer or does not end within `fuel` rounds. -/
def dispatchSignals (fuel : Nat) (m : Mem κ) (i : Nat) : Option (Mem κ × List (Nat × κ)) :=
  match (m.trsyncs i).signals with
  | none => some (m, [])
  | some tss =>
    match fuel with
    | 0 => none
    | fuel + 1 =>
      match m.func tss with
      | none => none
      | some func =>
        (dispatchSignals fuel
          ((m.unlink tss).set i { m.trsyncs i with signals := m.next tss }) i).map
          fun r => (r.1, (tss, func) :: r.2)

/-- `trsync_do_trigger` with the signals it calls. -/
def trsyncDoTrigger (m : Mem κ) (i : Nat) (reason : UInt8) : Option (Mem κ × List (Nat × κ)) :=
  if (m.trsyncs i).canTrigger then
    (dispatchSignals m.signalCount (m.set i ((m.trsyncs i).fire reason)) i).map
      fun r => ({ r.1 with wake := true }, r.2)
  else some (m, [])

/-- `trsync_expire_event`, after which its timer is done. -/
def trsyncExpireEvent (m : Mem κ) (i : Nat) : Option (Mem κ × List (Nat × κ)) :=
  (trsyncDoTrigger m i (m.trsyncs i).expireReason).map fun r =>
    (r.1.set i { r.1.trsyncs i with expireTime := (r.1.trsyncs i).expireTime.delete }, r.2)

def trsyncReportEvent (m : Mem κ) (i : Nat) : Mem κ :=
  { m.set i (m.trsyncs i).reportEvent with wake := true }

def trsyncAddSignal (m : Mem κ) (i tss : Nat) (func : Option κ) : Except (Mem κ) (Mem κ) :=
  if (m.func tss).isSome || func.isNone then .error m
  else .ok ({ m with
    func := Function.update m.func tss func
    next := Function.update m.next tss (m.trsyncs i).signals }.set i
      { m.trsyncs i with signals := some tss })

/-- The loop of `trsync_clear`. It is `none` when it does not end within `fuel` rounds. -/
def clearSignals : Nat → Mem κ → Option Nat → Option (Mem κ)
  | _, m, none => some m
  | 0, _, some _ => none
  | fuel + 1, m, some tss => clearSignals fuel (m.unlink tss) (m.next tss)

def trsyncClear (m : Mem κ) (i : Nat) : Option (Mem κ) :=
  (clearSignals m.signalCount m (m.trsyncs i).signals).map
    fun m => m.set i (m.trsyncs i).clear

def commandTrsyncStart (m : Mem κ) (i : Nat) (reportClock reportTicks expireReason : UInt32)
    (close : Bool) : Option (Except (Mem κ) (Mem κ)) :=
  (trsyncClear m i).map fun m =>
    match (m.trsyncs i).start reportClock reportTicks expireReason close with
    | .error ts => .error (m.set i ts)
    | .ok ts => .ok (m.set i ts)

def commandTrsyncSetTimeout (m : Mem κ) (i : Nat) (clock : UInt32) (close : Bool) :
    Except (Mem κ) (Mem κ) :=
  match (m.trsyncs i).setTimeout clock close with
  | .error ts => .error (m.set i ts)
  | .ok ts => .ok (m.set i ts)

/-- `command_trsync_trigger` up to its report. -/
def commandTrsyncTrigger (m : Mem κ) (i : Nat) (reason : UInt32) :
    Option (Mem κ × List (Nat × κ)) :=
  (trsyncDoTrigger m i reason.toUInt8).map fun r => (r.1.set i (r.1.trsyncs i).quiet, r.2)

/-- The part of `trsync_task` that handles one object. -/
def trsyncTask (m : Mem κ) (i : Nat) (clock : UInt32) : Mem κ × Option TrsyncState :=
  if (m.trsyncs i).report then
    let (ts, msg) := (m.trsyncs i).takeReport clock
    (m.set i ts, some msg)
  else (m, none)

/-- `trsync_shutdown` on the first `n` objects. -/
def trsyncShutdown : Nat → Mem κ → Option (Mem κ)
  | 0, m => some m
  | n + 1, m => (trsyncShutdown n m).bind fun m => trsyncClear m n

/-! ## The lists of signals -/

/-- The signal is on the list of object `i`. -/
def OnList (m : Mem κ) (i tss : Nat) : Prop :=
  ∃ l, Seg m.next (m.trsyncs i).signals l none ∧ tss ∈ l

/-- The objects hold the signals `lists`, and those are the active ones. -/
structure Listed (m : Mem κ) (lists : Nat → List Nat) : Prop where
  seg : ∀ i, Seg m.next (m.trsyncs i).signals (lists i) none
  bound : ∀ i, ∀ a ∈ lists i, a < m.signalCount
  disjoint : ∀ i j a, a ∈ lists i → a ∈ lists j → i = j
  func : ∀ a, (m.func a).isSome = true ↔ ∃ i, a ∈ lists i
  configured : ∀ i, m.trsyncCount ≤ i → lists i = []

/-- Clears the fields of all signals in `l`. -/
def Mem.forget (m : Mem κ) (l : List Nat) : Mem κ :=
  { m with
    func := fun a => if a ∈ l then none else m.func a
    next := fun a => if a ∈ l then none else m.next a }

/-- The signals of `l` with their callbacks. -/
def Mem.calls (m : Mem κ) (l : List Nat) : List (Nat × κ) :=
  l.filterMap fun a => (m.func a).map fun f => (a, f)

section Lists

variable {m m' : Mem κ} {lists : Nat → List Nat} {l : List Nat} {p : Option Nat}
  {i j fuel tss : Nat} {ts : Trsync} {f : κ}

@[simp] lemma forget_nil (m : Mem κ) : m.forget [] = m := by
  simp [Mem.forget]

lemma unlink_forget (m : Mem κ) (a : Nat) (l : List Nat) :
    (m.unlink a).forget l = m.forget (a :: l) := by
  unfold Mem.unlink Mem.forget
  congr 1
  · funext b
    by_cases hb : b = a <;> simp [hb]
  · funext b
    by_cases hb : b = a <;> simp [hb]

@[simp] lemma set_set (m : Mem κ) (i : Nat) (ts ts' : Trsync) : (m.set i ts).set i ts' = m.set i ts' := by
  simp [Mem.set]

@[simp] lemma set_trsyncs_self (m : Mem κ) (i : Nat) (ts : Trsync) : (m.set i ts).trsyncs i = ts := by
  simp [Mem.set]

lemma set_trsyncs_of_ne (m : Mem κ) (h : j ≠ i) (ts : Trsync) :
    (m.set i ts).trsyncs j = m.trsyncs j := by
  simp [Mem.set, h]

lemma set_forget (m : Mem κ) (i : Nat) (ts : Trsync) (l : List Nat) :
    (m.set i ts).forget l = (m.forget l).set i ts := rfl

lemma clearSignals_eq (h : Seg m.next p l none) (hf : l.length ≤ fuel) :
    clearSignals fuel m p = some (m.forget l) := by
  induction l generalizing m p fuel with
  | nil =>
    rw [seg_nil] at h
    rw [h, clearSignals, forget_nil]
  | cons a l ih =>
    have hnd := List.nodup_cons.mp (seg_nodup h)
    obtain ⟨rfl, hl⟩ := h
    cases fuel with
    | zero => simp at hf
    | succ fuel =>
      rw [clearSignals, ih _ (by simpa using hf), unlink_forget]
      exact (seg_update_of_notMem hnd.1 _ _ _).mpr hl

lemma dispatchSignals_eq (h : Seg m.next (m.trsyncs i).signals l none)
    (hfunc : ∀ a ∈ l, (m.func a).isSome = true) (hf : l.length ≤ fuel) :
    dispatchSignals fuel m i =
      some ((m.forget l).set i { m.trsyncs i with signals := none }, m.calls l) := by
  induction l generalizing m fuel with
  | nil =>
    rw [seg_nil] at h
    have hset : m.set i { m.trsyncs i with signals := none } = m := by
      rw [← h]
      simp [Mem.set]
    rw [dispatchSignals.eq_def, h, forget_nil, hset]
    rfl
  | cons a l ih =>
    have hnd := List.nodup_cons.mp (seg_nodup h)
    obtain ⟨hhead, hl⟩ := h
    obtain ⟨func, hfa⟩ := Option.isSome_iff_exists.mp (hfunc a (by simp))
    cases fuel with
    | zero => simp at hf
    | succ fuel =>
      have hother : ∀ b ∈ l, ((m.unlink a).func b) = m.func b := by
        intro b hb
        have hba : b ≠ a := fun e => hnd.1 (e ▸ hb)
        exact Function.update_of_ne hba _ _
      have hrec := @ih ((m.unlink a).set i { m.trsyncs i with signals := m.next a }) fuel
        (by
          rw [set_trsyncs_self]
          exact (seg_update_of_notMem hnd.1 _ _ _).mpr hl)
        (by
          intro b hb
          change ((m.unlink a).func b).isSome = true
          rw [hother b hb]
          exact hfunc b (by simp [hb]))
        (by simpa using hf)
      have hcalls : ((m.unlink a).set i { m.trsyncs i with signals := m.next a }).calls l =
          m.calls l := by
        apply List.filterMap_congr
        intro b hb
        exact congrArg (Option.map _) (hother b hb)
      rw [dispatchSignals.eq_def, hhead]
      simp only [hfa]
      rw [hrec, hcalls, set_forget, unlink_forget, set_set, set_trsyncs_self]
      simp [Mem.calls, hfa]

lemma Listed.length_le (h : Listed m lists) (i : Nat) : (lists i).length ≤ m.signalCount := by
  have hsub : ∀ a ∈ lists i, a ∈ List.range m.signalCount :=
    fun a ha => List.mem_range.mpr (h.bound i a ha)
  have hle := seg_length_le (h.seg i) hsub
  rwa [List.length_range] at hle

lemma Listed.forget (h : Listed m lists) (i : Nat) (hts : ts.signals = none) :
    Listed ((m.forget (lists i)).set i ts) (Function.update lists i []) where
  seg j := by
    by_cases hj : j = i
    · subst hj
      simp [hts]
    · rw [set_trsyncs_of_ne _ hj, Function.update_of_ne hj]
      refine (seg_congr (fun a ha => ?_) _ _).mp (h.seg j)
      have hai : a ∉ lists i := fun hai => hj (h.disjoint j i a ha hai)
      simp [Mem.set, Mem.forget, hai]
  bound j a ha := by
    by_cases hj : j = i
    · simp [hj] at ha
    · rw [Function.update_of_ne hj] at ha
      exact h.bound j a ha
  disjoint j k a hj hk := by
    have hji : j ≠ i := fun e => by simp [e] at hj
    have hki : k ≠ i := fun e => by simp [e] at hk
    rw [Function.update_of_ne hji] at hj
    rw [Function.update_of_ne hki] at hk
    exact h.disjoint j k a hj hk
  func a := by
    have hfa := h.func a
    change (if a ∈ lists i then none else m.func a).isSome = true ↔ _
    by_cases ha : a ∈ lists i
    · rw [if_pos ha]
      simp only [Option.isSome_none, Bool.false_eq_true, false_iff, not_exists]
      intro j hj
      have hji : j ≠ i := fun e => by simp [e] at hj
      rw [Function.update_of_ne hji] at hj
      exact hji (h.disjoint j i a hj ha)
    · rw [if_neg ha, hfa]
      constructor
      · rintro ⟨j, hj⟩
        have hji : j ≠ i := fun e => ha (e ▸ hj)
        exact ⟨j, by rwa [Function.update_of_ne hji]⟩
      · rintro ⟨j, hj⟩
        have hji : j ≠ i := fun e => by simp [e] at hj
        exact ⟨j, by rwa [Function.update_of_ne hji] at hj⟩
  configured j hj := by
    by_cases hji : j = i
    · simp [hji]
    · rw [Function.update_of_ne hji]
      exact h.configured j hj

lemma Listed.set (h : Listed m lists) (i : Nat) (hts : ts.signals = (m.trsyncs i).signals) :
    Listed (m.set i ts) lists where
  seg j := by
    by_cases hj : j = i
    · subst hj
      rw [set_trsyncs_self, hts]
      exact h.seg j
    · rw [set_trsyncs_of_ne _ hj]
      exact h.seg j
  bound := h.bound
  disjoint := h.disjoint
  func := h.func
  configured := h.configured

lemma Listed.onList (h : Listed m lists) : OnList m i tss ↔ tss ∈ lists i := by
  constructor
  · rintro ⟨l, hl, hm⟩
    rwa [seg_unique (h.seg i) hl]
  · exact fun hm => ⟨lists i, h.seg i, hm⟩

lemma Listed.trsyncDoTrigger_eq (h : Listed m lists) (i : Nat) (reason : UInt8) :
    trsyncDoTrigger m i reason =
      if (m.trsyncs i).canTrigger then
        some ({ (m.forget (lists i)).set i ((m.trsyncs i).doTrigger reason) with wake := true },
          m.calls (lists i))
      else some (m, []) := by
  unfold trsyncDoTrigger
  split
  · rename_i hc
    have hseg : Seg (m.set i ((m.trsyncs i).fire reason)).next
        ((m.set i ((m.trsyncs i).fire reason)).trsyncs i).signals (lists i) none := by
      rw [set_trsyncs_self]
      exact h.seg i
    rw [dispatchSignals_eq hseg (fun a ha => (h.func a).mpr ⟨i, ha⟩) (h.length_le i),
      set_forget, set_set, set_trsyncs_self, Trsync.doTrigger, if_pos hc]
    rfl
  · rfl

lemma Listed.trsyncClear_eq (h : Listed m lists) (i : Nat) :
    trsyncClear m i = some ((m.forget (lists i)).set i (m.trsyncs i).clear) := by
  unfold trsyncClear
  rw [clearSignals_eq (h.seg i) (h.length_le i)]
  rfl

lemma Listed.trsyncClear (h : Listed m lists) (i : Nat) :
    Listed ((m.forget (lists i)).set i (m.trsyncs i).clear) (Function.update lists i []) :=
  h.forget i rfl

lemma Listed.trsyncAddSignal (h : Listed m lists) (hi : i < m.trsyncCount)
    (ht : tss < m.signalCount) {func : Option κ} (ha : trsyncAddSignal m i tss func = .ok m') :
    Listed m' (Function.update lists i (tss :: lists i)) := by
  unfold Trigger.trsyncAddSignal at ha
  split at ha
  · cases ha
  · rename_i hc
    rw [Bool.or_eq_true, not_or] at hc
    have hfresh : ∀ j, tss ∉ lists j := fun j hj => hc.1 ((h.func tss).mpr ⟨j, hj⟩)
    have hmem : ∀ j a, a ∈ Function.update lists i (tss :: lists i) j ↔
        (j = i ∧ a = tss) ∨ a ∈ lists j := by
      intro j a
      by_cases hj : j = i
      · subst hj
        simp
      · simp [hj]
    cases ha
    constructor
    · intro j
      by_cases hj : j = i
      · subst hj
        rw [set_trsyncs_self, Function.update_self]
        exact seg_push_front (h.seg j) (hfresh j)
      · rw [set_trsyncs_of_ne _ hj, Function.update_of_ne hj]
        exact (seg_update_of_notMem (hfresh j) _ _ _).mpr (h.seg j)
    · intro j a hja
      rcases (hmem j a).mp hja with ⟨-, rfl⟩ | hja
      · exact ht
      · exact h.bound j a hja
    · intro j k a hja hka
      rw [hmem] at hja hka
      rcases hja with ⟨hji, rfl⟩ | hja
      · rcases hka with ⟨hki, -⟩ | hka
        · exact hji.trans hki.symm
        · exact absurd hka (hfresh k)
      · rcases hka with ⟨-, rfl⟩ | hka
        · exact absurd hja (hfresh j)
        · exact h.disjoint j k a hja hka
    · intro a
      simp only [hmem]
      change (Function.update m.func tss func a).isSome = true ↔ _
      by_cases hat : a = tss
      · subst hat
        rw [Function.update_self]
        have hf : func.isSome = true := Option.isSome_iff_ne_none.mpr (by simpa using hc.2)
        exact ⟨fun _ => ⟨i, Or.inl ⟨rfl, rfl⟩⟩, fun _ => hf⟩
      · rw [Function.update_of_ne hat, h.func a]
        simp [hat]
    · intro j hj
      have hji : j ≠ i := fun e => by
        subst e
        exact absurd hi (Nat.not_lt.mpr hj)
      rw [Function.update_of_ne hji]
      exact h.configured j hj

lemma trsyncAddSignal_eq {func : Option κ} (h : trsyncAddSignal m i tss func = .ok m') :
    m' = { m with
      func := Function.update m.func tss func
      next := Function.update m.next tss (m.trsyncs i).signals }.set i
        { m.trsyncs i with signals := some tss } := by
  unfold Trigger.trsyncAddSignal at h
  split at h
  · cases h
  · cases h
    rfl

lemma calls_update_func {func : Option κ} (h : tss ∉ l) :
    ({ m with func := Function.update m.func tss func } : Mem κ).calls l = m.calls l := by
  apply List.filterMap_congr
  intro a ha
  have hne : a ≠ tss := fun e => h (e ▸ ha)
  exact congrArg (Option.map _) (Function.update_of_ne hne _ _)

lemma Listed.calls_map_fst (h : Listed m lists) (i : Nat) :
    (m.calls (lists i)).map Prod.fst = lists i := by
  have hmap : ∀ l : List Nat, (∀ a ∈ l, (m.func a).isSome = true) →
      (m.calls l).map Prod.fst = l := by
    intro l hl
    induction l with
    | nil => rfl
    | cons a l ih =>
      obtain ⟨f, hf⟩ := Option.isSome_iff_exists.mp (hl a (by simp))
      have hrest := ih fun b hb => hl b (by simp [hb])
      unfold Mem.calls at hrest ⊢
      rw [List.filterMap_cons, hf]
      simp only [Option.map_some, List.map_cons, hrest]
  exact hmap _ fun a ha => (h.func a).mpr ⟨i, ha⟩

lemma Listed.calls_forget (h : Listed m lists) (hj : j ≠ i) :
    (m.forget (lists i)).calls (lists j) = m.calls (lists j) := by
  apply List.filterMap_congr
  intro a ha
  have hai : a ∉ lists i := fun hai => hj (h.disjoint j i a ha hai)
  simp [Mem.forget, hai]

lemma Listed.trsyncShutdown (h : Listed m lists) (k : Nat) :
    ∃ m' lists', trsyncShutdown k m = some m' ∧ Listed m' lists' ∧
      m'.trsyncCount = m.trsyncCount ∧ ∀ i < k, (m'.trsyncs i).canTrigger = false := by
  induction k with
  | zero => exact ⟨m, lists, rfl, h, rfl, by simp⟩
  | succ k ih =>
    obtain ⟨m₁, lists₁, hs, hl, hcount, hoff⟩ := ih
    refine ⟨_, _, ?_, hl.trsyncClear k, hcount, ?_⟩
    · rw [Trigger.trsyncShutdown, hs, Option.bind_some, hl.trsyncClear_eq k]
    · intro i hi
      by_cases hik : i = k
      · subst hik
        simp [Trsync.clear]
      · rw [set_trsyncs_of_ne _ hik]
        exact hoff i (by omega)

lemma set_wake (m : Mem κ) (i : Nat) (ts ts' : Trsync) (wake : Bool) :
    { m.set i ts with wake := wake }.set i ts' = { m.set i ts' with wake := wake } := by
  simp [Mem.set]

end Lists

end KlipperMcu.Trigger
