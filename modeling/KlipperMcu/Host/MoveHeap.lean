import KlipperMcu.Host.StepperSync
import Mathlib.Data.List.GetD
import Mathlib.Data.Multiset.AddSub

/-!
# The heap of move clocks

`heap_replace` of stepcompress.c as the source has it: a child that is missing counts as
`UINT64_MAX`, and children move up before the new clock is stored. It is the replacement that
`steppersync_flush` is modelled with, and the heap is in order in every run.
-/

namespace KlipperMcu.MoveSync

open Lib Lib.Heap

/-- `UINT64_MAX`. -/
def uint64Max : Clock := ⟨0xffffffffffffffff, by decide⟩

/-- `pos < nmc ? mc[pos] : UINT64_MAX`. -/
def childClock (mc : List Clock) (pos : Nat) : Clock :=
  if h : pos < mc.length then mc[pos] else uint64Max

/-- `mc[pos] = clock`. There is no result if that is not in the array. -/
def storeClock (mc : List Clock) (pos : Nat) (clock : Clock) : Option (List Clock) :=
  if pos < mc.length then some (mc.set pos clock) else none

/-- The loop of `heap_replace`. -/
def heapLoop (reqClock : Clock) : Nat → List Clock → Nat → Option (List Clock)
  | 0, _, _ => none
  | fuel + 1, mc, pos =>
    let child1Pos := 2 * pos + 1
    let child2Pos := 2 * pos + 2
    let child2Clock := childClock mc child2Pos
    let child1Clock := childClock mc child1Pos
    if reqClock ≤ child1Clock ∧ reqClock ≤ child2Clock then storeClock mc pos reqClock
    else if child1Clock < child2Clock then
      (storeClock mc pos child1Clock).bind fun mc => heapLoop reqClock fuel mc child1Pos
    else (storeClock mc pos child2Clock).bind fun mc => heapLoop reqClock fuel mc child2Pos

/-- `heap_replace`. There is no result if the loop has more rounds than the array has clocks. -/
def heapReplace (mc : List Clock) (reqClock : Clock) : Option (List Clock) :=
  heapLoop reqClock mc.length mc 0

section Replace

variable {mc : List Clock}

lemma childClock_eq (mc : List Clock) (pos : Nat) : childClock mc pos = mc.getD pos ⊤ := by
  unfold childClock
  split
  · rename_i hpos
    exact List.getElem_eq_getD ⊤
  · rename_i hpos
    rw [List.getD_eq_getElem?_getD, List.getElem?_eq_none (Nat.not_lt.mp hpos)]
    rfl

lemma heapLoop_eq (reqClock : Clock) (fuel : Nat) (mc : List Clock) (pos : Nat) :
    heapLoop reqClock fuel mc pos = sink fuel mc pos reqClock := by
  induction fuel generalizing mc pos with
  | zero => rfl
  | succ fuel ih =>
    rw [heapLoop, sink]
    simp only [childClock_eq, storeClock]
    by_cases hpos : pos < mc.length
    · simp only [if_pos hpos, Option.bind_some, ih]
    · simp only [if_neg hpos, Option.bind_none, ite_self]

lemma heapReplace_eq (mc : List Clock) (reqClock : Clock) :
    heapReplace mc reqClock = replace mc reqClock := heapLoop_eq reqClock mc.length mc 0

/-- The loop ends, the heap is in order, and it holds the new clock instead of the old root. -/
theorem heapReplace_isHeap (hne : mc ≠ []) (hheap : IsHeap mc) (reqClock : Clock) :
    ∃ mc', heapReplace mc reqClock = some mc' ∧ IsHeap mc' ∧
      (mc' : Multiset Clock) = reqClock ::ₘ (mc : Multiset Clock).erase (mc.head hne) := by
  obtain ⟨root, rest, rfl⟩ := List.exists_cons_of_ne_nil hne
  obtain ⟨mc', hreplace, hperm⟩ := replace_perm root rest reqClock
  refine ⟨mc', (heapReplace_eq _ _).trans hreplace, hheap.replace hreplace, ?_⟩
  rw [List.head_cons, Multiset.coe_erase, List.erase_cons_head, Multiset.cons_coe]
  exact Multiset.coe_eq_coe.mpr hperm

/-- The new clock sinks past a child without a sibling. -/
theorem heapReplace_isHeap_six :
    ∃ mc', heapReplace [1, 4, 2, 5, 6, 3] 9 = some mc' ∧ mc' = [2, 4, 3, 5, 6, 9] ∧ IsHeap mc' ∧
      (mc' : Multiset Clock) =
        9 ::ₘ (([1, 4, 2, 5, 6, 3] : List Clock) : Multiset Clock).erase 1 := by
  have hheap : IsHeap ([1, 4, 2, 5, 6, 3] : List Clock) := by
    have hall : ∀ i < 6, 0 < i → ([1, 4, 2, 5, 6, 3] : List Clock).getD ((i - 1) / 2) ⊤ ≤
        ([1, 4, 2, 5, 6, 3] : List Clock).getD i ⊤ := by decide
    exact fun i hi hlen => hall i hlen hi
  have hresult : heapReplace [1, 4, 2, 5, 6, 3] 9 = some [2, 4, 3, 5, 6, 9] := by decide
  obtain ⟨mc', hs, hheap', hperm⟩ := heapReplace_isHeap (by decide) hheap 9
  exact ⟨mc', hs, Option.some.inj (hs.symm.trans hresult), hheap', hperm⟩

end Replace

/-! ### The heap in a run -/

section Run

variable {ss ss' : StepperSync} {scNum : Nat} {moveClock : Clock}

lemma isHeap_batch {i : Nat} {qm : QueueMessage} (h : IsHeap ss.moveClocks)
    (hb : batch ss i qm = some ss') : IsHeap ss'.moveClocks := by
  unfold batch at hb
  split at hb
  · cases hb
  · obtain ⟨moveClocks, hm, rfl⟩ := Option.map_eq_some_iff.mp hb
    split at hm
    · exact h.replace hm
    · exact Option.some.inj hm ▸ h

lemma isHeap_flushLoop {fuel : Nat} (h : IsHeap ss.moveClocks)
    (hs : flushLoop scNum moveClock fuel ss = some ss') : IsHeap ss'.moveClocks := by
  induction fuel generalizing ss with
  | zero => cases hs
  | succ fuel ih =>
    rw [flushLoop] at hs
    split at hs
    · exact Option.some.inj hs ▸ h
    · split at hs
      · exact Option.some.inj hs ▸ h
      · obtain ⟨ss₁, hb, hrest⟩ := Option.bind_eq_some_iff.mp hs
        exact ih (isHeap_batch h hb) hrest

lemma isHeap_replicate (moveNum : Nat) (clock : Clock) :
    IsHeap (List.replicate moveNum clock) := by
  intro i _ hlen
  rw [List.getD_eq_getElem _ _ hlen, List.getD_eq_getElem _ _ (by omega), List.getElem_replicate,
    List.getElem_replicate]

/-- In every run the slot at the root is one that becomes free first. -/
theorem root_le_of_run {moveNum : Nat} {actions : List Action} {root : Clock} {rest : List Clock}
    (h : Run (step scNum) Legal (steppersyncAlloc moveNum) actions ss)
    (hroot : ss.moveClocks = root :: rest) : ∀ clock ∈ ss.moveClocks, root ≤ clock := by
  have hheap : IsHeap ss.moveClocks := by
    apply h.invariant
    · exact isHeap_replicate moveNum 0
    · intro ss a ss' hi _ hs
      cases a with
      | generate i m => exact Option.some.inj hs ▸ hi
      | flush moveClock => exact isHeap_flushLoop hi hs
  intro clock hclock
  rw [hroot] at hheap hclock
  obtain ⟨i, hi, rfl⟩ := List.getElem_of_mem hclock
  have hle := hheap.root_le hi
  rwa [List.getD_eq_getElem _ _ hi] at hle

end Run

theorem root_le_of_run_threeMoves : ∃ ss rest,
    Run (step 2) Legal (steppersyncAlloc 2) threeMoves ss ∧ ss.moveClocks = 50 :: rest ∧
    ∀ clock ∈ ss.moveClocks, 50 ≤ clock := by
  obtain ⟨ss, hs, hp⟩ : ∃ ss, Run (step 2) Legal (steppersyncAlloc 2) threeMoves ss ∧
      decide (ss.moveClocks = [50, 300]) = true :=
    Run.exists_of_exec threeMoves _ (by decide +kernel)
  have hclocks := of_decide_eq_true hp
  exact ⟨ss, [300], hs, hclocks, root_le_of_run hs hclocks⟩

end KlipperMcu.MoveSync
