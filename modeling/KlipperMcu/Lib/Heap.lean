import Mathlib.Data.List.Count
import Mathlib.Data.List.Perm.Basic
import Mathlib.Order.BoundedOrder.Lattice

/-!
# Replacing the root of a binary heap

A heap in level order, of which the root is replaced by another element. The element sinks from the
root as long as it has a smaller child. Positions past the end count as the top element. Each child
that moves up leaves a heap behind, so that only the parent of the element has to be watched.
-/

namespace KlipperMcu.Lib.Heap

variable {α : Type*} [LinearOrder α] [OrderTop α]

/-- Lets `x` sink from `pos`. There is no result if it leaves the heap. -/
def sink : Nat → List α → Nat → α → Option (List α)
  | 0, _, _, _ => none
  | fuel + 1, h, pos, x =>
    if pos < h.length then
      let child₁ := h.getD (2 * pos + 1) ⊤
      let child₂ := h.getD (2 * pos + 2) ⊤
      if x ≤ child₁ ∧ x ≤ child₂ then some (h.set pos x)
      else if child₁ < child₂ then sink fuel (h.set pos child₁) (2 * pos + 1) x
      else sink fuel (h.set pos child₂) (2 * pos + 2) x
    else none

def replace (h : List α) (x : α) : Option (List α) := sink h.length h 0 x

/-- No element is below its parent. -/
def IsHeap (h : List α) : Prop :=
  ∀ i, 0 < i → i < h.length → h.getD ((i - 1) / 2) ⊤ ≤ h.getD i ⊤

variable {h h' : List α} {x : α} {pos q fuel : Nat}

lemma set_set_perm (hpos : pos < h.length) (hq : q < h.length) (hne : pos ≠ q) :
    ((h.set pos (h.getD q ⊤)).set q x).Perm (h.set pos x) := by
  have hget : h.getD q ⊤ = h[q] := (List.getElem_eq_getD ⊤).symm
  have hpos' : pos < (h.set pos x).length := by rwa [List.length_set]
  have hq' : q < (h.set pos x).length := by rwa [List.length_set]
  have hswap := List.set_set_perm hpos' hq'
  rwa [List.getElem_set_of_ne hne, List.getElem_set_self, List.set_set, ← hget] at hswap

/-- The element sinks to a position of the heap: a missing child is never smaller. -/
lemma lt_length_of_lt (hlt : h.getD q ⊤ < x) : q < h.length := by
  by_contra hge
  rw [List.getD_eq_getElem?_getD, List.getElem?_eq_none (Nat.not_lt.mp hge)] at hlt
  exact not_top_lt hlt

lemma sink_cases (fuel : Nat) (x : α) (hpos : pos < h.length) :
    (x ≤ h.getD (2 * pos + 1) ⊤ ∧ x ≤ h.getD (2 * pos + 2) ⊤ ∧
        sink (fuel + 1) h pos x = some (h.set pos x)) ∨
      ∃ q, (q - 1) / 2 = pos ∧ pos < q ∧ q < h.length ∧ h.getD q ⊤ < x ∧
        h.getD q ⊤ ≤ h.getD (2 * pos + 1) ⊤ ∧ h.getD q ⊤ ≤ h.getD (2 * pos + 2) ⊤ ∧
        sink (fuel + 1) h pos x = sink fuel (h.set pos (h.getD q ⊤)) q x := by
  rw [sink, if_pos hpos]
  dsimp only
  split
  · rename_i hstop
    exact Or.inl ⟨hstop.1, hstop.2, rfl⟩
  · rename_i hstop
    right
    split
    · rename_i hfirst
      have hlt : h.getD (2 * pos + 1) ⊤ < x := by
        by_contra hge
        exact hstop ⟨not_lt.mp hge, (not_lt.mp hge).trans hfirst.le⟩
      exact ⟨2 * pos + 1, by omega, by omega, lt_length_of_lt hlt, hlt, le_refl _, hfirst.le, rfl⟩
    · rename_i hfirst
      have hlt : h.getD (2 * pos + 2) ⊤ < x := by
        by_contra hge
        exact hstop ⟨(not_lt.mp hge).trans (not_lt.mp hfirst), not_lt.mp hge⟩
      exact ⟨2 * pos + 2, by omega, by omega, lt_length_of_lt hlt, hlt, not_lt.mp hfirst, le_refl _,
        rfl⟩

lemma sink_perm (hpos : pos < h.length) (hfuel : h.length ≤ pos + fuel) :
    ∃ h', sink fuel h pos x = some h' ∧ h'.Perm (h.set pos x) := by
  induction fuel generalizing h pos with
  | zero => omega
  | succ fuel ih =>
    rcases sink_cases fuel x hpos with ⟨-, -, hstop⟩ | ⟨q, -, hlt, hq, -, -, -, hstep⟩
    · exact ⟨_, hstop, List.Perm.refl _⟩
    · have hq' : q < (h.set pos (h.getD q ⊤)).length := by rwa [List.length_set]
      obtain ⟨h', hs, hperm⟩ := ih hq' (by rw [List.length_set]; omega)
      exact ⟨h', hstep.trans hs, hperm.trans (set_set_perm hpos hq (Nat.ne_of_lt hlt))⟩

/-! ### The order -/

lemma getD_set_self (hpos : pos < h.length) : (h.set pos x).getD pos ⊤ = x := by
  rw [List.getD_eq_getElem?_getD, List.getElem?_set_self hpos, Option.getD_some]

lemma getD_set_ne (hne : pos ≠ q) : (h.set pos x).getD q ⊤ = h.getD q ⊤ := by
  rw [List.getD_eq_getElem?_getD, List.getElem?_set_ne hne, List.getD_eq_getElem?_getD]

lemma IsHeap.set (hh : IsHeap h) (hpos : pos < h.length)
    (habove : 0 < pos → h.getD ((pos - 1) / 2) ⊤ ≤ x)
    (hchild₁ : x ≤ h.getD (2 * pos + 1) ⊤) (hchild₂ : x ≤ h.getD (2 * pos + 2) ⊤) :
    IsHeap (h.set pos x) := by
  intro i hi hlen
  rw [List.length_set] at hlen
  by_cases hself : i = pos
  · subst hself
    rw [getD_set_self hpos, getD_set_ne (by omega)]
    exact habove hi
  · rw [getD_set_ne (Ne.symm hself)]
    by_cases hparent : pos = (i - 1) / 2
    · rw [← hparent, getD_set_self hpos]
      obtain rfl | rfl : i = 2 * pos + 1 ∨ i = 2 * pos + 2 := by omega
      · exact hchild₁
      · exact hchild₂
    · rw [getD_set_ne hparent]
      exact hh i hi hlen

lemma IsHeap.sink (hh : IsHeap h) (hpos : pos < h.length)
    (habove : 0 < pos → h.getD ((pos - 1) / 2) ⊤ ≤ x) (hs : sink fuel h pos x = some h') :
    IsHeap h' := by
  induction fuel generalizing h pos with
  | zero => cases hs
  | succ fuel ih =>
    rcases sink_cases fuel x hpos with
      ⟨hchild₁, hchild₂, hstop⟩ | ⟨q, hparent, hlt, hq, hx, hchild₁, hchild₂, hstep⟩
    · obtain rfl := Option.some.inj (hstop.symm.trans hs)
      exact hh.set hpos habove hchild₁ hchild₂
    · have hself : h.getD pos ⊤ ≤ h.getD q ⊤ := hparent ▸ hh q (by omega) hq
      have hup : 0 < pos → h.getD ((pos - 1) / 2) ⊤ ≤ h.getD q ⊤ :=
        fun h0 => (hh pos h0 hpos).trans hself
      apply ih (hh.set hpos hup hchild₁ hchild₂)
      · rwa [List.length_set]
      · intro _
        rw [hparent, getD_set_self hpos]
        exact hx.le
      · rw [← hstep, hs]

lemma IsHeap.root_le (hh : IsHeap h) {i : Nat} (hi : i < h.length) : h.getD 0 ⊤ ≤ h.getD i ⊤ := by
  induction i using Nat.strong_induction_on with
  | _ i ih =>
    rcases Nat.eq_zero_or_pos i with rfl | h0
    · exact le_refl _
    · exact (ih ((i - 1) / 2) (by omega) (by omega)).trans (hh i h0 hi)

/-- The root is replaced. -/
theorem replace_perm (root : α) (rest : List α) (x : α) :
    ∃ h', replace (root :: rest) x = some h' ∧ h'.Perm (x :: rest) := by
  apply sink_perm
  · exact Nat.succ_pos _
  · exact Nat.le_of_eq (Nat.zero_add _).symm

lemma IsHeap.replace (hh : IsHeap h) (hr : replace h x = some h') : IsHeap h' := by
  cases h with
  | nil => cases hr
  | cons root rest => exact hh.sink (Nat.succ_pos _) (fun h0 => absurd h0 (Nat.lt_irrefl 0)) hr

end KlipperMcu.Lib.Heap
