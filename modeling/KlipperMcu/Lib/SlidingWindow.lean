import Mathlib.Data.List.Pairwise
import Mathlib.Data.List.Range
import Mathlib.Logic.Relation

/-!
# Sliding windows

A sender numbers its items and keeps at most `w` of them outstanding. It may send all outstanding
items again. A receiver takes the items in order and replies with the number of items it has taken.
Both directions are queues that can lose their contents. The numbers are exact here. An
implementation that sends them modulo more than `w` can tell them apart.
-/

namespace KlipperMcu.Lib

/-- The numbers of items sent, known to be accepted and accepted, and the numbers in flight. -/
structure Window where
  sent : Nat
  acked : Nat
  accepted : Nat
  down : List Nat
  up : List Nat

namespace Window

inductive Step (w : Nat) (s : Window) : Window → Prop
  | send : s.sent < s.acked + w →
      Step w s { s with sent := s.sent + 1, down := s.down ++ [s.sent] }
  | resend : Step w s { s with down := s.down ++ List.range' s.acked (s.sent - s.acked) }
  | lose {down up : List Nat} : down.Sublist s.down → up.Sublist s.up →
      Step w s { s with down := down, up := up }
  | accept {down : List Nat} : s.down = s.accepted :: down →
      Step w s { s with accepted := s.accepted + 1, down := down }
  | reply : Step w s { s with up := s.up ++ [s.accepted] }
  | acknowledge {a : Nat} {up : List Nat} : s.up = a :: up →
      Step w s { s with acked := a, up := up }

/-- What is in flight is close to what both sides know. -/
structure Inv (w : Nat) (s : Window) : Prop where
  acked_le : s.acked ≤ s.accepted
  accepted_le : s.accepted ≤ s.sent
  sent_le : s.sent ≤ s.acked + w
  down_lt : ∀ i ∈ s.down, i < s.sent
  down_ge : ∀ i ∈ s.down, s.accepted ≤ i + w
  down_near : s.down.Pairwise fun j i => j < i + w
  up_sorted : s.up.Pairwise fun a b => a ≤ b
  up_ge : ∀ a ∈ s.up, s.acked ≤ a
  up_le : ∀ a ∈ s.up, a ≤ s.accepted

variable {w : Nat} {s s' : Window}

lemma inv_start (w n : Nat) : Inv w ⟨n, n, n, [], []⟩ := by
  constructor <;> simp

lemma Inv.transmit (h : Inv w s) {sent : Nat} {items : List Nat} (hsent : s.sent ≤ sent)
    (hroom : sent ≤ s.acked + w) (hitems : ∀ i ∈ items, s.acked ≤ i ∧ i < sent)
    (hsorted : items.Pairwise (· < ·)) :
    Inv w { s with sent := sent, down := s.down ++ items } := by
  refine ⟨h.acked_le, Nat.le_trans h.accepted_le hsent, hroom, ?_, ?_, ?_, h.up_sorted, h.up_ge,
    h.up_le⟩
  · intro i hi
    rcases List.mem_append.mp hi with hold | hnew
    · exact Nat.lt_of_lt_of_le (h.down_lt i hold) hsent
    · exact (hitems i hnew).2
  · intro i hi
    rcases List.mem_append.mp hi with hold | hnew
    · exact h.down_ge i hold
    · have hlow := (hitems i hnew).1
      have hacc := h.accepted_le
      change s.accepted ≤ i + w
      omega
  · refine List.pairwise_append.mpr ⟨h.down_near, ?_, ?_⟩
    · exact hsorted.imp fun hlt => Nat.lt_add_right w hlt
    · intro j hj i hi
      have hlow := (hitems i hi).1
      have hold := h.down_lt j hj
      omega

theorem Inv.step (h : Inv w s) (hs : Step w s s') : Inv w s' := by
  cases hs with
  | send hlt =>
    refine h.transmit (Nat.le_succ _) hlt ?_ (List.pairwise_singleton _ _)
    intro i hi
    rw [List.mem_singleton.mp hi]
    exact ⟨Nat.le_trans h.acked_le h.accepted_le, Nat.lt_succ_self _⟩
  | resend =>
    refine h.transmit (Nat.le_refl _) h.sent_le ?_ List.pairwise_lt_range'
    intro i hi
    have := List.mem_range'_1.mp hi
    omega
  | lose hdown hup =>
    exact ⟨h.acked_le, h.accepted_le, h.sent_le, fun i hi => h.down_lt i (hdown.subset hi),
      fun i hi => h.down_ge i (hdown.subset hi), h.down_near.sublist hdown,
      h.up_sorted.sublist hup, fun a ha => h.up_ge a (hup.subset ha),
      fun a ha => h.up_le a (hup.subset ha)⟩
  | accept hdown =>
    have hnear := h.down_near
    rw [hdown, List.pairwise_cons] at hnear
    have hlt := h.down_lt s.accepted (by rw [hdown]; exact List.mem_cons_self)
    refine ⟨Nat.le_succ_of_le h.acked_le, hlt, h.sent_le, ?_, fun i hi => hnear.1 i hi, hnear.2,
      h.up_sorted, h.up_ge, fun a ha => Nat.le_succ_of_le (h.up_le a ha)⟩
    exact fun i hi => h.down_lt i (by rw [hdown]; exact List.mem_cons_of_mem _ hi)
  | reply =>
    refine ⟨h.acked_le, h.accepted_le, h.sent_le, h.down_lt, h.down_ge, h.down_near, ?_, ?_, ?_⟩
    · refine List.pairwise_append.mpr ⟨h.up_sorted, List.pairwise_singleton _ _, ?_⟩
      intro a ha b hb
      rw [List.mem_singleton.mp hb]
      exact h.up_le a ha
    · intro a ha
      rcases List.mem_append.mp ha with hold | hnew
      · exact h.up_ge a hold
      · rw [List.mem_singleton.mp hnew]
        exact h.acked_le
    · intro a ha
      rcases List.mem_append.mp ha with hold | hnew
      · exact h.up_le a hold
      · exact Nat.le_of_eq (List.mem_singleton.mp hnew)
  | @acknowledge a up hup =>
    have hsorted := h.up_sorted
    rw [hup, List.pairwise_cons] at hsorted
    have hmem : a ∈ s.up := by
      rw [hup]
      exact List.mem_cons_self
    have hge := h.up_ge a hmem
    refine ⟨h.up_le a hmem, h.accepted_le, ?_, h.down_lt, h.down_ge, h.down_near, hsorted.2,
      hsorted.1, ?_⟩
    · exact Nat.le_trans h.sent_le (Nat.add_le_add_right hge w)
    · exact fun b hb => h.up_le b (by rw [hup]; exact List.mem_cons_of_mem _ hb)

theorem Inv.steps (h : Inv w s) (hs : Relation.ReflTransGen (Step w) s s') : Inv w s' := by
  induction hs with
  | refl => exact h
  | tail _ hstep ih => exact ih.step hstep

lemma Inv.near (h : Inv w s) {i : Nat} (hi : i ∈ s.down) :
    i ≤ s.accepted + w ∧ s.accepted ≤ i + w := by
  have hlt := h.down_lt i hi
  have hge := h.down_ge i hi
  have hsent := h.sent_le
  have hacked := h.acked_le
  omega

lemma Inv.reply (h : Inv w s) {a : Nat} (ha : a ∈ s.up) :
    s.acked ≤ a ∧ a ≤ s.sent ∧ a ≤ s.acked + w := by
  have hge := h.up_ge a ha
  have hle := h.up_le a ha
  have hacc := h.accepted_le
  have hsent := h.sent_le
  omega

end Window

end KlipperMcu.Lib
