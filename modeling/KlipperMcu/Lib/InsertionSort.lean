import Mathlib.Data.List.GetD
import Mathlib.Data.List.Induction

/-!
# Insertion sort in place

The loop that moves the entries of a sorted prefix to the right until a key fits, and the loop that
grows the prefix by one entry after the other.
-/

namespace KlipperMcu.Lib.InsertionSort

variable {α : Type*} [LT α] [DecidableLT α]

/-- Puts `key` into the entries before `j`, from the right. Entry `j` is overwritten. -/
def insertKey (tmp : List α) (key : α) : Nat → List α
  | 0 => tmp.set 0 key
  | j + 1 =>
    if key < tmp.getD j key then insertKey (tmp.set (j + 1) (tmp.getD j key)) key j
    else tmp.set (j + 1) key

/-- The entries from `1` to `n` are inserted into those before them. -/
def sortTo [Inhabited α] (tmp : List α) : Nat → List α
  | 0 => tmp
  | n + 1 =>
    let tmp := sortTo tmp n
    insertKey tmp (tmp.getD (n + 1) default) (n + 1)

variable [LE α] [Std.IsLinearOrder α] [Std.LawfulOrderLT α]

lemma insertKey_spec (pre : List α) (key x : α) (post : List α) (h : pre.Pairwise (· ≤ ·)) :
    ∃ out, insertKey (pre ++ x :: post) key pre.length = out ++ post ∧
      out.Perm (pre ++ [key]) ∧ out.Pairwise (· ≤ ·) := by
  -- The loop walks from the right, so the prefix is taken apart from there.
  induction pre using List.reverseRecOn generalizing x post with
  | nil => exact ⟨[key], rfl, List.Perm.refl _, List.pairwise_singleton _ _⟩
  | append_singleton pre y ih =>
    have hget : (pre ++ [y] ++ x :: post).getD pre.length key = y := by simp
    have hset (z : α) : (pre ++ [y] ++ x :: post).set (pre.length + 1) z =
        pre ++ [y] ++ z :: post := by
      rw [List.append_assoc, List.append_assoc, List.set_append_right _ _ (Nat.le_add_right _ _)]
      simp
    obtain ⟨hpre, -, hle⟩ := List.pairwise_append.mp h
    rw [List.length_append, List.length_singleton, insertKey, hget, hset, hset]
    split
    · rename_i hlt
      obtain ⟨out, hout, hperm, hsorted⟩ := ih y (y :: post) hpre
      refine ⟨out ++ [y], ?_, ?_, ?_⟩
      · rw [List.append_assoc, List.append_assoc]
        exact hout
      · calc (out ++ [y]).Perm (pre ++ [key] ++ [y]) := hperm.append_right [y]
          _ = pre ++ ([key] ++ [y]) := List.append_assoc _ _ _
          _ |>.Perm (pre ++ ([y] ++ [key])) := List.perm_append_comm.append_left pre
          _ = pre ++ [y] ++ [key] := (List.append_assoc _ _ _).symm
      · apply List.pairwise_append.mpr
        refine ⟨hsorted, List.pairwise_singleton _ _, fun a ha b hb => ?_⟩
        cases List.mem_singleton.mp hb
        rcases List.mem_append.mp (hperm.mem_iff.mp ha) with ha | ha
        · exact hle a ha y (List.mem_singleton_self y)
        · cases List.mem_singleton.mp ha
          exact Std.le_of_lt hlt
    · rename_i hge
      refine ⟨pre ++ [y] ++ [key], by simp, List.Perm.refl _, ?_⟩
      apply List.pairwise_append.mpr
      refine ⟨h, List.pairwise_singleton _ _, fun a ha b hb => ?_⟩
      cases List.mem_singleton.mp hb
      have hkey : y ≤ key := Std.not_lt.mp hge
      rcases List.mem_append.mp ha with ha | ha
      · exact Std.le_trans (hle a ha y (List.mem_singleton_self y)) hkey
      · cases List.mem_singleton.mp ha
        exact hkey

lemma sortTo_spec [Inhabited α] (tmp : List α) {n : Nat} (hn : n < tmp.length) :
    (sortTo tmp n).Perm tmp ∧ ((sortTo tmp n).take (n + 1)).Pairwise (· ≤ ·) := by
  induction n with
  | zero =>
    refine ⟨List.Perm.refl _, ?_⟩
    rw [sortTo, List.take_one]
    cases tmp.head? <;> simp
  | succ n ih =>
    obtain ⟨hperm, hsorted⟩ := ih (Nat.lt_of_succ_lt hn)
    have hlt : n + 1 < (sortTo tmp n).length := by rwa [hperm.length_eq]
    have hlen : ((sortTo tmp n).take (n + 1)).length = n + 1 := by
      rw [List.length_take]
      omega
    have hsplit := List.take_append_drop (n + 1) (sortTo tmp n)
    rw [List.drop_eq_getElem_cons hlt] at hsplit
    obtain ⟨out, hout, hp, hs⟩ := insertKey_spec _ (sortTo tmp n)[n + 1] (sortTo tmp n)[n + 1]
      ((sortTo tmp n).drop (n + 1 + 1)) hsorted
    rw [hsplit, hlen] at hout
    have hstep : sortTo tmp (n + 1) = out ++ (sortTo tmp n).drop (n + 1 + 1) := by
      rw [sortTo, List.getD_eq_getElem _ _ hlt]
      exact hout
    have houtlen : out.length = n + 1 + 1 := by
      rw [hp.length_eq, List.length_append, hlen]
      rfl
    refine ⟨?_, ?_⟩
    · rw [hstep]
      refine ((hp.append_right _).trans ?_).trans hperm
      rw [List.append_assoc, List.singleton_append, hsplit]
    · rw [hstep, ← houtlen, List.take_left]
      exact hs

/-- All rounds together sort the list. -/
theorem sortTo_sorted [Inhabited α] (tmp : List α) {n : Nat} (hn : tmp.length = n + 1) :
    (sortTo tmp n).Perm tmp ∧ (sortTo tmp n).Pairwise (· ≤ ·) := by
  obtain ⟨hperm, hsorted⟩ := sortTo_spec tmp (n := n) (by omega)
  have hlen := hperm.length_eq
  rw [List.take_of_length_le (by omega)] at hsorted
  exact ⟨hperm, hsorted⟩

end KlipperMcu.Lib.InsertionSort
