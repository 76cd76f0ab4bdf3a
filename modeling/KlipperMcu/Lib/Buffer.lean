import Mathlib.Data.List.Range
import Mathlib.Logic.Function.Basic
import Mathlib.Tactic.Common

/-!
# Buffers

A buffer is a function from indexes. A slice of it is the list of its items from an index on. Copies
may overlap.
-/

namespace KlipperMcu.Lib.Buffer

variable {α : Type*} {buf buf' : Nat → α} {lo m n i : Nat}

/-- The `n` items from `lo` on. -/
def slice (buf : Nat → α) (lo n : Nat) : List α := (List.range n).map fun i => buf (lo + i)

/-- The buffer after the `n` items at `src` were copied to `dst`. -/
def copy (buf : Nat → α) (dst src n : Nat) : Nat → α := fun i =>
  if dst ≤ i ∧ i < dst + n then buf (src + (i - dst)) else buf i

/-- The buffer with `items` stored from `lo` on. -/
def store (buf : Nat → α) (lo : Nat) (items : List α) : Nat → α := fun i =>
  if lo ≤ i then (items[i - lo]?).getD (buf i) else buf i

@[simp] lemma length_slice (buf : Nat → α) (lo n : Nat) : (slice buf lo n).length = n := by
  rw [slice, List.length_map, List.length_range]

@[simp] lemma slice_zero (buf : Nat → α) (lo : Nat) : slice buf lo 0 = [] := rfl

lemma slice_add (buf : Nat → α) (lo m n : Nat) :
    slice buf lo (m + n) = slice buf lo m ++ slice buf (lo + m) n := by
  unfold slice
  rw [List.range_add, List.map_append, List.map_map]
  congr 1
  apply List.map_congr_left
  intro i _
  exact congrArg buf (Nat.add_assoc lo m i).symm

lemma slice_succ (buf : Nat → α) (lo n : Nat) :
    slice buf lo (n + 1) = buf lo :: slice buf (lo + 1) n := by
  rw [Nat.add_comm, slice_add]
  rfl

lemma slice_congr (h : ∀ i, lo ≤ i → i < lo + n → buf i = buf' i) :
    slice buf lo n = slice buf' lo n := by
  apply List.map_congr_left
  intro i hi
  have hlt := List.mem_range.mp hi
  exact h (lo + i) (Nat.le_add_right lo i) (Nat.add_lt_add_left hlt lo)

lemma slice_update_of_le (h : lo + n ≤ i) (a : α) :
    slice (Function.update buf i a) lo n = slice buf lo n := by
  apply slice_congr
  intro j _ hj
  exact Function.update_of_ne (Nat.ne_of_lt (Nat.lt_of_lt_of_le hj h)) a buf

lemma slice_copy (buf : Nat → α) (dst src n : Nat) :
    slice (copy buf dst src n) dst n = slice buf src n := by
  apply List.map_congr_left
  intro i hi
  have hlt := List.mem_range.mp hi
  unfold copy
  rw [if_pos ⟨Nat.le_add_right dst i, Nat.add_lt_add_left hlt dst⟩, Nat.add_sub_cancel_left]

lemma slice_copy_of_disjoint {dst src k : Nat} (h : lo + n ≤ dst ∨ dst + k ≤ lo) :
    slice (copy buf dst src k) lo n = slice buf lo n := by
  apply slice_congr
  intro i hlo hhi
  exact if_neg (by omega)

lemma slice_store (buf : Nat → α) (lo : Nat) (items : List α) :
    slice (store buf lo items) lo items.length = items := by
  apply List.ext_getElem
  · rw [length_slice]
  · intro i hi hi'
    simp only [slice, store, List.getElem_map, List.getElem_range, if_pos (Nat.le_add_right lo i),
      Nat.add_sub_cancel_left, List.getElem?_eq_getElem hi', Option.getD_some]

lemma slice_store_of_le {items : List α} (h : lo + n ≤ m) :
    slice (store buf m items) lo n = slice buf lo n := by
  apply slice_congr
  intro i _ hhi
  exact if_neg (by omega)

lemma slice_store_end (items : List α) (h : lo ≤ m) :
    slice (store buf m items) lo (m + items.length - lo) = slice buf lo (m - lo) ++ items := by
  have hsum : m + items.length - lo = m - lo + items.length := by omega
  have hend : lo + (m - lo) = m := Nat.add_sub_cancel' h
  rw [hsum, slice_add, hend, slice_store, slice_store_of_le (Nat.le_of_eq hend)]

lemma take_slice (buf : Nat → α) (lo : Nat) (h : m ≤ n) :
    (slice buf lo n).take m = slice buf lo m := by
  obtain ⟨k, rfl⟩ := Nat.exists_eq_add_of_le h
  rw [slice_add, List.take_append_of_le_length (Nat.le_of_eq (length_slice buf lo m).symm),
    List.take_of_length_le (Nat.le_of_eq (length_slice buf lo m))]

lemma drop_slice (buf : Nat → α) (lo : Nat) (h : m ≤ n) :
    (slice buf lo n).drop m = slice buf (lo + m) (n - m) := by
  obtain ⟨k, rfl⟩ := Nat.exists_eq_add_of_le h
  rw [slice_add, List.drop_left' (length_slice buf lo m), Nat.add_sub_cancel_left]

lemma slice_isPrefix (buf : Nat → α) (lo : Nat) (h : m ≤ n) : slice buf lo m <+: slice buf lo n := by
  rw [← take_slice buf lo h]
  exact List.take_prefix m _

/-- The items behind a gap of `len` items at the front of the first `pos` items, when `copied` of
them have been moved to the front. -/
def behindGap (buf : Nat → α) (len copied pos : Nat) : List α :=
  slice buf 0 copied ++ slice buf (len + copied) (pos - (len + copied))

lemma behindGap_zero (buf : Nat → α) (len pos : Nat) :
    behindGap buf len 0 pos = slice buf len (pos - len) := rfl

lemma slice_append_behindGap {len pos : Nat} (h : len ≤ pos) :
    slice buf 0 len ++ behindGap buf len 0 pos = slice buf 0 pos := by
  have hend : len + (pos - len) = pos := Nat.add_sub_cancel' h
  rw [behindGap_zero, ← hend, slice_add, Nat.zero_add, Nat.add_sub_cancel_left]

lemma behindGap_store {len copied pos : Nat} (items : List α) (h : len + copied ≤ pos) :
    behindGap (store buf pos items) len copied (pos + items.length) =
      behindGap buf len copied pos ++ items := by
  unfold behindGap
  rw [slice_store_of_le (by omega), slice_store_end items h, List.append_assoc]

lemma behindGap_copy {len copied pos rpos : Nat} (h : len + copied ≤ rpos) (hpos : rpos ≤ pos) :
    behindGap (copy buf copied (copied + len) (rpos - len - copied)) len (rpos - len) pos =
      behindGap buf len copied pos := by
  obtain ⟨k, rfl⟩ := Nat.exists_eq_add_of_le h
  obtain ⟨m, rfl⟩ := Nat.exists_eq_add_of_le hpos
  have hfront : len + copied + k - len = copied + k := by omega
  have hback : len + copied + k + m - (len + copied) = k + m := by omega
  have hrest : len + copied + k + m - (len + (copied + k)) = m := by omega
  have hkeep : slice (copy buf copied (copied + len) k) 0 copied = slice buf 0 copied :=
    slice_copy_of_disjoint (Or.inl (Nat.le_of_eq (Nat.zero_add copied)))
  have hleave : slice (copy buf copied (copied + len) k) (len + copied + k) m =
      slice buf (len + copied + k) m := slice_copy_of_disjoint (Or.inr (by omega))
  unfold behindGap
  rw [hfront, hback, hrest, Nat.add_sub_cancel_left, ← Nat.add_assoc len, hleave, slice_add _ 0, hkeep,
    Nat.zero_add, slice_copy, slice_add _ (len + copied), Nat.add_comm copied len, List.append_assoc]

lemma behindGap_closed {len copied pos : Nat} (h : len + copied = pos) :
    behindGap buf len copied pos = slice buf 0 (pos - len) := by
  have hzero : pos - (len + copied) = 0 := by omega
  have hall : pos - len = copied := by omega
  rw [behindGap, hzero, slice_zero, List.append_nil, hall]

end KlipperMcu.Lib.Buffer
