import Mathlib.Data.List.Basic

/-!
# Back-references

A sequence is written as items. An item adds some literal values, and then copies values from a
given distance back. The copy may overlap what it writes, so that it is done one value after the
other.
-/

namespace KlipperMcu.Lib

variable {α : Type*}

/-- Literal values and a match of `length` values `distance` back. Without a match both are zero. -/
structure Item (α : Type*) where
  literals : List α
  length : Nat
  distance : Nat
deriving DecidableEq, Repr

/-- Copies `n` values from `distance` back. -/
def copyBack (distance : Nat) : Nat → List α → List α
  | 0, out => out
  | n + 1, out =>
    match out[out.length - distance]? with
    | none => out
    | some x => copyBack distance n (out ++ [x])

def Item.expand (item : Item α) (out : List α) : List α :=
  copyBack item.distance item.length (out ++ item.literals)

/-- The match refers to a value that is there. -/
def Item.Fits (item : Item α) (out : List α) : Prop :=
  item.length ≠ 0 → 1 ≤ item.distance ∧ item.distance ≤ out.length + item.literals.length

lemma copyBack_succ {distance n : Nat} {out : List α} (hpos : 1 ≤ distance)
    (hle : distance ≤ out.length) :
    ∃ x, out[out.length - distance]? = some x ∧
      copyBack distance (n + 1) out = copyBack distance n (out ++ [x]) := by
  have hlt : out.length - distance < out.length := by omega
  refine ⟨out[out.length - distance], List.getElem?_eq_getElem hlt, ?_⟩
  rw [copyBack, List.getElem?_eq_getElem hlt]

lemma length_copyBack {distance n : Nat} {out : List α} (hpos : 1 ≤ distance)
    (hle : distance ≤ out.length) : (copyBack distance n out).length = out.length + n := by
  induction n generalizing out with
  | zero => rfl
  | succ n ih =>
    obtain ⟨x, -, hcopy⟩ := copyBack_succ hpos hle
    rw [hcopy, ih (by rw [List.length_append]; omega), List.length_append, List.length_singleton]
    omega

lemma Item.Fits.length_expand {item : Item α} {out : List α} (h : item.Fits out) :
    (item.expand out).length = out.length + item.literals.length + item.length := by
  rw [expand]
  by_cases hlength : item.length = 0
  · rw [hlength, copyBack, List.length_append, Nat.add_zero]
  · obtain ⟨hpos, hle⟩ := h hlength
    rw [length_copyBack hpos (by rw [List.length_append]; exact hle), List.length_append]

/-- The `length` values of `data` at `position` are those `distance` before. -/
structure Repeats (data : List α) (position length distance : Nat) : Prop where
  pos : 1 ≤ distance
  le : distance ≤ position
  length_le : position + length ≤ data.length
  get : ∀ k < length, data[position - distance + k]? = data[position + k]?

/-- A copy of a repetition goes on with the data. -/
theorem Repeats.copyBack {data : List α} {position length distance : Nat}
    (h : Repeats data position length distance) :
    copyBack distance length (data.take position) = data.take (position + length) := by
  induction length generalizing position with
  | zero => rfl
  | succ length ih =>
    have hlen := h.length_le
    have hle := h.le
    have htake : (data.take position).length = position := by
      rw [List.length_take]
      omega
    obtain ⟨x, hx, hcopy⟩ := copyBack_succ (n := length) h.pos (by rw [htake]; exact h.le)
    have hpos := h.pos
    rw [htake, List.getElem?_take_of_lt (by omega)] at hx
    have hget := h.get 0 (Nat.succ_pos _)
    rw [Nat.add_zero, Nat.add_zero, hx] at hget
    have hnext : data.take position ++ [x] = data.take (position + 1) := by
      rw [List.take_add_one, ← hget]
      rfl
    rw [hcopy, hnext, ih, Nat.add_assoc, Nat.add_comm 1]
    refine ⟨h.pos, by omega, by omega, ?_⟩
    intro k hk
    have hsucc := h.get (k + 1) (by omega)
    rw [show position + 1 - distance + k = position - distance + (k + 1) by omega,
      show position + 1 + k = position + (k + 1) by omega]
    exact hsucc

end KlipperMcu.Lib
