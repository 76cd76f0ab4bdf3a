import Mathlib.Data.List.Basic

/-!
# Consecutive events

How many of the latest entries of a record in a row have a property. Records have their latest entry
first.
-/

namespace KlipperMcu.Lib

variable {α : Type*} {p : α → Bool} {x : α} {l : List α}

def streak (p : α → Bool) (l : List α) : Nat := (l.takeWhile p).length

@[simp] lemma streak_nil : streak p [] = 0 := rfl

lemma streak_cons_of_pos (h : p x = true) : streak p (x :: l) = streak p l + 1 := by
  unfold streak
  rw [List.takeWhile_cons_of_pos h]
  rfl

lemma streak_cons_of_neg (h : p x = false) : streak p (x :: l) = 0 := by
  unfold streak
  rw [List.takeWhile_cons_of_neg (by rw [h]; exact Bool.false_ne_true)]
  rfl

theorem le_streak_iff {n : Nat} :
    n ≤ streak p l ↔ n ≤ l.length ∧ ∀ x ∈ l.take n, p x = true := by
  induction l generalizing n with
  | nil => simp
  | cons x l ih =>
    cases n with
    | zero => simp
    | succ n =>
      cases hx : p x with
      | true => simp [streak_cons_of_pos hx, ih, hx]
      | false => simp [streak_cons_of_neg hx, hx]

end KlipperMcu.Lib
