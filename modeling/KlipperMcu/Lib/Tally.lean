import Mathlib.Algebra.BigOperators.Group.List.Basic
import Mathlib.Data.List.Nodup
import Mathlib.Logic.Function.Basic

/-!
# Sums over distinct keys

The sum of a function over a list of keys in which no key occurs twice, and how it changes with the
function and the keys.
-/

namespace KlipperMcu.Lib

variable {κ M : Type*} [AddCommMonoid M] {f : κ → M} {keys : List κ} {k : κ}

def tally (f : κ → M) (keys : List κ) : M := (keys.map f).sum

lemma tally_concat (f : κ → M) (keys : List κ) (k : κ) :
    tally f (keys ++ [k]) = tally f keys + f k := by
  rw [tally, List.map_append, List.sum_append, List.map_singleton, List.sum_singleton]
  rfl

variable [DecidableEq κ]

lemma tally_erase (h : k ∈ keys) : f k + tally f (keys.erase k) = tally f keys :=
  List.sum_map_erase f h

lemma tally_update_of_notMem (h : k ∉ keys) (v : M) :
    tally (Function.update f k v) keys = tally f keys := by
  unfold tally
  congr 1
  apply List.map_congr_left
  intro j hj
  apply Function.update_of_ne
  rintro rfl
  exact h hj

lemma tally_update (hnodup : keys.Nodup) (h : k ∈ keys) (v : M) :
    tally (Function.update f k v) keys + f k = tally f keys + v := by
  have hrest : tally (Function.update f k v) (keys.erase k) = tally f (keys.erase k) :=
    tally_update_of_notMem hnodup.not_mem_erase v
  rw [← tally_erase h, ← tally_erase h, hrest, Function.update_self, add_comm v, add_assoc,
    add_comm v, ← add_assoc, add_comm (f k)]

end KlipperMcu.Lib
