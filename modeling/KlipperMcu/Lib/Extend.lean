import Mathlib.Algebra.Order.Ring.Int
import Mathlib.Data.List.Chain

/-!
# Counters beyond the width of a word

A counter is only seen by its low bits. From a value that was known before, the full value follows
when the counter has gone on by less than one turn of the word, or when it is less than half a turn
away.
-/

namespace KlipperMcu.Lib

/-- The first number from `last` on with the low `w` bits of `word`. -/
def extendForward (w : Nat) (last word : Int) : Int := last + (word - last) % 2 ^ w

/-- The number next to `last` with the low `w` bits of `word`. -/
def extendNearest (w : Nat) (last word : Int) : Int := last + (word - last).bmod (2 ^ w)

variable {w : Nat} {last word x : Int}

lemma sub_emod_eq (hword : word % 2 ^ w = x % 2 ^ w) (last : Int) :
    (word - last) % 2 ^ w = (x - last) % 2 ^ w := by
  rw [Int.sub_emod, hword, ← Int.sub_emod]

lemma extendForward_eq (hword : word % 2 ^ w = x % 2 ^ w) (hle : last ≤ x)
    (hlt : x < last + 2 ^ w) : extendForward w last word = x := by
  unfold extendForward
  rw [sub_emod_eq hword, Int.emod_eq_of_lt (by omega) (by omega)]
  omega

lemma extendNearest_eq (hword : word % 2 ^ w = x % 2 ^ w) (hle : -2 ^ w ≤ 2 * (x - last))
    (hlt : 2 * (x - last) < 2 ^ w) : extendNearest w last word = x := by
  have hpow : ((2 ^ w : Nat) : Int) = 2 ^ w := Int.natCast_pow 2 w
  have hmod : (word - last).bmod (2 ^ w) = (x - last).bmod (2 ^ w) := by
    rw [Int.bmod_def, Int.bmod_def, hpow, sub_emod_eq hword]
  have hsmall : (x - last).bmod (2 ^ w) = x - last := by
    apply Int.bmod_eq_of_le
    · omega
    · omega
  unfold extendNearest
  rw [hmod, hsmall]
  omega

lemma foldl_extendForward {word : Nat → Int} (hword : ∀ x, word x % 2 ^ w = (x : Int) % 2 ^ w)
    {n : Nat} {xs : List Nat} (h : (n :: xs).IsChain fun x y => x ≤ y ∧ y < x + 2 ^ w) :
    xs.foldl (fun last x => extendForward w last (word x)) n =
      ((n :: xs).getLast (List.cons_ne_nil _ _) : Int) := by
  induction xs generalizing n with
  | nil => rfl
  | cons x xs ih =>
    obtain ⟨⟨hle, hlt⟩, hrest⟩ := List.isChain_cons_cons.mp h
    have hstep : extendForward w n (word x) = x := by
      apply extendForward_eq (hword x)
      · exact Int.ofNat_le.mpr hle
      · exact_mod_cast hlt
    rw [List.foldl_cons, hstep, ih hrest, List.getLast_cons_cons]

end KlipperMcu.Lib
