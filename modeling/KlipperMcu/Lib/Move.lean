import Mathlib.Data.Set.Insert
import Mathlib.Logic.Function.Basic

/-!
# Moving entries of a memory

Entries are moved one piece after the other inside one memory. A piece may be moved later as long as
nothing it is read from has been overwritten.
-/

namespace KlipperMcu.Lib

variable {ι α β : Type*}

/-- For each `i` in `I` the entry at `dst i` is the one that was at `src i`, and no other entry has
changed. -/
structure Moved (dst src : ι → α) (I : Set ι) (m m' : α → β) : Prop where
  moved : ∀ i ∈ I, m' (dst i) = m (src i)
  frame : ∀ a, (∀ i ∈ I, a ≠ dst i) → m' a = m a

variable {dst src : ι → α} {I J : Set ι} {m m₁ m₂ : α → β}

lemma Moved.refl (dst src : ι → α) (m : α → β) : Moved dst src ∅ m m :=
  ⟨nofun, fun _ _ => rfl⟩

lemma Moved.update [DecidableEq α] (dst src : ι → α) (m : α → β) (i : ι) :
    Moved dst src {i} m (Function.update m (dst i) (m (src i))) where
  moved j hj := by
    rw [Set.mem_singleton_iff.mp hj, Function.update_self]
  frame a ha := Function.update_of_ne (ha i rfl) _ _

lemma Moved.union (h : Moved dst src I m m₁) (h' : Moved dst src J m₁ m₂)
    (hsrc : ∀ i ∈ I, ∀ j ∈ J, src j ≠ dst i) (hdst : ∀ i ∈ I, ∀ j ∈ J, dst i ≠ dst j) :
    Moved dst src (I ∪ J) m m₂ where
  moved i hi := by
    rcases hi with hi | hi
    · rw [h'.frame _ (hdst i hi), h.moved i hi]
    · rw [h'.moved i hi, h.frame _ fun j hj => hsrc j hj i hi]
  frame a ha := by
    rw [h'.frame a fun i hi => ha i (Or.inr hi), h.frame a fun i hi => ha i (Or.inl hi)]

end KlipperMcu.Lib
