import Mathlib.Order.RelClasses
import Mathlib.Data.List.InsertIdx

/-!
# Binary search in a sorted list

The search of the first place at which a value can be inserted, by halving an interval. In a list
that is sorted by a strict total order it finds a value that is there, and a value that is inserted
at this place leaves the list sorted.
-/

namespace KlipperMcu.Lib

variable {α : Type*} {lt : α → α → Bool} {a : List α} {x y : α}

def bisectLoop (lt : α → α → Bool) (a : List α) (x : α) : Nat → Nat → Nat → Nat
  | 0, lo, _ => lo
  | fuel + 1, lo, hi =>
    if lo < hi then
      match a[(lo + hi) / 2]? with
      | none => lo
      | some y =>
        if lt y x then bisectLoop lt a x fuel ((lo + hi) / 2 + 1) hi
        else bisectLoop lt a x fuel lo ((lo + hi) / 2)
    else lo

def bisectLeft (lt : α → α → Bool) (a : List α) (x : α) : Nat :=
  bisectLoop lt a x a.length 0 a.length

/-- The values before `k` are smaller than `x`, and those from `k` on are not. -/
structure Splits (lt : α → α → Bool) (a : List α) (x : α) (k : Nat) : Prop where
  le : k ≤ a.length
  below : ∀ y ∈ a.take k, lt y x = true
  above : ∀ y ∈ a.drop k, lt y x = false

/-- The list is sorted by `lt`. -/
def SortedBy (lt : α → α → Bool) (a : List α) : Prop := a.Pairwise fun y z => lt y z = true

lemma SortedBy.lt_of_lt [IsTrans α fun y z => lt y z = true] (h : SortedBy lt a) {i j : Nat} {z : α}
    (hij : i ≤ j) (hi : a[i]? = some y) (hj : a[j]? = some z) (hz : lt z x = true) :
    lt y x = true := by
  rcases Nat.eq_or_lt_of_le hij with rfl | hlt
  · rw [hi] at hj
    cases hj
    exact hz
  · obtain ⟨hi', rfl⟩ := List.getElem?_eq_some_iff.mp hi
    obtain ⟨hj', rfl⟩ := List.getElem?_eq_some_iff.mp hj
    have hyz := List.pairwise_iff_getElem.mp h i j hi' hj' hlt
    exact IsTrans.trans (r := fun y z => lt y z = true) _ _ _ hyz hz

lemma splits_of_getElem {k : Nat} (hle : k ≤ a.length)
    (hbelow : ∀ i y, i < k → a[i]? = some y → lt y x = true)
    (habove : ∀ i y, k ≤ i → a[i]? = some y → lt y x = false) : Splits lt a x k where
  le := hle
  below := by
    intro y hy
    obtain ⟨i, hi, rfl⟩ := List.mem_take_iff_getElem.mp hy
    exact hbelow i _ (by omega) (List.getElem?_eq_getElem _)
  above := by
    intro y hy
    obtain ⟨i, hi, rfl⟩ := List.mem_drop_iff_getElem.mp hy
    exact habove (k + i) _ (by omega) (List.getElem?_eq_getElem _)

lemma splits_bisectLoop [IsTrans α fun y z => lt y z = true] (h : SortedBy lt a) {fuel lo hi : Nat}
    (hfuel : hi ≤ lo + fuel) (hle : lo ≤ hi) (hhi : hi ≤ a.length)
    (hbelow : ∀ i y, i < lo → a[i]? = some y → lt y x = true)
    (habove : ∀ i y, hi ≤ i → a[i]? = some y → lt y x = false) :
    Splits lt a x (bisectLoop lt a x fuel lo hi) := by
  induction fuel generalizing lo hi with
  | zero =>
    obtain rfl : lo = hi := by omega
    exact splits_of_getElem hhi hbelow habove
  | succ fuel ih =>
    rw [bisectLoop]
    split
    · have hmid : (lo + hi) / 2 < a.length := by omega
      have hget := List.getElem?_eq_getElem hmid
      rw [hget]
      dsimp only
      split
      · rename_i hsmall
        apply ih (by omega) (by omega) hhi _ habove
        intro i y hi' hy
        exact h.lt_of_lt (by omega) hy hget hsmall
      · rename_i hlarge
        apply ih (by omega) (by omega) (by omega) hbelow
        intro i y hi' hy
        by_contra hsmall
        exact hlarge (h.lt_of_lt hi' hget hy (Bool.not_eq_false _ ▸ hsmall))
    · obtain rfl : lo = hi := by omega
      exact splits_of_getElem hhi hbelow habove

theorem splits_bisectLeft [IsTrans α fun y z => lt y z = true] (h : SortedBy lt a) (x : α) :
    Splits lt a x (bisectLeft lt a x) := by
  apply splits_bisectLoop h
  · omega
  · omega
  · exact Nat.le_refl _
  · intro i y hi
    omega
  · intro i y hi hy
    rw [List.getElem?_eq_none hi] at hy
    cases hy

lemma SortedBy.eraseIdx (h : SortedBy lt a) (k : Nat) : SortedBy lt (a.eraseIdx k) :=
  h.sublist (List.eraseIdx_sublist a k)

section StrictTotal

variable [IsStrictTotalOrder α fun y z => lt y z = true]

lemma not_lt_self (x : α) : lt x x ≠ true :=
  Std.Irrefl.irrefl (r := fun y z => lt y z = true) x

lemma drop_bisectLeft (h : SortedBy lt a) (hx : x ∈ a) :
    ∃ rest, a.drop (bisectLeft lt a x) = x :: rest := by
  have hsplits := splits_bisectLeft h x
  generalize bisectLeft lt a x = k at hsplits ⊢
  have hdrop : x ∈ a.drop k := by
    rw [← List.take_append_drop k a] at hx
    rcases List.mem_append.mp hx with hx | hx
    · exact absurd (hsplits.below x hx) (not_lt_self x)
    · exact hx
  obtain ⟨z, rest, hrest⟩ := List.exists_cons_of_ne_nil (List.ne_nil_of_mem hdrop)
  rw [hrest] at hdrop ⊢
  rcases List.mem_cons.mp hdrop with rfl | hmem
  · exact ⟨rest, rfl⟩
  · have hsorted : SortedBy lt (z :: rest) := hrest ▸ h.drop
    have hlt := (List.pairwise_cons.mp hsorted).1 x hmem
    have hge := hsplits.above z (hrest ▸ List.mem_cons_self)
    rw [hlt] at hge
    cases hge

lemma bisectLeft_lt_length (h : SortedBy lt a) (hx : x ∈ a) : bisectLeft lt a x < a.length := by
  obtain ⟨rest, hrest⟩ := drop_bisectLeft h hx
  by_contra hge
  rw [List.drop_eq_nil_of_le (by omega)] at hrest
  cases hrest

lemma mem_eraseIdx_bisectLeft (h : SortedBy lt a) (hx : x ∈ a) :
    y ∈ a.eraseIdx (bisectLeft lt a x) ↔ y ∈ a ∧ y ≠ x := by
  obtain ⟨rest, hrest⟩ := drop_bisectLeft h hx
  have hbelow := (splits_bisectLeft h x).below
  generalize bisectLeft lt a x = k at hbelow hrest ⊢
  have hsplit : a = a.take k ++ x :: rest := by rw [← hrest, List.take_append_drop]
  have htail : a.drop (k + 1) = rest := by rw [← List.tail_drop, hrest, List.tail_cons]
  have hsorted : SortedBy lt (x :: rest) := hrest ▸ h.drop
  rw [List.eraseIdx_eq_take_drop_succ, htail]
  constructor
  · intro hy
    constructor
    · rw [hsplit]
      rcases List.mem_append.mp hy with hy | hy
      · exact List.mem_append_left _ hy
      · exact List.mem_append_right _ (List.mem_cons_of_mem _ hy)
    · rintro rfl
      rcases List.mem_append.mp hy with hy | hy
      · exact not_lt_self y (hbelow y hy)
      · exact not_lt_self y ((List.pairwise_cons.mp hsorted).1 y hy)
  · rintro ⟨hy, hne⟩
    rw [hsplit] at hy
    rcases List.mem_append.mp hy with hy | hy
    · exact List.mem_append_left _ hy
    · exact List.mem_append_right _ ((List.mem_cons.mp hy).resolve_left hne)

lemma insertIdx_eq_append {k : Nat} (h : k ≤ a.length) (x : α) :
    a.insertIdx k x = a.take k ++ x :: a.drop k := by
  induction k generalizing a with
  | zero => rfl
  | succ k ih =>
    cases a with
    | nil => exact absurd h (Nat.not_succ_le_zero k)
    | cons y a => exact congrArg (y :: ·) (ih (Nat.le_of_succ_le_succ h))

lemma SortedBy.insertIdx_bisectLeft (h : SortedBy lt a) (hx : x ∉ a) :
    SortedBy lt (a.insertIdx (bisectLeft lt a x) x) := by
  have hsplits := splits_bisectLeft h x
  generalize bisectLeft lt a x = k at hsplits ⊢
  have hpair : (a.take k ++ a.drop k).Pairwise fun y z => lt y z = true := by
    rw [List.take_append_drop]
    exact h
  obtain ⟨htake, hdrop, hcross⟩ := List.pairwise_append.mp hpair
  have habove (y : α) (hy : y ∈ a.drop k) : lt x y = true := by
    by_contra hnot
    have hge := hsplits.above y hy
    have heq : y = x := Std.Trichotomous.trichotomous (r := fun y z => lt y z = true) y x
      (by rw [hge]; exact Bool.false_ne_true) hnot
    exact hx (heq ▸ List.mem_of_mem_drop hy)
  rw [insertIdx_eq_append hsplits.le]
  apply List.pairwise_append.mpr
  refine ⟨htake, List.pairwise_cons.mpr ⟨habove, hdrop⟩, ?_⟩
  intro y hy z hz
  rcases List.mem_cons.mp hz with rfl | hz
  · exact hsplits.below y hy
  · exact hcross y hy z hz

end StrictTotal

end KlipperMcu.Lib
