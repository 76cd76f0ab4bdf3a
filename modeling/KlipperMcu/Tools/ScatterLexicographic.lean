import KlipperMcu.Tools.ScatterMatches
import Mathlib.Data.List.Lex

/-!
# Lexicographic matches

`LexicographicMatches` keeps the keys of the positions in the window in a sorted list, and compares
a position only with the two neighbours of its key. A key is removed when its position leaves the
window. With unique keys, a key stands for the last position at which it was seen, and it is removed
only with that position.
-/

namespace KlipperMcu.Scatter

open Lib

/-! ### The order of the keys -/

def bytesLt (a b : List UInt8) : Bool := a.lex b fun x y => natLt x.toNat y.toNat

/-- The order of pairs of a key and a position. -/
def entryLt (a b : List UInt8 × Nat) : Bool :=
  if a.1 = b.1 then natLt a.2 b.2 else bytesLt a.1 b.1

lemma natLt_iff {a b : Nat} : natLt a b = true ↔ a < b := decide_eq_true_iff

lemma bytesLt_iff {a b : List UInt8} :
    bytesLt a b = true ↔ List.Lex (fun x y : UInt8 => natLt x.toNat y.toNat = true) a b :=
  List.lex_eq_true_iff_lex _

instance byteLt_trichotomous :
    Std.Trichotomous fun x y : UInt8 => natLt x.toNat y.toNat = true where
  trichotomous x y hxy hyx := by
    rw [natLt_iff] at hxy hyx
    exact UInt8.toNat_inj.mp (by omega)

instance bytesLt_strictTotal : IsStrictTotalOrder (List UInt8) fun a b => bytesLt a b = true where
  trichotomous a b hab hba := by
    rw [bytesLt_iff] at hab hba
    exact Std.Trichotomous.trichotomous a b hab hba
  irrefl a ha := by
    rw [bytesLt_iff] at ha
    exact List.lex_irrefl (fun x hx => Nat.lt_irrefl _ (natLt_iff.mp hx)) a ha
  trans a b c hab hbc := by
    rw [bytesLt_iff] at hab hbc ⊢
    apply List.lex_trans _ hab hbc
    intro x y z hxy hyz
    exact natLt_iff.mpr (Nat.lt_trans (natLt_iff.mp hxy) (natLt_iff.mp hyz))

lemma entryLt_iff {a b : List UInt8 × Nat} :
    entryLt a b = true ↔ a.1 = b.1 ∧ a.2 < b.2 ∨ a.1 ≠ b.1 ∧ bytesLt a.1 b.1 = true := by
  unfold entryLt
  split_ifs with heq
  · rw [natLt_iff]
    simp [heq]
  · simp [heq]

instance entryLt_strictTotal :
    IsStrictTotalOrder (List UInt8 × Nat) fun a b => entryLt a b = true where
  trichotomous a b hab hba := by
    rw [entryLt_iff] at hab hba
    have hkey : a.1 = b.1 := by
      by_contra hne
      have htotal := Std.Trichotomous.trichotomous (r := fun a b => bytesLt a b = true) a.1 b.1
      exact hne (htotal (fun h => hab (Or.inr ⟨hne, h⟩)) fun h => hba (Or.inr ⟨Ne.symm hne, h⟩))
    have hnot : ¬a.2 < b.2 := fun h => hab (Or.inl ⟨hkey, h⟩)
    have hnot' : ¬b.2 < a.2 := fun h => hba (Or.inl ⟨hkey.symm, h⟩)
    exact Prod.ext hkey (Nat.le_antisymm (Nat.not_lt.mp hnot') (Nat.not_lt.mp hnot))
  irrefl a ha := by
    rcases entryLt_iff.mp ha with ⟨-, hlt⟩ | ⟨hne, -⟩
    · exact Nat.lt_irrefl _ hlt
    · exact hne rfl
  trans a b c hab hbc := by
    rcases entryLt_iff.mp hab with ⟨hab, hlt⟩ | ⟨hab, hlt⟩
    · rcases entryLt_iff.mp hbc with ⟨hbc, hlt'⟩ | ⟨hbc, hlt'⟩
      · exact entryLt_iff.mpr (Or.inl ⟨hab.trans hbc, Nat.lt_trans hlt hlt'⟩)
      · rw [← hab] at hbc hlt'
        exact entryLt_iff.mpr (Or.inr ⟨hbc, hlt'⟩)
    · rcases entryLt_iff.mp hbc with ⟨hbc, -⟩ | ⟨-, hlt'⟩
      · rw [hbc] at hab hlt
        exact entryLt_iff.mpr (Or.inr ⟨hab, hlt⟩)
      · have htrans := IsTrans.trans (r := fun a b => bytesLt a b = true) a.1 b.1 c.1 hlt hlt'
        refine entryLt_iff.mpr (Or.inr ⟨?_, htrans⟩)
        intro heq
        rw [heq] at htrans
        exact not_lt_self c.1 htrans

/-! ### `LexicographicMatches` -/

/-- `data[position:position + key_limit] if key_limit else data[position:]`. -/
def keyAt (data : List UInt8) (keyLimit : Option Nat) (position : Nat) : List UInt8 :=
  match keyLimit with
  | some (n + 1) => slice data position (n + 1)
  | some 0 => data.drop position
  | none => data.drop position

/-- `l.pop(i)`. -/
def pop {α : Type} (l : List α) (i : Nat) : Except Error (List α) :=
  if i < l.length then .ok (l.eraseIdx i) else .error .indexError

/-- The comparison with a neighbour in the list of keys. -/
def visit {α : Type} (data : List UInt8) (position : Nat) (keys : List α)
    (previousOf : α → Except Error Nat) (neighbor : Int) (best : Candidate) :
    Except Error Candidate :=
  if ¬(0 ≤ neighbor ∧ neighbor < keys.length) then .ok best
  else
    (getItem keys neighbor.toNat).bind fun entry =>
      (previousOf entry).bind fun previous =>
        (extend data previous data position (min maxMatch (data.length - position)) 0).map fun n =>
          if 3 ≤ n ∧ best.length ≤ n then ⟨n, position - previous⟩ else best

def visitBoth {α : Type} (data : List UInt8) (position : Nat) (keys : List α)
    (previousOf : α → Except Error Nat) (index : Nat) : Except Error Candidate :=
  (visit data position keys previousOf (index - 1) ⟨0, 0⟩).bind
    (visit data position keys previousOf index)

/-- The state of the loop with unique keys. -/
structure Unique where
  keys : List (List UInt8)
  representatives : List UInt8 → Option Nat
  table : List Candidate

def Unique.representative (s : Unique) (key : List UInt8) : Except Error Nat :=
  match s.representatives key with
  | some position => .ok position
  | none => .error .keyError

def Unique.expire (data : List UInt8) (keyLimit : Option Nat) (window position : Nat) (s : Unique) :
    Except Error Unique :=
  if window + 1 ≤ position then
    let key := keyAt data keyLimit (position - window - 1)
    if s.representatives key = some (position - window - 1) then
      (pop s.keys (bisectLeft bytesLt s.keys key)).map fun keys =>
        ⟨keys, fun k => if k = key then none else s.representatives k, s.table⟩
    else .ok s
  else .ok s

def Unique.add (data : List UInt8) (keyLimit : Option Nat) (position : Nat) (s : Unique) :
    Except Error Unique :=
  let key := keyAt data keyLimit position
  let index := bisectLeft bytesLt s.keys key
  (visitBoth data position s.keys s.representative index).map fun best =>
    ⟨if s.representatives key = none then s.keys.insertIdx index key else s.keys,
      fun k => if k = key then some position else s.representatives k, s.table ++ [best]⟩

def Unique.step (data : List UInt8) (keyLimit : Option Nat) (window position : Nat) (s : Unique) :
    Except Error Unique :=
  (Unique.expire data keyLimit window position s).bind (Unique.add data keyLimit position)

/-- The state of the loop with duplicate keys. -/
structure Duplicates where
  keys : List (List UInt8 × Nat)
  table : List Candidate

def Duplicates.expire (data : List UInt8) (keyLimit : Option Nat) (window position : Nat)
    (s : Duplicates) : Except Error Duplicates :=
  if window + 1 ≤ position then
    let expired := position - window - 1
    (pop s.keys (bisectLeft entryLt s.keys (keyAt data keyLimit expired, expired))).map fun keys =>
      ⟨keys, s.table⟩
  else .ok s

def Duplicates.add (data : List UInt8) (keyLimit : Option Nat) (position : Nat) (s : Duplicates) :
    Except Error Duplicates :=
  let lookup := (keyAt data keyLimit position, position)
  let index := bisectLeft entryLt s.keys lookup
  (visitBoth data position s.keys (fun entry => .ok entry.2) index).map fun best =>
    ⟨s.keys.insertIdx index lookup, s.table ++ [best]⟩

def Duplicates.step (data : List UInt8) (keyLimit : Option Nat) (window position : Nat)
    (s : Duplicates) : Except Error Duplicates :=
  (Duplicates.expire data keyLimit window position s).bind (Duplicates.add data keyLimit position)

def lexicographicMatches (data : List UInt8) (keyLimit : Option Nat) (unique : Bool)
    (window : Nat) : Except Error (List Candidate) :=
  if unique then
    (forRange (Unique.step data keyLimit window) data.length ⟨[], fun _ => none, []⟩).map
      Unique.table
  else
    (forRange (Duplicates.step data keyLimit window) data.length ⟨[], []⟩).map Duplicates.table

section Neighbours

variable {data : List UInt8} {position : Nat} {α : Type} {keys : List α}
  {previousOf : α → Except Error Nat}

/-- The entries of the list stand for positions in the window. -/
def Recent (position : Nat) (keys : List α) (previousOf : α → Except Error Nat) : Prop :=
  ∀ entry ∈ keys, ∃ previous, previousOf entry = .ok previous ∧ previous < position ∧
    position ≤ previous + maxDistance

lemma visit_sound (hposition : position < data.length) (h : Recent position keys previousOf)
    (neighbor : Int) {best : Candidate} (hbest : best.Valid data position) :
    Sound data position (visit data position keys previousOf neighbor best) := by
  unfold visit
  by_cases hrange : 0 ≤ neighbor ∧ neighbor < keys.length
  · have hlt : neighbor.toNat < keys.length := by omega
    obtain ⟨previous, hprevious, hbefore, hwindow⟩ := h _ (List.getElem_mem hlt)
    have hfrom : previous + 0 + min maxMatch (data.length - position) ≤ data.length := by omega
    have hto : position + 0 + min maxMatch (data.length - position) ≤ data.length := by omega
    obtain ⟨n, hn, -, hup, hsame⟩ := extend_spec hfrom hto fun k hk =>
      absurd hk (Nat.not_lt_zero k)
    rw [if_neg (not_not.mpr hrange), getItem_eq_ok hlt]
    change Sound data position ((previousOf keys[neighbor.toNat]).bind _)
    rw [hprevious]
    change Sound data position ((extend data previous data position _ 0).map _)
    rw [hn]
    refine ⟨_, rfl, ?_⟩
    dsimp only
    split_ifs with hlonger
    · exact valid_of_repetition hbefore hwindow hlonger.1 (by omega) (by omega) hsame
    · exact hbest
  · rw [if_pos hrange]
    exact ⟨best, rfl, hbest⟩

lemma visitBoth_sound (hposition : position < data.length) (h : Recent position keys previousOf)
    (index : Nat) : Sound data position (visitBoth data position keys previousOf index) := by
  obtain ⟨best, heq, hbest⟩ := visit_sound hposition h (index - 1) (valid_none data position)
  rw [visitBoth, heq]
  exact visit_sound hposition h index hbest

lemma pop_bisectLeft {lt : α → α → Bool} [IsStrictTotalOrder α fun y z => lt y z = true] {x : α}
    (h : SortedBy lt keys) (hx : x ∈ keys) :
    pop keys (bisectLeft lt keys x) = .ok (keys.eraseIdx (bisectLeft lt keys x)) :=
  if_pos (bisectLeft_lt_length h hx)

lemma mem_insertIdx_bisectLeft {lt : α → α → Bool}
    [IsStrictTotalOrder α fun y z => lt y z = true] {x y : α} (h : SortedBy lt keys) :
    y ∈ keys.insertIdx (bisectLeft lt keys x) x ↔ y = x ∨ y ∈ keys :=
  List.mem_insertIdx (splits_bisectLeft h x).le

end Neighbours

section Unique

variable {data : List UInt8} {keyLimit : Option Nat} {window position : Nat} {s : Unique}

/-- The sorted keys are those that have a representative, which is at most `age` old. -/
structure Unique.Inv (data : List UInt8) (keyLimit : Option Nat) (age position : Nat) (s : Unique) :
    Prop where
  sorted : SortedBy bytesLt s.keys
  mem : ∀ key, key ∈ s.keys ↔ s.representatives key ≠ none
  recent : ∀ key p, s.representatives key = some p →
    keyAt data keyLimit p = key ∧ p < position ∧ position ≤ p + age
  table : Table data position s.table

lemma Unique.expire_spec (h : s.Inv data keyLimit (window + 1) position) :
    ∃ s', Unique.expire data keyLimit window position s = .ok s' ∧
      s'.Inv data keyLimit window position := by
  unfold Unique.expire
  by_cases hold : window + 1 ≤ position
  · rw [if_pos hold]
    dsimp only
    generalize hexpired : position - window - 1 = expired
    generalize hkey : keyAt data keyLimit expired = key
    by_cases hrep : s.representatives key = some expired
    · have hmem : key ∈ s.keys := (h.mem key).mpr (by rw [hrep]; exact Option.some_ne_none _)
      rw [if_pos hrep, pop_bisectLeft h.sorted hmem]
      refine ⟨_, rfl, h.sorted.eraseIdx _, ?_, ?_, h.table⟩
      · intro k
        rw [mem_eraseIdx_bisectLeft h.sorted hmem, h.mem]
        dsimp only
        by_cases hk : k = key
        · simp [hk]
        · simp [hk]
      · intro k p hp
        dsimp only at hp
        split_ifs at hp with hk
        obtain ⟨hkp, hlt, hage⟩ := h.recent k p hp
        refine ⟨hkp, hlt, ?_⟩
        have hne : p ≠ expired := by
          rintro rfl
          exact hk (hkp.symm.trans hkey)
        omega
    · rw [if_neg hrep]
      refine ⟨s, rfl, h.sorted, h.mem, ?_, h.table⟩
      intro k p hp
      obtain ⟨hkp, hlt, hage⟩ := h.recent k p hp
      refine ⟨hkp, hlt, ?_⟩
      have hne : p ≠ expired := by
        rintro rfl
        rw [← hkey, hkp] at hrep
        exact hrep hp
      omega
  · rw [if_neg hold]
    refine ⟨s, rfl, h.sorted, h.mem, ?_, h.table⟩
    intro k p hp
    obtain ⟨hkp, hlt, -⟩ := h.recent k p hp
    exact ⟨hkp, hlt, by omega⟩

lemma Unique.Inv.recent_keys (h : s.Inv data keyLimit window position)
    (hwindow : window ≤ maxDistance) : Recent position s.keys s.representative := by
  intro key hkey
  obtain ⟨p, hp⟩ := Option.ne_none_iff_exists'.mp ((h.mem key).mp hkey)
  obtain ⟨-, hlt, hage⟩ := h.recent key p hp
  refine ⟨p, ?_, hlt, by omega⟩
  rw [Unique.representative, hp]

lemma Unique.add_spec (h : s.Inv data keyLimit window position) (hwindow : window ≤ maxDistance)
    (hposition : position < data.length) :
    ∃ s', Unique.add data keyLimit position s = .ok s' ∧
      s'.Inv data keyLimit (window + 1) (position + 1) := by
  unfold Unique.add
  dsimp only
  generalize hkey : keyAt data keyLimit position = key
  obtain ⟨best, hbest, hvalid⟩ := visitBoth_sound hposition (h.recent_keys hwindow)
    (bisectLeft bytesLt s.keys key)
  rw [hbest]
  refine ⟨_, rfl, ?_, ?_, ?_, h.table.concat hvalid⟩
  · dsimp only
    split_ifs with hnew
    · apply h.sorted.insertIdx_bisectLeft
      rw [h.mem, hnew]
      exact fun hne => hne rfl
    · exact h.sorted
  · intro k
    dsimp only
    by_cases hk : k = key
    · rw [hk, if_pos rfl]
      split_ifs with hnew
      · simp [mem_insertIdx_bisectLeft h.sorted]
      · simp [(h.mem key).mpr hnew]
    · rw [if_neg hk, ← h.mem]
      split_ifs
      · simp [mem_insertIdx_bisectLeft h.sorted, hk]
      · exact Iff.rfl
  · intro k p hp
    dsimp only at hp
    split_ifs at hp with hk
    · cases hp
      exact ⟨hkey.trans hk.symm, by omega, by omega⟩
    · obtain ⟨hkp, hlt, hage⟩ := h.recent k p hp
      exact ⟨hkp, by omega, by omega⟩

lemma Unique.step_spec (h : s.Inv data keyLimit (window + 1) position)
    (hwindow : window ≤ maxDistance) (hposition : position < data.length) :
    ∃ s', Unique.step data keyLimit window position s = .ok s' ∧
      s'.Inv data keyLimit (window + 1) (position + 1) := by
  obtain ⟨t, ht, hinv⟩ := Unique.expire_spec h
  rw [Unique.step, ht]
  exact Unique.add_spec hinv hwindow hposition

lemma Unique.inv_init (data : List UInt8) (keyLimit : Option Nat) (age : Nat) :
    Unique.Inv data keyLimit age 0 ⟨[], fun _ => none, []⟩ where
  sorted := List.Pairwise.nil
  mem := by simp
  recent := by
    intro key p hp
    cases hp
  table := Table.nil data

end Unique

section Duplicates

variable {data : List UInt8} {keyLimit : Option Nat} {window position : Nat} {s : Duplicates}

/-- The sorted entries are those of the last `age` positions. -/
structure Duplicates.Inv (data : List UInt8) (keyLimit : Option Nat) (age position : Nat)
    (s : Duplicates) : Prop where
  sorted : SortedBy entryLt s.keys
  mem : ∀ entry, entry ∈ s.keys ↔
    keyAt data keyLimit entry.2 = entry.1 ∧ entry.2 < position ∧ position ≤ entry.2 + age
  table : Table data position s.table

lemma Duplicates.expire_spec (h : s.Inv data keyLimit (window + 1) position) :
    ∃ s', Duplicates.expire data keyLimit window position s = .ok s' ∧
      s'.Inv data keyLimit window position := by
  unfold Duplicates.expire
  by_cases hold : window + 1 ≤ position
  · rw [if_pos hold]
    dsimp only
    generalize hexpired : position - window - 1 = expired
    have hmem : (keyAt data keyLimit expired, expired) ∈ s.keys :=
      (h.mem _).mpr ⟨rfl, by dsimp only; omega, by dsimp only; omega⟩
    rw [pop_bisectLeft h.sorted hmem]
    refine ⟨_, rfl, h.sorted.eraseIdx _, ?_, h.table⟩
    intro entry
    rw [mem_eraseIdx_bisectLeft h.sorted hmem, h.mem]
    constructor
    · rintro ⟨⟨hkey, hlt, hage⟩, hne⟩
      refine ⟨hkey, hlt, ?_⟩
      have hne' : entry.2 ≠ expired := by
        intro heq
        exact hne (Prod.ext (by rw [← hkey, heq]) heq)
      omega
    · rintro ⟨hkey, hlt, hage⟩
      refine ⟨⟨hkey, hlt, by omega⟩, ?_⟩
      rintro rfl
      dsimp only at hage
      omega
  · rw [if_neg hold]
    refine ⟨s, rfl, h.sorted, ?_, h.table⟩
    intro entry
    rw [h.mem]
    constructor
    · rintro ⟨hkey, hlt, -⟩
      exact ⟨hkey, hlt, by omega⟩
    · rintro ⟨hkey, hlt, hage⟩
      exact ⟨hkey, hlt, by omega⟩

lemma Duplicates.add_spec (h : s.Inv data keyLimit window position) (hwindow : window ≤ maxDistance)
    (hposition : position < data.length) :
    ∃ s', Duplicates.add data keyLimit position s = .ok s' ∧
      s'.Inv data keyLimit (window + 1) (position + 1) := by
  have hrecent : Recent position s.keys fun entry => .ok entry.2 := by
    intro entry hentry
    obtain ⟨-, hlt, hage⟩ := (h.mem entry).mp hentry
    exact ⟨entry.2, rfl, hlt, by omega⟩
  unfold Duplicates.add
  dsimp only
  obtain ⟨best, hbest, hvalid⟩ := visitBoth_sound hposition hrecent
    (bisectLeft entryLt s.keys (keyAt data keyLimit position, position))
  rw [hbest]
  refine ⟨_, rfl, ?_, ?_, h.table.concat hvalid⟩
  · apply h.sorted.insertIdx_bisectLeft
    rw [h.mem]
    exact fun hmem => Nat.lt_irrefl _ hmem.2.1
  · intro entry
    dsimp only
    rw [mem_insertIdx_bisectLeft h.sorted, h.mem]
    constructor
    · rintro (rfl | ⟨hkey, hlt, hage⟩)
      · exact ⟨rfl, Nat.lt_succ_self _, by dsimp only; omega⟩
      · exact ⟨hkey, by omega, by omega⟩
    · rintro ⟨hkey, hlt, hage⟩
      rcases Nat.eq_or_lt_of_le (Nat.le_of_lt_succ hlt) with heq | hlt
      · exact Or.inl (Prod.ext (by rw [← hkey, heq]) heq)
      · exact Or.inr ⟨hkey, hlt, by omega⟩

lemma Duplicates.step_spec (h : s.Inv data keyLimit (window + 1) position)
    (hwindow : window ≤ maxDistance) (hposition : position < data.length) :
    ∃ s', Duplicates.step data keyLimit window position s = .ok s' ∧
      s'.Inv data keyLimit (window + 1) (position + 1) := by
  obtain ⟨t, ht, hinv⟩ := Duplicates.expire_spec h
  rw [Duplicates.step, ht]
  exact Duplicates.add_spec hinv hwindow hposition

lemma Duplicates.inv_init (data : List UInt8) (keyLimit : Option Nat) (age : Nat) :
    Duplicates.Inv data keyLimit age 0 ⟨[], []⟩ where
  sorted := List.Pairwise.nil
  mem := by
    intro entry
    exact ⟨fun hmem => absurd hmem List.not_mem_nil, fun h => absurd h.2.1 (Nat.not_lt_zero _)⟩
  table := Table.nil data

end Duplicates

/-- The keys never run out of order, and every match is a repetition with a token. -/
theorem lexicographicMatches_table (data : List UInt8) (keyLimit : Option Nat) (unique : Bool)
    {window : Nat} (hwindow : window ≤ maxDistance) :
    ∃ table, lexicographicMatches data keyLimit unique window = .ok table ∧
      Table data data.length table := by
  unfold lexicographicMatches
  cases unique with
  | true =>
    obtain ⟨s, hs, hinv⟩ := forRange_spec (Unique.step data keyLimit window) data.length
      (Unique.inv_init data keyLimit (window + 1))
      fun _ hposition _ hinv => Unique.step_spec hinv hwindow hposition
    rw [if_pos rfl, hs]
    exact ⟨s.table, rfl, hinv.table⟩
  | false =>
    obtain ⟨s, hs, hinv⟩ := forRange_spec (Duplicates.step data keyLimit window) data.length
      (Duplicates.inv_init data keyLimit (window + 1))
      fun _ hposition _ hinv => Duplicates.step_spec hinv hwindow hposition
    rw [if_neg Bool.false_ne_true, hs]
    exact ⟨s.table, rfl, hinv.table⟩

end KlipperMcu.Scatter
