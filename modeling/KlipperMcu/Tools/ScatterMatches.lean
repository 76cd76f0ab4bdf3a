import KlipperMcu.Lib.BisectLeft
import KlipperMcu.Tools.Scatterload

/-!
# Matches of the scatter compressor

A dictionary of gd_scatter_compress.py offers a match for each position of the data. What the
compressor needs of it is that a match repeats earlier data, and that it has a token. This is proved
here for `Matches`, an index of all sequences of three bytes.
-/

namespace KlipperMcu.Scatter

open Lib

/-- A match that a dictionary offers, with both zero for none. -/
structure Candidate where
  length : Nat
  distance : Nat
deriving DecidableEq, Repr

/-- No match, or a repetition that has a token. -/
def Candidate.Valid (data : List UInt8) (position : Nat) (c : Candidate) : Prop :=
  c.length = 0 ∧ c.distance = 0 ∨
    (3 ≤ c.length ∧ c.length ≤ maxMatch) ∧ c.distance ≤ maxDistance ∧
      Repeats data position c.length c.distance

/-- The answer of a dictionary. -/
def Sound (data : List UInt8) (position : Nat) (r : Except Error Candidate) : Prop :=
  ∃ c, r = .ok c ∧ c.Valid data position

lemma valid_none (data : List UInt8) (position : Nat) : Candidate.Valid data position ⟨0, 0⟩ :=
  Or.inl ⟨rfl, rfl⟩

lemma Candidate.Valid.encodable {data : List UInt8} {position : Nat} {c : Candidate}
    (h : c.Valid data position) : Encodable c.length c.distance := by
  rcases h with hnone | ⟨hlength, hdistance, hrepeats⟩
  · exact Or.inl hnone
  · exact Or.inr ⟨hlength, hrepeats.pos, hdistance⟩

/-! ### Common parts -/

/-- `data[position:position + n]`. -/
def slice (data : List UInt8) (position n : Nat) : List UInt8 := (data.drop position).take n

/-- `while length < limit and xs[i + length] == ys[j + length]: length += 1`, with the rounds left
up to the limit. -/
def extend (xs : List UInt8) (i : Nat) (ys : List UInt8) (j : Nat) : Nat → Nat → Except Error Nat
  | 0, length => .ok length
  | left + 1, length =>
    (getItem xs (i + length)).bind fun x =>
      (getItem ys (j + length)).bind fun y =>
        if x = y then extend xs i ys j left (length + 1) else .ok length

lemma getItem_eq_ok {α : Type} {l : List α} {i : Nat} (h : i < l.length) :
    getItem l i = .ok l[i] := by
  rw [getItem, List.getElem?_eq_getElem h]

lemma getElem?_slice {data : List UInt8} {position n k : Nat} (h : k < n) :
    (slice data position n)[k]? = data[position + k]? := by
  rw [slice, List.getElem?_take_of_lt h, List.getElem?_drop]

lemma length_slice (data : List UInt8) (position n : Nat) :
    (slice data position n).length = min n (data.length - position) := by
  rw [slice, List.length_take, List.length_drop]

lemma extend_spec {xs ys : List UInt8} {i j left length : Nat}
    (hx : i + length + left ≤ xs.length) (hy : j + length + left ≤ ys.length)
    (heq : ∀ k < length, xs[i + k]? = ys[j + k]?) :
    ∃ n, extend xs i ys j left length = .ok n ∧ length ≤ n ∧ n ≤ length + left ∧
      ∀ k < n, xs[i + k]? = ys[j + k]? := by
  induction left generalizing length with
  | zero => exact ⟨length, rfl, Nat.le_refl _, Nat.le_refl _, heq⟩
  | succ left ih =>
    have hx' : i + length < xs.length := by omega
    have hy' : j + length < ys.length := by omega
    rw [extend, getItem_eq_ok hx', getItem_eq_ok hy']
    change ∃ n, (if xs[i + length] = ys[j + length] then _ else _) = _ ∧ _
    split_ifs with hsame
    · have hnext : ∀ k < length + 1, xs[i + k]? = ys[j + k]? := by
        intro k hk
        rcases Nat.eq_or_lt_of_le (Nat.le_of_lt_succ hk) with rfl | hlt
        · rw [List.getElem?_eq_getElem hx', List.getElem?_eq_getElem hy', hsame]
        · exact heq k hlt
      obtain ⟨n, hn, hle, hup, hget⟩ := ih (by omega) (by omega) hnext
      exact ⟨n, hn, by omega, by omega, hget⟩
    · exact ⟨length, rfl, Nat.le_refl _, by omega, heq⟩

lemma valid_of_repetition {data : List UInt8} {previous position n : Nat} (hlt : previous < position)
    (hwindow : position ≤ previous + maxDistance) (hthree : 3 ≤ n) (hmax : n ≤ maxMatch)
    (hle : position + n ≤ data.length)
    (hget : ∀ k < n, data[previous + k]? = data[position + k]?) :
    Candidate.Valid data position ⟨n, position - previous⟩ := by
  refine Or.inr ⟨⟨hthree, hmax⟩, Nat.sub_le_iff_le_add'.mpr hwindow, ?_⟩
  refine ⟨Nat.sub_pos_of_lt hlt, Nat.sub_le position previous, hle, ?_⟩
  intro k hk
  change data[position - (position - previous) + k]? = _
  rw [Nat.sub_sub_self (Nat.le_of_lt hlt)]
  exact hget k hk

/-- `for position in range(n)`, with a body that may fail. -/
def forRange {σ : Type} (body : Nat → σ → Except Error σ) : Nat → σ → Except Error σ
  | 0, s => .ok s
  | n + 1, s => (forRange body n s).bind (body n)

lemma forRange_spec {σ : Type} (body : Nat → σ → Except Error σ) (n : Nat) {P : Nat → σ → Prop}
    {s : σ} (hinit : P 0 s)
    (hbody : ∀ k < n, ∀ s, P k s → ∃ s', body k s = .ok s' ∧ P (k + 1) s') :
    ∃ s', forRange body n s = .ok s' ∧ P n s' := by
  induction n with
  | zero => exact ⟨s, rfl, hinit⟩
  | succ n ih =>
    obtain ⟨t, ht, hp⟩ := ih fun k hk => hbody k (Nat.lt_succ_of_lt hk)
    obtain ⟨t', ht', hp'⟩ := hbody n (Nat.lt_succ_self n) t hp
    refine ⟨t', ?_, hp'⟩
    rw [forRange, ht]
    exact ht'

/-- `matches[position] if 0 <= position < len(matches) else (0, 0)`. -/
def tableBest (table : List Candidate) (position : Nat) : Candidate :=
  match table[position]? with
  | some c => c
  | none => ⟨0, 0⟩

/-- The matches of the first positions. -/
structure Table (data : List UInt8) (position : Nat) (table : List Candidate) : Prop where
  length : table.length = position
  valid : ∀ p (c : Candidate), table[p]? = some c → c.Valid data p

lemma Table.nil (data : List UInt8) : Table data 0 [] where
  length := rfl
  valid := by
    intro p c h
    cases h

lemma Table.concat {data : List UInt8} {position : Nat} {table : List Candidate} {c : Candidate}
    (h : Table data position table) (hc : c.Valid data position) :
    Table data (position + 1) (table ++ [c]) where
  length := by rw [List.length_append, h.length, List.length_singleton]
  valid := by
    intro p d hd
    rcases Nat.lt_trichotomy p table.length with hlt | rfl | hgt
    · rw [List.getElem?_append_left hlt] at hd
      exact h.valid p d hd
    · rw [List.getElem?_concat_length] at hd
      cases hd
      rw [h.length]
      exact hc
    · rw [List.getElem?_eq_none (by rw [List.length_append]; exact hgt)] at hd
      cases hd

lemma Table.sound {data : List UInt8} {n : Nat} {table : List Candidate} (h : Table data n table)
    (position : Nat) : (tableBest table position).Valid data position := by
  unfold tableBest
  split
  · rename_i c hc
    exact h.valid position c hc
  · exact valid_none data position

/-! ### `Matches` -/

/-- The positions at which a sequence of three bytes starts, as `__init__` collects them. -/
def indexUpTo (data : List UInt8) : Nat → List UInt8 → List Nat
  | 0, _ => []
  | position + 1, key =>
    if slice data position 3 = key then indexUpTo data position key ++ [position]
    else indexUpTo data position key

def tripleIndex (data : List UInt8) : List UInt8 → List Nat := indexUpTo data (data.length - 2)

/-- `best_length and data[previous + best_length] != data[position + best_length]`. -/
def cannotImprove (data : List UInt8) (previous position bestLength : Nat) : Except Error Bool :=
  if bestLength = 0 then .ok false
  else
    (getItem data (previous + bestLength)).bind fun x =>
      (getItem data (position + bestLength)).map fun y => x != y

def bestLoop (data : List UInt8) (choices : List Nat) (position limit : Nat) :
    List Nat → Candidate → Except Error Candidate
  | [], best => .ok best
  | index :: indexes, best =>
    (getItem choices index).bind fun previous =>
      (cannotImprove data previous position best.length).bind fun skip =>
        if skip then bestLoop data choices position limit indexes best
        else
          (extend data previous data position (limit - 3) 3).bind fun length =>
            if best.length < length then
              if length = limit then .ok ⟨length, position - previous⟩
              else bestLoop data choices position limit indexes ⟨length, position - previous⟩
            else bestLoop data choices position limit indexes best

def natLt (a b : Nat) : Bool := decide (a < b)

/-- `best` of `Matches`. -/
def Matches.best (data : List UInt8) (position : Nat) (oldest : Bool) : Except Error Candidate :=
  let limit := min maxMatch (data.length - position)
  if limit < 3 then .ok ⟨0, 0⟩
  else
    let choices := tripleIndex data (slice data position 3)
    let lo := bisectLeft natLt choices (position - maxDistance)
    let hi := bisectLeft natLt choices position
    let indexes := List.range' lo (hi - lo)
    bestLoop data choices position limit (if oldest then indexes else indexes.reverse) ⟨0, 0⟩

instance natLt_trans : IsTrans Nat fun y z => natLt y z = true where
  trans _ _ _ hab hbc :=
    decide_eq_true (Nat.lt_trans (of_decide_eq_true hab) (of_decide_eq_true hbc))

section Matches

variable {data : List UInt8} {position : Nat}

lemma mem_indexUpTo {n p : Nat} {key : List UInt8} :
    p ∈ indexUpTo data n key ↔ p < n ∧ slice data p 3 = key := by
  induction n with
  | zero => exact ⟨fun h => absurd h List.not_mem_nil, fun h => absurd h.1 (Nat.not_lt_zero p)⟩
  | succ n ih =>
    rw [indexUpTo]
    split_ifs with hkey
    · rw [List.mem_append, ih, List.mem_singleton]
      constructor
      · rintro (⟨hlt, hp⟩ | rfl)
        · exact ⟨Nat.lt_succ_of_lt hlt, hp⟩
        · exact ⟨Nat.lt_succ_self p, hkey⟩
      · rintro ⟨hlt, hp⟩
        rcases Nat.eq_or_lt_of_le (Nat.le_of_lt_succ hlt) with heq | hlt
        · exact Or.inr heq
        · exact Or.inl ⟨hlt, hp⟩
    · rw [ih]
      constructor
      · rintro ⟨hlt, hp⟩
        exact ⟨Nat.lt_succ_of_lt hlt, hp⟩
      · rintro ⟨hlt, hp⟩
        refine ⟨Nat.lt_of_le_of_ne (Nat.le_of_lt_succ hlt) ?_, hp⟩
        rintro rfl
        exact hkey hp

lemma sortedBy_indexUpTo (data : List UInt8) (n : Nat) (key : List UInt8) :
    SortedBy natLt (indexUpTo data n key) := by
  induction n with
  | zero => exact List.Pairwise.nil
  | succ n ih =>
    rw [indexUpTo]
    split_ifs
    · apply List.pairwise_append.mpr
      refine ⟨ih, List.pairwise_singleton _ _, ?_⟩
      intro p hp q hq
      rw [List.mem_singleton.mp hq]
      exact decide_eq_true (mem_indexUpTo.mp hp).1
    · exact ih

/-- An earlier position within the window with the same three bytes. -/
structure Choice (data : List UInt8) (position previous : Nat) : Prop where
  lt : previous < position
  window : position ≤ previous + maxDistance
  three : ∀ k < 3, data[previous + k]? = data[position + k]?

lemma choice_of_index {index : Nat}
    (hlo : bisectLeft natLt (tripleIndex data (slice data position 3)) (position - maxDistance) ≤
      index)
    (hhi : index < bisectLeft natLt (tripleIndex data (slice data position 3)) position) :
    ∃ previous, getItem (tripleIndex data (slice data position 3)) index = .ok previous ∧
      Choice data position previous := by
  have hsorted : SortedBy natLt (tripleIndex data (slice data position 3)) :=
    sortedBy_indexUpTo data _ _
  have hmem (p : Nat) : p ∈ tripleIndex data (slice data position 3) ↔
      p < data.length - 2 ∧ slice data p 3 = slice data position 3 := mem_indexUpTo
  generalize tripleIndex data (slice data position 3) = choices at *
  have hlow := splits_bisectLeft hsorted (position - maxDistance)
  have hhigh := splits_bisectLeft hsorted position
  have hlength : index < choices.length := Nat.lt_of_lt_of_le hhi hhigh.le
  refine ⟨choices[index], getItem_eq_ok hlength, ?_, ?_, ?_⟩
  · apply of_decide_eq_true
    apply hhigh.below
    exact List.mem_take_iff_getElem.mpr ⟨index, by omega, rfl⟩
  · have hge := hlow.above choices[index]
      (List.mem_drop_iff_getElem.mpr ⟨index - bisectLeft natLt choices (position - maxDistance),
        by omega, by congr 1; omega⟩)
    have hnot := of_decide_eq_false hge
    omega
  · intro k hk
    have hkey := ((hmem _).mp (List.getElem_mem hlength)).2
    rw [← getElem?_slice hk, hkey, getElem?_slice hk]

lemma cannotImprove_ok {previous n : Nat} (hlt : previous < position)
    (hle : position + n < data.length) : ∃ b, cannotImprove data previous position n = .ok b := by
  unfold cannotImprove
  split_ifs
  · exact ⟨false, rfl⟩
  · rw [getItem_eq_ok (show previous + n < data.length by omega), getItem_eq_ok hle]
    exact ⟨_, rfl⟩

lemma bestLoop_sound {choices indexes : List Nat} {limit : Nat}
    (hlimit : limit = min maxMatch (data.length - position)) (hthree : 3 ≤ limit)
    (hindexes : ∀ index ∈ indexes, ∃ previous, getItem choices index = .ok previous ∧
      Choice data position previous)
    {best : Candidate} (hbest : best.Valid data position) (hshort : best.length < limit) :
    Sound data position (bestLoop data choices position limit indexes best) := by
  induction indexes generalizing best with
  | nil => exact ⟨best, rfl, hbest⟩
  | cons index indexes ih =>
    obtain ⟨previous, hget, hchoice⟩ := hindexes index List.mem_cons_self
    have hrest {best : Candidate} (hvalid : best.Valid data position) (hshort : best.length < limit) :
        Sound data position (bestLoop data choices position limit indexes best) :=
      ih (fun i hi => hindexes i (List.mem_cons_of_mem _ hi)) hvalid hshort
    have hlt := hchoice.lt
    obtain ⟨skip, hskip⟩ := cannotImprove_ok hlt
      (show position + best.length < data.length by omega)
    have hfrom : previous + 3 + (limit - 3) ≤ data.length := by omega
    have hto : position + 3 + (limit - 3) ≤ data.length := by omega
    obtain ⟨n, hn, hlow, hup, hsame⟩ := extend_spec hfrom hto hchoice.three
    have hwindow := hchoice.window
    have hvalid := valid_of_repetition hlt hwindow hlow (show n ≤ maxMatch by omega)
      (show position + n ≤ data.length by omega) hsame
    rw [bestLoop, hget]
    change Sound data position ((cannotImprove data previous position best.length).bind _)
    rw [hskip]
    change Sound data position (if skip = true then _ else _)
    rw [hn]
    split_ifs
    · exact hrest hbest hshort
    · change Sound data position (if best.length < n then _ else _)
      split_ifs with hlonger hfull
      · exact ⟨_, rfl, hvalid⟩
      · exact hrest hvalid (by change n < limit; omega)
      · exact hrest hbest hshort

lemma mem_of_oldest {oldest : Bool} {indexes : List Nat} {index : Nat}
    (h : index ∈ if oldest then indexes else indexes.reverse) : index ∈ indexes := by
  cases oldest with
  | true => exact h
  | false => exact List.mem_reverse.mp h

/-- Every match of the index is a repetition with a token. -/
theorem Matches.best_sound (data : List UInt8) (position : Nat) (oldest : Bool) :
    Sound data position (Matches.best data position oldest) := by
  unfold Matches.best
  by_cases hlimit : min maxMatch (data.length - position) < 3
  · exact ⟨⟨0, 0⟩, if_pos hlimit, valid_none data position⟩
  · dsimp only
    rw [if_neg hlimit]
    apply bestLoop_sound rfl (Nat.not_lt.mp hlimit) _ (valid_none data position)
    · exact Nat.lt_of_lt_of_le (Nat.succ_pos 2) (Nat.not_lt.mp hlimit)
    · intro index hindex
      have hrange := List.mem_range'_1.mp (mem_of_oldest hindex)
      apply choice_of_index
      · exact hrange.1
      · omega

end Matches

end KlipperMcu.Scatter
