import KlipperMcu.Tools.ScatterLexicographic

/-!
# Matches in a binary tree

`BinaryTreeMatches` compares a position with the nodes on its search path. A position with the key
of a node takes over its children and its place, while the old node keeps its links. The search ends
since a rank, which the new node takes over as well, grows along every link.
-/

namespace KlipperMcu.Scatter

open Lib

inductive Side where
  | left
  | right
deriving DecidableEq, Repr

/-- The root and the arrays `left` and `right`, with `none` for -1. -/
structure Tree where
  root : Option Nat
  links : Side → List (Option Nat)

def Tree.update (t : Tree) (side : Side) (i : Nat) (x : Option Nat) : Tree where
  root := t.root
  links s := if s = side then (t.links s).set i x else t.links s

/-- `side[i] = x`. -/
def Tree.setLink (t : Tree) (side : Side) (i : Nat) (x : Option Nat) : Except Error Tree :=
  if i < (t.links side).length then .ok (t.update side i x) else .error .indexError

/-- `left[position], right[position] = left[node], right[node]`. -/
def Tree.inherit (t : Tree) (node position : Nat) : Except Error Tree :=
  (getItem (t.links .left) node).bind fun l =>
    (getItem (t.links .right) node).bind fun r =>
      (t.setLink .left position l).bind fun t => t.setLink .right position r

/-- The place that the search found, with the best match on the way. -/
structure Place where
  tree : Tree
  parent : Option (Nat × Side)
  best : Candidate

/-- The search for the place of a key. -/
def descend (keys : List (List UInt8)) (key : List UInt8) (position : Nat) (t : Tree) :
    Nat → Option Nat → Option (Nat × Side) → Candidate → Except Error Place
  | 0, _, _, _ => .error .endless
  | _ + 1, none, parent, best => .ok ⟨t, parent, best⟩
  | fuel + 1, some node, parent, best =>
    (getItem keys node).bind fun previousKey =>
      (extend key 0 previousKey 0 (min key.length previousKey.length) 0).bind fun length =>
        let best :=
          if 3 ≤ length ∧ best.length < length ∧ position - node ≤ maxDistance then
            ⟨length, position - node⟩
          else best
        if key = previousKey then (t.inherit node position).map fun t => ⟨t, parent, best⟩
        else
          let side := if bytesLt key previousKey then Side.left else Side.right
          (getItem (t.links side) node).bind fun next =>
            descend keys key position t fuel next (some (node, side)) best

/-- The new node is linked from its parent, or it is the root. -/
def attach (position : Nat) (t : Tree) : Option (Nat × Side) → Except Error Tree
  | none => .ok { t with root := some position }
  | some (parent, side) => t.setLink side parent (some position)

/-- The state of the loop. -/
structure TreeState where
  tree : Tree
  table : List Candidate

def treeKeys (data : List UInt8) : List (List UInt8) :=
  (List.range data.length).map fun p => slice data p maxMatch

/-- The rounds of a search are at most the positions inserted. -/
def treeStep (data : List UInt8) (position : Nat) (s : TreeState) : Except Error TreeState :=
  (getItem (treeKeys data) position).bind fun key =>
    (descend (treeKeys data) key position s.tree (data.length + 1) s.tree.root none ⟨0, 0⟩).bind
      fun place =>
        (attach position place.tree place.parent).map fun t => ⟨t, s.table ++ [place.best]⟩

def binaryTreeMatches (data : List UInt8) : Except Error (List Candidate) :=
  (forRange (treeStep data) data.length
    ⟨⟨none, fun _ => List.replicate data.length none⟩, []⟩).map TreeState.table

section Links

variable {t : Tree} {side s : Side} {i j : Nat} {x : Option Nat}

lemma Tree.length_update (t : Tree) (side s : Side) (i : Nat) (x : Option Nat) :
    ((t.update side i x).links s).length = (t.links s).length := by
  change (if s = side then (t.links s).set i x else t.links s).length = _
  split_ifs
  · exact List.length_set
  · rfl

lemma Tree.getElem?_update_self (h : i < (t.links side).length) :
    ((t.update side i x).links side)[i]? = some x := by
  change (if side = side then (t.links side).set i x else t.links side)[i]? = _
  rw [if_pos rfl]
  exact List.getElem?_set_self h

lemma Tree.getElem?_update_of_ne (h : ¬(s = side ∧ j = i)) :
    ((t.update side i x).links s)[j]? = (t.links s)[j]? := by
  change (if s = side then (t.links s).set i x else t.links s)[j]? = _
  split_ifs with hs
  · exact List.getElem?_set_ne fun hij => h ⟨hs, hij.symm⟩
  · rfl

end Links

/-- The rank grows along the links between the positions inserted. -/
structure Tree.Inv (size position : Nat) (rank : Nat → Nat) (t : Tree) : Prop where
  length : ∀ side, (t.links side).length = size
  root : ∀ x, t.root = some x → x < position
  link : ∀ side x y, (t.links side)[x]? = some (some y) →
    x < position ∧ y < position ∧ rank x < rank y
  rank_le : ∀ x, rank x ≤ x

/-- The links of the new node are set to nodes above its rank, and its parent is below. -/
structure Placed (size position : Nat) (rank : Nat → Nat) (t : Tree) (r : Nat) (place : Place) :
    Prop where
  length : ∀ side, (place.tree.links side).length = size
  root : place.tree.root = t.root
  other : ∀ side x, x ≠ position → (place.tree.links side)[x]? = (t.links side)[x]?
  own : ∀ side y, (place.tree.links side)[position]? = some (some y) → y < position ∧ r < rank y
  le : r ≤ position
  parent : ∀ p side, place.parent = some (p, side) → p < position ∧ rank p < r

section Tree

variable {data : List UInt8} {size position : Nat} {rank : Nat → Nat} {t : Tree}

/-- The new node takes over the children of `node`, which are above the rank of `node`. -/
lemma Tree.Inv.inherit_spec (h : t.Inv size position rank) {node : Nat} (hnode : node < position)
    (hposition : position < size) :
    ∃ t', t.inherit node position = .ok t' ∧ ∀ parent best,
      (∀ p side, parent = some (p, side) → p < position ∧ rank p < rank node) →
      Placed size position rank t (rank node) ⟨t', parent, best⟩ := by
  have hget (side : Side) : ∃ x, (t.links side)[node]? = some x := by
    have hlt : node < (t.links side).length := by
      rw [h.length]
      omega
    exact ⟨_, List.getElem?_eq_getElem hlt⟩
  have hset (side : Side) : position < (t.links side).length := by
    rw [h.length]
    exact hposition
  obtain ⟨l, hl⟩ := hget .left
  obtain ⟨r, hr⟩ := hget .right
  have hset' : position < ((t.update .left position l).links .right).length := by
    rw [Tree.length_update]
    exact hset .right
  refine ⟨(t.update .left position l).update .right position r, ?_, ?_⟩
  · rw [Tree.inherit, getItem, getItem, hl, hr]
    change (t.setLink .left position l).bind _ = _
    rw [Tree.setLink, if_pos (hset .left)]
    change (t.update .left position l).setLink .right position r = _
    rw [Tree.setLink, if_pos hset']
  · intro parent best hparent
    refine ⟨?_, rfl, ?_, ?_, ?_, hparent⟩
    · intro side
      dsimp only
      rw [Tree.length_update, Tree.length_update]
      exact h.length side
    · intro side x hne
      dsimp only
      rw [Tree.getElem?_update_of_ne fun heq => hne heq.2,
        Tree.getElem?_update_of_ne fun heq => hne heq.2]
    · intro side y hy
      dsimp only at hy
      cases side with
      | left =>
        rw [Tree.getElem?_update_of_ne fun heq => Side.noConfusion heq.1,
          Tree.getElem?_update_self (hset .left)] at hy
        exact (h.link .left node y (hl.trans hy)).2
      | right =>
        rw [Tree.getElem?_update_self hset'] at hy
        exact (h.link .right node y (hr.trans hy)).2
    · have hle := h.rank_le node
      omega

lemma Tree.Inv.leaf (h : t.Inv size position rank) {parent : Option (Nat × Side)}
    (hparent : ∀ p side, parent = some (p, side) → p < position) (best : Candidate) :
    Placed size position rank t position ⟨t, parent, best⟩ where
  length := h.length
  root := rfl
  other _ _ _ := rfl
  own := by
    intro side y hy
    exact absurd (h.link side position y hy).1 (Nat.lt_irrefl position)
  le := Nat.le_refl position
  parent := by
    intro p side hp
    have hlt := hparent p side hp
    exact ⟨hlt, Nat.lt_of_le_of_lt (h.rank_le p) hlt⟩

lemma getItem_treeKeys {node : Nat} (h : node < data.length) :
    getItem (treeKeys data) node = .ok (slice data node maxMatch) := by
  have hget : (treeKeys data)[node]? = some (slice data node maxMatch) := by
    rw [treeKeys, List.getElem?_map, List.getElem?_range h]
    rfl
  rw [getItem, hget]

lemma extend_keys {node : Nat} (hnode : node < position) (hposition : position < data.length) :
    ∃ n, extend (slice data position maxMatch) 0 (slice data node maxMatch) 0
        (min (slice data position maxMatch).length (slice data node maxMatch).length) 0 = .ok n ∧
      (3 ≤ n → position - node ≤ maxDistance →
        Candidate.Valid data position ⟨n, position - node⟩) := by
  have hkey : 0 + 0 + min (slice data position maxMatch).length (slice data node maxMatch).length ≤
      (slice data position maxMatch).length := by omega
  have hkey' : 0 + 0 + min (slice data position maxMatch).length (slice data node maxMatch).length ≤
      (slice data node maxMatch).length := by omega
  obtain ⟨n, hn, -, hup, hsame⟩ := extend_spec hkey hkey' fun k hk => absurd hk (Nat.not_lt_zero k)
  refine ⟨n, hn, ?_⟩
  intro hthree hwindow
  rw [length_slice, length_slice] at hup
  apply valid_of_repetition hnode (by omega) hthree (by omega) (by omega)
  intro k hk
  have hbyte := hsame k hk
  rw [Nat.zero_add, getElem?_slice (by omega), getElem?_slice (by omega)] at hbyte
  exact hbyte.symm

lemma descend_spec (h : t.Inv data.length position rank) (hposition : position < data.length)
    {fuel : Nat} {node : Option Nat} {parent : Option (Nat × Side)} {best : Candidate}
    (hbest : best.Valid data position) (hfuel : 0 < fuel)
    (hnode : ∀ x, node = some x → x < position ∧ position < rank x + fuel)
    (hparent : ∀ p side, parent = some (p, side) →
      p < position ∧ ∀ x, node = some x → rank p < rank x) :
    ∃ place r, descend (treeKeys data) (slice data position maxMatch) position t fuel node parent
        best = .ok place ∧
      Placed data.length position rank t r place ∧ place.best.Valid data position := by
  induction fuel generalizing node parent best with
  | zero => exact absurd hfuel (Nat.lt_irrefl 0)
  | succ fuel ih =>
    cases node with
    | none =>
      exact ⟨⟨t, parent, best⟩, position, rfl, h.leaf (fun p side hp => (hparent p side hp).1) best,
        hbest⟩
    | some node =>
      obtain ⟨hlt, hrank⟩ := hnode node rfl
      obtain ⟨n, hn, hvalid⟩ := extend_keys hlt hposition
      rw [descend, getItem_treeKeys (Nat.lt_trans hlt hposition)]
      change ∃ place r, (extend _ 0 (slice data node maxMatch) 0 _ 0).bind _ = _ ∧ _
      rw [hn]
      change ∃ place r, (if slice data position maxMatch = slice data node maxMatch then _ else _) =
        _ ∧ _
      generalize hnext : (if 3 ≤ n ∧ best.length < n ∧ position - node ≤ maxDistance then
        ⟨n, position - node⟩ else best : Candidate) = best'
      have hbest' : best'.Valid data position := by
        rw [← hnext]
        split_ifs with hlonger
        · exact hvalid hlonger.1 hlonger.2.2
        · exact hbest
      generalize (if bytesLt (slice data position maxMatch) (slice data node maxMatch) then Side.left
        else Side.right) = side
      split_ifs with hkey
      · obtain ⟨t', ht', hplaced⟩ := h.inherit_spec hlt hposition
        rw [ht']
        refine ⟨⟨t', parent, best'⟩, rank node, rfl, hplaced parent best' ?_, hbest'⟩
        intro p side hp
        exact ⟨(hparent p side hp).1, (hparent p side hp).2 node rfl⟩
      · have hget : node < (t.links side).length := by
          rw [h.length]
          omega
        rw [getItem_eq_ok hget]
        have hlink (y : Nat) (hy : (t.links side)[node] = some y) :=
          h.link side node y (by rw [List.getElem?_eq_getElem hget, hy])
        have hle := h.rank_le node
        apply ih hbest' (by omega)
        · intro y hy
          obtain ⟨-, hlt', hgrows⟩ := hlink y hy
          exact ⟨hlt', by omega⟩
        · intro p s hp
          cases hp
          exact ⟨hlt, fun y hy => (hlink y hy).2.2⟩

lemma attach_spec {parent : Option (Nat × Side)} (h : t.Inv size (position + 1) rank)
    (hposition : position < size)
    (hparent : ∀ p side, parent = some (p, side) → p < position ∧ rank p < rank position) :
    ∃ t', attach position t parent = .ok t' ∧ t'.Inv size (position + 1) rank := by
  cases parent with
  | none =>
    refine ⟨_, rfl, h.length, ?_, h.link, h.rank_le⟩
    intro x hx
    cases hx
    exact Nat.lt_succ_self position
  | some parent =>
    obtain ⟨p, side⟩ := parent
    obtain ⟨hlt, hrank⟩ := hparent p side rfl
    have hset : p < (t.links side).length := by
      rw [h.length]
      omega
    refine ⟨t.update side p (some position), if_pos hset, ?_, h.root, ?_, h.rank_le⟩
    · intro s
      rw [Tree.length_update]
      exact h.length s
    · intro s x y hy
      by_cases heq : s = side ∧ x = p
      · obtain ⟨rfl, rfl⟩ := heq
        rw [Tree.getElem?_update_self hset] at hy
        cases hy
        exact ⟨Nat.lt_succ_of_lt hlt, Nat.lt_succ_self _, hrank⟩
      · rw [Tree.getElem?_update_of_ne heq] at hy
        exact h.link s x y hy

lemma Placed.inv {r : Nat} {place : Place} (h : Placed size position rank t r place)
    (ht : t.Inv size position rank) :
    place.tree.Inv size (position + 1) (fun x => if x = position then r else rank x) where
  length := h.length
  root := by
    intro x hx
    rw [h.root] at hx
    exact Nat.lt_succ_of_lt (ht.root x hx)
  link := by
    intro side x y hy
    by_cases hx : x = position
    · rw [hx] at hy ⊢
      obtain ⟨hlt, hrank⟩ := h.own side y hy
      rw [if_pos rfl, if_neg (Nat.ne_of_lt hlt)]
      exact ⟨Nat.lt_succ_self _, Nat.lt_succ_of_lt hlt, hrank⟩
    · rw [h.other side x hx] at hy
      obtain ⟨hlt, hlt', hrank⟩ := ht.link side x y hy
      rw [if_neg hx, if_neg (Nat.ne_of_lt hlt')]
      exact ⟨Nat.lt_succ_of_lt hlt, Nat.lt_succ_of_lt hlt', hrank⟩
  rank_le := by
    intro x
    split_ifs with hx
    · rw [hx]
      exact h.le
    · exact ht.rank_le x

/-- A tree with some rank, and the matches found so far. -/
structure TreeState.Inv (data : List UInt8) (position : Nat) (s : TreeState) : Prop where
  tree : ∃ rank, s.tree.Inv data.length position rank
  table : Table data position s.table

lemma treeStep_spec {s : TreeState} (h : s.Inv data position) (hposition : position < data.length) :
    ∃ s', treeStep data position s = .ok s' ∧ s'.Inv data (position + 1) := by
  obtain ⟨rank, ht⟩ := h.tree
  have hroot (x : Nat) (hx : s.tree.root = some x) :
      x < position ∧ position < rank x + (data.length + 1) := ⟨ht.root x hx, by omega⟩
  have hnone (p : Nat) (side : Side) (hp : (none : Option (Nat × Side)) = some (p, side)) :
      p < position ∧ ∀ x, s.tree.root = some x → rank p < rank x := by cases hp
  obtain ⟨place, r, hplace, hplaced, hbest⟩ := descend_spec ht hposition
    (valid_none data position) (Nat.succ_pos data.length) hroot hnone
  have hparent (p : Nat) (side : Side) (hp : place.parent = some (p, side)) :
      p < position ∧ (if p = position then r else rank p) <
        if position = position then r else rank position := by
    obtain ⟨hlt, hrank⟩ := hplaced.parent p side hp
    rw [if_neg (Nat.ne_of_lt hlt), if_pos rfl]
    exact ⟨hlt, hrank⟩
  obtain ⟨t', ht', hinv⟩ := attach_spec (hplaced.inv ht) hposition hparent
  rw [treeStep, getItem_treeKeys hposition]
  change ∃ s', (descend _ _ position s.tree _ _ none _).bind _ = _ ∧ _
  rw [hplace]
  change ∃ s', (attach position place.tree place.parent).map _ = _ ∧ _
  rw [ht']
  exact ⟨⟨t', s.table ++ [place.best]⟩, rfl, ⟨_, hinv⟩, h.table.concat hbest⟩

lemma tree_init (data : List UInt8) :
    TreeState.Inv data 0 ⟨⟨none, fun _ => List.replicate data.length none⟩, []⟩ where
  tree := by
    refine ⟨id, ?_, ?_, ?_, fun x => Nat.le_refl x⟩
    · intro side
      exact List.length_replicate
    · intro x hx
      cases hx
    · intro side x y hy
      rw [List.getElem?_replicate] at hy
      split_ifs at hy
      cases hy
  table := Table.nil data

/-- Every search ends, and every match is a repetition with a token. -/
theorem binaryTreeMatches_table (data : List UInt8) :
    ∃ table, binaryTreeMatches data = .ok table ∧ Table data data.length table := by
  obtain ⟨s, hs, hinv⟩ := forRange_spec (treeStep data) data.length (tree_init data)
    fun _ hposition _ hinv => treeStep_spec hinv hposition
  rw [binaryTreeMatches, hs]
  exact ⟨s.table, rfl, hinv.table⟩

end Tree

end KlipperMcu.Scatter
