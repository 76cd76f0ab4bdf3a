import KlipperMcu.Lib.Chain

/-!
# The move queue

The storage of basecmd.c that holds queued moves. A pool has `move_count` nodes, numbered in the
order of their addresses. A node is on the free list, on the queue of one object, or held by a
command that has allocated it.
-/

namespace KlipperMcu.Moves

open Lib

/-- The nodes of `move_list`. -/
structure Pool where
  count : Nat
  next : Nat → Option Nat
  freeList : Option Nat

/-- `struct move_queue_head`. -/
structure Head where
  first : Option Nat
  last : Option Nat
deriving DecidableEq, Repr

def Pool.setNext (p : Pool) (m : Nat) (v : Option Nat) : Pool :=
  { p with next := Function.update p.next m v }

def moveFree (p : Pool) (m : Nat) : Pool :=
  { p.setNext m p.freeList with freeList := some m }

/-- `move_alloc`, or `none` when the free list is empty and it shuts down. -/
def moveAlloc (p : Pool) : Option (Nat × Pool) :=
  p.freeList.map fun m => (m, { p with freeList := p.next m })

def moveQueueEmpty (mh : Head) : Bool := mh.first.isNone

/-- `move_queue_push` with its result. It is `none` when it follows a null `last` pointer. -/
def moveQueuePush (p : Pool) (m : Nat) (mh : Head) : Option (Pool × Head × Bool) :=
  let p := p.setNext m none
  if mh.first.isSome then
    mh.last.map fun z => (p.setNext z (some m), { mh with last := some m }, false)
  else some (p, ⟨some m, some m⟩, true)

/-- `move_queue_pop`, or `none` when it follows the null pointer of an empty queue. -/
def moveQueuePop (p : Pool) (mh : Head) : Option (Nat × Head) :=
  mh.first.map fun m => (m, { mh with first := p.next m })

def moveQueueClear (mh : Head) : Head := { mh with first := none }

def moveReset (p : Pool) : Pool :=
  if p.count = 0 then p
  else
    { p with
      next := fun i =>
        if i + 1 < p.count then some (i + 1) else if i + 1 = p.count then none else p.next i
      freeList := some 0 }

/-- The loop that returns all nodes of a queue to the free list. It is `none` when it does not end
within `fuel` rounds. -/
def freeQueue : Nat → Pool → Head → Option (Pool × Head)
  | fuel, p, mh =>
    match moveQueuePop p mh with
    | none => some (p, mh)
    | some (m, mh') =>
      match fuel with
      | 0 => none
      | fuel + 1 => freeQueue fuel (moveFree p m) mh'

/-- The queue holds the nodes `q` in order. The `last` pointer of an empty queue is stale. -/
structure QueueIs (p : Pool) (mh : Head) (q : List Nat) : Prop where
  seg : Seg p.next mh.first q none
  last : q ≠ [] → mh.last = q.getLast?

/-- Who owns which nodes: the free list, a running command, and the queues of all objects. -/
structure Owned (p : Pool) (heads : List Head) (held free : List Nat) (queues : List (List Nat)) :
    Prop where
  freeSeg : Seg p.next p.freeList free none
  length : heads.length = queues.length
  queue : ∀ (i : Nat) mh q, heads[i]? = some mh → queues[i]? = some q → QueueIs p mh q
  perm : (held ++ (free ++ queues.flatten)).Perm (List.range p.count)

/-- The free list, the held nodes and the queues partition the nodes of the pool. -/
def Partition (p : Pool) (heads : List Head) (held : List Nat) : Prop :=
  ∃ free queues, Owned p heads held free queues

/-- Every node is on the free list exactly once. -/
def AllFree (p : Pool) : Prop :=
  ∃ free, Seg p.next p.freeList free none ∧ free.Perm (List.range p.count)

section Owned

variable {p p' : Pool} {heads : List Head} {held free : List Nat} {queues : List (List Nat)}
  {i m : Nat} {mh mh' : Head} {q : List Nat}

lemma flatten_set_perm {queues : List (List Nat)} (hi : i < queues.length) (q : List Nat) :
    (queues.set i q).flatten.Perm (q ++ (queues.eraseIdx i).flatten) := by
  induction queues generalizing i with
  | nil => simp at hi
  | cons a queues ih =>
    cases i with
    | zero => exact List.Perm.refl _
    | succ i =>
      have hrec := ih (by simpa using hi)
      simp only [List.set_cons_succ, List.flatten_cons, List.eraseIdx_cons_succ]
      refine (List.Perm.append_left a hrec).trans ?_
      rw [← List.append_assoc, ← List.append_assoc]
      exact List.Perm.append_right _ List.perm_append_comm

lemma flatten_perm {queues : List (List Nat)} (hq : queues[i]? = some q) :
    queues.flatten.Perm (q ++ (queues.eraseIdx i).flatten) := by
  obtain ⟨hi, rfl⟩ := List.getElem?_eq_some_iff.mp hq
  have h := flatten_set_perm hi queues[i]
  rwa [List.set_getElem_self] at h

lemma perm_to_front {held free q rest all : List Nat} (h : all.Perm (q ++ rest)) :
    (held ++ (free ++ all)).Perm (held ++ q ++ (free ++ rest)) := by
  refine ((h.append_left free).append_left held).trans ?_
  rw [List.append_assoc held]
  refine List.Perm.append_left held ?_
  rw [← List.append_assoc, ← List.append_assoc]
  exact List.perm_append_comm.append_right _

lemma Owned.nodup (h : Owned p heads held free queues) :
    (held ++ (free ++ queues.flatten)).Nodup := (List.Perm.nodup_iff h.perm).mpr List.nodup_range

lemma Owned.getElem? (h : Owned p heads held free queues) (hmh : heads[i]? = some mh) :
    ∃ q, queues[i]? = some q ∧ QueueIs p mh q := by
  obtain ⟨hi, -⟩ := List.getElem?_eq_some_iff.mp hmh
  have hq : queues[i]? = some (queues.get ⟨i, h.length ▸ hi⟩) := by
    simp [h.length ▸ hi]
  exact ⟨_, hq, h.queue i mh _ hmh hq⟩

lemma QueueIs.congr (h : QueueIs p mh q) (hq : ∀ a ∈ q, p.next a = p'.next a) :
    QueueIs p' mh q := ⟨(seg_congr hq _ _).mp h.seg, h.last⟩

lemma QueueIs.first_eq_none (h : QueueIs p mh q) : mh.first = none ↔ q = [] := by
  have hseg := h.seg
  cases q with
  | nil => exact ⟨fun _ => rfl, fun _ => hseg⟩
  | cons a q =>
    have hfirst := hseg.1
    simp [hfirst]

lemma Owned.moveAlloc (h : Owned p heads held free queues) (ha : moveAlloc p = some (m, p')) :
    ∃ free', Owned p' heads (m :: held) free' queues := by
  obtain ⟨m', hm, heq⟩ := Option.map_eq_some_iff.mp ha
  obtain ⟨rfl, rfl⟩ := Prod.mk.inj heq
  have hfree := h.freeSeg
  cases free with
  | nil =>
    rw [seg_nil, hm] at hfree
    cases hfree
  | cons a free =>
    obtain ⟨hfirst, hrest⟩ := hfree
    obtain rfl : m' = a := Option.some.inj (hm.symm.trans hfirst)
    refine ⟨free, hrest, h.length, fun i mh q hmh hq => (h.queue i mh q hmh hq).congr fun _ _ => rfl,
      ?_⟩
    refine List.Perm.trans ?_ h.perm
    rw [List.cons_append, List.cons_append]
    exact List.perm_middle.symm

lemma Owned.notMem (h : Owned p heads (m :: held) free queues) :
    m ∉ free ∧ ∀ (i : Nat) q, queues[i]? = some q → m ∉ q := by
  have hnd := h.nodup
  rw [List.cons_append, List.nodup_cons] at hnd
  have hm := hnd.1
  simp only [List.mem_append, not_or] at hm
  refine ⟨hm.2.1, fun i q hq hmem => hm.2.2 ?_⟩
  exact List.mem_flatten.mpr ⟨q, List.mem_of_getElem? hq, hmem⟩

lemma Owned.moveFree (h : Owned p heads (m :: held) free queues) :
    Owned (moveFree p m) heads held (m :: free) queues := by
  obtain ⟨hfree, hqueues⟩ := h.notMem
  refine ⟨seg_push_front h.freeSeg hfree, h.length, ?_, ?_⟩
  · intro i mh q hmh hq
    refine (h.queue i mh q hmh hq).congr fun a ha => ?_
    have hne : a ≠ m := fun heq => hqueues i q hq (heq ▸ ha)
    exact (Function.update_of_ne hne _ _).symm
  · refine List.Perm.trans ?_ h.perm
    rw [List.cons_append, List.cons_append]
    exact List.perm_middle

lemma Owned.disjoint (h : Owned p heads held free queues) (hq : queues[i]? = some q) {a : Nat}
    (ha : a ∈ q) : a ∉ held ∧ a ∉ free ∧ ∀ (j : Nat) q', j ≠ i → queues[j]? = some q' → a ∉ q' := by
  have hnd := h.nodup
  have hmem : a ∈ queues.flatten := List.mem_flatten.mpr ⟨q, List.mem_of_getElem? hq, ha⟩
  rw [List.nodup_append, List.nodup_append] at hnd
  obtain ⟨-, ⟨-, hflat, hfree⟩, hheld⟩ := hnd
  refine ⟨fun hx => hheld a hx a (List.mem_append_right _ hmem) rfl,
    fun hx => hfree a hx a hmem rfl, ?_⟩
  intro j q' hj hq' hx
  have hpair := (List.nodup_flatten.mp hflat).2
  obtain ⟨hi, rfl⟩ := List.getElem?_eq_some_iff.mp hq
  obtain ⟨hj', rfl⟩ := List.getElem?_eq_some_iff.mp hq'
  rcases Nat.lt_or_gt_of_ne hj with hlt | hlt
  · exact List.pairwise_iff_getElem.mp hpair j i hj' hi hlt hx ha
  · exact List.pairwise_iff_getElem.mp hpair i j hi hj' hlt ha hx

lemma Owned.set (h : Owned p heads held free queues) {q' held' : List Nat}
    (hq : queues[i]? = some q) (hfree : Seg p'.next p'.freeList free none)
    (hother : ∀ (j : Nat) mh q, j ≠ i → heads[j]? = some mh → queues[j]? = some q → QueueIs p' mh q)
    (hnew : QueueIs p' mh' q') (hcount : p'.count = p.count)
    (hperm : (held' ++ q').Perm (held ++ q)) :
    Owned p' (heads.set i mh') held' free (queues.set i q') := by
  obtain ⟨hi, -⟩ := List.getElem?_eq_some_iff.mp hq
  refine ⟨hfree, by rw [List.length_set, List.length_set, h.length], ?_, ?_⟩
  · intro j mh q'' hmh hq''
    by_cases hj : j = i
    · subst hj
      rw [List.getElem?_set_self (by rw [h.length]; exact hi)] at hmh
      rw [List.getElem?_set_self hi] at hq''
      cases hmh
      cases hq''
      exact hnew
    · rw [List.getElem?_set_ne (Ne.symm hj)] at hmh hq''
      exact hother j mh q'' hj hmh hq''
  · rw [hcount]
    refine List.Perm.trans ?_ h.perm
    refine (perm_to_front (flatten_set_perm hi q')).trans ?_
    exact (hperm.append_right _).trans (perm_to_front (flatten_perm hq)).symm

lemma Owned.moveQueuePush (h : Owned p heads (m :: held) free queues) (hmh : heads[i]? = some mh)
    {first : Bool} (hp : moveQueuePush p m mh = some (p', mh', first)) :
    ∃ q, queues[i]? = some q ∧ (first = true ↔ q = []) ∧
      Owned p' (heads.set i mh') held free (queues.set i (q ++ [m])) := by
  obtain ⟨q, hq, hqi⟩ := h.getElem? hmh
  obtain ⟨hmfree, hmqueues⟩ := h.notMem
  have hmq := hmqueues i q hq
  have hperm : (held ++ (q ++ [m])).Perm (m :: held ++ q) := by
    rw [← List.append_assoc]
    exact List.perm_append_singleton m (held ++ q)
  refine ⟨q, hq, ?_⟩
  unfold Moves.moveQueuePush at hp
  simp only [] at hp
  rcases hfirst : mh.first with _ | a
  · have hnil : q = [] := hqi.first_eq_none.mp hfirst
    simp only [hfirst, Option.isSome_none, Bool.false_eq_true, if_false, Option.some.injEq,
      Prod.mk.injEq] at hp
    obtain ⟨rfl, rfl, rfl⟩ := hp
    subst hnil
    refine ⟨by simp, h.set hq ?_ ?_ ⟨?_, fun _ => rfl⟩ rfl hperm⟩
    · exact (seg_update_of_notMem hmfree _ _ _).mpr h.freeSeg
    · intro j mhj qj _ hmhj hqj
      refine (h.queue j mhj qj hmhj hqj).congr fun a ha => ?_
      have hma : a ≠ m := fun heq => hmqueues j qj hqj (heq ▸ ha)
      exact (Function.update_of_ne hma _ _).symm
    · exact ⟨rfl, Function.update_self _ _ _⟩
  · have hne : q ≠ [] := fun hnil => by
      rw [hqi.first_eq_none.mpr hnil] at hfirst
      cases hfirst
    obtain ⟨l, z, rfl⟩ : ∃ l z, q = l ++ [z] := ⟨_, _, (List.dropLast_append_getLast hne).symm⟩
    have hlast : mh.last = some z := by
      rw [hqi.last hne, List.getLast?_concat]
    simp only [hfirst, Option.isSome_some, if_true, hlast, Option.map_some, Option.some.injEq,
      Prod.mk.injEq] at hp
    obtain ⟨rfl, rfl, rfl⟩ := hp
    have hz : z ∈ l ++ [z] := by simp
    obtain ⟨-, hzfree, hzqueues⟩ := h.disjoint hq hz
    refine ⟨by simp, h.set hq ?_ ?_ ⟨?_, fun _ => ?_⟩ rfl hperm⟩
    · refine (seg_update_of_notMem hzfree _ _ _).mpr ?_
      exact (seg_update_of_notMem hmfree _ _ _).mpr h.freeSeg
    · intro j mhj qj hj hmhj hqj
      refine (h.queue j mhj qj hmhj hqj).congr fun a ha => ?_
      have hza : a ≠ z := fun heq => hzqueues j qj hj hqj (heq ▸ ha)
      have hma : a ≠ m := fun heq => hmqueues j qj hqj (heq ▸ ha)
      exact ((Function.update_of_ne hza _ _).trans (Function.update_of_ne hma _ _)).symm
    · have hseg := seg_push_back hqi.seg hmq
      rw [hfirst] at hseg
      rw [List.append_assoc]
      exact hseg
    · rw [List.getLast?_concat]

lemma Owned.moveQueuePush_isSome (h : Owned p heads held free queues) (hmh : heads[i]? = some mh) :
    (Moves.moveQueuePush p m mh).isSome := by
  obtain ⟨q, hq, hqi⟩ := h.getElem? hmh
  unfold Moves.moveQueuePush
  simp only []
  split
  · rename_i hfirst
    have hne : q ≠ [] := fun hnil => by
      rw [hqi.first_eq_none.mpr hnil] at hfirst
      cases hfirst
    rw [hqi.last hne, List.getLast?_eq_some_getLast hne]
    rfl
  · rfl

lemma Owned.exists_moveQueuePush (h : Owned p heads (m :: held) free queues)
    (hmh : heads[i]? = some mh) :
    ∃ p' mh' first q, Moves.moveQueuePush p m mh = some (p', mh', first) ∧
      queues[i]? = some q ∧ (first = true ↔ q = []) ∧
      Owned p' (heads.set i mh') held free (queues.set i (q ++ [m])) := by
  obtain ⟨⟨p', mh', first⟩, hpush⟩ := Option.isSome_iff_exists.mp (h.moveQueuePush_isSome hmh)
  obtain ⟨q, hq⟩ := h.moveQueuePush hmh hpush
  exact ⟨p', mh', first, q, hpush, hq⟩

lemma Owned.moveQueuePop (h : Owned p heads held free queues) (hmh : heads[i]? = some mh)
    (hp : moveQueuePop p mh = some (m, mh')) :
    ∃ q, queues[i]? = some (m :: q) ∧
      Owned p (heads.set i mh') (m :: held) free (queues.set i q) := by
  obtain ⟨q, hq, hqi⟩ := h.getElem? hmh
  obtain ⟨m', hm, heq⟩ := Option.map_eq_some_iff.mp hp
  obtain ⟨rfl, rfl⟩ := Prod.mk.inj heq
  have hseg := hqi.seg
  have hlast := hqi.last
  cases q with
  | nil =>
    rw [seg_nil, hm] at hseg
    cases hseg
  | cons a q =>
    obtain ⟨hfirst, hrest⟩ := hseg
    obtain rfl : m' = a := Option.some.inj (hm.symm.trans hfirst)
    refine ⟨q, hq, h.set hq h.freeSeg (fun j mhj qj _ hmhj hqj => h.queue j mhj qj hmhj hqj)
      ⟨hrest, fun hne => ?_⟩ rfl List.perm_middle.symm⟩
    rw [hlast (List.cons_ne_nil _ _), List.getLast?_cons_of_ne_nil hne]

lemma Owned.popFree (h : Owned p heads held free queues) (hmh : heads[i]? = some mh)
    (hp : Moves.moveQueuePop p mh = some (m, mh')) :
    ∃ q, queues[i]? = some (m :: q) ∧
      Owned (Moves.moveFree p m) (heads.set i mh') held (m :: free) (queues.set i q) := by
  obtain ⟨q, hq, hown⟩ := h.moveQueuePop hmh hp
  exact ⟨q, hq, hown.moveFree⟩

lemma moveQueuePop_of_not_empty (h : moveQueueEmpty mh = false) :
    ∃ m, Moves.moveQueuePop p mh = some (m, { mh with first := p.next m }) := by
  unfold moveQueueEmpty at h
  rcases hf : mh.first with _ | m
  · rw [hf] at h
    cases h
  · exact ⟨m, by rw [Moves.moveQueuePop, hf]; rfl⟩

lemma Owned.set_self (h : Owned p heads held free queues) (hmh : heads[i]? = some mh)
    (hq : queues[i]? = some q) : Owned p (heads.set i mh) held free (queues.set i q) := by
  obtain ⟨hi, rfl⟩ := List.getElem?_eq_some_iff.mp hmh
  obtain ⟨hi', rfl⟩ := List.getElem?_eq_some_iff.mp hq
  rw [List.set_getElem_self, List.set_getElem_self]
  exact h

lemma Owned.freeList_eq_none (h : Owned p heads held free queues) (hz : p.count = 0) :
    p.freeList = none := by
  have hperm := h.perm
  rw [hz] at hperm
  have hnil := List.perm_nil.mp hperm
  simp only [List.append_eq_nil_iff] at hnil
  have hseg := h.freeSeg
  rwa [hnil.2.1, seg_nil] at hseg

lemma Owned.freeQueue (h : Owned p heads held free queues) (hmh : heads[i]? = some mh) {fuel : Nat}
    (hq : queues[i]? = some q) (hfuel : q.length ≤ fuel) :
    ∃ p' mh' free', Moves.freeQueue fuel p mh = some (p', mh') ∧
      Owned p' (heads.set i mh') held free' (queues.set i []) := by
  have hqi := h.queue i mh q hmh hq
  induction q generalizing p heads free queues mh fuel with
  | nil =>
    have hpop : Moves.moveQueuePop p mh = none := by
      rw [Moves.moveQueuePop, hqi.first_eq_none.mpr rfl]
      rfl
    exact ⟨p, mh, free, by rw [Moves.freeQueue, hpop], h.set_self hmh hq⟩
  | cons m q ih =>
    have hpop : Moves.moveQueuePop p mh = some (m, { mh with first := p.next m }) := by
      rw [Moves.moveQueuePop, hqi.seg.1]
      rfl
    obtain ⟨k, rfl⟩ : ∃ k, fuel = k + 1 := ⟨fuel - 1, by simp at hfuel; omega⟩
    obtain ⟨hi, -⟩ := List.getElem?_eq_some_iff.mp hmh
    obtain ⟨hi', -⟩ := List.getElem?_eq_some_iff.mp hq
    obtain ⟨q', hq', hfree⟩ := h.popFree hmh hpop
    obtain rfl : q = q' := (List.cons.inj (Option.some.inj (hq.symm.trans hq'))).2
    obtain ⟨p', mh', free', heq, hres⟩ := ih hfree (List.getElem?_set_self hi)
      (List.getElem?_set_self hi') (by simpa using hfuel)
      (hfree.queue i _ _ (List.getElem?_set_self hi) (List.getElem?_set_self hi'))
    refine ⟨p', mh', free', ?_, ?_⟩
    · rw [Moves.freeQueue, hpop]
      exact heq
    · rw [List.set_set, List.set_set] at hres
      exact hres

lemma Owned.length_le (h : Owned p heads held free queues) (hq : queues[i]? = some q) :
    q.length ≤ p.count := by
  have hlen := h.perm.length_eq
  have hsub := (flatten_perm hq).length_eq
  simp only [List.length_append, List.length_range] at hlen hsub
  omega

end Owned

lemma seg_range' {count : Nat} {next : Nat → Option Nat} (hnext : ∀ i, i + 1 < count →
    next i = some (i + 1)) (hlast : ∀ i, i + 1 = count → next i = none) {k n : Nat}
    (h : k + (n + 1) = count) : Seg next (some k) (List.range' k (n + 1)) none := by
  induction n generalizing k with
  | zero => exact ⟨rfl, hlast k h⟩
  | succ n ih =>
    rw [List.range'_succ]
    refine ⟨rfl, ?_⟩
    rw [hnext k (by omega)]
    exact ih (by omega)

/-- `move_reset` puts every node on the free list, whatever the memory was. -/
theorem allFree_moveReset (p : Pool) (h : p.count = 0 → p.freeList = none) :
    AllFree (moveReset p) := by
  unfold moveReset
  split
  · rename_i hz
    refine ⟨[], h hz, ?_⟩
    rw [hz]
    exact List.Perm.refl _
  · refine ⟨List.range p.count, ?_, List.Perm.refl _⟩
    obtain ⟨n, hn⟩ : ∃ n, p.count = n + 1 := ⟨p.count - 1, by omega⟩
    rw [List.range_eq_range', hn]
    refine @seg_range' (n + 1) _ (fun i hi => ?_) (fun i hi => ?_) 0 n (by omega)
    · simp only [hi, if_true]
    · simp only [hi, Nat.lt_irrefl, if_false, if_true]

end KlipperMcu.Moves
