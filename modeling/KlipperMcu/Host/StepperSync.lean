import KlipperMcu.Lib.Heap
import KlipperMcu.Lib.Run
import Mathlib.Algebra.Order.BigOperators.Group.List
import Mathlib.Algebra.Order.Group.Nat
import Mathlib.Algebra.Ring.Nat
import Mathlib.Order.Fin.Basic

/-!
# Synchronisation of steppers

`steppersync_flush` of stepcompress.c merges the messages of several steppers into one command queue.
The micro-controller has a limited number of slots for moves. The heap `move_clocks` holds for each
slot the clock at which it becomes free, and a message is not sent before the slot at the root is
free. What the steppers put into their message queues is left open.
-/

namespace KlipperMcu.MoveSync

open Lib

/-- A clock of 64 bits. The top is `UINT64_MAX`. -/
abbrev Clock := Fin (2 ^ 64)

def maxClock : Clock := 0x7fffffffffffffff

/-- A message of a stepper and whether it takes a slot for a move. In the message queue its
`min_clock` is the clock at which the slot becomes free again, or zero if it takes none. -/
structure QueueMessage where
  usesMove : Bool
  minClock : Clock
  reqClock : Clock
deriving DecidableEq, Repr

/-- A message that was given to `serialqueue_send_batch`: its stepper, the message as it was
generated, and the `min_clock` it was sent with. -/
structure Batched where
  stepper : Nat
  msg : QueueMessage
  minClock : Clock
deriving DecidableEq, Repr

/-- The message queues of the steppers and the heap, with all the messages that were generated and
those that were sent. -/
structure StepperSync where
  msgQueue : Nat → List QueueMessage
  moveClocks : List Clock
  generated : Nat → List QueueMessage
  batched : List Batched

inductive Action where
  /-- A stepper generates a message. -/
  | generate (stepper : Nat) (msg : QueueMessage)
  | flush (moveClock : Clock)
deriving DecidableEq, Repr

/-- The search for the first message with the lowest `req_clock`. -/
def findLowest (msgQueue : Nat → List QueueMessage) (reqClock : Clock)
    (best : Option (Nat × QueueMessage)) : List Nat → Option (Nat × QueueMessage)
  | [] => best
  | i :: steppers =>
    match msgQueue i with
    | [] => findLowest msgQueue reqClock best steppers
    | m :: _ =>
      if m.reqClock < reqClock then findLowest msgQueue m.reqClock (some (i, m)) steppers
      else findLowest msgQueue reqClock best steppers

/-- The first message `qm` of stepper `i` is batched with the clock at the root. There is no result
if there is no root. -/
def batch (ss : StepperSync) (i : Nat) (qm : QueueMessage) : Option StepperSync :=
  match ss.moveClocks with
  | [] => none
  | nextAvail :: _ =>
    (if qm.minClock ≠ 0 then Heap.replace ss.moveClocks qm.minClock else some ss.moveClocks).map
      fun moveClocks =>
        { ss with
          moveClocks := moveClocks
          msgQueue := Function.update ss.msgQueue i (ss.msgQueue i).tail
          batched := ss.batched ++ [⟨i, qm, nextAvail⟩] }

/-- The loop of `steppersync_flush` over the messages of `scNum` steppers. -/
def flushLoop (scNum : Nat) (moveClock : Clock) : Nat → StepperSync → Option StepperSync
  | 0, _ => none
  | fuel + 1, ss =>
    match findLowest ss.msgQueue maxClock none (List.range scNum) with
    | none => some ss
    | some (i, qm) =>
      if qm.minClock ≠ 0 ∧ moveClock < qm.reqClock then some ss
      else (batch ss i qm).bind (flushLoop scNum moveClock fuel)

/-- How many messages wait. -/
def StepperSync.waiting (ss : StepperSync) (scNum : Nat) : Nat :=
  ((List.range scNum).map fun i => (ss.msgQueue i).length).sum

def steppersyncFlush (scNum : Nat) (ss : StepperSync) (moveClock : Clock) : Option StepperSync :=
  flushLoop scNum moveClock (ss.waiting scNum + 1) ss

def step (scNum : Nat) (ss : StepperSync) : Action → Option StepperSync
  | .generate i m =>
    some { ss with
      msgQueue := Function.update ss.msgQueue i (ss.msgQueue i ++ [m])
      generated := Function.update ss.generated i (ss.generated i ++ [m]) }
  | .flush moveClock => steppersyncFlush scNum ss moveClock

/-- The messages that take a slot are those with a positive `min_clock`. -/
def Legal (_ : StepperSync) : Action → Prop
  | .generate _ m => m.usesMove = true ↔ m.minClock ≠ 0
  | .flush _ => True

def steppersyncAlloc (moveNum : Nat) : StepperSync :=
  ⟨fun _ => [], List.replicate moveNum 0, fun _ => [], []⟩

/-- The messages with the largest `min_clock` up to each of them. -/
def withEarliest : Clock → List Batched → List (Batched × Clock)
  | _, [] => []
  | m, b :: bs => (b, max m b.minClock) :: withEarliest (max m b.minClock) bs

/-- A message that can have been sent at `t` and takes a slot until later. -/
def Holds (t : Clock) (e : Batched × Clock) : Prop :=
  e.1.msg.usesMove = true ∧ e.2 ≤ t ∧ t < e.1.msg.minClock

instance (t : Clock) : DecidablePred (Holds t) := fun _ => instDecidableAnd

/-- How many slots are in use at `t` if every message is sent as early as it may be. -/
def held (t : Clock) (bs : List Batched) : Nat := (withEarliest 0 bs).countP fun e => decide (Holds t e)

section Earliest

variable {t : Clock} {bs : List Batched} {b : Batched}

/-- The largest `min_clock`. -/
def latest (m : Clock) (bs : List Batched) : Clock := bs.foldl (fun m b => max m b.minClock) m

lemma latest_le_iff (m : Clock) (bs : List Batched) :
    latest m bs ≤ t ↔ m ≤ t ∧ ∀ b ∈ bs, b.minClock ≤ t := by
  induction bs generalizing m with
  | nil => exact ⟨fun h => ⟨h, nofun⟩, fun h => h.1⟩
  | cons b bs ih =>
    rw [latest, List.foldl_cons, ← latest, ih, max_le_iff, List.forall_mem_cons, and_assoc]

lemma withEarliest_snoc (m : Clock) (bs : List Batched) (b : Batched) :
    withEarliest m (bs ++ [b]) = withEarliest m bs ++ [(b, max (latest m bs) b.minClock)] := by
  induction bs generalizing m with
  | nil => rfl
  | cons b' bs ih =>
    rw [List.cons_append, withEarliest, ih]
    rfl

lemma held_snoc (t : Clock) (bs : List Batched) (b : Batched) :
    held t (bs ++ [b]) =
      held t bs + if Holds t (b, max (latest 0 bs) b.minClock) then 1 else 0 := by
  rw [held, withEarliest_snoc, List.countP_append, List.countP_singleton]
  simp only [decide_eq_true_eq]
  rfl

end Earliest

/-- The heap has an entry for each slot. It counts the slots in use at `t` as long as no message had
to wait for a slot beyond `t`. -/
structure Inv (moveNum : Nat) (ss : StepperSync) : Prop where
  length : ss.moveClocks.length = moveNum
  order : ∀ i, (ss.batched.filter (·.stepper = i)).map (·.msg) ++ ss.msgQueue i = ss.generated i
  uses : ∀ i, ∀ m ∈ ss.msgQueue i, m.usesMove = true ↔ m.minClock ≠ 0
  held_le : ∀ t, held t ss.batched ≤ moveNum
  held_eq : ∀ t, (∀ b ∈ ss.batched, b.minClock ≤ t) →
    held t ss.batched = ss.moveClocks.countP (t < ·)

section Flush

variable {ss ss' : StepperSync} {scNum moveNum i : Nat} {qm : QueueMessage} {moveClock : Clock}

lemma findLowest_spec {msgQueue : Nat → List QueueMessage} {reqClock : Clock}
    {best : Option (Nat × QueueMessage)} {steppers : List Nat}
    (h : findLowest msgQueue reqClock best steppers = some (i, qm)) :
    best = some (i, qm) ∨ i ∈ steppers ∧ (msgQueue i).head? = some qm := by
  induction steppers generalizing reqClock best with
  | nil => exact Or.inl h
  | cons j steppers ih =>
    rw [findLowest] at h
    split at h
    · exact (ih h).imp_right fun hi => ⟨List.mem_cons_of_mem _ hi.1, hi.2⟩
    · rename_i m rest hq
      split at h
      · rcases ih h with hbest | hi
        · cases hbest
          exact Or.inr ⟨List.mem_cons_self, by rw [hq]; rfl⟩
        · exact Or.inr ⟨List.mem_cons_of_mem _ hi.1, hi.2⟩
      · exact (ih h).imp_right fun hi => ⟨List.mem_cons_of_mem _ hi.1, hi.2⟩

lemma batch_spec {root : Clock} {rest : List Clock} (hroot : ss.moveClocks = root :: rest) (i : Nat)
    (qm : QueueMessage) :
    ∃ moveClocks, batch ss i qm = some { ss with
        moveClocks := moveClocks
        msgQueue := Function.update ss.msgQueue i (ss.msgQueue i).tail
        batched := ss.batched ++ [⟨i, qm, root⟩] } ∧
      moveClocks.Perm (if qm.minClock ≠ 0 then qm.minClock :: rest else root :: rest) := by
  unfold batch
  rw [hroot]
  dsimp only
  split
  · obtain ⟨h', hrep, hperm⟩ := Heap.replace_perm root rest qm.minClock
    rw [hrep]
    exact ⟨h', rfl, hperm⟩
  · exact ⟨root :: rest, rfl, List.Perm.refl _⟩

lemma Inv.held_batch (h : Inv moveNum ss) {root t : Clock} {rest moveClocks : List Clock}
    (hroot : ss.moveClocks = root :: rest) (huses : qm.usesMove = true ↔ qm.minClock ≠ 0)
    (hperm : moveClocks.Perm (if qm.minClock ≠ 0 then qm.minClock :: rest else root :: rest))
    (hall : ∀ b ∈ ss.batched ++ [⟨i, qm, root⟩], b.minClock ≤ t) :
    held t (ss.batched ++ [⟨i, qm, root⟩]) = moveClocks.countP (t < ·) := by
  obtain ⟨hold, hnew⟩ := List.forall_mem_append.mp hall
  have hle : root ≤ t := hnew _ (List.mem_singleton.mpr rfl)
  have hmax : max (latest 0 ss.batched) root ≤ t :=
    max_le ((latest_le_iff 0 ss.batched).mpr ⟨Fin.zero_le _, hold⟩) hle
  have hrest : (root :: rest).countP (t < ·) = rest.countP (t < ·) :=
    List.countP_cons_of_neg (by simpa using hle)
  rw [held_snoc, h.held_eq t hold, hroot, hrest, hperm.countP_eq]
  by_cases hmove : qm.minClock ≠ 0
  · rw [if_pos hmove, List.countP_cons]
    congr 1
    simp only [Holds, huses.mpr hmove, hmax, true_and, decide_eq_true_eq]
  · have hnone : ¬Holds t (⟨i, qm, root⟩, max (latest 0 ss.batched) root) := by
      rintro ⟨hu, -⟩
      exact hmove (huses.mp hu)
    rw [if_neg hmove, hrest, if_neg hnone, Nat.add_zero]

lemma held_snoc_of_late {root t : Clock} {bs : List Batched}
    (hlate : ¬∀ b ∈ bs ++ [⟨i, qm, root⟩], b.minClock ≤ t) :
    held t (bs ++ [⟨i, qm, root⟩]) = held t bs := by
  rw [held_snoc, if_neg]
  · rfl
  · rintro ⟨-, hmax, -⟩
    obtain ⟨hlat, hr⟩ := max_le_iff.mp hmax
    refine hlate (List.forall_mem_append.mpr ⟨((latest_le_iff 0 bs).mp hlat).2, ?_⟩)
    intro b hb
    exact List.mem_singleton.mp hb ▸ hr

lemma Inv.batch (h : Inv moveNum ss) (hqm : (ss.msgQueue i).head? = some qm)
    (hb : batch ss i qm = some ss') : Inv moveNum ss' := by
  have hqueue : ss.msgQueue i = qm :: (ss.msgQueue i).tail := (List.cons_head?_tail hqm).symm
  have huses := h.uses i qm (List.mem_of_mem_head? hqm)
  cases hroot : ss.moveClocks with
  | nil =>
    rw [MoveSync.batch, hroot] at hb
    cases hb
  | cons root rest =>
    obtain ⟨moveClocks, hb', hperm⟩ := batch_spec hroot i qm
    obtain rfl := Option.some.inj (hb'.symm.trans hb)
    have hlen : moveClocks.length = moveNum := by
      rw [hperm.length_eq, ← h.length, hroot]
      split <;> rfl
    refine ⟨hlen, ?_, ?_, ?_, fun t hall => h.held_batch hroot huses hperm hall⟩
    · intro j
      dsimp only
      rw [List.filter_append, List.map_append, List.append_assoc, ← h.order j]
      congr 1
      by_cases hij : i = j
      · subst hij
        rw [Function.update_self, hqueue]
        simp
      · rw [Function.update_of_ne (Ne.symm hij)]
        simp [hij]
    · intro j m hm
      dsimp only at hm
      by_cases hij : j = i
      · subst hij
        rw [Function.update_self] at hm
        exact h.uses j m (List.mem_of_mem_tail hm)
      · rw [Function.update_of_ne hij] at hm
        exact h.uses j m hm
    · intro t
      dsimp only
      by_cases hall : ∀ b ∈ ss.batched ++ [⟨i, qm, root⟩], b.minClock ≤ t
      · rw [h.held_batch hroot huses hperm hall, ← hlen]
        exact List.countP_le_length
      · rw [held_snoc_of_late hall]
        exact h.held_le t

lemma Inv.flushLoop {fuel : Nat} (h : Inv moveNum ss)
    (hs : flushLoop scNum moveClock fuel ss = some ss') : Inv moveNum ss' := by
  induction fuel generalizing ss with
  | zero => cases hs
  | succ fuel ih =>
    rw [MoveSync.flushLoop] at hs
    split at hs
    · cases hs
      exact h
    · rename_i i qm hfind
      split at hs
      · cases hs
        exact h
      · obtain ⟨ss₁, hb, hrest⟩ := Option.bind_eq_some_iff.mp hs
        rcases findLowest_spec hfind with hbest | ⟨-, hqm⟩
        · cases hbest
        · exact ih (h.batch hqm hb) hrest

/-- With at least one slot the loop ends, since each round takes a message from a queue. -/
lemma exists_flushLoop {fuel : Nat} (h : ss.moveClocks ≠ []) (hfuel : ss.waiting scNum < fuel) :
    ∃ ss', flushLoop scNum moveClock fuel ss = some ss' := by
  induction fuel generalizing ss with
  | zero => exact absurd hfuel (Nat.not_lt_zero _)
  | succ fuel ih =>
    rw [MoveSync.flushLoop]
    split
    · exact ⟨ss, rfl⟩
    · rename_i i qm hfind
      split
      · exact ⟨ss, rfl⟩
      · obtain ⟨root, rest, hroot⟩ := List.exists_cons_of_ne_nil h
        obtain ⟨moveClocks, hb, hperm⟩ := batch_spec hroot i qm
        rw [hb, Option.bind_some]
        rcases findLowest_spec hfind with hbest | ⟨hi, hqm⟩
        · cases hbest
        apply ih
        · intro hnil
          have hlen := hperm.length_eq
          dsimp only at hnil
          rw [hnil] at hlen
          split at hlen <;> cases hlen
        · refine Nat.lt_of_lt_of_le ?_ (Nat.le_of_lt_succ hfuel)
          have hqueue := List.cons_head?_tail hqm
          have hlt : (ss.msgQueue i).tail.length < (ss.msgQueue i).length := by
            rw [← hqueue]
            exact Nat.lt_succ_self _
          apply List.sum_lt_sum
          · intro j _
            dsimp only
            by_cases hij : j = i
            · subst hij
              rw [Function.update_self]
              exact Nat.le_of_lt hlt
            · rw [Function.update_of_ne hij]
          · refine ⟨i, hi, ?_⟩
            dsimp only
            rw [Function.update_self]
            exact hlt

lemma Inv.generate (h : Inv moveNum ss) {m : QueueMessage} (hm : m.usesMove = true ↔ m.minClock ≠ 0) :
    Inv moveNum { ss with
      msgQueue := Function.update ss.msgQueue i (ss.msgQueue i ++ [m])
      generated := Function.update ss.generated i (ss.generated i ++ [m]) } := by
  refine ⟨h.length, ?_, ?_, h.held_le, h.held_eq⟩
  · intro j
    dsimp only
    by_cases hij : j = i
    · subst hij
      rw [Function.update_self, Function.update_self, ← List.append_assoc, h.order]
    · rw [Function.update_of_ne hij, Function.update_of_ne hij, h.order]
  · intro j m' hm'
    dsimp only at hm'
    by_cases hij : j = i
    · subst hij
      rw [Function.update_self] at hm'
      rcases List.mem_append.mp hm' with hold | hnew
      · exact h.uses j m' hold
      · exact List.mem_singleton.mp hnew ▸ hm
    · rw [Function.update_of_ne hij] at hm'
      exact h.uses j m' hm'

lemma Inv.step {a : Action} (h : Inv moveNum ss) (hl : Legal ss a) (hs : step scNum ss a = some ss') :
    Inv moveNum ss' := by
  cases a with
  | generate i m =>
    cases hs
    exact h.generate hl
  | flush moveClock => exact h.flushLoop hs

lemma inv_alloc (moveNum : Nat) : Inv moveNum (steppersyncAlloc moveNum) := by
  refine ⟨List.length_replicate, fun _ => rfl, nofun, fun _ => Nat.zero_le _, ?_⟩
  intro t _
  symm
  apply List.countP_eq_zero.mpr
  intro a ha
  simp [List.eq_of_mem_replicate ha]

end Flush

/-- At no clock are more slots in use than the micro-controller has, even if every message is sent as
early as its `min_clock` and those in front of it allow. The messages of each stepper are sent in the
order in which they were generated. With at least one slot every flush ends. -/
theorem held_le_moveNum {scNum moveNum : Nat} {actions : List Action} {ss : StepperSync}
    (h : Run (step scNum) Legal (steppersyncAlloc moveNum) actions ss) :
    (∀ t, held t ss.batched ≤ moveNum) ∧
      (∀ i, (ss.batched.filter (·.stepper = i)).map (·.msg) <+: ss.generated i) ∧
      (0 < moveNum → ∀ moveClock, ∃ ss', steppersyncFlush scNum ss moveClock = some ss') := by
  have hinv : Inv moveNum ss := by
    apply h.invariant
    · exact inv_alloc moveNum
    · intro ss a ss' hi hl hs
      exact hi.step hl hs
  refine ⟨hinv.held_le, fun i => ⟨_, hinv.order i⟩, ?_⟩
  intro hpos moveClock
  apply exists_flushLoop
  · exact List.ne_nil_of_length_pos (hinv.length ▸ hpos)
  · exact Nat.lt_succ_self _

instance (ss : StepperSync) (a : Action) : Decidable (Legal ss a) :=
  a.casesOn (fun _ _ => instDecidableIff) fun _ => isTrue trivial

/-- Three moves of two steppers for two slots, with a change of direction and a far step. -/
def threeMoves : List Action :=
  [.generate 0 ⟨true, 100, 100⟩, .generate 1 ⟨true, 50, 5000⟩, .generate 0 ⟨false, 0, 200⟩,
    .generate 0 ⟨true, 300, 300⟩, .flush 1000, .flush 6000]

theorem held_le_moveNum_threeMoves :
    ∃ ss, Run (step 2) Legal (steppersyncAlloc 2) threeMoves ss ∧
      ss.batched = [⟨0, ⟨true, 100, 100⟩, 0⟩, ⟨0, ⟨false, 0, 200⟩, 0⟩, ⟨0, ⟨true, 300, 300⟩, 0⟩,
        ⟨1, ⟨true, 50, 5000⟩, 100⟩] ∧ held 60 ss.batched ≤ 2 := by
  obtain ⟨ss, hs, hp⟩ : ∃ ss, Run (step 2) Legal (steppersyncAlloc 2) threeMoves ss ∧
      decide (ss.batched = [⟨0, ⟨true, 100, 100⟩, 0⟩, ⟨0, ⟨false, 0, 200⟩, 0⟩,
        ⟨0, ⟨true, 300, 300⟩, 0⟩, ⟨1, ⟨true, 50, 5000⟩, 100⟩]) = true :=
    Run.exists_of_exec threeMoves _ (by decide +kernel)
  exact ⟨ss, hs, of_decide_eq_true hp, (held_le_moveNum hs).1 60⟩

end KlipperMcu.MoveSync
