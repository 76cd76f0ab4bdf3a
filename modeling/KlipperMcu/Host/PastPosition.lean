import KlipperMcu.Host.MoveClock
import KlipperMcu.Host.StepConservation
import KlipperMcu.Lib.Signed

/-!
# The position at a past clock

`add_move` keeps every move in a history, the newest one first. `stepcompress_find_past_position`
walks through it for the position at a clock. Inside a move without acceleration the number of steps
is a quotient of signed 32-bit numbers. A move that passed `check_line` is short enough for them,
and a far step, whose interval may be cut off, has no inside.
-/

namespace KlipperMcu.PastPosition

open Compress Lib
open StepQueue (Step dirInt signed signed_append signed_nil signed_of_dir)

/-- The variable `offset` of `stepcompress_find_past_position`, or `none` for a division by zero.
With acceleration the source finds it with floating-point numbers; `solve` is what it finds for
`interval`, `add` and `ticks`. -/
def stepOffset (solve : Int32 → Int32 → Int32 → Int32) (hs : HistorySteps) (clock : Nat) :
    Option Int32 :=
  let interval := hs.interval.toInt32
  let add := hs.add.toInt32
  let ticks := (UInt32.ofNat (clock - hs.firstClock)).toInt32 + interval
  if add = 0 then if interval = 0 then none else some (ticks / interval)
  else some (solve interval add ticks)

/-- The loop of `stepcompress_find_past_position` over the rest of the history. -/
def findInHistory (solve : Int32 → Int32 → Int32 → Int32) (clock : Nat) :
    List HistorySteps → Int → Option Int
  | [], lastPosition => some lastPosition
  | hs :: history, _ =>
    if clock < hs.firstClock then findInHistory solve clock history hs.startPosition
    else if hs.lastClock ≤ clock then some (hs.startPosition + hs.stepCount)
    else
      (stepOffset solve hs clock).map fun offset =>
        if hs.stepCount < 0 then hs.startPosition - offset.toInt
        else hs.startPosition + offset.toInt

def stepcompressFindPastPosition (solve : Int32 → Int32 → Int32 → Int32) (sc : StepCompress)
    (clock : Nat) : Option Int :=
  findInHistory solve clock sc.historyList sc.lastPosition

/-! ### The history of a compressor -/

/-- A compressor with the clocks in its queue and the steps of the commands that it has made. -/
structure Tracked where
  host : StepCompress
  clocks : List Nat
  emitted : List Step
deriving DecidableEq

inductive Action where
  | append (clock : Nat)
  | flush (move : StepMove)
  | far (clock : Nat)
  | setNextStepDir (sdir : Int)
deriving DecidableEq

/-- The direction that `add_move` takes for a move. -/
def moveDir (sc : StepCompress) : Bool := decide (sc.sdir ≠ 0)

/-- The steps of a move that is made after the last step. -/
def moveSteps (sc : StepCompress) (move : StepMove) : List Step :=
  (List.range move.count.toNat).map fun k =>
    ⟨moveDir sc, ((sc.lastStepClock : Int) + move.reach (k + 1)).toNat⟩

def step (s : Tracked) : Action → Option Tracked
  | .append clock =>
    some { s with
      host := { s.host with queue := s.host.queue ++ [UInt32.ofNat clock] }
      clocks := s.clocks ++ [clock] }
  | .flush move =>
    (flushMove s.host move).map fun host =>
      { host := host
        clocks := s.clocks.drop move.count.toNat
        emitted := s.emitted ++ moveSteps s.host move }
  | .far clock =>
    some { s with
      host := stepcompressFlushFar s.host clock
      emitted := s.emitted ++ [⟨moveDir s.host, clock⟩] }
  | .setNextStepDir sdir => some { s with host := { s.host with sdir := sdir } }

/-- Steps are queued in order, less than `CLOCK_DIFF_MAX` after the last one. Any other step is sent
on its own once the queue is empty, and so is a change of the direction. The moves have no
acceleration. -/
def Legal (s : Tracked) : Action → Prop
  | .append clock => (∀ c ∈ s.clocks, c ≤ clock) ∧ s.host.lastStepClock ≤ clock ∧
      clock < s.host.lastStepClock + clockDiffMax
  | .flush move => move.add = 0
  | .far clock => s.clocks = [] ∧ s.host.lastStepClock + clockDiffMax ≤ clock
  | .setNextStepDir _ => s.clocks = []

instance (s : Tracked) (a : Action) : Decidable (Legal s a) :=
  match a with
  | .append clock => inferInstanceAs (Decidable ((∀ c ∈ s.clocks, c ≤ clock) ∧ _ ∧ _))
  | .flush move => inferInstanceAs (Decidable (move.add = 0))
  | .far _ => inferInstanceAs (Decidable (s.clocks = [] ∧ _))
  | .setNextStepDir _ => inferInstanceAs (Decidable (s.clocks = []))

/-- A compressor at position `p` without steps. -/
structure Start (p : Int) (s : Tracked) : Prop where
  queue : s.host.queue = []
  clocks : s.clocks = []
  emitted : s.emitted = []
  history : s.host.historyList = []
  position : s.host.lastPosition = p

/-- The steps until `clock`. -/
def upTo (clock : Nat) (steps : List Step) : List Step :=
  steps.filter fun st => decide (st.clock ≤ clock)

/-! ### The entry of a move -/

/-- The entry `hs` of the history is one of `count` steps in the direction `dir`. If there are
several of them, they take less than half a turn of the clock. -/
structure EntryOf (hs : HistorySteps) (dir : Bool) (count : Nat) : Prop where
  pos : 0 < count
  lastClock : hs.lastClock = hs.firstClock + (count - 1) * hs.interval.toNat
  stepCount : hs.stepCount = if dirInt dir ≠ 0 then (count : Int) else -count
  add : hs.add = 0
  short : 1 < count → 0 < hs.interval.toNat ∧ count * hs.interval.toNat < 2 ^ 31

/-- The steps of an entry. -/
def entrySteps (hs : HistorySteps) (dir : Bool) (count : Nat) : List Step :=
  (List.range count).map fun k => ⟨dir, hs.firstClock + k * hs.interval.toNat⟩

section Entry

variable {hs : HistorySteps} {dir : Bool} {count clock : Nat} {st : Step}

lemma upTo_eq_self {steps : List Step} (h : ∀ st ∈ steps, st.clock ≤ clock) :
    upTo clock steps = steps :=
  List.filter_eq_self.mpr fun st hst => decide_eq_true (h st hst)

lemma upTo_eq_nil {steps : List Step} (h : ∀ st ∈ steps, clock < st.clock) :
    upTo clock steps = [] :=
  List.filter_eq_nil_iff.mpr fun st hst => by
    have hlt := h st hst
    simp only [decide_eq_true_eq]
    omega

lemma upTo_append (clock : Nat) (xs ys : List Step) :
    upTo clock (xs ++ ys) = upTo clock xs ++ upTo clock ys := List.filter_append _ _

lemma EntryOf.clock_mem (h : EntryOf hs dir count) (hst : st ∈ entrySteps hs dir count) :
    hs.firstClock ≤ st.clock ∧ st.clock ≤ hs.lastClock := by
  obtain ⟨k, hk, rfl⟩ := List.mem_map.mp hst
  have hk := List.mem_range.mp hk
  have hle : k * hs.interval.toNat ≤ (count - 1) * hs.interval.toNat :=
    Nat.mul_le_mul_right _ (by omega)
  rw [h.lastClock]
  dsimp only
  omega

lemma dir_of_mem_entrySteps (hst : st ∈ entrySteps hs dir count) : dirInt st.dir = dirInt dir := by
  obtain ⟨k, -, rfl⟩ := List.mem_map.mp hst
  rfl

lemma length_entrySteps (hs : HistorySteps) (dir : Bool) (count : Nat) :
    (entrySteps hs dir count).length = count := by
  rw [entrySteps, List.length_map, List.length_range]

lemma entrySteps_one (hs : HistorySteps) (dir : Bool) :
    entrySteps hs dir 1 = [⟨dir, hs.firstClock⟩] := by
  rw [entrySteps, List.range_one, List.map_singleton, zero_mul, add_zero]

lemma EntryOf.signed_eq (h : EntryOf hs dir count) :
    signed (entrySteps hs dir count) = hs.stepCount := by
  rw [signed_of_dir fun st hst => dir_of_mem_entrySteps hst, length_entrySteps, h.stepCount]

lemma upTo_entrySteps (hi : 0 < hs.interval.toNat) (hfirst : hs.firstClock ≤ clock)
    (hlast : clock < hs.firstClock + (count - 1) * hs.interval.toNat) :
    upTo clock (entrySteps hs dir count) =
      entrySteps hs dir ((clock - hs.firstClock) / hs.interval.toNat + 1) := by
  set quotient := (clock - hs.firstClock) / hs.interval.toNat with hq
  have hquot : quotient + 1 ≤ count := by
    have hlt : quotient < count - 1 := Nat.div_lt_of_lt_mul (by rw [Nat.mul_comm]; omega)
    omega
  have hmul := Nat.div_add_mod (clock - hs.firstClock) hs.interval.toNat
  have hmod := Nat.mod_lt (clock - hs.firstClock) hi
  rw [← hq] at hmul
  obtain ⟨rest, rfl⟩ := Nat.exists_eq_add_of_le hquot
  rw [entrySteps, List.range_add, List.map_append, upTo_append, ← entrySteps, upTo_eq_self,
    upTo_eq_nil, List.append_nil]
  · intro st hst
    obtain ⟨j, hj, rfl⟩ := List.mem_map.mp hst
    obtain ⟨k, -, rfl⟩ := List.mem_map.mp hj
    dsimp only
    have hle : (quotient + 1) * hs.interval.toNat ≤ (quotient + 1 + k) * hs.interval.toNat :=
      Nat.mul_le_mul_right _ (by omega)
    rw [add_mul, one_mul, mul_comm] at hle
    omega
  · intro st hst
    obtain ⟨k, hk, rfl⟩ := List.mem_map.mp hst
    have hk := List.mem_range.mp hk
    have hle : k * hs.interval.toNat ≤ quotient * hs.interval.toNat :=
      Nat.mul_le_mul_right _ (by omega)
    rw [mul_comm quotient] at hle
    dsimp only
    omega

lemma EntryOf.inside (h : EntryOf hs dir count) (hfirst : hs.firstClock ≤ clock)
    (hlast : clock < hs.lastClock) :
    0 < hs.interval.toNat ∧ count * hs.interval.toNat < 2 ^ 31 := by
  apply h.short
  by_contra hle
  rw [h.lastClock, show count - 1 = 0 by omega, zero_mul] at hlast
  omega

lemma EntryOf.stepOffset_eq (h : EntryOf hs dir count) (solve : Int32 → Int32 → Int32 → Int32)
    (hfirst : hs.firstClock ≤ clock) (hlast : clock < hs.lastClock) :
    ∃ offset, stepOffset solve hs clock = some offset ∧
      offset.toInt = ((clock - hs.firstClock) / hs.interval.toNat + 1 : Nat) := by
  obtain ⟨hi, hshort⟩ := h.inside hfirst hlast
  rw [h.lastClock] at hlast
  have hlen : (count - 1) * hs.interval.toNat + hs.interval.toNat = count * hs.interval.toNat := by
    rw [← Nat.succ_mul, Nat.succ_eq_add_one, Nat.sub_add_cancel h.pos]
  have hinterval : hs.interval.toInt32.toInt = hs.interval.toNat := by
    have hof := @toInt_toInt32_ofNat hs.interval.toNat (by omega)
    rwa [UInt32.ofNat_toNat] at hof
  have hpassed := @toInt_toInt32_ofNat (clock - hs.firstClock) (by omega)
  have hticks : ((UInt32.ofNat (clock - hs.firstClock)).toInt32 + hs.interval.toInt32).toInt =
      (clock - hs.firstClock + hs.interval.toNat : Nat) := by
    rw [toInt_add_of_range] <;> rw [hpassed, hinterval] <;> omega
  have hne : hs.interval.toInt32 ≠ 0 := by
    intro hzero
    rw [hzero] at hinterval
    change (0 : Int) = _ at hinterval
    omega
  refine ⟨_, by simp only [stepOffset, h.add, hne, if_false]; rfl, ?_⟩
  rw [toInt_div_of_pos (by omega), hticks, hinterval, ← Nat.add_div_right _ hi]
  exact Int.ofNat_tdiv _ _

lemma EntryOf.signed_upTo (h : EntryOf hs dir count) (hfirst : hs.firstClock ≤ clock)
    (hlast : clock < hs.lastClock) :
    signed (upTo clock (entrySteps hs dir count)) =
      if hs.stepCount < 0 then
        -(((clock - hs.firstClock) / hs.interval.toNat + 1 : Nat) : Int)
      else ((clock - hs.firstClock) / hs.interval.toNat + 1 : Nat) := by
  obtain ⟨hi, -⟩ := h.inside hfirst hlast
  have hpos := h.pos
  rw [h.lastClock] at hlast
  rw [upTo_entrySteps hi hfirst hlast, signed_of_dir fun st hst => dir_of_mem_entrySteps hst,
    length_entrySteps, h.stepCount]
  by_cases hdir : dirInt dir ≠ 0
  · rw [if_pos hdir, if_pos hdir, if_neg (by omega)]
  · rw [if_neg hdir, if_neg hdir, if_pos (by omega)]

end Entry

/-! ### The walk -/

/-- A history, newest first, of all the steps `emitted` since position `p`. -/
inductive Records (p : Int) : List HistorySteps → List Step → Prop
  | nil : Records p [] []
  | cons {history : List HistorySteps} {emitted : List Step} {hs : HistorySteps} {dir : Bool}
      {count : Nat} : Records p history emitted → hs.startPosition = p + signed emitted →
      (∀ st ∈ emitted, st.clock ≤ hs.firstClock) → EntryOf hs dir count →
      Records p (hs :: history) (emitted ++ entrySteps hs dir count)

lemma findInHistory_eq {p : Int} {history : List HistorySteps} {emitted : List Step}
    (h : Records p history emitted) (solve : Int32 → Int32 → Int32 → Int32) (clock : Nat) :
    findInHistory solve clock history (p + signed emitted) =
      some (p + signed (upTo clock emitted)) := by
  induction h with
  | nil => rfl
  | @cons history emitted hs dir count _ hstart hbefore hentry ih =>
    have hmem := fun st => @EntryOf.clock_mem hs dir count st hentry
    rw [findInHistory, upTo_append, signed_append]
    by_cases hfirst : clock < hs.firstClock
    · rw [if_pos hfirst, hstart, ih, upTo_eq_nil fun st hst => hfirst.trans_le (hmem st hst).1,
        signed_nil, add_zero]
    have hle : hs.firstClock ≤ clock := not_lt.mp hfirst
    rw [if_neg hfirst, upTo_eq_self fun st hst => (hbefore st hst).trans hle]
    by_cases hlast : hs.lastClock ≤ clock
    · rw [if_pos hlast, upTo_eq_self fun st hst => (hmem st hst).2.trans hlast, hentry.signed_eq,
        hstart, add_assoc]
    · have hlt : clock < hs.lastClock := not_le.mp hlast
      obtain ⟨offset, hoffset, hvalue⟩ := hentry.stepOffset_eq solve hle hlt
      rw [if_neg hlast, hoffset, Option.map_some, hvalue, hstart, hentry.signed_upTo hle hlt]
      split_ifs
      · rw [sub_eq_add_neg, add_assoc]
      · rw [add_assoc]

/-! ### Runs -/

/-- The entry of the history for a move. -/
def newEntry (sc : StepCompress) (firstClock : Nat) (move : StepMove) : HistorySteps where
  firstClock := firstClock
  lastClock := firstClock + (moveTicks move).toNat
  startPosition := sc.lastPosition
  stepCount := if sc.sdir ≠ 0 then (move.count.toNat : Int) else -move.count.toNat
  interval := move.interval
  add := move.add

/-- The history has all steps of the commands, and none of them is after the last step. -/
structure Tracks (p : Int) (sc : StepCompress) (emitted : List Step) : Prop where
  records : Records p sc.historyList emitted
  position : sc.lastPosition = p + signed emitted
  past : ∀ st ∈ emitted, st.clock ≤ sc.lastStepClock

/-- What holds throughout a run from position `p`. -/
structure Inv (p : Int) (s : Tracked) : Prop where
  queue : QueueOk s.host s.clocks
  tracks : Tracks p s.host s.emitted

section Runs

variable {p : Int} {sc : StepCompress} {clocks : List Nat} {emitted : List Step} {move : StepMove}
  {firstClock count : Nat} {s s' : Tracked} {a : Action}

lemma dirInt_moveDir (sc : StepCompress) : dirInt (moveDir sc) ≠ 0 ↔ sc.sdir ≠ 0 := by
  by_cases h : sc.sdir = 0 <;> simp [moveDir, dirInt, h]

lemma Tracks.addMove (h : Tracks p sc emitted) (hle : sc.lastStepClock ≤ firstClock)
    (hentry : EntryOf (newEntry sc firstClock move) (moveDir sc) count) :
    Tracks p (addMove sc firstClock move)
      (emitted ++ entrySteps (newEntry sc firstClock move) (moveDir sc) count) := by
  refine ⟨h.records.cons h.position (fun st hst => (h.past st hst).trans hle) hentry, ?_, ?_⟩
  · rw [signed_append, hentry.signed_eq, ← add_assoc, ← h.position]
    rfl
  · intro st hst
    change st.clock ≤ firstClock + (moveTicks move).toNat
    rcases List.mem_append.mp hst with hold | hnew
    · have hpast := h.past st hold
      omega
    · exact (hentry.clock_mem hnew).2

lemma reach_of_add_eq_zero (hadd : move.add = 0) (k : Nat) :
    move.reach k = (k * move.interval.toNat : Nat) := by
  rw [StepMove.reach, quad, hadd, Int16.toInt_zero, zero_mul, add_zero, Nat.cast_mul]

lemma entryOf_flush (h : QueueOk sc clocks) (hc : checkLine sc move = some true)
    (hadd : move.add = 0) :
    EntryOf (newEntry sc (sc.lastStepClock + move.interval.toNat) move) (moveDir sc)
      move.count.toNat := by
  obtain ⟨hpos, hlen, hzero, -, -⟩ := (checkLine_iff h move).mp hc
  have hticks := h.moveTicks_toNat hc
  have hreach := (h.reach_le hc).2
  have hmax := @QueueOk.maxAt_lt sc clocks (move.count.toNat - 1) h (by omega)
  have hM : clockDiffMax = 805306368 := rfl
  have hlast : (move.count.toNat - 1) * move.interval.toNat + move.interval.toNat =
      move.count.toNat * move.interval.toNat := by
    rw [← Nat.succ_mul, Nat.succ_eq_add_one, Nat.sub_add_cancel hpos]
  rw [reach_of_add_eq_zero hadd] at hticks hreach
  refine ⟨hpos, ?_, ?_, hadd, ?_⟩
  · change sc.lastStepClock + move.interval.toNat + (moveTicks move).toNat =
      sc.lastStepClock + move.interval.toNat + (move.count.toNat - 1) * move.interval.toNat
    omega
  · simp only [dirInt_moveDir]
    rfl
  · intro hmany
    change 0 < move.interval.toNat ∧ move.count.toNat * move.interval.toNat < 2 ^ 31
    refine ⟨Nat.pos_of_ne_zero ?_, by omega⟩
    intro hi
    exact hzero ⟨UInt32.toNat_inj.mp hi, hadd, hmany⟩

lemma moveSteps_eq (hadd : move.add = 0) :
    moveSteps sc move = entrySteps (newEntry sc (sc.lastStepClock + move.interval.toNat) move)
      (moveDir sc) move.count.toNat := by
  apply List.map_congr_left
  intro k _
  congr 1
  rw [reach_of_add_eq_zero hadd, ← Nat.cast_add, Int.toNat_natCast, add_mul, one_mul]
  change _ = sc.lastStepClock + move.interval.toNat + k * move.interval.toNat
  omega

lemma entryOf_far (sc : StepCompress) (clock : Nat) :
    EntryOf (newEntry sc clock ⟨UInt32.ofNat (clock - sc.lastStepClock), 1, 0⟩) (moveDir sc) 1 := by
  refine ⟨by decide, ?_, ?_, rfl, fun h => absurd h (by decide)⟩
  · rw [Nat.sub_self, zero_mul]
    exact stepcompressFlushFar_lastStepClock sc clock
  · simp only [dirInt_moveDir]
    rfl

lemma Start.inv (h : Start p s) : Inv p s := by
  have hqueue := h.queue
  have hhistory := h.history
  refine ⟨⟨?_, ?_, ?_, ?_⟩, ?_, ?_, ?_⟩ <;> simp only [h.clocks, h.emitted]
  · exact hqueue
  · exact List.Pairwise.nil
  · simp
  · simp
  · rw [hhistory]
    exact Records.nil
  · rw [h.position, signed_nil, add_zero]
  · simp

lemma Inv.step (h : Inv p s) (hl : Legal s a) (hs : step s a = some s') : Inv p s' := by
  cases a with
  | append clock =>
    cases hs
    exact ⟨h.queue.append hl.1 hl.2.1 hl.2.2, h.tracks.records, h.tracks.position, h.tracks.past⟩
  | flush move =>
    obtain ⟨host, hf, rfl⟩ := Option.map_eq_some_iff.mp hs
    have hqueue := h.queue.flushMove hf
    obtain ⟨hc, rfl⟩ := flushMove_eq_some hf
    have htracks := h.tracks.addMove (Nat.le_add_right _ _) (entryOf_flush h.queue hc hl)
    rw [← moveSteps_eq hl] at htracks
    exact ⟨hqueue, htracks.records, htracks.position, htracks.past⟩
  | far clock =>
    cases hs
    obtain ⟨hnil, hfar⟩ := hl
    have hqueue := h.queue
    have htracks := h.tracks.addMove (by omega) (entryOf_far s.host clock)
    rw [entrySteps_one] at htracks
    refine ⟨?_, htracks⟩
    rw [hnil] at hqueue ⊢
    exact hqueue.flushFar clock
  | setNextStepDir sdir =>
    cases hs
    exact ⟨⟨h.queue.queue, h.queue.sorted, h.queue.lower, h.queue.upper⟩,
      h.tracks.records, h.tracks.position, h.tracks.past⟩

end Runs

/-- The position at a clock is the one at the start and the steps that were made until then. -/
theorem findPastPosition_of_run {p : Int} {s₀ s : Tracked} {actions : List Action}
    (h₀ : Start p s₀) (h : Run step Legal s₀ actions s) (solve : Int32 → Int32 → Int32 → Int32)
    (clock : Nat) :
    stepcompressFindPastPosition solve s.host clock =
      some (p + signed (s.emitted.filter fun st => decide (st.clock ≤ clock))) := by
  have hinv : Inv p s := h.invariant h₀.inv fun _ _ _ hi hl hs => hi.step hl hs
  rw [stepcompressFindPastPosition, hinv.tracks.position]
  exact findInHistory_eq hinv.tracks.records solve clock

/-- A compressor at position 5 and clock 1000. -/
def startAtFive : Tracked where
  host := ⟨[], 25, 1000, [], 1, 5, []⟩
  clocks := []
  emitted := []

/-- Three steps forward, a step back much later, and another one soon after it. -/
def forthAndBack : List Action :=
  [Action.append 1100, .append 1200, .append 1300, .flush ⟨100, 3, 0⟩, .setNextStepDir 0,
    .far 5000000000, .append 5000000090, .flush ⟨90, 1, 0⟩]

/-- Between the second and the third step, and after the far step. -/
theorem findPastPosition_of_run_forth :
    ∃ s, Run step Legal startAtFive forthAndBack s ∧
      stepcompressFindPastPosition (fun _ _ _ => 0) s.host 1250 = some 7 ∧
      stepcompressFindPastPosition (fun _ _ _ => 0) s.host 5000000010 = some 7 := by
  have hstart : Start 5 startAtFive := ⟨rfl, rfl, rfl, rfl, rfl⟩
  obtain ⟨s, hs, hp⟩ : ∃ s, Run step Legal startAtFive forthAndBack s ∧
      decide (signed (s.emitted.filter fun st => decide (st.clock ≤ 1250)) = 2 ∧
        signed (s.emitted.filter fun st => decide (st.clock ≤ 5000000010)) = 2) :=
    Run.exists_of_exec forthAndBack _ (by decide +kernel)
  obtain ⟨hforth, hback⟩ := of_decide_eq_true hp
  refine ⟨s, hs, ?_, ?_⟩
  · rw [findPastPosition_of_run hstart hs, hforth]
    rfl
  · rw [findPastPosition_of_run hstart hs, hback]
    rfl

end KlipperMcu.PastPosition
