import KlipperMcu.Lib.Run
import Mathlib.Algebra.Ring.Nat
import Mathlib.Logic.Function.Iterate

/-!
# Registers of a stepper driver

A write to a driver has no answer. `MCU_TMC_uart.set_register` of tmc_uart.py reads a counter of the
driver instead, which counts the writes that it accepted: the write is done when the counter is one
more than before. A request that is sent again, because its report came late, can reach the driver
more than once. The driver is a parameter, and what is assumed about it is named: that it counts, and
which registers read back what was written. Some are write-only, some are cleared by a write.
-/

namespace KlipperMcu.Tmc

open Lib

/-- `IFCNT` in `name_to_reg`. -/
def ifcntReg : UInt8 := 0x02

/-- A driver: what it answers to a read, and what a write that it accepts does. What it changes by
itself is no part of its state. -/
structure Driver (σ : Type*) where
  read : σ → UInt8 → Nat
  accept : UInt8 → Nat → σ → σ

variable {σ : Type*}

/-- The counter counts the writes that are accepted. -/
structure Driver.Counts (D : Driver σ) : Prop where
  lt : ∀ d, D.read d ifcntReg < 256
  accept : ∀ reg val d, D.read (D.accept reg val d) ifcntReg = (D.read d ifcntReg + 1) % 256

/-- A register that can be read and written, and the values that it can hold. -/
structure Driver.Keeps (D : Driver σ) (reg : UInt8) (holds : Nat → Prop) : Prop where
  accept : ∀ val d, holds val → D.read (D.accept reg val d) reg = val
  other : ∀ reg' val d, reg' ≠ reg → D.read (D.accept reg' val d) reg = D.read d reg

/-- `_do_get_register`, when the driver answers the reads for which `answered` holds. It raises an
error when there are five reads without an answer. -/
def doGetRegister (D : Driver σ) (d : σ) (reg : UInt8) (answered : Nat → Bool) : Option Nat :=
  (List.range 5).findSome? fun retry => if answered retry then some (D.read d reg) else none

/-- What happens on the line in one pass of the loop of `set_register`: the answers before the
write, how often the driver accepts the write, and the answers after it. -/
structure Attempt where
  before : Nat → Bool
  accepted : Nat
  after : Nat → Bool

/-- The counter that the host read last, and the driver. -/
structure TmcUart (σ : Type*) where
  ifcnt : Option Nat
  driver : σ

inductive Outcome where
  | returned
  | raised
deriving DecidableEq, Repr

/-- The loop of `set_register` with some retries left. -/
def setRegisterLoop (D : Driver σ) (reg : UInt8) (val : Nat) (attempt : Nat → Attempt) :
    Nat → TmcUart σ → Outcome × TmcUart σ
  | 0, s => (.raised, s)
  | retries + 1, s =>
    match s.ifcnt <|> doGetRegister D s.driver ifcntReg (attempt retries).before with
    | none => (.raised, s)
    | some ifcnt =>
      let driver := (D.accept reg val)^[(attempt retries).accepted] s.driver
      match doGetRegister D driver ifcntReg (attempt retries).after with
      -- the error leaves the old counter in place
      | none => (.raised, ⟨some ifcnt, driver⟩)
      | some after =>
        if after = (ifcnt + 1) &&& 0xff then (.returned, ⟨some after, driver⟩)
        else setRegisterLoop D reg val attempt retries ⟨some after, driver⟩

def setRegister (D : Driver σ) (reg : UInt8) (val : Nat) (attempt : Nat → Attempt) :
    TmcUart σ → Outcome × TmcUart σ :=
  setRegisterLoop D reg val attempt 5

section SetRegister

variable {D : Driver σ} {reg : UInt8} {val : Nat} {d : σ} {s s' : TmcUart σ}

/-- The counter of the host, once it was read, is that of the driver. -/
def Synced (D : Driver σ) (s : TmcUart σ) : Prop :=
  ∀ ifcnt ∈ s.ifcnt, ifcnt = D.read s.driver ifcntReg

lemma doGetRegister_eq {answered : Nat → Bool} {v : Nat}
    (h : doGetRegister D d reg answered = some v) : v = D.read d reg := by
  obtain ⟨retry, -, hretry⟩ := List.exists_of_findSome?_eq_some h
  split at hretry
  · exact (Option.some.inj hretry).symm
  · cases hretry

lemma Driver.Counts.iterate (h : D.Counts) (reg : UInt8) (val n : Nat) (d : σ) :
    D.read ((D.accept reg val)^[n] d) ifcntReg = (D.read d ifcntReg + n) % 256 := by
  induction n generalizing d with
  | zero => exact (Nat.mod_eq_of_lt (h.lt d)).symm
  | succ n ih =>
    rw [Function.iterate_succ_apply, ih, h.accept]
    omega

lemma Driver.Keeps.iterate {holds : Nat → Prop} (h : D.Keeps reg holds) (hval : holds val) {n : Nat}
    (hn : 0 < n) (d : σ) : D.read ((D.accept reg val)^[n] d) reg = val := by
  cases n with
  | zero => cases hn
  | succ n =>
    rw [Function.iterate_succ_apply']
    exact h.accept val _ hval

lemma Driver.Keeps.iterate_other {holds : Nat → Prop} {reg' : UInt8} (h : D.Keeps reg holds)
    (hne : reg' ≠ reg) (n : Nat) (d : σ) :
    D.read ((D.accept reg' val)^[n] d) reg = D.read d reg := by
  induction n generalizing d with
  | zero => rfl
  | succ n ih => rw [Function.iterate_succ_apply, ih, h.other reg' val d hne]

lemma Synced.ifcnt_eq (h : Synced D s) {answered : Nat → Bool} {ifcnt : Nat}
    (hread : (s.ifcnt <|> doGetRegister D s.driver ifcntReg answered) = some ifcnt) :
    ifcnt = D.read s.driver ifcntReg := by
  cases hs : s.ifcnt with
  | none =>
    rw [hs] at hread
    exact doGetRegister_eq hread
  | some known =>
    rw [hs] at hread
    cases hread
    exact h _ hs

lemma Driver.Counts.accepted_pos (h : D.Counts) {n : Nat}
    (hone : D.read ((D.accept reg val)^[n] d) ifcntReg = (D.read d ifcntReg + 1) &&& 0xff) :
    0 < n := by
  have hlt := h.lt d
  have hmod : (D.read d ifcntReg + 1) &&& 0xff = (D.read d ifcntReg + 1) % 256 :=
    Nat.and_two_pow_sub_one_eq_mod _ 8
  rw [h.iterate, hmod] at hone
  omega

lemma setRegisterLoop_returned {attempt : Nat → Attempt} {retries : Nat} (hcounts : D.Counts)
    (h : Synced D s) (hreturned : setRegisterLoop D reg val attempt retries s = (.returned, s')) :
    Synced D s' ∧ ∃ n, 0 < n ∧ s'.driver = (D.accept reg val)^[n] s.driver := by
  -- on the passes of the loop: each leaves the counters equal, and the last was accepted
  induction retries generalizing s with
  | zero => cases hreturned
  | succ retries ih =>
    rw [setRegisterLoop] at hreturned
    split at hreturned
    · cases hreturned
    · rename_i ifcnt hifcnt
      have hifcnt := h.ifcnt_eq hifcnt
      dsimp only at hreturned
      split at hreturned
      · cases hreturned
      · rename_i after hafter
        have hread := doGetRegister_eq hafter
        have hsynced : Synced D ⟨some after,
            (D.accept reg val)^[(attempt retries).accepted] s.driver⟩ := by
          intro known hknown
          cases hknown
          exact hread
        split at hreturned
        · rename_i hone
          cases hreturned
          rw [hread, hifcnt] at hone
          exact ⟨hsynced, _, hcounts.accepted_pos hone, rfl⟩
        · obtain ⟨hs', n, hpos, hdriver⟩ := ih hsynced hreturned
          refine ⟨hs', n + (attempt retries).accepted, by omega, ?_⟩
          rw [hdriver, Function.iterate_add_apply]

end SetRegister

/-! ### Runs of calls -/

/-- A call of `get_register` or of `set_register`, and what happens on the line. -/
inductive Call where
  | get (reg : UInt8) (answered : Nat → Bool)
  | set (reg : UInt8) (val : Nat) (attempt : Nat → Attempt)

/-- A call. A `set_register` that raises an error has no next state. -/
def Driver.call (D : Driver σ) (s : TmcUart σ) : Call → Option (TmcUart σ)
  | .get _ _ => some s
  | .set reg val attempt =>
    match setRegister D reg val attempt s with
    | (.returned, s') => some s'
    | (.raised, _) => none

/-- The register `reg` takes the values that are written. -/
def Holding (reg : UInt8) (holds : Nat → Prop) : Call → Prop
  | .get _ _ => True
  | .set reg' val _ => reg' = reg → holds val

/-- The register `reg` as the calls that returned say. -/
def written (reg : UInt8) (old : Nat) (calls : List Call) : Nat :=
  calls.foldl (fun old call =>
    match call with
    | .get _ _ => old
    | .set reg' val _ => if reg' = reg then val else old) old

section Runs

variable {D : Driver σ} {reg : UInt8} {holds : Nat → Prop} {s s' : TmcUart σ} {d : σ}

lemma written_append (reg : UInt8) (old : Nat) (calls : List Call) (call : Call) :
    written reg old (calls ++ [call]) = written reg (written reg old calls) [call] :=
  List.foldl_append

lemma call_read {call : Call} (hcounts : D.Counts) (hkeeps : D.Keeps reg holds) (h : Synced D s)
    (hholding : Holding reg holds call) (hcall : D.call s call = some s') :
    Synced D s' ∧ D.read s'.driver reg = written reg (D.read s.driver reg) [call] := by
  cases call with
  | get reg' answered =>
    cases hcall
    exact ⟨h, rfl⟩
  | set reg' val attempt =>
    rw [Driver.call] at hcall
    split at hcall
    · rename_i hset
      cases hcall
      obtain ⟨hsynced, n, hn, hdriver⟩ := setRegisterLoop_returned hcounts h hset
      refine ⟨hsynced, ?_⟩
      rw [hdriver]
      change _ = if reg' = reg then val else _
      split_ifs with heq
      · subst heq
        exact hkeeps.iterate (hholding rfl) hn _
      · exact hkeeps.iterate_other heq n _
    · cases hcall

/-- As long as no `set_register` has raised an error, a register that can be read and written holds
what the host has last written to it, for all writes and answers that were lost or came more than
once, and this is what the host reads. -/
theorem run_read_eq_written {calls : List Call} (hcounts : D.Counts) (hkeeps : D.Keeps reg holds)
    (h : Run D.call (fun _ => Holding reg holds) ⟨none, d⟩ calls s) :
    D.read s.driver reg = written reg (D.read d reg) calls ∧
      ∀ answered v, doGetRegister D s.driver reg answered = some v →
        v = written reg (D.read d reg) calls := by
  have hread : Synced D s ∧ D.read s.driver reg = written reg (D.read d reg) calls := by
    induction h with
    | nil => exact ⟨fun _ hnone => (nomatch hnone), rfl⟩
    | snoc _ hholding hcall ih =>
      rw [written_append, ← ih.2]
      exact call_read hcounts hkeeps ih.1 hholding hcall
  refine ⟨hread.2, ?_⟩
  intro answered v hv
  rw [doGetRegister_eq hv, hread.2]

end Runs

/-- A driver whose other registers are plain words. -/
def plainDriver : Driver ((UInt8 → Nat) × UInt8) where
  read d reg := if reg = ifcntReg then d.2.toNat else d.1 reg
  accept reg val d := (Function.update d.1 reg val, d.2 + 1)

lemma counts_plainDriver : plainDriver.Counts where
  lt d := d.2.toNat_lt
  accept _ _ d := UInt8.toNat_add d.2 1

lemma keeps_plainDriver {reg : UInt8} (hreg : reg ≠ ifcntReg) :
    plainDriver.Keeps reg (· < 2 ^ 32) where
  accept val d _ := by
    change (if reg = ifcntReg then _ else Function.update d.1 reg val reg) = val
    rw [if_neg hreg, Function.update_self]
  other reg' val d hne := by
    change (if reg = ifcntReg then _ else Function.update d.1 reg' val reg) = if reg = _ then _ else _
    rw [if_neg hreg, if_neg hreg, Function.update_of_ne hne.symm]

/-- A write that is lost, then one that comes twice, then one that comes once. -/
def thirdTime : Nat → Attempt := fun retries =>
  ⟨fun _ => true, if retries = 4 then 0 else if retries = 3 then 2 else 1, fun _ => true⟩

/-- `CHOPCONF` is written after `IHOLD_IRUN`. -/
theorem run_read_eq_written_thirdTime :
    ∃ s, Run plainDriver.call (fun _ => Holding 0x6c (· < 2 ^ 32)) ⟨none, fun _ => 0, 255⟩
        [.set 0x10 7 thirdTime, .set 0x6c 3 thirdTime] s ∧
      plainDriver.read s.driver 0x6c = 3 := by
  have hrun : Run plainDriver.call (fun _ => Holding 0x6c (· < 2 ^ 32)) ⟨none, fun _ => 0, 255⟩
      [.set 0x10 7 thirdTime, .set 0x6c 3 thirdTime] _ :=
    (Run.nil.snoc (fun heq => absurd heq (by decide)) rfl).snoc (fun _ => by decide) rfl
  exact ⟨_, hrun,
    (run_read_eq_written counts_plainDriver (keeps_plainDriver (by decide)) hrun).1⟩

/-- An error after the write leaves the host one write behind. The next call takes the old write for
its own and returns, although the driver accepted nothing. -/
theorem setRegister_after_raised {D : Driver σ} (hcounts : D.Counts) (d : σ) (reg reg' : UInt8)
    (val val' : Nat) :
    ∃ attempt attempt' s, setRegister D reg val attempt ⟨none, d⟩ = (.raised, s) ∧
      (∀ i, (attempt' i).accepted = 0) ∧
      (setRegister D reg' val' attempt' s).1 = .returned ∧
      (setRegister D reg' val' attempt' s).2.driver = D.accept reg val d := by
  refine ⟨fun _ => ⟨fun _ => true, 1, fun _ => false⟩,
    fun _ => ⟨fun _ => true, 0, fun _ => true⟩, ⟨some (D.read d ifcntReg), D.accept reg val d⟩, rfl,
    fun _ => rfl, ?_⟩
  have hmod : (D.read d ifcntReg + 1) &&& 0xff = (D.read d ifcntReg + 1) % 256 :=
    Nat.and_two_pow_sub_one_eq_mod _ 8
  have hone : D.read (D.accept reg val d) ifcntReg = (D.read d ifcntReg + 1) &&& 0xff := by
    rw [hmod]
    exact hcounts.accept reg val d
  have hset : setRegister D reg' val' (fun _ => ⟨fun _ => true, 0, fun _ => true⟩)
      ⟨some (D.read d ifcntReg), D.accept reg val d⟩ =
      (.returned, ⟨some (D.read (D.accept reg val d) ifcntReg), D.accept reg val d⟩) :=
    if_pos hone
  rw [hset]
  exact ⟨rfl, rfl⟩

/-- `CHOPCONF` keeps its value, although the call that writes 5 returns. -/
theorem setRegister_after_raised_chopconf : ∃ attempt attempt' s,
    setRegister plainDriver 0x00 1 attempt ⟨none, fun _ => 0, 0⟩ = (.raised, s) ∧
    (∀ i, (attempt' i).accepted = 0) ∧
    (setRegister plainDriver 0x6c 5 attempt' s).1 = .returned ∧
    plainDriver.read (setRegister plainDriver 0x6c 5 attempt' s).2.driver 0x6c = 0 := by
  obtain ⟨attempt, attempt', s, hraised, hnone, hreturned, hdriver⟩ :=
    setRegister_after_raised counts_plainDriver (fun _ => 0, 0) 0x00 0x6c 1 5
  refine ⟨attempt, attempt', s, hraised, hnone, hreturned, ?_⟩
  rw [hdriver]
  rfl

end KlipperMcu.Tmc
