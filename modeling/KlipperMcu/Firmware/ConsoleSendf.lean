import KlipperMcu.Lib.Buffer
import KlipperMcu.Lib.Run

/-!
# Console output

The transmit side of serial_irq.c. `console_sendf` stores a frame behind the bytes that the transmit
interrupt has not taken yet, and moves those bytes to the front of the buffer if it needs the room.
The steps of `console_sendf` are its accesses to the two indexes and to the buffer. The interrupt
can come between any two of them.
-/

namespace KlipperMcu.UartTx

open Lib

def transmitSize : Nat := 96

/-- A call of `console_sendf`: the `max_size` of its encoder and the frame that is encoded. -/
structure Call where
  maxSize : Nat
  frame : List UInt8
deriving DecidableEq, Repr

/-- Where `console_sendf` is, with its variables `tpos` and `tmax`. -/
inductive Pc where
  | idle
  | readPos (c : Call)
  | readMax (c : Call) (tpos : Nat)
  | resetMax (c : Call)
  | resetPos (c : Call)
  | stop (c : Call) (tmax : Nat)
  | rereadPos (c : Call) (tmax : Nat)
  | move (c : Call) (tpos tmax : Nat)
  | movedPos (c : Call) (tmax : Nat)
  | movedMax (c : Call) (tmax : Nat)
  | enable (c : Call) (tmax : Nat)
  /-- `count` bytes of the frame have been stored. -/
  | encode (c : Call) (tmax count : Nat)
  | publish (c : Call) (tmax : Nat)
  | finish
  | fault
deriving DecidableEq, Repr

/-- The transmit buffer and whether the transmit interrupt is enabled, with the bytes that were
handed to the hardware and the calls in order, each with whether it was accepted. -/
structure Transmit where
  transmitBuf : Nat → UInt8
  transmitPos : Nat
  transmitMax : Nat
  txIrq : Bool
  pc : Pc
  handed : List UInt8
  calls : List (Call × Bool)

inductive Action where
  | sendf (c : Call)
  | main
  | tx
deriving DecidableEq, Repr

/-- `serial_get_tx_byte`. The interrupt is disabled when there is no byte to send. -/
def serialGetTxByte (s : Transmit) : Transmit :=
  if s.transmitPos ≥ s.transmitMax then { s with txIrq := false }
  else if s.transmitPos ≥ transmitSize then { s with pc := .fault }
  else
    { s with
      transmitPos := s.transmitPos + 1
      handed := s.handed ++ [s.transmitBuf s.transmitPos] }

/-- The test for space. -/
def verifySpace (s : Transmit) (c : Call) (tpos tmax : Nat) : Transmit :=
  if tmax + c.maxSize > transmitSize then
    if tmax + c.maxSize - tpos > transmitSize then
      { s with pc := .idle, calls := s.calls ++ [(c, false)] }
    else { s with pc := .stop c tmax }
  else { s with pc := .encode c tmax 0 }

/-- The next access of `console_sendf`. -/
def consoleSendf (s : Transmit) : Option Transmit :=
  match s.pc with
  | .idle => none
  | .readPos c => some { s with pc := .readMax c s.transmitPos }
  | .readMax c tpos =>
    some (if tpos ≥ s.transmitMax then { s with pc := .resetMax c }
      else verifySpace s c tpos s.transmitMax)
  | .resetMax c => some { s with transmitMax := 0, pc := .resetPos c }
  | .resetPos c => some (verifySpace { s with transmitPos := 0 } c 0 0)
  | .stop c tmax => some { s with transmitMax := 0, pc := .rereadPos c tmax }
  | .rereadPos c tmax =>
    some { s with
      pc := if tmax < s.transmitPos then .fault else .move c s.transmitPos (tmax - s.transmitPos) }
  | .move c tpos tmax =>
    some (if tpos + tmax > transmitSize then { s with pc := .fault }
      else { s with
        transmitBuf := Buffer.copy s.transmitBuf 0 tpos tmax
        pc := .movedPos c tmax })
  | .movedPos c tmax => some { s with transmitPos := 0, pc := .movedMax c tmax }
  | .movedMax c tmax => some { s with transmitMax := tmax, pc := .enable c tmax }
  | .enable c tmax => some { s with txIrq := true, pc := .encode c tmax 0 }
  | .encode c tmax count =>
    match c.frame[count]? with
    | none => some { s with pc := .publish c tmax }
    | some byte =>
      some (if tmax + count ≥ transmitSize then { s with pc := .fault }
        else { s with
          transmitBuf := Function.update s.transmitBuf (tmax + count) byte
          pc := .encode c tmax (count + 1) })
  | .publish c tmax =>
    some { s with
      transmitMax := tmax + c.frame.length
      calls := s.calls ++ [(c, true)]
      pc := .finish }
  | .finish => some { s with txIrq := true, pc := .idle }
  | .fault => none

def step (s : Transmit) : Action → Option Transmit
  | .sendf c => if s.pc = .idle then some { s with pc := .readPos c } else none
  | .main => consoleSendf s
  | .tx => if s.pc = .fault then none else some (serialGetTxByte s)

/-- A frame is not longer than the `max_size` of its encoder. -/
def Legal (_ : Transmit) : Action → Prop
  | .sendf c => c.frame.length ≤ c.maxSize
  | _ => True

def start (buf : Nat → UInt8) : Transmit := ⟨buf, 0, 0, false, .idle, [], []⟩

/-- The bytes of the calls that were accepted. -/
def Transmit.accepted (s : Transmit) : List UInt8 :=
  (s.calls.filter (·.2)).flatMap (·.1.frame)

/-- The bytes that are still to be handed to the hardware. While `transmit_max` is zero only
`console_sendf` knows where they end. -/
def Transmit.left (s : Transmit) : List UInt8 :=
  match s.pc with
  | .resetPos _ => []
  | .rereadPos _ tmax => Buffer.slice s.transmitBuf s.transmitPos (tmax - s.transmitPos)
  | .move _ tpos tmax => Buffer.slice s.transmitBuf tpos tmax
  | .movedPos _ tmax => Buffer.slice s.transmitBuf 0 tmax
  | .movedMax _ tmax => Buffer.slice s.transmitBuf 0 tmax
  | _ => Buffer.slice s.transmitBuf s.transmitPos (s.transmitMax - s.transmitPos)

/-- The two indexes, outside of a move of the buffer. -/
structure Indexes (pos max : Nat) : Prop where
  pos_le : pos ≤ max
  max_le : max ≤ transmitSize

/-- The frame of `c` has room behind `tmax`. -/
structure Call.Room (c : Call) (tmax : Nat) : Prop where
  frame : c.frame.length ≤ c.maxSize
  space : tmax + c.maxSize ≤ transmitSize

/-- What `console_sendf` knows at each point. -/
def Transmit.Bounds (s : Transmit) : Prop :=
  match s.pc with
  | .idle => Indexes s.transmitPos s.transmitMax
  | .readPos c => Indexes s.transmitPos s.transmitMax ∧ c.frame.length ≤ c.maxSize
  | .readMax c tpos =>
    Indexes s.transmitPos s.transmitMax ∧ c.frame.length ≤ c.maxSize ∧ tpos ≤ s.transmitPos
  | .resetMax c =>
    Indexes s.transmitPos s.transmitMax ∧ c.frame.length ≤ c.maxSize ∧
      s.transmitPos = s.transmitMax
  | .resetPos c => c.frame.length ≤ c.maxSize ∧ s.transmitMax = 0
  | .stop c tmax => Indexes s.transmitPos s.transmitMax ∧ c.frame.length ≤ c.maxSize ∧ tmax = s.transmitMax ∧
    tmax + c.maxSize ≤ transmitSize + s.transmitPos
  | .rereadPos c tmax => s.transmitMax = 0 ∧ c.frame.length ≤ c.maxSize ∧
    s.transmitPos ≤ tmax ∧ tmax ≤ transmitSize ∧ tmax + c.maxSize ≤ transmitSize + s.transmitPos
  | .move c tpos tmax => s.transmitMax = 0 ∧ tpos + tmax ≤ transmitSize ∧ c.Room tmax
  | .movedPos c tmax => s.transmitMax = 0 ∧ c.Room tmax
  | .movedMax c tmax => s.transmitMax = 0 ∧ s.transmitPos = 0 ∧ c.Room tmax
  | .enable c tmax => Indexes s.transmitPos s.transmitMax ∧ s.transmitMax = tmax ∧ c.Room tmax
  | .encode c tmax count => Indexes s.transmitPos s.transmitMax ∧ s.transmitMax = tmax ∧ c.Room tmax ∧
    count ≤ c.frame.length ∧ Buffer.slice s.transmitBuf tmax count = c.frame.take count
  | .publish c tmax => Indexes s.transmitPos s.transmitMax ∧ s.transmitMax = tmax ∧ c.Room tmax ∧
    Buffer.slice s.transmitBuf tmax c.frame.length = c.frame
  | .finish => Indexes s.transmitPos s.transmitMax
  | .fault => False

/-- The calls of `serial_enable_tx_irq` that are still to come. -/
def Pc.enables : Pc → Bool
  | .rereadPos _ _ => true
  | .move _ _ _ => true
  | .movedPos _ _ => true
  | .movedMax _ _ => true
  | .enable _ _ => true
  | .finish => true
  | _ => false

structure Inv (s : Transmit) : Prop where
  bounds : s.Bounds
  bytes : s.handed ++ s.left = s.accepted
  irq : s.pc.enables = false → s.transmitPos < s.transmitMax → s.txIrq = true

section Invariant

variable {s s' : Transmit} {c : Call} {tpos tmax : Nat}

lemma serialGetTxByte_of_le (h : s.transmitMax ≤ s.transmitPos) :
    serialGetTxByte s = { s with txIrq := false } := if_pos h

lemma serialGetTxByte_of_lt (h : s.transmitPos < s.transmitMax)
    (hmax : s.transmitMax ≤ transmitSize) :
    serialGetTxByte s = { s with
      transmitPos := s.transmitPos + 1
      handed := s.handed ++ [s.transmitBuf s.transmitPos] } := by
  unfold serialGetTxByte
  rw [if_neg (Nat.not_le.mpr h), if_neg (by omega)]

lemma accepted_append (calls : List (Call × Bool)) (c : Call) (b : Bool) :
    ((calls ++ [(c, b)]).filter (·.2)).flatMap (·.1.frame) =
      (calls.filter (·.2)).flatMap (·.1.frame) ++ if b then c.frame else [] := by
  cases b <;> simp

lemma Inv.verifySpace (ho : Indexes s.transmitPos s.transmitMax) (hf : c.frame.length ≤ c.maxSize)
    (hpos : tpos ≤ s.transmitPos) (hmax : tmax = s.transmitMax)
    (hb : s.handed ++ Buffer.slice s.transmitBuf s.transmitPos (s.transmitMax - s.transmitPos) =
      s.accepted)
    (hi : s.transmitPos < s.transmitMax → s.txIrq = true) :
    Inv (UartTx.verifySpace s c tpos tmax) := by
  unfold UartTx.verifySpace
  split
  · split
    · refine ⟨ho, ?_, fun _ => hi⟩
      refine hb.trans ?_
      exact ((accepted_append s.calls c false).trans (List.append_nil _)).symm
    · exact ⟨⟨ho, hf, hmax, by dsimp only; omega⟩, hb, fun _ => hi⟩
  · rename_i hspace
    exact ⟨⟨ho, hmax.symm, ⟨hf, Nat.not_lt.mp hspace⟩, Nat.zero_le _, rfl⟩, hb,
      fun _ => hi⟩

lemma Transmit.Bounds.open (hb : s.Bounds) (h : s.transmitPos < s.transmitMax) :
    Indexes s.transmitPos s.transmitMax ∧ s.left =
      Buffer.slice s.transmitBuf s.transmitPos (s.transmitMax - s.transmitPos) := by
  obtain ⟨buf, pos, max, irq, pc, handed, calls⟩ := s
  cases pc with
  | idle => exact ⟨hb, rfl⟩
  | readPos => exact ⟨hb.1, rfl⟩
  | readMax => exact ⟨hb.1, rfl⟩
  | resetMax => exact ⟨hb.1, rfl⟩
  | resetPos => exact absurd (hb.2 ▸ h) (Nat.not_lt_zero _)
  | stop => exact ⟨hb.1, rfl⟩
  | rereadPos => exact absurd (hb.1 ▸ h) (Nat.not_lt_zero _)
  | move => exact absurd (hb.1 ▸ h) (Nat.not_lt_zero _)
  | movedPos => exact absurd (hb.1 ▸ h) (Nat.not_lt_zero _)
  | movedMax => exact absurd (hb.1 ▸ h) (Nat.not_lt_zero _)
  | enable => exact ⟨hb.1, rfl⟩
  | encode => exact ⟨hb.1, rfl⟩
  | publish => exact ⟨hb.1, rfl⟩
  | finish => exact ⟨hb, rfl⟩
  | fault => exact hb.elim

lemma Transmit.Bounds.take (hb : s.Bounds) (h : s.transmitPos < s.transmitMax)
    (handed : List UInt8) :
    let s' := { s with transmitPos := s.transmitPos + 1, handed := handed }
    s'.Bounds ∧ s'.left =
      Buffer.slice s.transmitBuf (s.transmitPos + 1) (s.transmitMax - (s.transmitPos + 1)) := by
  have hi : Indexes (s.transmitPos + 1) s.transmitMax := ⟨h, (hb.open h).1.max_le⟩
  obtain ⟨buf, pos, max, irq, pc, _, calls⟩ := s
  cases pc with
  | idle => exact ⟨hi, rfl⟩
  | readPos => exact ⟨⟨hi, hb.2⟩, rfl⟩
  | readMax => exact ⟨⟨hi, hb.2.1, Nat.le_succ_of_le hb.2.2⟩, rfl⟩
  | resetMax => exact absurd hb.2.2 (Nat.ne_of_lt h)
  | resetPos => exact absurd (hb.2 ▸ h) (Nat.not_lt_zero _)
  | stop => exact ⟨⟨hi, hb.2.1, hb.2.2.1, Nat.le_succ_of_le hb.2.2.2⟩, rfl⟩
  | rereadPos => exact absurd (hb.1 ▸ h) (Nat.not_lt_zero _)
  | move => exact absurd (hb.1 ▸ h) (Nat.not_lt_zero _)
  | movedPos => exact absurd (hb.1 ▸ h) (Nat.not_lt_zero _)
  | movedMax => exact absurd (hb.1 ▸ h) (Nat.not_lt_zero _)
  | enable => exact ⟨⟨hi, hb.2⟩, rfl⟩
  | encode => exact ⟨⟨hi, hb.2⟩, rfl⟩
  | publish => exact ⟨⟨hi, hb.2⟩, rfl⟩
  | finish => exact ⟨hi, rfl⟩
  | fault => exact hb.elim

lemma Inv.tx (h : Inv s) : Inv (serialGetTxByte s) := by
  by_cases hlt : s.transmitPos < s.transmitMax
  · obtain ⟨hi, hleft⟩ := h.bounds.open hlt
    obtain ⟨hb, hleft'⟩ := h.bounds.take hlt (s.handed ++ [s.transmitBuf s.transmitPos])
    rw [serialGetTxByte_of_lt hlt hi.max_le]
    refine ⟨hb, ?_, fun he _ => h.irq he hlt⟩
    have hn : s.transmitMax - s.transmitPos = s.transmitMax - (s.transmitPos + 1) + 1 := by omega
    rw [hleft', List.append_assoc, List.singleton_append, ← Buffer.slice_succ, ← hn, ← hleft]
    exact h.bytes
  · rw [serialGetTxByte_of_le (Nat.not_lt.mp hlt)]
    exact ⟨h.bounds, h.bytes, fun _ hl => absurd hl hlt⟩

/-! ### The accesses of `console_sendf` -/

variable {buf : Nat → UInt8} {pos max count : Nat} {irq : Bool} {handed : List UInt8}
  {calls : List (Call × Bool)}

lemma left_nil (buf : Nat → UInt8) (h : max ≤ pos) : Buffer.slice buf pos (max - pos) = [] := by
  rw [Nat.sub_eq_zero_of_le h]
  rfl

lemma Inv.readMax (h : Inv ⟨buf, pos, max, irq, .readMax c tpos, handed, calls⟩)
    (hs : consoleSendf ⟨buf, pos, max, irq, .readMax c tpos, handed, calls⟩ = some s') : Inv s' := by
  obtain ⟨hi, hf, hpos⟩ := h.bounds
  cases hs
  dsimp only at hi hpos
  split
  · rename_i hle
    dsimp only at hle
    exact ⟨⟨hi, hf, Nat.le_antisymm hi.pos_le (Nat.le_trans hle hpos)⟩, h.bytes, h.irq⟩
  · exact Inv.verifySpace hi hf hpos rfl h.bytes (h.irq rfl)

lemma Inv.resetMax (h : Inv ⟨buf, pos, max, irq, .resetMax c, handed, calls⟩) :
    Inv ⟨buf, pos, 0, irq, .resetPos c, handed, calls⟩ := by
  obtain ⟨hi, hf, he⟩ := h.bounds
  refine ⟨⟨hf, rfl⟩, ?_, fun _ hl => absurd hl (Nat.not_lt_zero _)⟩
  refine Eq.trans ?_ h.bytes
  exact congrArg (handed ++ ·) (left_nil buf (Nat.le_of_eq he.symm)).symm

lemma Inv.move (h : Inv ⟨buf, pos, max, irq, .move c tpos tmax, handed, calls⟩)
    (hs : consoleSendf ⟨buf, pos, max, irq, .move c tpos tmax, handed, calls⟩ = some s') :
    Inv s' := by
  obtain ⟨hzero, hmax, hroom⟩ := h.bounds
  cases hs
  rw [if_neg (Nat.not_lt.mpr hmax)]
  refine ⟨⟨hzero, hroom⟩, ?_, nofun⟩
  refine Eq.trans ?_ h.bytes
  exact congrArg (handed ++ ·) (Buffer.slice_copy buf 0 tpos tmax)

lemma Inv.store {byte : UInt8}
    (h : Inv ⟨buf, pos, max, irq, .encode c tmax count, handed, calls⟩)
    (hbyte : c.frame[count]? = some byte) :
    Inv ⟨Function.update buf (tmax + count) byte, pos, max, irq, .encode c tmax (count + 1),
      handed, calls⟩ := by
  obtain ⟨hi, hmax, hroom, hcount, hstored⟩ := h.bounds
  obtain ⟨hlt, hget⟩ := List.getElem?_eq_some_iff.mp hbyte
  dsimp only at hi hmax hroom hstored
  refine ⟨⟨hi, hmax, hroom, hlt, ?_⟩, ?_, h.irq⟩
  · dsimp only
    rw [Buffer.slice_add, Buffer.slice_update_of_le (Nat.le_refl _), hstored, List.take_add_one,
      hbyte, Buffer.slice_succ, Function.update_self]
    rfl
  · refine Eq.trans ?_ h.bytes
    congr 1
    apply Buffer.slice_update_of_le
    have hpos := hi.pos_le
    dsimp only
    omega

lemma Inv.encode (h : Inv ⟨buf, pos, max, irq, .encode c tmax count, handed, calls⟩)
    (hs : consoleSendf ⟨buf, pos, max, irq, .encode c tmax count, handed, calls⟩ = some s') :
    Inv s' := by
  obtain ⟨hi, hmax, hroom, hcount, hstored⟩ := h.bounds
  dsimp only [consoleSendf] at hs
  split at hs
  · rename_i hnone
    cases hs
    have he : c.frame.length = count :=
      Nat.le_antisymm (List.getElem?_eq_none_iff.mp hnone) hcount
    rw [← he, List.take_length] at hstored
    exact ⟨⟨hi, hmax, hroom, hstored⟩, h.bytes, h.irq⟩
  · rename_i byte hbyte
    cases hs
    have hlt := (List.getElem?_eq_some_iff.mp hbyte).1
    have hfit : ¬ tmax + count ≥ transmitSize := by
      have hframe := hroom.frame
      have hspace := hroom.space
      omega
    rw [if_neg hfit]
    exact h.store hbyte

lemma Inv.publish (h : Inv ⟨buf, pos, max, irq, .publish c tmax, handed, calls⟩) :
    Inv ⟨buf, pos, tmax + c.frame.length, irq, .finish, handed, calls ++ [(c, true)]⟩ := by
  obtain ⟨hi, he, hroom, hstored⟩ := h.bounds
  dsimp only at he hi hstored
  cases he
  have hpos := hi.pos_le
  have hmax := hroom.frame
  have hspace := hroom.space
  have hsum : tmax + c.frame.length - pos = tmax - pos + c.frame.length := by omega
  have hend : pos + (tmax - pos) = tmax := by omega
  refine ⟨⟨by dsimp only; omega, by dsimp only; omega⟩, ?_, nofun⟩
  dsimp only [Transmit.left, Transmit.accepted]
  rw [hsum, Buffer.slice_add, hend, hstored, ← List.append_assoc, accepted_append]
  exact congrArg (· ++ c.frame) h.bytes

lemma Inv.main (h : Inv s) (hs : consoleSendf s = some s') : Inv s' := by
  obtain ⟨buf, pos, max, irq, pc, handed, calls⟩ := s
  cases pc with
  | idle => cases hs
  | readPos c =>
    cases hs
    exact ⟨⟨h.bounds.1, h.bounds.2, Nat.le_refl _⟩, h.bytes, h.irq⟩
  | readMax c tpos => exact h.readMax hs
  | resetMax c =>
    cases hs
    exact h.resetMax
  | resetPos c =>
    obtain ⟨hf, rfl⟩ := h.bounds
    cases hs
    apply Inv.verifySpace ⟨Nat.le_refl _, Nat.zero_le _⟩ hf (Nat.le_refl _) rfl h.bytes
    intro hl
    exact absurd hl (Nat.lt_irrefl _)
  | stop c tmax =>
    obtain ⟨hi, hf, rfl, hspace⟩ := h.bounds
    cases hs
    exact ⟨⟨rfl, hf, hi.pos_le, hi.max_le, hspace⟩, h.bytes, nofun⟩
  | rereadPos c tmax =>
    obtain ⟨hzero, hf, hpos, hmax, hspace⟩ := h.bounds
    cases hs
    dsimp only at *
    rw [if_neg (Nat.not_lt.mpr hpos)]
    refine ⟨⟨hzero, ?_, hf, ?_⟩, h.bytes, nofun⟩
    · omega
    · omega
  | move c tpos tmax => exact h.move hs
  | movedPos c tmax =>
    cases hs
    exact ⟨⟨h.bounds.1, rfl, h.bounds.2⟩, h.bytes, nofun⟩
  | movedMax c tmax =>
    obtain ⟨hzero, rfl, hroom⟩ := h.bounds
    cases hs
    have hmax := hroom.space
    exact ⟨⟨⟨Nat.zero_le _, by dsimp only; omega⟩, rfl, hroom⟩, h.bytes, nofun⟩
  | enable c tmax =>
    obtain ⟨hi, hmax, hroom⟩ := h.bounds
    cases hs
    exact ⟨⟨hi, hmax, hroom, Nat.zero_le _, rfl⟩, h.bytes, fun _ _ => rfl⟩
  | encode c tmax count => exact h.encode hs
  | publish c tmax =>
    cases hs
    exact h.publish
  | finish =>
    cases hs
    exact ⟨h.bounds, h.bytes, fun _ _ => rfl⟩
  | fault => cases hs

lemma Inv.step {a : Action} (h : Inv s) (hl : Legal s a) (hs : UartTx.step s a = some s') :
    Inv s' := by
  cases a with
  | sendf c =>
    obtain ⟨hpc, hs⟩ := Option.ite_none_right_eq_some.mp hs
    cases hs
    obtain ⟨buf, pos, max, irq, pc, handed, calls⟩ := s
    cases hpc
    exact ⟨⟨h.bounds, hl⟩, h.bytes, h.irq⟩
  | main => exact h.main hs
  | tx =>
    obtain ⟨_, hs⟩ := Option.ite_none_left_eq_some.mp hs
    cases hs
    exact h.tx

end Invariant

/-- The hardware gets the frames of the accepted calls, in the order of the calls and without gaps,
and between calls only the bytes in the buffer are missing and the interrupt that takes them is
enabled. No access leaves the buffer. -/
theorem handed_eq_accepted {buf : Nat → UInt8} {actions : List Action} {s : Transmit}
    (h : Run step Legal (start buf) actions s) :
    s.pc ≠ .fault ∧ s.handed <+: s.accepted ∧
      (s.pc = .idle →
        s.transmitPos ≤ s.transmitMax ∧ s.transmitMax ≤ transmitSize ∧
        s.handed ++ Buffer.slice s.transmitBuf s.transmitPos (s.transmitMax - s.transmitPos) =
          s.accepted ∧
        (s.transmitPos < s.transmitMax → s.txIrq = true) ∧
        (s.transmitPos = s.transmitMax → s.handed = s.accepted)) := by
  have hinv : Inv s := by
    apply h.invariant
    · exact ⟨⟨Nat.le_refl _, Nat.zero_le _⟩, rfl, fun _ hl => absurd hl (Nat.lt_irrefl _)⟩
    · intro s a s' hi hl hs
      exact hi.step hl hs
  obtain ⟨hb, hbytes, hirq⟩ := hinv
  refine ⟨?_, ⟨s.left, hbytes⟩, ?_⟩
  · rintro hpc
    rw [Transmit.Bounds, hpc] at hb
    exact hb
  · intro hpc
    rw [Transmit.Bounds, hpc] at hb
    rw [Transmit.left, hpc] at hbytes
    refine ⟨hb.pos_le, hb.max_le, hbytes, hirq (by rw [hpc]; rfl), ?_⟩
    intro he
    rwa [left_nil _ (Nat.le_of_eq he.symm), List.append_nil] at hbytes

instance (s : Transmit) (a : Action) : Decidable (Legal s a) :=
  a.casesOn (fun c => Nat.decLe c.frame.length c.maxSize) (isTrue trivial) (isTrue trivial)

/-- A frame is stored, the next call is refused, and the one after it moves the buffer while the
interrupt takes bytes. -/
def moveWhileSending : List Action :=
  [Action.sendf ⟨64, List.replicate 40 1⟩] ++ List.replicate 47 Action.main ++
    [Action.sendf ⟨64, [2, 2]⟩, .main, .main] ++ List.replicate 10 Action.tx ++
    [Action.sendf ⟨64, [3, 4, 5]⟩, .main, .tx, .main, .tx, .main, .tx, .main, .tx, .main, .tx, .main,
      .tx, .main, .tx, .main] ++ List.replicate 6 Action.main ++ List.replicate 31 Action.tx

theorem handed_eq_accepted_moveWhileSending :
    ∃ s, Run step Legal (start fun _ => 0) moveWhileSending s ∧ s.pc = .idle ∧
      s.handed = List.replicate 40 1 ++ [3, 4, 5] ∧ s.calls.map (·.2) = [true, false, true] := by
  obtain ⟨s, hs, hp⟩ : ∃ s, Run step Legal (start fun _ => 0) moveWhileSending s ∧
      decide (s.pc = .idle ∧ s.transmitPos = s.transmitMax ∧
        s.accepted = List.replicate 40 1 ++ [3, 4, 5] ∧
        s.calls.map (·.2) = [true, false, true]) = true :=
    Run.exists_of_exec moveWhileSending _ (by decide +kernel)
  obtain ⟨hpc, he, ha, hc⟩ := of_decide_eq_true hp
  have hall := ((handed_eq_accepted hs).2.2 hpc).2.2.2.2 he
  exact ⟨s, hs, hpc, hall.trans ha, hc⟩

end KlipperMcu.UartTx
