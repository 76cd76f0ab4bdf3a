import KlipperMcu.Firmware.Message
import KlipperMcu.Firmware.Sched
import KlipperMcu.Lib.Signed

/-!
# Encoding of responses

`command_encode_and_frame` with the encoders that buildcommands.py generates. The encoder of a
message holds the largest size that its parameters were declared to need, while the encoder writes
the arguments that it gets.
-/

namespace KlipperMcu.Wire

open Lib Sched

inductive IntType where
  | uint32
  | int32
  | uint16
  | int16
  | byte
deriving DecidableEq, Repr

inductive ParamType where
  | int (t : IntType)
  | string
  | progmemBuffer
  | buffer
deriving DecidableEq, Repr

def ParamType.maxLength : ParamType → Nat
  | .int .uint32 => 5
  | .int .int32 => 5
  | .int .uint16 => 3
  | .int .int16 => 3
  | .int .byte => 2
  | .string => 64
  | .progmemBuffer => 64
  | .buffer => 64

/-- An argument in the `va_list` of a message: a word, the bytes of a string before its
terminator, or the length and the address of a buffer. -/
inductive Arg where
  | int (t : IntType) (v : UInt32)
  | string (s : List UInt8)
  | progmemBuffer (v : UInt32) (s : Nat → UInt8)
  | buffer (v : UInt32) (s : Nat → UInt8)

def Arg.type : Arg → ParamType
  | .int t _ => .int t
  | .string _ => .string
  | .progmemBuffer _ _ => .progmemBuffer
  | .buffer _ _ => .buffer

/-- `struct command_encoder`. -/
structure Encoder where
  encodedMsgid : UInt16
  maxSize : Nat
  paramTypes : List ParamType
  maxSize_ge : messageMin ≤ maxSize
  maxSize_le : maxSize ≤ messageMax

/-- The encoder that `build_parser` generates for a message. -/
def buildParser (encodedMsgid : UInt16) (paramTypes : List ParamType) : Encoder where
  encodedMsgid := encodedMsgid
  maxSize := min messageMax (messageMin + (if encodedMsgid ≥ 0x80 then 2 else 1)
    + (paramTypes.map ParamType.maxLength).sum)
  paramTypes := paramTypes
  maxSize_ge := Nat.le_min.mpr ⟨by decide, by omega⟩
  maxSize_le := Nat.min_le_left _ _

inductive Shutdown where
  | messageEncodeError
deriving DecidableEq, Repr

def encodeBuffer (room : Nat) (v : UInt32) (s : Nat → UInt8) : List UInt8 :=
  let v := min v.toNat room
  UInt8.ofNat v :: (List.range v).map s

/-- The bytes written for an argument when `room` bytes are left before `maxend`. -/
def Arg.encode (room : Nat) : Arg → List UInt8
  | .int _ v => encodeInt v
  | .string s =>
    let s := s.take (room - 1)
    UInt8.ofNat s.length :: s
  | .progmemBuffer v s => encodeBuffer room v s
  | .buffer v s => encodeBuffer room v s

/-- The loop of `command_encodef`. The payload written so far is `p`. -/
def encodeParams (maxend : Nat) (p : List UInt8) : List Arg → Except Shutdown (List UInt8)
  | [] => .ok p
  | arg :: args =>
    if p.length > maxend then .error .messageEncodeError
    else encodeParams maxend (p ++ arg.encode (maxend - p.length)) args

/-- `command_encodef`: the payload of the message. -/
def commandEncodef (ce : Encoder) (args : List Arg) : Except Shutdown (List UInt8) :=
  if ce.maxSize ≤ messageMin then .ok []
  else encodeParams (ce.maxSize - messageMin) (encodeMsgid ce.encodedMsgid) args

def commandEncodeAndFrame (nextSequence : UInt8) (ce : Encoder) (args : List Arg) :
    Except Shutdown (List UInt8) :=
  (commandEncodef ce args).map (commandAddFrame nextSequence)

/-- Where the encoding of an argument at `p` ends if a buffer is not cut. A string is cut when
there is space for its length. -/
def Arg.endPos (maxend p : Nat) : Arg → Nat
  | .int _ v => p + (encodeInt v).length
  | .string s => if p < maxend then min (p + 1 + s.length) maxend else p + 1
  | .progmemBuffer v _ => p + 1 + v.toNat
  | .buffer v _ => p + 1 + v.toNat

def endPos (maxend p : Nat) (args : List Arg) : Nat :=
  args.foldl (fun p arg => arg.endPos maxend p) p

/-- The arguments fit in the size that was declared for them, or those before the last one are
already too long. -/
def Fits (encodedMsgid : UInt16) (args : List Arg) : Prop :=
  let maxend := (buildParser encodedMsgid (args.map Arg.type)).maxSize - messageMin
  let start := (encodeMsgid encodedMsgid).length
  maxend < endPos maxend start args.dropLast ∨ endPos maxend start args ≤ maxend

section Length

variable {maxend : Nat} {p p' : List UInt8} {arg : Arg} {args : List Arg}

lemma lt_endPos_arg (maxend p : Nat) (arg : Arg) : p < arg.endPos maxend p := by
  cases arg with
  | int t v =>
    have hlen := length_encodeInt v
    change p < p + (encodeInt v).length
    split_ifs at hlen <;> omega
  | string s =>
    change p < if p < maxend then min (p + 1 + s.length) maxend else p + 1
    split <;> omega
  | progmemBuffer v s => exact Nat.lt_add_right _ (Nat.lt_succ_self p)
  | buffer v s => exact Nat.lt_add_right _ (Nat.lt_succ_self p)

lemma endPos_cons (maxend p : Nat) (arg : Arg) (args : List Arg) :
    endPos maxend p (arg :: args) = endPos maxend (arg.endPos maxend p) args := rfl

lemma le_endPos (maxend p : Nat) (args : List Arg) : p ≤ endPos maxend p args := by
  induction args generalizing p with
  | nil => exact Nat.le_refl p
  | cons arg args ih => exact Nat.le_trans (Nat.le_of_lt (lt_endPos_arg maxend p arg)) (ih _)

lemma length_encodeBuffer (room : Nat) (v : UInt32) (s : Nat → UInt8) :
    (encodeBuffer room v s).length = min v.toNat room + 1 := by
  simp [encodeBuffer]

/-- What is written for an argument ends where the argument does, unless that is past `maxend`.
Then the written bytes end past `maxend` too. -/
lemma length_encode (h : p.length ≤ maxend) (arg : Arg) :
    (p ++ arg.encode (maxend - p.length)).length = arg.endPos maxend p.length ∨
      maxend < (p ++ arg.encode (maxend - p.length)).length ∧
        maxend < arg.endPos maxend p.length := by
  rw [List.length_append]
  cases arg with
  | int t v => exact Or.inl rfl
  | string s =>
    simp only [Arg.encode, Arg.endPos, List.length_cons, List.length_take]
    split <;> omega
  | progmemBuffer v s =>
    simp only [Arg.encode, Arg.endPos, length_encodeBuffer]
    omega
  | buffer v s =>
    simp only [Arg.encode, Arg.endPos, length_encodeBuffer]
    omega

lemma encodeParams_cons (h : p.length ≤ maxend) :
    encodeParams maxend p (arg :: args) =
      encodeParams maxend (p ++ arg.encode (maxend - p.length)) args := by
  rw [encodeParams, if_neg (by omega)]

lemma encodeParams_le_iff (h : p.length ≤ maxend ∨ args ≠ []) :
    (∀ p', encodeParams maxend p args = .ok p' → p'.length ≤ maxend) ↔
      maxend < endPos maxend p.length args.dropLast ∨ endPos maxend p.length args ≤ maxend := by
  induction args generalizing p with
  | nil =>
    have hle : p.length ≤ maxend := h.resolve_right fun hne => hne rfl
    refine ⟨fun _ => Or.inr hle, fun _ p' hp' => ?_⟩
    cases hp'
    exact hle
  | cons arg args ih =>
    by_cases hlong : maxend < p.length
    · rw [encodeParams, if_pos hlong]
      refine ⟨fun _ => Or.inl ?_, fun _ p' hp' => by cases hp'⟩
      exact Nat.lt_of_lt_of_le hlong (le_endPos maxend p.length _)
    · have hlen := length_encode (Nat.le_of_not_lt hlong) arg
      rw [encodeParams_cons (Nat.le_of_not_lt hlong)]
      generalize p ++ arg.encode (maxend - p.length) = q at hlen ⊢
      cases args with
      | nil =>
        change (∀ p', Except.ok q = Except.ok p' → p'.length ≤ maxend) ↔
          maxend < p.length ∨ arg.endPos maxend p.length ≤ maxend
        refine ⟨fun hq => Or.inr ?_, fun hfit p' hp' => ?_⟩
        · have := hq q rfl
          omega
        · cases hp'
          omega
      | cons next args =>
        rw [ih (Or.inr (List.cons_ne_nil _ _)), List.dropLast_cons_cons,
          endPos_cons maxend p.length arg, endPos_cons maxend p.length arg]
        rcases hlen with heq | ⟨hq, harg⟩
        · rw [heq]
        · have hq' := le_endPos maxend q.length (next :: args).dropLast
          have harg' := le_endPos maxend (arg.endPos maxend p.length) (next :: args).dropLast
          exact ⟨fun _ => Or.inl (Nat.lt_of_lt_of_le harg harg'),
            fun _ => Or.inl (Nat.lt_of_lt_of_le hq hq')⟩

end Length

lemma length_encodeMsgid_le (encodedMsgid : UInt16) (types : List ParamType) :
    (encodeMsgid encodedMsgid).length + messageMin ≤ (buildParser encodedMsgid types).maxSize := by
  rw [length_encodeMsgid]
  refine Nat.le_min.mpr ⟨?_, by omega⟩
  split <;> decide

lemma commandEncodef_buildParser (encodedMsgid : UInt16) (types : List ParamType)
    (args : List Arg) :
    commandEncodef (buildParser encodedMsgid types) args =
      encodeParams ((buildParser encodedMsgid types).maxSize - messageMin)
        (encodeMsgid encodedMsgid) args := by
  have hsize := length_encodeMsgid_le encodedMsgid types
  have hpos : 0 < (encodeMsgid encodedMsgid).length := by
    rw [length_encodeMsgid]
    split <;> decide
  rw [commandEncodef, if_neg (by omega)]
  rfl

lemma commandEncodeAndFrame_ok {ce : Encoder} {args : List Arg} {p : List UInt8}
    (h : commandEncodef ce args = .ok p) (nextSequence : UInt8) :
    commandEncodeAndFrame nextSequence ce args = .ok (commandAddFrame nextSequence p) := by
  unfold commandEncodeAndFrame
  rw [h]
  rfl

/-- A frame is within the size of its encoder, or the firmware shuts down, exactly for arguments
that fit. -/
theorem frame_le_maxSize_iff (nextSequence : UInt8) (encodedMsgid : UInt16) (args : List Arg) :
    (∀ frame, commandEncodeAndFrame nextSequence
        (buildParser encodedMsgid (args.map Arg.type)) args = .ok frame →
      frame.length ≤ (buildParser encodedMsgid (args.map Arg.type)).maxSize ∧
        frame.length ≤ messageMax) ↔ Fits encodedMsgid args := by
  have hsize := length_encodeMsgid_le encodedMsgid (args.map Arg.type)
  have hmax := (buildParser encodedMsgid (args.map Arg.type)).maxSize_le
  unfold commandEncodeAndFrame
  rw [commandEncodef_buildParser]
  unfold Fits
  dsimp only
  generalize (buildParser encodedMsgid (args.map Arg.type)).maxSize = size at hsize hmax ⊢
  rw [← encodeParams_le_iff (Or.inl (by omega))]
  refine ⟨fun h p hp => ?_, fun h frame hframe => ?_⟩
  · have hlen := (h (commandAddFrame nextSequence p) (by rw [hp]; rfl)).1
    rw [length_commandAddFrame] at hlen
    omega
  · cases hp : encodeParams (size - messageMin) (encodeMsgid encodedMsgid) args with
    | error e =>
      rw [hp] at hframe
      cases hframe
    | ok p =>
      rw [hp] at hframe
      cases hframe
      have hlen := h p hp
      rw [length_commandAddFrame]
      omega

/-- `ff_report_close`: the arguments that it sends. -/
def ffReportClose (m : Mem) : List Arg :=
  [.int .uint16 m.ffTimerClose.toUInt32, .int .uint16 m.ffCloseNum, .int .uint16 m.ffTempWaketime]

/-- `command_identify` for a data dictionary of `isize` bytes. -/
def commandIdentify (isize : UInt32) (data : Nat → UInt8) (offset count : UInt32) : List Arg :=
  let count := count.toUInt8
  let count :=
    if offset ≥ isize then 0
    else if offset + count.toUInt32 > isize then (isize - offset).toUInt8
    else count
  [.int .uint32 offset, .progmemBuffer count.toUInt32 fun i => data (offset.toNat + i)]

/-- The memory before a stepper timer is added for a time that has passed. -/
def lateMem : Mem :=
  { bootMem 1 with
    waketime := Function.update (Function.update (bootMem 1).waketime .periodic 0x18000000)
      (.user 0) 0x17000000 }

/-- A late stepper timer is reported with two 32-bit clocks, in a frame of 17 bytes where the format
allows for 15. A request for 255 bytes of the dictionary is answered with a frame of 65 bytes. -/
theorem frame_exceeds_maxSize :
    (∃ m frame, schedAddTimer lateMem 0x17000100 (.user 0) 22 = .error (.shutdown m .timerTooClose) ∧
      commandEncodeAndFrame messageDest
        (buildParser 58 ((ffReportClose m).map Arg.type)) (ffReportClose m) = .ok frame ∧
      frame.length = 17 ∧ (buildParser 58 ((ffReportClose m).map Arg.type)).maxSize = 15) ∧
    ∃ frame, commandEncodeAndFrame messageDest
        (buildParser 0 ((commandIdentify 8000 (fun _ => 0) 0 255).map Arg.type))
        (commandIdentify 8000 (fun _ => 0) 0 255) = .ok frame ∧ frame.length = messageMax + 1 := by
  have hclose : commandEncodef (buildParser 58 [.int .uint16, .int .uint16, .int .uint16])
      (ffReportClose (noteLate lateMem 0x17000000 0x17000100 22)) =
        .ok ([58, 22] ++ encodeInt 0x17000100 ++ encodeInt 0x17000000) := by
    decide +kernel
  have hidentify : commandEncodef (buildParser 0 [.int .uint32, .progmemBuffer])
      (commandIdentify 8000 (fun _ => 0) 0 255) =
        .ok ([0, 0] ++ encodeBuffer 57 255 fun _ => 0) := by
    decide +kernel
  refine ⟨⟨_, _, rfl, commandEncodeAndFrame_ok hclose messageDest, ?_, by decide⟩,
    _, commandEncodeAndFrame_ok hidentify messageDest, ?_⟩
  · rw [length_commandAddFrame]
    decide
  · rw [length_commandAddFrame, List.length_append, length_encodeBuffer]
    decide

/-- The size of an argument that is not cut. -/
def Arg.size : Arg → Nat
  | .int _ v => (encodeInt v).length
  | .string s => 1 + s.length
  | .progmemBuffer v _ => 1 + v.toNat
  | .buffer v _ => 1 + v.toNat

/-- The words that a parameter type is declared for. -/
def IntType.Holds : IntType → UInt32 → Prop
  | .uint32, _ => True
  | .int32, _ => True
  | .uint16, v => v.toNat < 2 ^ 16
  | .int16, v => v.toInt32.toInt < 2 ^ 15 ∧ -2 ^ 15 ≤ v.toInt32.toInt
  | .byte, v => v.toNat < 2 ^ 8

section Declared

variable {encodedMsgid : UInt16} {args : List Arg}

lemma endPos_le_sum (maxend p : Nat) (args : List Arg) :
    endPos maxend p args ≤ p + (args.map Arg.size).sum := by
  induction args generalizing p with
  | nil => exact Nat.le_refl p
  | cons arg args ih =>
    have harg : arg.endPos maxend p ≤ p + arg.size := by
      cases arg with
      | int t v => exact Nat.le_refl _
      | string s =>
        simp only [Arg.endPos, Arg.size]
        split <;> omega
      | progmemBuffer v s => exact Nat.le_of_eq (Nat.add_assoc _ _ _)
      | buffer v s => exact Nat.le_of_eq (Nat.add_assoc _ _ _)
    have hrest := ih (arg.endPos maxend p)
    rw [endPos_cons, List.map_cons, List.sum_cons]
    omega

lemma fits_of_sum_le (h : (encodeMsgid encodedMsgid).length + (args.map Arg.size).sum + messageMin ≤
    (buildParser encodedMsgid (args.map Arg.type)).maxSize) : Fits encodedMsgid args := by
  have hsum := endPos_le_sum ((buildParser encodedMsgid (args.map Arg.type)).maxSize - messageMin)
    (encodeMsgid encodedMsgid).length args
  exact Or.inr (Nat.le_trans hsum (by omega))

lemma short_of_lt {v : UInt32} {shift : Nat} (h : v.toNat < 3 * 2 ^ shift) (h' : v.toNat < 2 ^ 31) :
    Short v.toInt32.toInt shift := by
  have hv : v.toInt32.toInt = v.toNat := by
    have := toInt_toInt32_ofNat h'
    rwa [UInt32.ofNat_toNat] at this
  have hcast : ((3 * 2 ^ shift : Nat) : Int) = 3 * 2 ^ shift := by simp
  have hpos : (0 : Int) ≤ 2 ^ shift := Int.pow_nonneg (by decide)
  unfold Short
  omega

lemma length_encodeInt_le {t : IntType} {v : UInt32} (h : t.Holds v) :
    (encodeInt v).length ≤ (ParamType.int t).maxLength := by
  rw [length_encodeInt]
  cases t with
  | uint32 => split_ifs <;> decide
  | int32 => split_ifs <;> decide
  | uint16 =>
    have hshort : Short v.toInt32.toInt 19 :=
      short_of_lt (Nat.lt_trans h (by decide)) (Nat.lt_trans h (by decide))
    split_ifs <;> decide
  | int16 =>
    have hshort : Short v.toInt32.toInt 19 :=
      ⟨Int.lt_trans h.1 (by decide), Int.le_trans (by decide) h.2⟩
    split_ifs <;> decide
  | byte =>
    have hshort : Short v.toInt32.toInt 12 :=
      short_of_lt (Nat.lt_trans h (by decide)) (Nat.lt_trans h (by decide))
    split_ifs <;> decide

/-- Integers fit in a message when each one is in the range of its type and the declared sizes do
not exceed a block. -/
theorem fits_of_holds (hargs : ∀ arg ∈ args, ∃ t v, arg = .int t v ∧ t.Holds v)
    (hsum : messageMin + (if encodedMsgid ≥ 0x80 then 2 else 1) +
      ((args.map Arg.type).map ParamType.maxLength).sum ≤ messageMax) : Fits encodedMsgid args := by
  have hsize : (args.map Arg.size).sum ≤ ((args.map Arg.type).map ParamType.maxLength).sum := by
    clear hsum
    induction args with
    | nil => exact Nat.le_refl _
    | cons arg args ih =>
      obtain ⟨t, v, rfl, hv⟩ := hargs arg List.mem_cons_self
      have hrest := ih fun a ha => hargs a (List.mem_cons_of_mem _ ha)
      simp only [List.map_cons, List.sum_cons]
      exact Nat.add_le_add (length_encodeInt_le hv) hrest
  apply fits_of_sum_le
  rw [length_encodeMsgid]
  refine Nat.le_min.mpr ⟨?_, ?_⟩ <;> omega

end Declared

end KlipperMcu.Wire
