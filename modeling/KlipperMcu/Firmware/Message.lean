import Mathlib.Algebra.Order.Ring.Int
import Mathlib.Data.List.Basic

/-!
# Message blocks

The layout of a message block, its checksum, and the variable length integers in it. A block is a
length, a sequence number, the payload, the checksum and a SYNC byte.
-/

namespace KlipperMcu.Wire

def messageMin : Nat := 5
def messageMax : Nat := 64
def messageHeaderSize : Nat := 2
def messageTrailerSize : Nat := 3
def messageSeqMask : UInt8 := 0x0f
def messageDest : UInt8 := 0x10
def messageSync : UInt8 := 0x7e

/-- One round of the loop of `crc16_ccitt`. -/
def crcByte (crc : UInt16) (byte : UInt8) : UInt16 :=
  let data := byte ^^^ (crc &&& 0xff).toUInt8
  let data := data ^^^ (data <<< 4)
  ((data.toUInt16 <<< 8) ||| (crc >>> 8)) ^^^ (data >>> 4).toUInt16 ^^^ (data.toUInt16 <<< 3)

def crc16Ccitt (buf : List UInt8) : UInt16 := buf.foldl crcByte 0xffff

/-- The test of `encode_int` for a number that fits in `shift + 2` bits. -/
def Short (sv : Int) (shift : Nat) : Prop := sv < 3 * 2 ^ shift ∧ sv ≥ -2 ^ shift

instance (sv : Int) (shift : Nat) : Decidable (Short sv shift) := instDecidableAnd

/-- `encode_int`: the bytes that it writes, a variable length quantity. -/
def encodeInt (v : UInt32) : List UInt8 :=
  let sv := v.toInt32.toInt
  let f4 := [(v &&& 0x7f).toUInt8]
  let f3 := ((v >>> 7 &&& 0x7f) ||| 0x80).toUInt8 :: f4
  let f2 := ((v >>> 14 &&& 0x7f) ||| 0x80).toUInt8 :: f3
  let f1 := ((v >>> 21 &&& 0x7f) ||| 0x80).toUInt8 :: f2
  if Short sv 5 then f4
  else if Short sv 12 then f3
  else if Short sv 19 then f2
  else if Short sv 26 then f1
  else ((v >>> 28) ||| 0x80).toUInt8 :: f1

def encodeMsgid (encodedMsgid : UInt16) : List UInt8 :=
  if encodedMsgid ≥ 0x80 then [(encodedMsgid >>> 7 ||| 0x80).toUInt8, (encodedMsgid &&& 0x7f).toUInt8]
  else [(encodedMsgid &&& 0x7f).toUInt8]

/-- `command_add_frame`: the block with sequence number `seq` around a payload. -/
def commandAddFrame (seq : UInt8) (payload : List UInt8) : List UInt8 :=
  let body := UInt8.ofNat (payload.length + messageMin) :: seq :: payload
  let crc := crc16Ccitt body
  body ++ [(crc >>> 8).toUInt8, crc.toUInt8, messageSync]

lemma length_encodeInt (v : UInt32) :
    (encodeInt v).length =
      if Short v.toInt32.toInt 5 then 1
      else if Short v.toInt32.toInt 12 then 2
      else if Short v.toInt32.toInt 19 then 3
      else if Short v.toInt32.toInt 26 then 4
      else 5 := by
  unfold encodeInt
  dsimp only
  split_ifs <;> rfl

lemma length_encodeMsgid (encodedMsgid : UInt16) :
    (encodeMsgid encodedMsgid).length = if encodedMsgid ≥ 0x80 then 2 else 1 := by
  unfold encodeMsgid
  split <;> rfl

lemma length_commandAddFrame (seq : UInt8) (payload : List UInt8) :
    (commandAddFrame seq payload).length = payload.length + messageMin := by
  simp [commandAddFrame, messageMin]

end KlipperMcu.Wire
