import KlipperMcu.Firmware.Message
import KlipperMcu.Lib.Crc
import KlipperMcu.Lib.Word

/-!
# The checksum of a block

Both micro-controllers, the C code and the Python code of the host each have a function for the
checksum of a message block. They take a byte at a time with a few shifts. All of them compute the
reflected cyclic redundancy check with the polynomial 0x8408.
-/

namespace KlipperMcu.Crc16

open Lib Wire

/-- The loop of the C functions over `len` bytes from `buf` on. There is no result if it reads past
the buffer. -/
def crcLoop : Nat → List UInt8 → UInt16 → Option UInt16
  | 0, _, crc => some crc
  | _ + 1, [], _ => none
  | len + 1, byte :: buf, crc => crcLoop len buf (crcByte crc byte)

/-- `crc16_ccitt` of the level board. There `uint_fast8_t` has 32 bits. -/
def mcuCrc16Ccitt (buf : List UInt8) (len : UInt32) : Option UInt16 := crcLoop len.toNat buf 0xffff

/-- `msgblock_crc16_ccitt` of the host. -/
def msgblockCrc16Ccitt (buf : List UInt8) (len : UInt8) : Option UInt16 :=
  crcLoop len.toNat buf 0xffff

/-- `crc16_ccitt` of the main board. -/
def mainBoardCrc16Ccitt (buf : List UInt8) (len : UInt32) : Option UInt16 :=
  crcLoop len.toNat buf 0xffff

/-- A round of the loop of `crc16_ccitt` in msgproto.py, where numbers have no bound. -/
def pyCrcByte (crc data : Nat) : Nat :=
  let data := data ^^^ (crc &&& 0xff)
  let data := data ^^^ ((data &&& 0x0f) <<< 4)
  ((data <<< 8) ||| (crc >>> 8)) ^^^ (data >>> 4) ^^^ (data <<< 3)

/-- `crc16_ccitt` of msgproto.py: the two bytes of the checksum. -/
def pyCrc16Ccitt (buf : List UInt8) : List Nat :=
  let crc := buf.foldl (fun crc data => pyCrcByte crc data.toNat) 0xffff
  [crc >>> 8, crc &&& 0xff]

/-! ### The reflected check, bit by bit -/

/-- The bits of a byte, the lowest one first. -/
def byteBits (byte : UInt8) : List Bool := (List.range 8).map byte.toNat.testBit

def bits (buf : List UInt8) : List Bool := buf.flatMap byteBits

def poly : BitVec 16 := 0x8408

/-- The cyclic redundancy check of the bits of a buffer. -/
def reflectedCrc (buf : List UInt8) : UInt16 := UInt16.ofBitVec (Crc.run poly 0xffff (bits buf))

section Byte

lemma getLsbD_byte (byte : UInt8) (i : Nat) :
    (byte.toBitVec.setWidth 16).getLsbD i = (byteBits byte).getD i false := by
  by_cases hi : i < 8
  · rw [List.getD_eq_getElem?_getD, byteBits, List.getElem?_map, List.getElem?_range hi,
      BitVec.getLsbD_setWidth, decide_eq_true (by omega : i < 16), Bool.true_and]
    rfl
  · rw [List.getD_eq_getElem?_getD, List.getElem?_eq_none (by simpa [byteBits] using hi),
      BitVec.getLsbD_setWidth, BitVec.getLsbD_of_ge _ _ (by omega), Bool.and_false]
    rfl

/-- What the shifts of `crc16_ccitt` make of a byte. -/
def tableEntry (data : UInt8) : UInt16 :=
  let data := data ^^^ (data <<< 4)
  (data.toUInt16 <<< 8) ^^^ (data >>> 4).toUInt16 ^^^ (data.toUInt16 <<< 3)

lemma tableEntry_eq (data : UInt8) :
    (tableEntry data).toBitVec = (Crc.shift poly)^[8] (data.toBitVec.setWidth 16) := by
  revert data
  exact forall_byte (by decide +kernel)

lemma crcByte_eq_tableEntry (crc : UInt16) (byte : UInt8) :
    crcByte crc byte = tableEntry (byte ^^^ (crc &&& 0xff).toUInt8) ^^^ (crc >>> 8) := by
  unfold crcByte tableEntry
  generalize byte ^^^ (crc &&& 0xff).toUInt8 = data
  dsimp only
  generalize data ^^^ (data <<< 4) = data
  have hor : data.toUInt16 <<< 8 ||| crc >>> 8 = data.toUInt16 <<< 8 ^^^ crc >>> 8 := by
    apply UInt16.toBitVec_inj.mp
    apply BitVec.eq_of_getLsbD_eq
    intro i hi
    by_cases h8 : i < 8
    · simp [h8]
    · simp [BitVec.getLsbD_of_ge crc.toBitVec (8 + i) (by omega)]
  rw [hor, UInt16.xor_assoc, UInt16.xor_assoc, UInt16.xor_comm (crc >>> 8), UInt16.xor_assoc,
    UInt16.xor_assoc, UInt16.xor_assoc]

lemma toBitVec_lowByte (crc : UInt16) :
    (crc &&& 0xff).toUInt8.toBitVec = crc.toBitVec.setWidth 8 := by
  have hmask : (0xff#16).setWidth 8 = BitVec.allOnes 8 := rfl
  change (crc.toBitVec &&& 0xff#16).setWidth 8 = _
  rw [BitVec.setWidth_and, hmask, BitVec.and_allOnes]

lemma crcByte_eq_run (crc : UInt16) (byte : UInt8) :
    crcByte crc byte = UInt16.ofBitVec (Crc.run poly crc.toBitVec (byteBits byte)) := by
  -- The low byte of the register and the message go through the table, the high byte moves.
  have hsplit : crc.toBitVec ^^^ byte.toBitVec.setWidth 16 =
      (byte ^^^ (crc &&& 0xff).toUInt8).toBitVec.setWidth 16 ^^^
        (crc.toBitVec >>> 8) <<< 8 := by
    apply BitVec.eq_of_getLsbD_eq
    intro i hi
    rw [UInt8.toBitVec_xor, toBitVec_lowByte]
    by_cases h8 : i < 8
    · simp [h8, hi, Bool.xor_comm]
    · have hback : 8 + (i - 8) = i := by omega
      simp [h8, hi, hback, BitVec.getLsbD_of_ge byte.toBitVec i (by omega)]
  have hmoves : ∀ i < 8, ((crc.toBitVec >>> 8) <<< 8).getLsbD i = false := by
    intro i hi
    simp [hi]
  have hback : ((crc.toBitVec >>> 8) <<< 8) >>> 8 = crc.toBitVec >>> 8 := by
    apply BitVec.eq_of_getLsbD_eq
    intro i hi
    simpa using BitVec.lt_of_getLsbD
  apply UInt16.toBitVec_inj.mp
  rw [crcByte_eq_tableEntry, UInt16.toBitVec_xor, tableEntry_eq,
    Crc.run_eq_iterate (getLsbD_byte byte), hsplit]
  change _ = (Crc.shift poly)^[8] _
  rw [Crc.iterate_shift_xor 8 hmoves, hback]
  rfl

end Byte

section Buffer

lemma run_bits (crc : UInt16) (buf : List UInt8) :
    UInt16.ofBitVec (Crc.run poly crc.toBitVec (bits buf)) = buf.foldl crcByte crc := by
  induction buf generalizing crc with
  | nil => rfl
  | cons byte buf ih =>
    have hcons : bits (byte :: buf) = byteBits byte ++ bits buf := rfl
    rw [hcons, Crc.run_append, List.foldl_cons, ← ih, crcByte_eq_run]

lemma crc16Ccitt_eq (buf : List UInt8) : crc16Ccitt buf = reflectedCrc buf :=
  (run_bits 0xffff buf).symm

lemma crcLoop_length (buf : List UInt8) (crc : UInt16) :
    crcLoop buf.length buf crc = some (buf.foldl crcByte crc) := by
  induction buf generalizing crc with
  | nil => rfl
  | cons byte buf ih => exact ih (crcByte crc byte)

lemma crcLoop_eq {buf : List UInt8} {len : Nat} (h : len = buf.length) :
    crcLoop len buf 0xffff = some (reflectedCrc buf) := by
  rw [h, crcLoop_length, ← crc16Ccitt_eq]
  rfl

lemma toNat_lowByte (crc : UInt16) : (crc &&& 0xff).toUInt8.toNat = crc.toNat &&& 0xff := by
  rw [UInt16.toNat_toUInt8, UInt16.toNat_and]
  exact Nat.mod_eq_of_lt (Nat.lt_succ_of_le Nat.and_le_right)

lemma toNat_xor_shiftLeft (data : UInt8) :
    (data ^^^ (data <<< 4)).toNat = data.toNat ^^^ ((data.toNat &&& 0x0f) <<< 4) := by
  have hlow : data.toNat &&& 0x0f = data.toNat % 2 ^ 4 := Nat.and_two_pow_sub_one_eq_mod _ 4
  have hshift : data.toNat <<< 4 % 2 ^ 8 = (data.toNat &&& 0x0f) <<< 4 := by
    rw [hlow, Nat.shiftLeft_eq, Nat.shiftLeft_eq]
    omega
  rw [UInt8.toNat_xor, UInt8.toNat_shiftLeft, ← hshift]
  rfl

lemma toNat_toUInt16_shiftLeft (data : UInt8) {n : UInt16} (hn : n.toNat ≤ 8) :
    (data.toUInt16 <<< n).toNat = data.toNat <<< n.toNat := by
  have hpow : data.toNat * 2 ^ n.toNat < 2 ^ 8 * 2 ^ 8 :=
    Nat.mul_lt_mul_of_lt_of_le data.toNat_lt (Nat.pow_le_pow_right (by decide) hn) (by decide)
  rw [← Nat.pow_add] at hpow
  rw [UInt16.toNat_shiftLeft, UInt8.toNat_toUInt16, Nat.mod_eq_of_lt (by omega : n.toNat < 16),
    Nat.shiftLeft_eq, Nat.mod_eq_of_lt hpow]

lemma pyCrcByte_eq (crc : UInt16) (byte : UInt8) :
    pyCrcByte crc.toNat byte.toNat = (crcByte crc byte).toNat := by
  unfold pyCrcByte crcByte
  dsimp only
  rw [← toNat_lowByte, ← UInt8.toNat_xor, ← toNat_xor_shiftLeft]
  generalize byte ^^^ (crc &&& 0xff).toUInt8 = data
  generalize data ^^^ (data <<< 4) = data
  rw [UInt16.toNat_xor, UInt16.toNat_xor, UInt16.toNat_or, UInt16.toNat_shiftRight,
    UInt8.toNat_toUInt16, UInt8.toNat_shiftRight,
    toNat_toUInt16_shiftLeft data (by decide : (8 : UInt16).toNat ≤ 8),
    toNat_toUInt16_shiftLeft data (by decide : (3 : UInt16).toNat ≤ 8)]
  rfl

lemma foldl_pyCrcByte (crc : UInt16) (buf : List UInt8) :
    buf.foldl (fun crc data => pyCrcByte crc data.toNat) crc.toNat =
      (buf.foldl crcByte crc).toNat := by
  induction buf generalizing crc with
  | nil => rfl
  | cons byte buf ih => rw [List.foldl_cons, List.foldl_cons, pyCrcByte_eq, ih]

lemma pyCrc16Ccitt_eq (buf : List UInt8) : pyCrc16Ccitt buf =
    [(reflectedCrc buf >>> 8).toNat, (reflectedCrc buf &&& 0xff).toNat] := by
  have hcrc : buf.foldl (fun crc data => pyCrcByte crc data.toNat) 0xffff =
      (reflectedCrc buf).toNat := by
    rw [← crc16Ccitt_eq]
    exact foldl_pyCrcByte 0xffff buf
  unfold pyCrc16Ccitt
  rw [hcrc, UInt16.toNat_shiftRight, UInt16.toNat_and]
  rfl

end Buffer

/-! ### Bursts -/

section Burst

variable {buf buf' : List UInt8}

lemma length_bits (buf : List UInt8) : (bits buf).length = 8 * buf.length := by
  induction buf with
  | nil => rfl
  | cons byte buf ih =>
    have hcons : bits (byte :: buf) = byteBits byte ++ bits buf := rfl
    rw [hcons, List.length_append, ih, List.length_cons]
    have hbyte : (byteBits byte).length = 8 := by simp [byteBits]
    omega

lemma byteBits_injective {byte byte' : UInt8} (h : byteBits byte = byteBits byte') :
    byte = byte' := by
  apply UInt8.toBitVec_inj.mp
  apply BitVec.eq_of_getLsbD_eq
  intro i hi
  have hbit := getLsbD_byte byte i
  rw [h, ← getLsbD_byte byte' i] at hbit
  simpa [show i < 16 by omega] using hbit

lemma bits_injective (hlen : buf.length = buf'.length) (h : bits buf = bits buf') : buf = buf' := by
  induction buf generalizing buf' with
  | nil => exact (List.length_eq_zero_iff.mp hlen.symm).symm
  | cons byte buf ih =>
    cases buf' with
    | nil => cases hlen
    | cons byte' buf' =>
      obtain ⟨hbyte, hrest⟩ := List.append_inj h (by simp [byteBits])
      rw [byteBits_injective hbyte, ih (Nat.succ.inj hlen) hrest]

lemma reflectedCrc_ne (hlen : buf.length = buf'.length) (hne : buf ≠ buf') {k : Nat}
    (hsame : ∀ i, i < k ∨ k + 16 ≤ i → (bits buf)[i]? = (bits buf')[i]?) :
    reflectedCrc buf ≠ reflectedCrc buf' := by
  intro h
  have hbits : (bits buf).length = (bits buf').length := by
    rw [length_bits, length_bits, hlen]
  have hbefore : (bits buf).take k = (bits buf').take k := by
    apply List.ext_getElem?
    intro i
    rw [List.getElem?_take, List.getElem?_take]
    split_ifs with hi
    · exact hsame i (Or.inl hi)
    · rfl
  have hbehind : (bits buf).drop (k + 16) = (bits buf').drop (k + 16) := by
    apply List.ext_getElem?
    intro i
    rw [List.getElem?_drop, List.getElem?_drop]
    exact hsame _ (Or.inr (Nat.le_add_right _ _))
  have htop : poly.getLsbD (16 - 1) = true := by decide
  apply Crc.run_ne_of_burst (by decide) htop hbits _ hbefore hbehind
  · exact congrArg UInt16.toBitVec h
  · exact fun hb => hne (bits_injective hlen hb)

end Burst

/-- The four functions agree with the check bit by bit, and buffers that differ only within 16
consecutive bits have different checks. -/
theorem crc16_agree :
    (∀ buf : List UInt8, buf.length ≤ 255 →
      mcuCrc16Ccitt buf (UInt32.ofNat buf.length) = some (reflectedCrc buf) ∧
      msgblockCrc16Ccitt buf (UInt8.ofNat buf.length) = some (reflectedCrc buf) ∧
      pyCrc16Ccitt buf =
        [(reflectedCrc buf >>> 8).toNat, (reflectedCrc buf &&& 0xff).toNat] ∧
      mainBoardCrc16Ccitt buf (UInt32.ofNat buf.length) = some (reflectedCrc buf)) ∧
    ∀ (buf buf' : List UInt8) (k : Nat), buf.length = buf'.length → buf ≠ buf' →
      (∀ i, i < k ∨ k + 16 ≤ i → (bits buf)[i]? = (bits buf')[i]?) →
      reflectedCrc buf ≠ reflectedCrc buf' := by
  constructor
  · intro buf hlen
    have hword : (UInt32.ofNat buf.length).toNat = buf.length := by
      rw [UInt32.toNat_ofNat']
      omega
    have hbyte : (UInt8.ofNat buf.length).toNat = buf.length := by
      rw [UInt8.toNat_ofNat']
      omega
    exact ⟨crcLoop_eq hword, crcLoop_eq hbyte, pyCrc16Ccitt_eq buf, crcLoop_eq hword⟩
  · intro buf buf' k hlen hne hsame
    exact reflectedCrc_ne hlen hne hsame

/-- An acknowledgement, and one with a burst across two bytes. -/
theorem crc16_agree_ack :
    mcuCrc16Ccitt [5, 0x10] 2 = some (reflectedCrc [5, 0x10]) ∧
      reflectedCrc [5, 0x10] ≠ reflectedCrc [0xfa, 0xef] := by
  have hsame : ∀ i, i < 0 ∨ 0 + 16 ≤ i →
      (bits [5, 0x10])[i]? = (bits [0xfa, 0xef])[i]? := by
    intro i hi
    have hge : 16 ≤ i := by omega
    rw [List.getElem?_eq_none (by rw [length_bits]; exact hge),
      List.getElem?_eq_none (by rw [length_bits]; exact hge)]
  exact ⟨(crc16_agree.1 [5, 0x10] (by decide)).1,
    crc16_agree.2 [5, 0x10] [0xfa, 0xef] 0 rfl (by decide) hsame⟩

end KlipperMcu.Crc16
