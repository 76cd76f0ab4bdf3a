import KlipperMcu.Lib.Packing

/-!
# Messages of a stepper driver on the host

`MCU_TMC_uart_bitbang` of tmc_uart.py. A message is a sequence of bytes with a checksum, each byte
between a start and a stop bit. The bits are packed into bytes again for `tmcuart_send`. To read a
response, the host takes the value from its place in the bits and compares all of them with the
message that has this value.
-/

namespace KlipperMcu.Tmc

open Lib

/-- One bit of `_calc_crc8`. -/
def crc8Bit (crc b : Nat) : Nat × Nat :=
  let crc := if (crc >>> 7) ^^^ (b &&& 0x01) ≠ 0 then (crc <<< 1) ^^^ 0x07 else crc <<< 1
  (crc &&& 0xff, b >>> 1)

def calcCrc8 (data : List UInt8) : Nat :=
  data.foldl (fun crc b =>
    let (crc, _) := (List.range 8).foldl (fun (crc, b) _ => crc8Bit crc b) (crc, b.toNat)
    crc) 0

/-- A byte with its start and stop bits. -/
def serialBits (d : UInt8) : Nat := (d.toNat <<< 1) ||| 0x200

def addSerialBits (data : List UInt8) : List UInt8 :=
  let (out, pos) := pack serialBits 10 data
  (List.range ((pos + 7) / 8)).map fun i => UInt8.ofNat ((out >>> (i * 8)) &&& 0xff)

def encodeWrite (sync addr reg : UInt8) (val : Nat) : List UInt8 :=
  let msg := [sync, addr, reg, UInt8.ofNat ((val >>> 24) &&& 0xff),
    UInt8.ofNat ((val >>> 16) &&& 0xff), UInt8.ofNat ((val >>> 8) &&& 0xff),
    UInt8.ofNat (val &&& 0xff)]
  addSerialBits (msg ++ [UInt8.ofNat (calcCrc8 msg)])

def encodeRead (sync addr reg : UInt8) : List UInt8 :=
  let msg := [sync, addr, reg]
  addSerialBits (msg ++ [UInt8.ofNat (calcCrc8 msg)])

/-- The register value at its place in the bits of a response. -/
def registerValue (mval : Nat) : Nat :=
  (((mval >>> 31) &&& 0xff) <<< 24) ||| (((mval >>> 41) &&& 0xff) <<< 16) |||
    (((mval >>> 51) &&& 0xff) <<< 8) ||| ((mval >>> 61) &&& 0xff)

def decodeRead (reg : UInt8) (data : List UInt8) : Option Nat :=
  if data.length ≠ 10 then none
  else
    let (mval, _) := pack UInt8.toNat 8 data
    let val := registerValue mval
    let encodedData := encodeWrite 0x05 0xff reg val
    if data ≠ encodedData then none else some val

section Codec

lemma and_byte (x : Nat) : x &&& 0xff = x % 256 := Nat.and_two_pow_sub_one_eq_mod x 8

lemma serialBits_eq (d : UInt8) : serialBits d = 2 * d.toNat + 512 := by
  have hd := d.toNat_lt
  have hlt : d.toNat <<< 1 < 2 ^ 9 := by
    rw [Nat.shiftLeft_eq]
    omega
  change d.toNat <<< 1 ||| 1 <<< 9 = _
  rw [or_shiftLeft_eq_add hlt, Nat.shiftLeft_eq]
  omega

lemma serialBits_lt (data : List UInt8) : ∀ x ∈ data.map serialBits, x < 2 ^ 10 := by
  intro x hx
  obtain ⟨d, -, rfl⟩ := List.mem_map.mp hx
  have hd := d.toNat_lt
  rw [serialBits_eq]
  omega

/-- The bits of a message as a number. -/
def stream (data : List UInt8) : Nat := Nat.ofDigits (2 ^ 10) (data.map serialBits)

lemma stream_lt (data : List UInt8) : stream data < 2 ^ (10 * data.length) := by
  have hlt := ofDigits_two_pow_lt (by decide : 10 ≠ 0) (serialBits_lt data)
  rwa [List.length_map] at hlt

lemma pack_serialBits (data : List UInt8) :
    pack serialBits 10 data = (stream data, 10 * data.length) :=
  pack_eq (by decide) fun d hd => serialBits_lt data _ (List.mem_map_of_mem hd)

lemma pack_addSerialBits (data : List UInt8) :
    (pack UInt8.toNat 8 (addSerialBits data)).1 = stream data := by
  have hbits : stream data < 2 ^ (8 * ((10 * data.length + 7) / 8)) :=
    Nat.lt_of_lt_of_le (stream_lt data) (Nat.pow_le_pow_right (by decide) (by omega))
  have hbytes : (addSerialBits data).map UInt8.toNat =
      (List.range ((10 * data.length + 7) / 8)).map
        fun i => (stream data >>> (i * 8)) &&& 0xff := by
    unfold addSerialBits
    rw [pack_serialBits, List.map_map]
    apply List.map_congr_left
    intro i _
    rw [Function.comp_apply, UInt8.toNat_ofNat', and_byte]
    exact Nat.mod_mod _ _
  rw [pack_eq (by decide) fun d _ => d.toNat_lt, hbytes, ofDigits_bytes]
  exact Nat.mod_eq_of_lt hbits

lemma length_addSerialBits (data : List UInt8) :
    (addSerialBits data).length = (10 * data.length + 7) / 8 := by
  unfold addSerialBits
  rw [pack_serialBits, List.length_map, List.length_range]

lemma stream_byte (data : List UInt8) {i : Nat} (hi : i < data.length) :
    (stream data >>> (10 * i + 1)) &&& 0xff = data[i].toNat := by
  have hd := data[i].toNat_lt
  obtain ⟨rest, hrest⟩ := ofDigits_div_pow (serialBits_lt data)
    (by rwa [List.length_map] : i < (data.map serialBits).length)
  rw [List.getElem_map, serialBits_eq] at hrest
  rw [and_byte, Nat.shiftRight_eq_div_pow, pow_succ, ← Nat.div_div_eq_div_mul]
  unfold stream
  rw [hrest]
  omega

lemma or_bytes {b₀ b₁ b₂ : Nat} (h₀ : b₀ < 256) (h₁ : b₁ < 256) (h₂ : b₂ < 256) (b₃ : Nat) :
    b₃ <<< 24 ||| b₂ <<< 16 ||| b₁ <<< 8 ||| b₀ = b₀ + 2 ^ 8 * b₁ + 2 ^ 16 * b₂ + 2 ^ 24 * b₃ := by
  have h₁' : b₀ + 2 ^ 8 * b₁ < 2 ^ 16 := by omega
  have h₂' : b₀ + 2 ^ 8 * b₁ + 2 ^ 16 * b₂ < 2 ^ 24 := by omega
  rw [Nat.or_comm _ b₀, Nat.or_comm _ (b₁ <<< 8), Nat.or_comm (b₃ <<< 24), ← Nat.or_assoc,
    ← Nat.or_assoc, or_shiftLeft_eq_add (k := 8) h₀, or_shiftLeft_eq_add h₁',
    or_shiftLeft_eq_add h₂']

lemma registerValue_eq (mval : Nat) :
    registerValue mval = ((mval >>> 61) &&& 0xff) + 2 ^ 8 * ((mval >>> 51) &&& 0xff) +
      2 ^ 16 * ((mval >>> 41) &&& 0xff) + 2 ^ 24 * ((mval >>> 31) &&& 0xff) := by
  have hbyte : ∀ x : Nat, x &&& 0xff < 256 := by
    intro x
    rw [and_byte]
    exact Nat.mod_lt x (by decide)
  exact or_bytes (hbyte _) (hbyte _) (hbyte _) _

lemma registerValue_lt (mval : Nat) : registerValue mval < 2 ^ 32 := by
  rw [registerValue_eq, and_byte, and_byte, and_byte, and_byte]
  omega

lemma registerValue_stream {data : List UInt8} (h : 6 < data.length) :
    registerValue (stream data) = data[6].toNat + 2 ^ 8 * data[5].toNat + 2 ^ 16 * data[4].toNat +
      2 ^ 24 * data[3].toNat := by
  rw [registerValue_eq, ← stream_byte data h, ← stream_byte data (by omega : 5 < data.length),
    ← stream_byte data (by omega : 4 < data.length),
    ← stream_byte data (by omega : 3 < data.length)]

lemma registerValue_encodeWrite (sync addr reg : UInt8) {v : Nat} (hv : v < 2 ^ 32) :
    registerValue (pack UInt8.toNat 8 (encodeWrite sync addr reg v)).1 = v := by
  have hbyte : ∀ x : Nat, (UInt8.ofNat (x &&& 0xff)).toNat = x % 256 := by
    intro x
    rw [UInt8.toNat_ofNat', and_byte]
    exact Nat.mod_mod x 256
  unfold encodeWrite
  rw [pack_addSerialBits, registerValue_stream (by simp)]
  simp only [List.cons_append, List.getElem_cons_succ, List.getElem_cons_zero, hbyte,
    Nat.shiftRight_eq_div_pow]
  omega

lemma length_encodeWrite (sync addr reg : UInt8) (v : Nat) :
    (encodeWrite sync addr reg v).length = 10 := by
  simp [encodeWrite, length_addSerialBits]

lemma length_encodeRead (sync addr reg : UInt8) : (encodeRead sync addr reg).length = 5 := by
  simp [encodeRead, length_addSerialBits]

lemma decodeRead_iff {reg : UInt8} {d : List UInt8} {v : Nat} :
    decodeRead reg d = some v ↔ v < 2 ^ 32 ∧ d = encodeWrite 0x05 0xff reg v := by
  unfold decodeRead
  constructor
  · intro h
    obtain ⟨-, h⟩ := Option.ite_none_left_eq_some.mp h
    obtain ⟨hsame, h⟩ := Option.ite_none_left_eq_some.mp h
    obtain rfl := Option.some.inj h
    exact ⟨registerValue_lt _, not_not.mp hsame⟩
  · rintro ⟨hv, rfl⟩
    have hlength := length_encodeWrite 0x05 0xff reg v
    have hvalue := registerValue_encodeWrite 0x05 0xff reg hv
    rw [if_neg (not_not.mpr hlength)]
    dsimp only
    rw [hvalue, if_neg (not_not.mpr rfl)]

end Codec

/-- The host reads a value from exactly the bytes that encode it. -/
theorem decodeRead_eq_some_iff (reg : UInt8) (d : List UInt8) :
    (∀ v, decodeRead reg d = some v ↔ v < 2 ^ 32 ∧ d = encodeWrite 0x05 0xff reg v) ∧
      (∀ v v', v < 2 ^ 32 → v' < 2 ^ 32 → d = encodeWrite 0x05 0xff reg v →
        d = encodeWrite 0x05 0xff reg v' → v = v') ∧
      (decodeRead reg d = none ↔ ∀ v < 2 ^ 32, d ≠ encodeWrite 0x05 0xff reg v) := by
  refine ⟨fun v => decodeRead_iff, ?_, ?_⟩
  · intro v v' hv hv' hd hd'
    apply Option.some.inj
    rw [← decodeRead_iff.mpr ⟨hv, hd⟩, ← decodeRead_iff.mpr ⟨hv', hd'⟩]
  · rw [Option.eq_none_iff_forall_ne_some]
    apply forall_congr'
    intro v
    rw [ne_eq, decodeRead_iff, not_and]

example : encodeWrite 0x05 0xff 0x06 0x12345678 =
    [0x0a, 0xfa, 0xcf, 0x20, 0x89, 0x68, 0xb2, 0x0a, 0xaf, 0xcb] := by decide +kernel

end KlipperMcu.Tmc
