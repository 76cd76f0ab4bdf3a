import KlipperMcu.Lib.BackReference
import Mathlib.Tactic.SplitIfs

/-!
# The compressed format of scatter loading

An image for the main board has compressed initial data. A token byte has a literal count in its low
bits and a match count in its high bits, each of which is moved to a byte of its own if it does not
fit. The two bits between them are the high part of a short distance.

The format is stated as a relation between items and bytes. `encode_token` of gd_scatter_compress.py
produces it.
-/

namespace KlipperMcu.Scatter

open Lib

/-! ### The format -/

/-- A count in the bits of the token, or in a byte of its own if these are zero. -/
inductive Field : Nat → Nat → List UInt8 → Prop
  | bits {n : Nat} : n ≠ 0 → Field n n []
  | next (b : UInt8) : Field 0 b.toNat [b]

/-- The distance of a match. -/
inductive Reference (token : Nat) : Nat → List UInt8 → Prop
  | near (lo : UInt8) : token &&& 12 ≠ 12 →
      Reference token (lo.toNat + (token &&& 12) <<< 6) [lo]
  | far (lo hi : UInt8) : token &&& 12 = 12 → Reference token (lo.toNat + hi.toNat <<< 8) [lo, hi]

/-- The length and the distance of a match with a given count. -/
inductive Match (token : Nat) : Nat → Nat → Nat → List UInt8 → Prop
  | absent : Match token 0 0 0 []
  | present {count distance : Nat} {bytes : List UInt8} : count ≠ 0 →
      Reference token distance bytes → Match token count (count + 2) distance bytes

/-- The bytes of an item. -/
inductive Encoded : Item UInt8 → List UInt8 → Prop
  | mk {token : UInt8} {literals : List UInt8} {matchCount length distance : Nat}
      {countBytes matchBytes distanceBytes : List UInt8} :
      Field (token.toNat &&& 3) (literals.length + 1) countBytes →
      Field (token.toNat >>> 4) matchCount matchBytes →
      Match token.toNat matchCount length distance distanceBytes →
      Encoded ⟨literals, length, distance⟩
        (token :: (countBytes ++ (matchBytes ++ (literals ++ distanceBytes))))

/-- Bytes that expand `out` to `out'` of the given size. The size is not reached before the last
item, and no item goes beyond it. -/
inductive Stream (size : Nat) : List UInt8 → List UInt8 → List UInt8 → Prop
  | done {out : List UInt8} : out.length = size → Stream size [] out out
  | item {item : Item UInt8} {bytes rest out out' : List UInt8} : out.length < size →
      Encoded item bytes → item.Fits out → (item.expand out).length ≤ size →
      Stream size rest (item.expand out) out' → Stream size (bytes ++ rest) out out'

/-! ### The encoder -/

/-- The exceptions of the tools, and a loop that was given up. -/
inductive Error where
  | valueError (text : String)
  | indexError
  | keyError
  | endless
deriving DecidableEq, Repr

def maxMatch : Nat := 257

def maxDistance : Nat := 65535

def maxLiterals : Nat := 254

/-- A `bytearray` takes only bytes. -/
def toBytes (values : List Nat) : Except Error (List UInt8) :=
  if values.all fun v => decide (v < 256) then .ok (values.map UInt8.ofNat)
  else .error (.valueError "byte must be in range(0, 256)")

/-- The token byte of `encode_token`. -/
def tokenByte (literalCount matchCount length distance : Nat) : Nat :=
  let token := if literalCount ≤ 3 then literalCount else 0
  let token := token ||| (if 1 ≤ matchCount ∧ matchCount ≤ 15 then matchCount else 0) <<< 4
  if length ≠ 0 then token ||| (if distance < 768 then (distance >>> 8) <<< 2 else 12) else token

def encodeToken (literals : List UInt8) (length distance : Nat) : Except Error (List UInt8) :=
  if maxLiterals < literals.length ∨ length ≠ 0 ∧ ¬(3 ≤ length ∧ length ≤ maxMatch) then
    .error (.valueError "token length out of range")
  else if length ≠ 0 ∧ ¬(1 ≤ distance ∧ distance ≤ maxDistance) ∨ length = 0 ∧ distance ≠ 0 then
    .error (.valueError "token distance out of range")
  else
    let literalCount := literals.length + 1
    let matchCount := if length ≠ 0 then length - 2 else 0
    let token := tokenByte literalCount matchCount length distance
    toBytes (token :: ((if token &&& 3 = 0 then [literalCount] else []) ++
      ((if token >>> 4 = 0 then [matchCount] else []) ++ (literals.map UInt8.toNat ++
        if length ≠ 0 then
          (distance &&& 255) :: if 768 ≤ distance then [distance >>> 8] else []
        else []))))

lemma toBytes_of_lt {values : List Nat} (h : ∀ v ∈ values, v < 256) :
    toBytes values = .ok (values.map UInt8.ofNat) := by
  unfold toBytes
  rw [if_pos]
  rw [List.all_eq_true]
  intro v hv
  exact decide_eq_true (h v hv)

lemma toNat_ofNat_byte {n : Nat} (h : n < 256) : (UInt8.ofNat n).toNat = n := by
  rw [UInt8.toNat_ofNat']
  exact Nat.mod_eq_of_lt h

lemma token_parts : ∀ a < 4, ∀ b < 16, ∀ c < 4,
    (a ||| b <<< 4 ||| c <<< 2) &&& 3 = a ∧ (a ||| b <<< 4 ||| c <<< 2) >>> 4 = b ∧
      (a ||| b <<< 4 ||| c <<< 2) &&& 12 = c <<< 2 ∧ a ||| b <<< 4 ||| c <<< 2 < 256 := by
  decide

/-- The high part of a short distance, or the mark of a long one. -/
def highBits (length distance : Nat) : Nat :=
  if length = 0 then 0 else if distance < 768 then distance >>> 8 else 3

lemma highBits_lt (length distance : Nat) : highBits length distance < 4 := by
  unfold highBits
  rw [Nat.shiftRight_eq_div_pow]
  split_ifs <;> omega

lemma tokenByte_eq (literalCount matchCount length distance : Nat) :
    tokenByte literalCount matchCount length distance =
      (if literalCount ≤ 3 then literalCount else 0) |||
        (if 1 ≤ matchCount ∧ matchCount ≤ 15 then matchCount else 0) <<< 4 |||
        highBits length distance <<< 2 := by
  unfold tokenByte highBits
  by_cases hlength : length = 0
  · simp [hlength]
  · by_cases hnear : distance < 768 <;> simp [hlength, hnear]

/-- The parts of the token byte. -/
structure Parts (token literalCount matchCount length distance : Nat) : Prop where
  literals : token &&& 3 = if literalCount ≤ 3 then literalCount else 0
  count : token >>> 4 = if matchCount ≤ 15 then matchCount else 0
  high : token &&& 12 = highBits length distance <<< 2
  lt : token < 256

lemma parts_tokenByte (literalCount matchCount length distance : Nat) :
    Parts (tokenByte literalCount matchCount length distance) literalCount matchCount length
      distance := by
  have ha : (if literalCount ≤ 3 then literalCount else 0) < 4 := by split_ifs <;> omega
  have hb : (if 1 ≤ matchCount ∧ matchCount ≤ 15 then matchCount else 0) < 16 := by
    split_ifs <;> omega
  obtain ⟨h3, h4, h12, hlt⟩ := token_parts _ ha _ hb _ (highBits_lt length distance)
  rw [← tokenByte_eq] at h3 h4 h12 hlt
  refine ⟨h3, ?_, h12, hlt⟩
  rw [h4]
  split_ifs <;> omega

lemma field_of_bits {bits n limit : Nat} (h : bits = if n ≤ limit then n else 0) (hn : n < 256) :
    Field bits n ((if bits = 0 then [n] else []).map UInt8.ofNat) := by
  by_cases hzero : bits = 0
  · have hnext := Field.next (UInt8.ofNat n)
    rw [toNat_ofNat_byte hn] at hnext
    rw [hzero, if_pos rfl]
    exact hnext
  · have heq : bits = n := by
      split_ifs at h
      · exact h
      · exact absurd h hzero
    rw [if_neg hzero, ← heq]
    exact Field.bits hzero

lemma reference_of_high {token length distance : Nat} (hlength : length ≠ 0)
    (hmax : distance ≤ maxDistance) (hhigh : token &&& 12 = highBits length distance <<< 2) :
    Reference token distance
      (((distance &&& 255) :: if 768 ≤ distance then [distance >>> 8] else []).map UInt8.ofNat) := by
  have hmax' : distance ≤ 65535 := hmax
  have hlow : distance &&& 255 = distance % 256 := Nat.and_two_pow_sub_one_eq_mod distance 8
  have hshift : distance >>> 8 = distance / 256 := Nat.shiftRight_eq_div_pow distance 8
  have hlo : (UInt8.ofNat (distance &&& 255)).toNat = distance % 256 := by
    rw [toNat_ofNat_byte (by omega), hlow]
  rw [highBits, if_neg hlength] at hhigh
  by_cases hnear : distance < 768
  · rw [if_pos hnear, hshift, Nat.shiftLeft_eq] at hhigh
    have hne : token &&& 12 ≠ 12 := by omega
    have href := Reference.near (UInt8.ofNat (distance &&& 255)) hne
    have hsum : (UInt8.ofNat (distance &&& 255)).toNat + (token &&& 12) <<< 6 = distance := by
      rw [hlo, hhigh, Nat.shiftLeft_eq]
      omega
    rw [hsum] at href
    rw [if_neg (by omega)]
    exact href
  · rw [if_neg hnear] at hhigh
    have href := Reference.far (UInt8.ofNat (distance &&& 255)) (UInt8.ofNat (distance >>> 8)) hhigh
    have hsum : (UInt8.ofNat (distance &&& 255)).toNat +
        (UInt8.ofNat (distance >>> 8)).toNat <<< 8 = distance := by
      rw [hlo, toNat_ofNat_byte (by omega), hshift, Nat.shiftLeft_eq]
      omega
    rw [hsum] at href
    rw [if_pos (by omega)]
    exact href

/-- The lengths and distances that have a token. -/
def Encodable (length distance : Nat) : Prop :=
  length = 0 ∧ distance = 0 ∨
    (3 ≤ length ∧ length ≤ maxMatch) ∧ 1 ≤ distance ∧ distance ≤ maxDistance

/-- The bytes of the distance, as `encode_token` appends them. -/
def distanceValues (length distance : Nat) : List Nat :=
  if length ≠ 0 then (distance &&& 255) :: if 768 ≤ distance then [distance >>> 8] else [] else []

lemma distanceValues_lt {length distance : Nat} (h : Encodable length distance) :
    ∀ v ∈ distanceValues length distance, v < 256 := by
  have hmax : distance ≤ 65535 := by
    unfold Encodable maxDistance at h
    omega
  have hlow : distance &&& 255 = distance % 256 := Nat.and_two_pow_sub_one_eq_mod distance 8
  have hshift : distance >>> 8 = distance / 256 := Nat.shiftRight_eq_div_pow distance 8
  intro v hv
  unfold distanceValues at hv
  split_ifs at hv <;> simp only [List.mem_cons, List.not_mem_nil, or_false] at hv
  · rcases hv with rfl | rfl <;> omega
  · omega

lemma match_of_encodable {token length distance : Nat} (h : Encodable length distance)
    (hhigh : token &&& 12 = highBits length distance <<< 2) :
    Match token (if length ≠ 0 then length - 2 else 0) length distance
      ((distanceValues length distance).map UInt8.ofNat) := by
  rcases h with ⟨rfl, rfl⟩ | ⟨⟨hlow, hup⟩, -, hmax⟩
  · exact Match.absent
  · have hne : length ≠ 0 := by omega
    have hpresent := Match.present (show length - 2 ≠ 0 by omega) (reference_of_high hne hmax hhigh)
    rw [Nat.sub_add_cancel (by omega)] at hpresent
    rw [distanceValues, if_pos hne, if_pos hne]
    exact hpresent

/-- The encoder accepts them and produces the format. -/
theorem encodeToken_spec {literals : List UInt8} {length distance : Nat}
    (hliterals : literals.length ≤ maxLiterals) (h : Encodable length distance) :
    ∃ bytes, encodeToken literals length distance = .ok bytes ∧
      Encoded ⟨literals, length, distance⟩ bytes := by
  have hliterals' : literals.length ≤ 254 := hliterals
  have hmatch : (if length ≠ 0 then length - 2 else 0) < 256 := by
    unfold Encodable maxMatch at h
    split_ifs <;> omega
  have hparts := parts_tokenByte (literals.length + 1) (if length ≠ 0 then length - 2 else 0) length
    distance
  have hvalues := distanceValues_lt h
  have hpart := match_of_encodable h hparts.high
  have hcount := field_of_bits hparts.literals (show literals.length + 1 < 256 by omega)
  have hcount' := field_of_bits hparts.count hmatch
  unfold encodeToken
  rw [if_neg (by unfold Encodable at h; omega), if_neg (by unfold Encodable at h; omega)]
  change ∃ bytes, toBytes (_ :: (_ ++ (_ ++ (_ ++ distanceValues length distance)))) = _ ∧ _
  generalize (if length ≠ 0 then length - 2 else 0) = matchCount at *
  generalize tokenByte (literals.length + 1) matchCount length distance = token at *
  have htoken : (UInt8.ofNat token).toNat = token := toNat_ofNat_byte hparts.lt
  rw [toBytes_of_lt]
  · refine ⟨_, rfl, ?_⟩
    have hmap : (literals.map UInt8.toNat).map UInt8.ofNat = literals := by
      rw [List.map_map]
      exact (List.map_congr_left fun b _ => UInt8.ofNat_toNat).trans (List.map_id' literals)
    rw [List.map_cons, List.map_append, List.map_append, List.map_append, hmap]
    rw [← htoken] at hcount hcount' hpart
    have henc := Encoded.mk hcount hcount' hpart
    rw [htoken] at henc
    exact henc
  · intro v hv
    simp only [List.mem_cons, List.mem_append, List.mem_map] at hv
    rcases hv with rfl | hv | hv | ⟨b, -, rfl⟩ | hv
    · exact hparts.lt
    · split_ifs at hv
      · rw [List.mem_singleton.mp hv]
        omega
      · cases hv
    · split_ifs at hv
      · rw [List.mem_singleton.mp hv]
        exact hmatch
      · cases hv
    · exact b.toNat_lt
    · exact hvalues v hv

end KlipperMcu.Scatter
