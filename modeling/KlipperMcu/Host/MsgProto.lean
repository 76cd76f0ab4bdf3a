import KlipperMcu.Firmware.Encode
import KlipperMcu.Lib.IntBits
import KlipperMcu.Lib.Vlq
import KlipperMcu.Lib.Word

/-!
# Message formats on the host

The parameter types of msgproto.py, which encode and parse the parameters of a message, and
`MessageFormat.encode`. The numbers of the host are unbounded.
-/

namespace KlipperMcu.MsgProto

open Lib Wire

/-- `(v >> shift) & 0x7f | 0x80`. -/
def moreByte (v : Int) (shift : Nat) : UInt8 :=
  UInt8.ofNat (Int.lor (Int.land (v >>> shift) 0x7f) 0x80).toNat

/-- `PT_uint32.encode`, which all types of integers use. -/
def encodeInteger (v : Int) : List UInt8 :=
  (if v ≥ 0xc000000 ∨ v < -0x4000000 then [moreByte v 28] else []) ++
  (if v ≥ 0x180000 ∨ v < -0x80000 then [moreByte v 21] else []) ++
  (if v ≥ 0x3000 ∨ v < -0x1000 then [moreByte v 14] else []) ++
  (if v ≥ 0x60 ∨ v < -0x20 then [moreByte v 7] else []) ++
  [UInt8.ofNat (Int.land v 0x7f).toNat]

/-- The field `signed` of the classes of integers. -/
def signed : IntType → Bool
  | .uint32 => false
  | .int32 => true
  | .uint16 => false
  | .int16 => true
  | .byte => false

/-- The loop of `PT_uint32.parse` behind byte `c`, with the number of bytes that it uses. It is
`none` when the message ends within the number. -/
def parseLoop : List UInt8 → UInt8 → Int → Option (Int × Nat)
  | bytes, c, v =>
    if c &&& 0x80 = 0 then some (v, 0)
    else
      match bytes with
      | [] => none
      | c :: bytes => (parseLoop bytes c (Int.lor (v <<< (7 : Nat)) (c &&& 0x7f).toNat)).map
          fun r => (r.1, r.2 + 1)

/-- `PT_uint32.parse`, which all types of integers use. -/
def parseInteger (t : IntType) (s : List UInt8) (pos : Nat) : Option (Int × Nat) :=
  match s.drop pos with
  | [] => none
  | c :: bytes =>
    let v : Int := (c &&& 0x7f).toNat
    let v := if c &&& 0x60 = 0x60 then Int.lor v (-0x20) else v
    (parseLoop bytes c v).map fun r =>
      (if signed t then r.1 else Int.land r.1 0xffffffff, pos + 1 + r.2)

/-- A parameter given to `MessageFormat.encode`. -/
inductive Value where
  | int (v : Int)
  | bytes (s : List UInt8)
  | name (s : String)
deriving DecidableEq, Repr

inductive Error where
  | unknownValue (value enumName : String)
  | typeError
  | indexError
deriving DecidableEq, Repr

/-- A type of parameters: one of the types of the protocol, or an enumeration over it. -/
structure PT where
  type : ParamType
  enumeration : Option (String × List (String × Int))
deriving DecidableEq, Repr

/-- The value that is encoded: `Enumeration.encode` looks up the name that it gets. -/
def PT.resolve (t : PT) (v : Value) : Except Error Value :=
  match t.enumeration, v with
  | none, v => .ok v
  | some (enumName, enums), .name s =>
    match enums.lookup s with
    | none => .error (.unknownValue s enumName)
    | some v => .ok (.int v)
  | some _, _ => .error .typeError

/-- The `encode` methods of the types. -/
def encodeValue : ParamType → Value → Except Error (List UInt8)
  | .int _, .int v => .ok (encodeInteger v)
  | .string, .bytes s => .ok (UInt8.ofNat s.length :: s)
  | .progmemBuffer, .bytes s => .ok (UInt8.ofNat s.length :: s)
  | .buffer, .bytes s => .ok (UInt8.ofNat s.length :: s)
  | _, _ => .error .typeError

structure MessageFormat where
  msgidBytes : List UInt8
  paramTypes : List PT
deriving DecidableEq, Repr

def encodeParamList : List PT → List Value → Except Error (List UInt8)
  | [], _ => .ok []
  | _ :: _, [] => .error .indexError
  | t :: types, v :: params => do
    let v ← t.resolve v
    let bytes ← encodeValue t.type v
    let rest ← encodeParamList types params
    pure (bytes ++ rest)

/-- `MessageFormat.encode`. -/
def MessageFormat.encode (f : MessageFormat) (params : List Value) : Except Error (List UInt8) :=
  (encodeParamList f.paramTypes params).map (f.msgidBytes ++ ·)

section Integer

/-- The number of bytes behind the first one that `PT_uint32.encode` uses. -/
def moreBytes (v : Int) : Nat :=
  if v ≥ 0xc000000 ∨ v < -0x4000000 then 4
  else if v ≥ 0x180000 ∨ v < -0x80000 then 3
  else if v ≥ 0x3000 ∨ v < -0x1000 then 2
  else if v ≥ 0x60 ∨ v < -0x20 then 1
  else 0

lemma land_0x7f (v : Int) : Int.land v 0x7f = v % 128 := land_two_pow_sub_one 7 v

lemma moreByte_eq (v : Int) (j : Nat) :
    moreByte v (7 * j) = UInt8.ofNat (Vlq.digit v j + 128) := by
  have hshift : v >>> (7 * j) = v / 128 ^ j := by
    rw [Int.shiftRight_eq_div_pow, pow_mul]
    norm_cast
  have hdigit := Vlq.digit_eq v j
  have hlt := Vlq.digit_lt v j
  have hor : Int.lor (Vlq.digit v j : Int) 0x80 = ((Vlq.digit v j ||| 0x80 : Nat) : Int) := rfl
  have hadd : Vlq.digit v j ||| 0x80 = Vlq.digit v j + 128 := by
    rw [Nat.lor_comm, Nat.add_comm]
    exact (Nat.two_pow_add_eq_or_of_lt (i := 7) hlt 1).symm
  unfold moreByte
  rw [hshift, land_0x7f, ← hdigit, hor, hadd, Int.toNat_natCast]

lemma lastByte_eq (v : Int) :
    UInt8.ofNat (Int.land v 0x7f).toNat = UInt8.ofNat (Vlq.digit v 0) := by
  rw [land_0x7f, Vlq.digit, pow_zero, Int.ediv_one]

lemma encodeInteger_eq (v : Int) : encodeInteger v = Vlq.digits (moreBytes v) v := by
  have h₁ : moreByte v 7 = _ := moreByte_eq v 1
  have h₂ : moreByte v 14 = _ := moreByte_eq v 2
  have h₃ : moreByte v 21 = _ := moreByte_eq v 3
  have h₄ : moreByte v 28 = _ := moreByte_eq v 4
  unfold encodeInteger moreBytes
  rw [lastByte_eq, h₁, h₂, h₃, h₄]
  by_cases c₄ : v ≥ 0xc000000 ∨ v < -0x4000000
  · have c₃ : v ≥ 0x180000 ∨ v < -0x80000 := by omega
    have c₂ : v ≥ 0x3000 ∨ v < -0x1000 := by omega
    have c₁ : v ≥ 0x60 ∨ v < -0x20 := by omega
    simp only [c₄, c₃, c₂, c₁, if_true, Vlq.digits, List.cons_append, List.nil_append]
  by_cases c₃ : v ≥ 0x180000 ∨ v < -0x80000
  · have c₂ : v ≥ 0x3000 ∨ v < -0x1000 := by omega
    have c₁ : v ≥ 0x60 ∨ v < -0x20 := by omega
    simp only [c₄, c₃, c₂, c₁, if_true, if_false, Vlq.digits, List.cons_append, List.nil_append]
  by_cases c₂ : v ≥ 0x3000 ∨ v < -0x1000
  · have c₁ : v ≥ 0x60 ∨ v < -0x20 := by omega
    simp only [c₄, c₃, c₂, c₁, if_true, if_false, Vlq.digits, List.cons_append, List.nil_append]
  by_cases c₁ : v ≥ 0x60 ∨ v < -0x20
  · simp only [c₄, c₃, c₂, c₁, if_true, if_false, Vlq.digits, List.cons_append, List.nil_append]
  · simp only [c₄, c₃, c₂, c₁, if_false, Vlq.digits, List.nil_append]

lemma fits_moreBytes {v : Int} (h : -2 ^ 31 ≤ v) (h' : v < 2 ^ 32) : Vlq.Fits (moreBytes v) v := by
  unfold moreBytes Vlq.Fits
  split_ifs <;> omega

lemma extend_eq : ∀ c : UInt8,
    (if c &&& 0x60 = 0x60 then Int.lor (c &&& 0x7f).toNat (-0x20) else (c &&& 0x7f).toNat) =
      Vlq.extend (c.toNat % 128) :=
  forall_byte (by decide +kernel)

lemma lor_shiftLeft (v : Int) (c : UInt8) :
    Int.lor (v <<< (7 : Nat)) (c &&& 0x7f).toNat = v * 128 + (c.toNat % 128 : Nat) := by
  have hlt : ((c.toNat % 128 : Nat) : Int) < 2 ^ 7 := by omega
  rw [Int.shiftLeft_eq, toNat_and_0x7f]
  exact lor_of_lt 7 v (Int.natCast_nonneg _) hlt

lemma parseLoop_of_last {c : UInt8} (hc : c.toNat < 128) (bytes : List UInt8) (v : Int) :
    parseLoop bytes c v = some (v, 0) := by
  cases bytes <;> rw [parseLoop, if_pos ((and_0x80_eq_zero_iff c).mpr hc)]

lemma parseLoop_eq {c : UInt8} (hc : ¬c.toNat < 128) (bytes : List UInt8) (v : Int) :
    parseLoop bytes c v = Vlq.decodeRest v bytes := by
  have hmore : ¬c &&& 0x80 = 0 := fun h => hc ((and_0x80_eq_zero_iff c).mp h)
  induction bytes generalizing c v with
  | nil => rw [parseLoop, if_neg hmore, Vlq.decodeRest]
  | cons b bytes ih =>
    rw [parseLoop, if_neg hmore, lor_shiftLeft, Vlq.decodeRest]
    by_cases hb : b.toNat < 128
    · rw [if_pos hb, parseLoop_of_last hb]
      rfl
    · rw [if_neg hb, ih hb _ fun h => hb ((and_0x80_eq_zero_iff b).mp h)]

lemma parseInteger_eq (t : IntType) (s : List UInt8) (pos : Nat) :
    parseInteger t s pos = (Vlq.decode (s.drop pos)).map fun r =>
      (if signed t then r.1 else r.1 % 2 ^ 32, pos + r.2) := by
  have hmask : ∀ v : Int, Int.land v 0xffffffff = v % 2 ^ 32 := land_two_pow_sub_one 32
  unfold parseInteger
  cases s.drop pos with
  | nil => rfl
  | cons c bytes =>
    dsimp only
    rw [extend_eq, Vlq.decode]
    by_cases hc : c.toNat < 128
    · rw [if_pos hc, parseLoop_of_last hc]
      simp only [Option.map_some, hmask, Nat.add_zero]
    · rw [if_neg hc, parseLoop_eq hc, Option.map_map]
      congr 1
      funext r
      simp only [Function.comp_apply, hmask, Nat.add_assoc, Nat.add_comm 1]

end Integer

section Response

lemma toUInt8_more (v : UInt32) {s : UInt32} (hs : s.toNat < 32) :
    ((v >>> s &&& 0x7f) ||| 0x80).toUInt8 = UInt8.ofNat (v.toNat / 2 ^ s.toNat % 128 + 128) := by
  have hlow : v.toNat / 2 ^ s.toNat % 128 < 2 ^ 7 := Nat.mod_lt _ (by decide)
  have hand : v.toNat / 2 ^ s.toNat &&& 0x7f = v.toNat / 2 ^ s.toNat % 128 :=
    Nat.and_two_pow_sub_one_eq_mod _ 7
  have hor : v.toNat / 2 ^ s.toNat % 128 ||| 0x80 = v.toNat / 2 ^ s.toNat % 128 + 128 := by
    rw [Nat.lor_comm, Nat.add_comm]
    exact (Nat.two_pow_add_eq_or_of_lt hlow 1).symm
  rw [← UInt8.toNat_inj, UInt32.toNat_toUInt8, UInt32.toNat_or, UInt32.toNat_and,
    UInt32.toNat_shiftRight, Nat.mod_eq_of_lt hs, Nat.shiftRight_eq_div_pow, UInt8.toNat_ofNat']
  change ((v.toNat / 2 ^ s.toNat &&& 0x7f) ||| 0x80) % 2 ^ 8 = _
  rw [hand, hor]

lemma digit_natCast (n j : Nat) : Vlq.digit n j = n / 128 ^ j % 128 := by
  unfold Vlq.digit
  norm_cast

lemma short_iff (v : Int) (k : Nat) : Short v k ↔ ¬(v ≥ 3 * 2 ^ k ∨ v < -2 ^ k) := by
  unfold Short
  omega

lemma encodeInt_eq (v : UInt32) : encodeInt v = Vlq.digits (moreBytes v.toInt32.toInt) v.toNat := by
  have h₀ : (v &&& 0x7f).toUInt8 = UInt8.ofNat (Vlq.digit v.toNat 0) := by
    rw [digit_natCast, pow_zero, Nat.div_one, ← UInt8.toNat_inj, UInt32.toNat_toUInt8,
      UInt32.toNat_and, UInt8.toNat_ofNat']
    change (v.toNat &&& 2 ^ 7 - 1) % 2 ^ 8 = _
    rw [Nat.and_two_pow_sub_one_eq_mod]
  have h₁ : ((v >>> 7 &&& 0x7f) ||| 0x80).toUInt8 = UInt8.ofNat (Vlq.digit v.toNat 1 + 128) := by
    rw [digit_natCast]
    exact toUInt8_more v (by decide)
  have h₂ : ((v >>> 14 &&& 0x7f) ||| 0x80).toUInt8 = UInt8.ofNat (Vlq.digit v.toNat 2 + 128) := by
    rw [digit_natCast]
    exact toUInt8_more v (by decide)
  have h₃ : ((v >>> 21 &&& 0x7f) ||| 0x80).toUInt8 = UInt8.ofNat (Vlq.digit v.toNat 3 + 128) := by
    rw [digit_natCast]
    exact toUInt8_more v (by decide)
  have h₄ : (v >>> 28 ||| 0x80).toUInt8 = UInt8.ofNat (Vlq.digit v.toNat 4 + 128) := by
    have hsmall : v >>> 28 &&& (0x7f : UInt32) = v >>> 28 := by
      have hlt := v.toNat_lt
      rw [← UInt32.toNat_inj, UInt32.toNat_and, UInt32.toNat_shiftRight]
      change v.toNat >>> 28 &&& 2 ^ 7 - 1 = v.toNat >>> 28
      rw [Nat.and_two_pow_sub_one_eq_mod, Nat.shiftRight_eq_div_pow]
      omega
    rw [digit_natCast, ← hsmall]
    exact toUInt8_more v (by decide)
  unfold encodeInt moreBytes
  dsimp only
  rw [h₀, h₁, h₂, h₃, h₄]
  simp only [short_iff]
  split_ifs <;> first | omega | rfl

lemma decode_encodeInt (v : UInt32) (rest : List UInt8) :
    Vlq.decode (encodeInt v ++ rest) =
      some (if -2 ^ 26 ≤ v.toInt32.toInt then v.toInt32.toInt else v.toNat, (encodeInt v).length) := by
  have hv := toInt_toInt32 v
  have hlt := v.toNat_lt
  rw [encodeInt_eq, Vlq.length_digits]
  by_cases hshort : -2 ^ 26 ≤ v.toInt32.toInt ∧ v.toInt32.toInt < 3 * 2 ^ 26
  · have hfew : moreBytes v.toInt32.toInt ≤ 3 := by
      unfold moreBytes
      split_ifs <;> omega
    have hcongr : (v.toNat : Int) % 128 ^ (moreBytes v.toInt32.toInt + 1) =
        v.toInt32.toInt % 128 ^ (moreBytes v.toInt32.toInt + 1) := by
      have hdvd : (128 ^ (moreBytes v.toInt32.toInt + 1) : Int) ∣ 128 ^ 4 :=
        pow_dvd_pow 128 (Nat.succ_le_succ hfew)
      have hfour : (v.toNat : Int) % 128 ^ 4 = v.toInt32.toInt % 128 ^ 4 := by
        split at hv <;> omega
      rw [← Int.emod_emod_of_dvd _ hdvd, hfour, Int.emod_emod_of_dvd _ hdvd]
    rw [if_pos hshort.1, Vlq.digits_congr hcongr, Vlq.decode_digits]
    apply fits_moreBytes <;> omega
  · have hfour : moreBytes v.toInt32.toInt = 4 := by
      unfold moreBytes
      rw [if_pos (by omega)]
    have hval : (if -2 ^ 26 ≤ v.toInt32.toInt then v.toInt32.toInt else v.toNat) = v.toNat := by
      split at hv <;> split <;> omega
    rw [hfour, hval, Vlq.decode_digits]
    unfold Vlq.Fits
    omega

lemma parseInteger_encodeInt (t : IntType) (v : UInt32) (pre post : List UInt8) :
    parseInteger t (pre ++ encodeInt v ++ post) pre.length =
      some (if signed t ∧ -2 ^ 26 ≤ v.toInt32.toInt then v.toInt32.toInt else v.toNat,
        pre.length + (encodeInt v).length) := by
  have hv := toInt_toInt32 v
  have hlt := v.toNat_lt
  rw [parseInteger_eq, List.append_assoc, List.drop_left, decode_encodeInt, Option.map_some,
    Option.some.injEq, Prod.mk.injEq]
  refine ⟨?_, rfl⟩
  by_cases hs : signed t
  · simp only [hs, if_true, true_and]
  · simp only [hs, if_false, false_and, Bool.false_eq_true]
    split at hv <;> split <;> omega

/-- The host reads every word back as unsigned, and as signed exactly when it is not below
`-2 ^ 26`: the first one of five bytes has no bits of the sign. -/
theorem parse_encodeInt_iff (v : UInt32) :
    (∀ pre post,
      parseInteger .uint32 (pre ++ encodeInt v ++ post) pre.length =
          some ((v.toNat : Int), pre.length + (encodeInt v).length) ∧
        parseInteger .int32 (pre ++ encodeInt v ++ post) pre.length =
          some (v.toInt32.toInt, pre.length + (encodeInt v).length)) ↔
      -2 ^ 26 ≤ v.toInt32.toInt := by
  have hv := toInt_toInt32 v
  simp only [parseInteger_encodeInt]
  constructor
  · intro h
    have hsigned := (h [] []).2
    rw [Option.some.injEq, Prod.mk.injEq] at hsigned
    by_contra hlow
    rw [if_neg fun hs => hlow hs.2] at hsigned
    split at hv <;> omega
  · intro h pre post
    exact ⟨rfl, by rw [if_pos ⟨rfl, h⟩]⟩

/-- The least 32-bit number arrives as `2 ^ 31`. -/
theorem parse_encodeInt_min :
    parseInteger .int32 (encodeInt 0x80000000) 0 = some (2 ^ 31, 5) ∧
      (0x80000000 : UInt32).toInt32.toInt = -2 ^ 31 := by
  decide +kernel

end Response

end KlipperMcu.MsgProto
