import Mathlib.Algebra.Order.Ring.Int
import Mathlib.Data.List.Basic
import Mathlib.Tactic.Linarith
import Mathlib.Tactic.Ring

/-!
# Variable length quantities

A number is written in base 128 with the most significant digit first. Each byte but the last one
has its high bit set. The numbers that start with a digit from 96 on are negative, so that `k + 1`
bytes are enough for the numbers from `-32 * 128 ^ k` up to `96 * 128 ^ k`.
-/

namespace KlipperMcu.Lib.Vlq

/-- The digit of `v` in front of `128 ^ j`. -/
def digit (v : Int) (j : Nat) : Nat := (v / 128 ^ j % 128).toNat

/-- The last `k + 1` digits of `v` as bytes. -/
def digits : Nat → Int → List UInt8
  | 0, v => [UInt8.ofNat (digit v 0)]
  | k + 1, v => UInt8.ofNat (digit v (k + 1) + 128) :: digits k v

/-- The value of a first digit. -/
def extend (d : Nat) : Int := if d < 96 then d else d - 128

/-- The digits that follow `v`, with how many they are. -/
def decodeRest (v : Int) : List UInt8 → Option (Int × Nat)
  | [] => none
  | c :: bytes =>
    let v := v * 128 + (c.toNat % 128 : Nat)
    if c.toNat < 128 then some (v, 1) else (decodeRest v bytes).map fun r => (r.1, r.2 + 1)

/-- The number at the start of `bytes`, with the number of bytes that it takes. -/
def decode : List UInt8 → Option (Int × Nat)
  | [] => none
  | c :: bytes =>
    let v := extend (c.toNat % 128)
    if c.toNat < 128 then some (v, 1) else (decodeRest v bytes).map fun r => (r.1, r.2 + 1)

/-- The numbers that `k + 1` digits are enough for. -/
def Fits (k : Nat) (v : Int) : Prop := -32 * 128 ^ k ≤ v ∧ v < 96 * 128 ^ k

lemma digit_lt (v : Int) (j : Nat) : digit v j < 128 := by
  have hpos := Int.emod_nonneg (v / 128 ^ j) (show (128 : Int) ≠ 0 by decide)
  have hlt := Int.emod_lt_of_pos (v / 128 ^ j) (show (0 : Int) < 128 by decide)
  unfold digit
  omega

lemma digit_eq (v : Int) (j : Nat) : (digit v j : Int) = v / 128 ^ j % 128 :=
  Int.toNat_of_nonneg (Int.emod_nonneg _ (by decide))

lemma div_pow_succ (v : Int) (j : Nat) : v / 128 ^ (j + 1) = v / 128 ^ j / 128 := by
  rw [pow_succ, Int.ediv_ediv_of_nonneg (by positivity)]

lemma div_mul_add_digit (v : Int) (j : Nat) :
    v / 128 ^ (j + 1) * 128 + digit v j = v / 128 ^ j := by
  rw [digit_eq, div_pow_succ]
  have h := Int.mul_ediv_add_emod (v / 128 ^ j) 128
  linarith

lemma toNat_last (v : Int) : (UInt8.ofNat (digit v 0)).toNat = digit v 0 := by
  have h := digit_lt v 0
  rw [UInt8.toNat_ofNat']
  omega

lemma toNat_more (v : Int) (j : Nat) : (UInt8.ofNat (digit v j + 128)).toNat = digit v j + 128 := by
  have h := digit_lt v j
  rw [UInt8.toNat_ofNat']
  omega

lemma length_digits (k : Nat) (v : Int) : (digits k v).length = k + 1 := by
  induction k with
  | zero => rfl
  | succ k ih => rw [digits, List.length_cons, ih]

lemma decodeRest_digits (k : Nat) (v : Int) (rest : List UInt8) :
    decodeRest (v / 128 ^ (k + 1)) (digits k v ++ rest) = some (v, k + 1) := by
  induction k with
  | zero =>
    have hd := digit_lt v 0
    have hv := div_mul_add_digit v 0
    rw [digits, List.singleton_append, decodeRest]
    rw [toNat_last, if_pos hd, Nat.mod_eq_of_lt hd, hv, pow_zero, Int.ediv_one]
  | succ k ih =>
    have hd := digit_lt v (k + 1)
    have hv := div_mul_add_digit v (k + 1)
    rw [digits, List.cons_append, decodeRest]
    rw [toNat_more, if_neg (by omega), Nat.add_mod_right, Nat.mod_eq_of_lt hd, hv, ih]
    rfl

lemma extend_digit {k : Nat} {v : Int} (h : Fits k v) : extend (digit v k) = v / 128 ^ k := by
  have hpos : (0 : Int) < 128 ^ k := by positivity
  have hlow : -32 ≤ v / 128 ^ k := (Int.le_ediv_iff_mul_le hpos).mpr h.1
  have hhigh : v / 128 ^ k < 96 := (Int.ediv_lt_iff_lt_mul hpos).mpr h.2
  have hd := digit_eq v k
  unfold extend
  split <;> omega

/-- Enough digits of a number are read as the number, whatever follows. -/
theorem decode_digits {k : Nat} {v : Int} (h : Fits k v) (rest : List UInt8) :
    decode (digits k v ++ rest) = some (v, k + 1) := by
  have hv := extend_digit h
  cases k with
  | zero =>
    have hd := digit_lt v 0
    rw [digits, List.singleton_append, decode]
    rw [toNat_last, if_pos hd, Nat.mod_eq_of_lt hd, hv, pow_zero, Int.ediv_one]
  | succ k =>
    have hd := digit_lt v (k + 1)
    rw [digits, List.cons_append, decode]
    rw [toNat_more, if_neg (by omega), Nat.add_mod_right, Nat.mod_eq_of_lt hd, hv,
      decodeRest_digits]
    rfl

lemma digit_congr {v w : Int} {j k : Nat} (hj : j ≤ k) (h : v % 128 ^ (k + 1) = w % 128 ^ (k + 1)) :
    digit v j = digit w j := by
  have hdvd : (128 ^ (j + 1) : Int) ∣ v - w :=
    (pow_dvd_pow 128 (Nat.succ_le_succ hj)).trans (Int.dvd_of_emod_eq_zero (Int.emod_eq_emod_iff_emod_sub_eq_zero.mp h))
  obtain ⟨c, hc⟩ := hdvd
  have hv : v = w + 128 ^ j * (128 * c) := by
    rw [pow_succ] at hc
    linarith
  have hdiv : v / 128 ^ j = w / 128 ^ j + 128 * c := by
    rw [hv, Int.add_mul_ediv_left _ _ (by positivity)]
  unfold digit
  rw [hdiv, Int.add_mul_emod_self_left]

lemma digits_congr {v w : Int} {k : Nat} (h : v % 128 ^ (k + 1) = w % 128 ^ (k + 1)) :
    digits k v = digits k w := by
  have hall : ∀ j ≤ k, digits j v = digits j w := by
    intro j hj
    induction j with
    | zero => rw [digits, digits, digit_congr hj h]
    | succ j ih => rw [digits, digits, digit_congr hj h, ih (Nat.le_of_succ_le hj)]
  exact hall k (Nat.le_refl k)

lemma decodeRest_of_last {bytes : List UInt8} {i : Nat} {c : UInt8} (h : bytes[i]? = some c)
    (hc : c.toNat < 128) (v : Int) :
    ∃ w n, decodeRest v bytes = some (w, n) ∧ n ≤ i + 1 := by
  induction bytes generalizing v i with
  | nil => cases h
  | cons b bytes ih =>
    rw [decodeRest]
    by_cases hb : b.toNat < 128
    · rw [if_pos hb]
      exact ⟨_, 1, rfl, Nat.le_add_left 1 i⟩
    · rw [if_neg hb]
      cases i with
      | zero =>
        rw [List.getElem?_cons_zero, Option.some.injEq] at h
        exact absurd (h ▸ hc) hb
      | succ i =>
        obtain ⟨w, n, hn, hle⟩ := ih h (v * 128 + (b.toNat % 128 : Nat))
        rw [hn]
        exact ⟨w, n + 1, rfl, Nat.succ_le_succ hle⟩

lemma decode_of_last {bytes : List UInt8} {i : Nat} {c : UInt8} (h : bytes[i]? = some c)
    (hc : c.toNat < 128) : ∃ v n, decode bytes = some (v, n) ∧ n ≤ i + 1 := by
  cases bytes with
  | nil => cases h
  | cons b bytes =>
    rw [decode]
    by_cases hb : b.toNat < 128
    · rw [if_pos hb]
      exact ⟨_, 1, rfl, Nat.le_add_left 1 i⟩
    · rw [if_neg hb]
      cases i with
      | zero =>
        rw [List.getElem?_cons_zero, Option.some.injEq] at h
        exact absurd (h ▸ hc) hb
      | succ i =>
        rw [List.getElem?_cons_succ] at h
        obtain ⟨w, n, hn, hle⟩ := decodeRest_of_last h hc (extend (b.toNat % 128))
        rw [hn]
        exact ⟨w, n + 1, rfl, Nat.succ_le_succ hle⟩

lemma decode_pos {bytes : List UInt8} {v : Int} {n : Nat} (h : decode bytes = some (v, n)) :
    0 < n := by
  cases bytes with
  | nil => cases h
  | cons b bytes =>
    rw [decode] at h
    by_cases hb : b.toNat < 128
    · rw [if_pos hb] at h
      cases h
      exact Nat.one_pos
    · rw [if_neg hb] at h
      obtain ⟨r, -, hr⟩ := Option.map_eq_some_iff.mp h
      cases hr
      exact Nat.succ_pos _

end KlipperMcu.Lib.Vlq
