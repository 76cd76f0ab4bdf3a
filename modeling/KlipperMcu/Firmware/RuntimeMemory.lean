import KlipperMcu.Lib.Move
import Mathlib.Algebra.Ring.Nat
import Mathlib.Order.Interval.Set.LinearOrder
import Mathlib.Order.Nat
import Mathlib.Tactic.Common

/-!
# The copy function of the main board

`__aeabi_memmove` of runtime_memory.c. One unsigned difference decides whether the bytes are copied
from the end, and pointers that are both aligned are copied by words. The ranges may overlap.
-/

namespace KlipperMcu.RuntimeMemory

open Lib

/-- The bytes of the address space. -/
abbrev Memory := UInt32 → UInt8

/-- The word at `a`, the lowest byte first. -/
def loadWord (m : Memory) (a : UInt32) : UInt32 :=
  UInt32.ofNat ((m a).toNat + 2 ^ 8 * (m (a + 1)).toNat + 2 ^ 16 * (m (a + 2)).toNat +
    2 ^ 24 * (m (a + 3)).toNat)

/-- Byte `i` of a word. -/
def wordByte (word : UInt32) (i : Nat) : UInt8 := UInt8.ofNat (word.toNat / 2 ^ (8 * i))

def storeWord (m : Memory) (a word : UInt32) : Memory := fun b =>
  if b = a then wordByte word 0
  else if b = a + 1 then wordByte word 1
  else if b = a + 2 then wordByte word 2
  else if b = a + 3 then wordByte word 3
  else m b

/-- The loop that copies from the end. -/
def copyBackward : Nat → UInt32 → UInt32 → Memory → Memory
  | 0, _, _, m => m
  | count + 1, out, inp, m =>
    let out := out - 1
    let inp := inp - 1
    copyBackward count out inp (Function.update m out (m inp))

/-- The last loop. -/
def copyForward : Nat → UInt32 → UInt32 → Memory → Memory
  | 0, _, _, m => m
  | count + 1, out, inp, m =>
    copyForward count (out + 1) (inp + 1) (Function.update m out (m inp))

/-- The loop over words, and the last loop for what is left. -/
def copyWords : Nat → UInt32 → UInt32 → Memory → Memory
  | count + 4, out, inp, m =>
    let word := loadWord m inp
    copyWords count (out + 4) (inp + 4) (storeWord m out word)
  | count, out, inp, m => copyForward count out inp m

def aeabiMemmove (m : Memory) (destination source count : UInt32) : Memory :=
  if destination - source < count then
    copyBackward count.toNat (destination + count) (source + count) m
  else if (destination ||| source) &&& 3 = 0 then copyWords count.toNat destination source m
  else copyForward count.toNat destination source m

/-- The address `i` bytes after `p`. -/
def offset (p : UInt32) (i : Nat) : UInt32 := p + UInt32.ofNat i

section Loops

variable {d s : UInt32} {c k n : Nat}

lemma offset_zero (p : UInt32) : offset p 0 = p := UInt32.add_zero p

lemma offset_add (p : UInt32) (i j : Nat) : offset p i + UInt32.ofNat j = offset p (i + j) := by
  rw [offset, offset, UInt32.add_assoc, UInt32.ofNat_add]

lemma offset_succ_sub (p : UInt32) (i : Nat) : offset p (i + 1) - 1 = offset p i := by
  rw [← offset_add]
  exact UInt32.add_sub_cancel _ _

lemma moved_copyBackward (hsrc : ∀ i j, i < j → j < c → offset s i ≠ offset d j)
    (hdst : ∀ i j, i < j → j < c → offset d i ≠ offset d j) (hn : n ≤ c) (m : Memory) :
    Moved (offset d) (offset s) (Set.Ico 0 n) m
      (copyBackward n (offset d n) (offset s n) m) := by
  induction n generalizing m with
  | zero =>
    rw [Set.Ico_self]
    exact Moved.refl _ _ m
  | succ n ih =>
    have hset : Set.Ico 0 (n + 1) = {n} ∪ Set.Ico 0 n := by
      ext i
      simp only [Set.mem_Ico, Set.mem_union, Set.mem_singleton_iff]
      omega
    rw [hset, copyBackward, offset_succ_sub, offset_succ_sub]
    apply (Moved.update (offset d) (offset s) m n).union (ih (by omega) _)
    · intro i hi j hj
      rw [Set.mem_singleton_iff.mp hi]
      exact hsrc j n hj.2 hn
    · intro i hi j hj
      rw [Set.mem_singleton_iff.mp hi]
      exact (hdst j n hj.2 hn).symm

lemma moved_copyForward (hsrc : ∀ i j, i < j → j < c → offset s j ≠ offset d i)
    (hdst : ∀ i j, i < j → j < c → offset d i ≠ offset d j) (hn : k + n ≤ c) (m : Memory) :
    Moved (offset d) (offset s) (Set.Ico k (k + n)) m
      (copyForward n (offset d k) (offset s k) m) := by
  induction n generalizing m k with
  | zero =>
    rw [Nat.add_zero, Set.Ico_self]
    exact Moved.refl _ _ m
  | succ n ih =>
    have hset : Set.Ico k (k + (n + 1)) = {k} ∪ Set.Ico (k + 1) (k + 1 + n) := by
      ext i
      simp only [Set.mem_Ico, Set.mem_union, Set.mem_singleton_iff]
      omega
    rw [hset, copyForward]
    have hone : (1 : UInt32) = UInt32.ofNat 1 := rfl
    rw [hone, offset_add, offset_add]
    apply (Moved.update (offset d) (offset s) m k).union (ih (by omega) _)
    · intro i hi j hj
      rw [Set.mem_singleton_iff.mp hi]
      exact hsrc k j hj.1 (hj.2.trans_le (by omega))
    · intro i hi j hj
      rw [Set.mem_singleton_iff.mp hi]
      exact hdst k j hj.1 (hj.2.trans_le (by omega))

lemma wordByte_loadWord (m : Memory) (a : UInt32) :
    wordByte (loadWord m a) 0 = m a ∧ wordByte (loadWord m a) 1 = m (a + 1) ∧
      wordByte (loadWord m a) 2 = m (a + 2) ∧ wordByte (loadWord m a) 3 = m (a + 3) := by
  have h₀ := (m a).toNat_lt
  have h₁ := (m (a + 1)).toNat_lt
  have h₂ := (m (a + 2)).toNat_lt
  have h₃ := (m (a + 3)).toNat_lt
  unfold wordByte loadWord
  simp only [← UInt8.toNat_inj, UInt8.toNat_ofNat', UInt32.toNat_ofNat']
  omega

lemma moved_storeWord (hdst : ∀ i j, i < j → j < c → offset d i ≠ offset d j) (hk : k + 4 ≤ c)
    (m : Memory) : Moved (offset d) (offset s) (Set.Ico k (k + 4)) m
      (storeWord m (offset d k) (loadWord m (offset s k))) := by
  obtain ⟨hb₀, hb₁, hb₂, hb₃⟩ := wordByte_loadWord m (offset s k)
  have hadd : ∀ p, offset p k + 1 = offset p (k + 1) ∧ offset p k + 2 = offset p (k + 2) ∧
      offset p k + 3 = offset p (k + 3) := fun p =>
    ⟨offset_add p k 1, offset_add p k 2, offset_add p k 3⟩
  obtain ⟨hd₁, hd₂, hd₃⟩ := hadd d
  obtain ⟨hs₁, hs₂, hs₃⟩ := hadd s
  rw [hs₁] at hb₁
  rw [hs₂] at hb₂
  rw [hs₃] at hb₃
  have hne : ∀ i j, i < j → j < k + 4 → offset d j ≠ offset d i := fun i j hij hj =>
    (hdst i j hij (by omega)).symm
  constructor
  · intro i hi
    unfold storeWord
    rw [hd₁, hd₂, hd₃, hb₀, hb₁, hb₂, hb₃]
    obtain rfl | rfl | rfl | rfl : i = k ∨ i = k + 1 ∨ i = k + 2 ∨ i = k + 3 := by
      have h := hi.1
      have h' := hi.2
      omega
    · rw [if_pos rfl]
    · rw [if_neg (hne k (k + 1) (by omega) (by omega)), if_pos rfl]
    · rw [if_neg (hne k (k + 2) (by omega) (by omega)),
        if_neg (hne (k + 1) (k + 2) (by omega) (by omega)), if_pos rfl]
    · rw [if_neg (hne k (k + 3) (by omega) (by omega)),
        if_neg (hne (k + 1) (k + 3) (by omega) (by omega)),
        if_neg (hne (k + 2) (k + 3) (by omega) (by omega)), if_pos rfl]
  · intro a ha
    unfold storeWord
    rw [hd₁, hd₂, hd₃, if_neg (ha k ⟨by omega, by omega⟩), if_neg (ha (k + 1) ⟨by omega, by omega⟩),
      if_neg (ha (k + 2) ⟨by omega, by omega⟩), if_neg (ha (k + 3) ⟨by omega, by omega⟩)]

lemma moved_copyWords (hsrc : ∀ i j, i < j → j < c → offset s j ≠ offset d i)
    (hdst : ∀ i j, i < j → j < c → offset d i ≠ offset d j) (hn : k + n ≤ c) (m : Memory) :
    Moved (offset d) (offset s) (Set.Ico k (k + n)) m
      (copyWords n (offset d k) (offset s k) m) := by
  induction n using Nat.strong_induction_on generalizing m k with
  | _ n ih =>
    rcases Nat.lt_or_ge n 4 with hsmall | hbig
    · have hlast : copyWords n (offset d k) (offset s k) m =
          copyForward n (offset d k) (offset s k) m := by
        obtain rfl | rfl | rfl | rfl : n = 0 ∨ n = 1 ∨ n = 2 ∨ n = 3 := by omega
        all_goals rfl
      rw [hlast]
      exact moved_copyForward hsrc hdst hn m
    · obtain ⟨n, rfl⟩ : ∃ n', n = n' + 4 := ⟨n - 4, by omega⟩
      have hset : Set.Ico k (k + (n + 4)) = Set.Ico k (k + 4) ∪ Set.Ico (k + 4) (k + 4 + n) := by
        ext i
        simp only [Set.mem_Ico, Set.mem_union]
        omega
      have hfour : (4 : UInt32) = UInt32.ofNat 4 := rfl
      rw [hset, copyWords, hfour, offset_add, offset_add]
      apply (moved_storeWord hdst (by omega) m).union (ih n (by omega) (by omega) _)
      · intro i hi j hj
        exact hsrc i j (hi.2.trans_le hj.1) (hj.2.trans_le (by omega))
      · intro i hi j hj
        exact hdst i j (hi.2.trans_le hj.1) (hj.2.trans_le (by omega))

end Loops

/-! ### The direction -/

section Direction

variable {destination source count : UInt32}

lemma toNat_offset {p : UInt32} {i : Nat} (h : p.toNat + i < 2 ^ 32) :
    (offset p i).toNat = p.toNat + i := by
  rw [offset, UInt32.toNat_add, UInt32.toNat_ofNat']
  omega

lemma offset_injective {p : UInt32} {c : Nat} (hp : p.toNat + c ≤ 2 ^ 32) :
    ∀ i j, i < j → j < c → offset p i ≠ offset p j := by
  intro i j hij hj h
  have hnat := congrArg UInt32.toNat h
  rw [toNat_offset (by omega), toNat_offset (by omega)] at hnat
  omega

lemma moved_aeabiMemmove (m : Memory) (hdst : destination.toNat + count.toNat ≤ 2 ^ 32)
    (hsrc : source.toNat + count.toNat ≤ 2 ^ 32) :
    Moved (offset destination) (offset source) (Set.Ico 0 count.toNat) m
      (aeabiMemmove m destination source count) := by
  have hinj := offset_injective hdst
  have hlt := destination.toNat_lt
  have hlt' := source.toNat_lt
  unfold aeabiMemmove
  split
  · rename_i hback
    rw [UInt32.lt_iff_toNat_lt, UInt32.toNat_sub] at hback
    -- The destination begins in the source, so no byte is overwritten before it is read.
    have hahead : ∀ i j, i < j → j < count.toNat → offset source i ≠ offset destination j := by
      intro i j hij hj h
      have hnat := congrArg UInt32.toNat h
      rw [toNat_offset (by omega), toNat_offset (by omega)] at hnat
      omega
    have hmoved := moved_copyBackward hahead hinj (le_refl count.toNat) m
    unfold offset at hmoved
    rwa [UInt32.ofNat_toNat] at hmoved
  · rename_i hforward
    rw [UInt32.lt_iff_toNat_lt, UInt32.toNat_sub] at hforward
    have hbehind : ∀ i j, i < j → j < count.toNat → offset source j ≠ offset destination i := by
      intro i j hij hj h
      have hnat := congrArg UInt32.toNat h
      rw [toNat_offset (by omega), toNat_offset (by omega)] at hnat
      omega
    have hzero : 0 + count.toNat ≤ count.toNat := by omega
    split
    · have hmoved := moved_copyWords hbehind hinj hzero m
      rwa [offset_zero, offset_zero, Nat.zero_add] at hmoved
    · have hmoved := moved_copyForward hbehind hinj hzero m
      rwa [offset_zero, offset_zero, Nat.zero_add] at hmoved

/-- For ranges that do not wrap around, whichever way they overlap, the destination holds the bytes
that the source held, and no other byte has changed. -/
theorem aeabiMemmove_copies (m : Memory) (hdst : destination.toNat + count.toNat ≤ 2 ^ 32)
    (hsrc : source.toNat + count.toNat ≤ 2 ^ 32) :
    (∀ i < count.toNat, aeabiMemmove m destination source count (destination + UInt32.ofNat i) =
        m (source + UInt32.ofNat i)) ∧
      ∀ a : UInt32, a.toNat < destination.toNat ∨ destination.toNat + count.toNat ≤ a.toNat →
        aeabiMemmove m destination source count a = m a := by
  have hmoved := moved_aeabiMemmove m hdst hsrc
  constructor
  · intro i hi
    exact hmoved.moved i ⟨Nat.zero_le i, hi⟩
  · intro a ha
    apply hmoved.frame
    rintro i ⟨-, hi⟩ rfl
    rw [toNat_offset (by omega)] at ha
    omega

/-- Six bytes are moved down by four: a word and two bytes. -/
theorem aeabiMemmove_copies_words :
    aeabiMemmove (fun a => a.toUInt8) 0xfffffff4 0xfffffff8 6 0xfffffff9 = 0xfd ∧
      aeabiMemmove (fun a => a.toUInt8) 0xfffffff4 0xfffffff8 6 0xfffffffa = 0xfa := by
  have hcopies := aeabiMemmove_copies (fun a => a.toUInt8)
    (by decide : (0xfffffff4 : UInt32).toNat + (6 : UInt32).toNat ≤ 2 ^ 32)
    (by decide : (0xfffffff8 : UInt32).toNat + (6 : UInt32).toNat ≤ 2 ^ 32)
  exact ⟨hcopies.1 5 (by decide), hcopies.2 0xfffffffa (by decide)⟩

end Direction

end KlipperMcu.RuntimeMemory
