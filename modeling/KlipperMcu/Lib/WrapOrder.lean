import Mathlib.Algebra.Order.Ring.Int
import Mathlib.Data.List.Basic
import Mathlib.Tactic.Common

/-!
# Wrap-around order on 32-bit clocks

A free-running 32-bit counter orders two readings by the sign of their difference. The order
is only meaningful for readings that lie close together. `offset now w` places the readings of
a half-turn window around `now` on a line, and inside the window the signed comparison is the
comparison of offsets.
-/

namespace KlipperMcu.Lib

/-- The sign of the 32-bit difference. -/
def wrapBefore (a b : UInt32) : Bool := (a - b).toInt32 < 0

lemma toInt32_neg_iff (x : UInt32) : x.toInt32 < 0 ↔ 2 ^ 31 ≤ x.toNat := by
  rw [Int32.lt_iff_toInt_lt, ← Int32.toInt_toBitVec, UInt32.toBitVec_toInt32,
    BitVec.toInt_eq_toNat_cond]
  have hx := x.toNat_lt
  simp only [UInt32.toNat_toBitVec, Int32.toInt_zero]
  split <;> omega

lemma wrapBefore_iff (a b : UInt32) : wrapBefore a b = true ↔ 2 ^ 31 ≤ (a - b).toNat := by
  simp only [wrapBefore, decide_eq_true_eq, toInt32_neg_iff]

/-- The position of `w` in the half-turn window that starts `2 ^ 30` ticks before `now`. -/
def offset (now w : UInt32) : Nat := (w - now + 0x40000000).toNat

/-- `w` lies within `2 ^ 30` ticks of `now`. -/
def Within (now w : UInt32) : Prop := offset now w < 2 ^ 31

instance (now w : UInt32) : Decidable (Within now w) := by
  unfold Within
  infer_instance

lemma offset_eq (now w : UInt32) :
    offset now w = (2 ^ 32 - now.toNat + w.toNat + 2 ^ 30) % 2 ^ 32 := by
  have h : (0x40000000 : UInt32).toNat = 2 ^ 30 := rfl
  simp only [offset, UInt32.toNat_add, UInt32.toNat_sub, h]
  omega

lemma wrapBefore_iff_offset {now a b : UInt32} (ha : Within now a) (hb : Within now b) :
    wrapBefore a b = true ↔ offset now a < offset now b := by
  unfold Within at ha hb
  rw [wrapBefore_iff, UInt32.toNat_sub]
  rw [offset_eq] at ha hb ⊢
  rw [offset_eq]
  have h₁ := a.toNat_lt
  have h₂ := b.toNat_lt
  have h₃ := now.toNat_lt
  omega

lemma not_wrapBefore_iff_offset {now a b : UInt32} (ha : Within now a) (hb : Within now b) :
    wrapBefore a b = false ↔ offset now b ≤ offset now a := by
  rw [← Bool.not_eq_true, wrapBefore_iff_offset ha hb, Nat.not_lt]

@[simp] lemma wrapBefore_self (a : UInt32) : wrapBefore a a = false := by
  simp [wrapBefore]

lemma add_sub_self (now d : UInt32) : now + d - now = d := by grind

lemma offset_add (now d : UInt32) : offset now (now + d) = offset 0 d := by
  rw [offset, offset, add_sub_self, UInt32.sub_zero]

lemma wrapBefore_add (now d : UInt32) : wrapBefore (now + d) now = wrapBefore d 0 := by
  rw [wrapBefore, wrapBefore, add_sub_self, UInt32.sub_zero]

lemma wrapBefore_half_turn {p w : UInt32} (h : wrapBefore w p = false) :
    wrapBefore w (p + 0x80000000) = true := by
  have hp := p.toNat_lt
  have hw := w.toNat_lt
  have hhalf : (0x80000000 : UInt32).toNat = 2 ^ 31 := rfl
  rw [← Bool.not_eq_true, wrapBefore_iff, UInt32.toNat_sub] at h
  rw [wrapBefore_iff, UInt32.toNat_sub, UInt32.toNat_add, hhalf]
  omega

/-- The signed number of ticks from `now` to `w`. -/
def lead (now w : UInt32) : Int := (offset now w : Int) - 2 ^ 30

lemma lead_range {now w : UInt32} (h : Within now w) : -2 ^ 30 ≤ lead now w ∧ lead now w < 2 ^ 30 := by
  unfold Within at h
  unfold lead
  omega

lemma not_wrapBefore_iff_lead {now a b : UInt32} (ha : Within now a) (hb : Within now b) :
    wrapBefore a b = false ↔ lead now b ≤ lead now a := by
  rw [not_wrapBefore_iff_offset ha hb, lead, lead]
  omega

lemma within_self (now : UInt32) : Within now now := by
  unfold Within
  rw [offset_eq]
  have h := now.toNat_lt
  omega

lemma lead_self (now : UInt32) : lead now now = 0 := by
  rw [lead, offset_eq]
  have h := now.toNat_lt
  omega

lemma lead_modEq (now w : UInt32) : ∃ k : Int, lead now w = w.toNat - now.toNat + k * 2 ^ 32 := by
  refine ⟨1 - ((2 ^ 32 - now.toNat + w.toNat + 2 ^ 30) / 2 ^ 32 : Nat), ?_⟩
  rw [lead, offset_eq]
  have hn := now.toNat_lt
  omega

lemma toInt_sub_eq_lead {now w : UInt32} (h : Within now w) :
    (w - now).toInt32.toInt = lead now w := by
  have hl := lead_range h
  obtain ⟨k, hk⟩ := lead_modEq now w
  rw [← Int32.toInt_toBitVec, UInt32.toBitVec_toInt32, BitVec.toInt_eq_toNat_cond]
  simp only [UInt32.toNat_toBitVec, UInt32.toNat_sub]
  have h₁ := w.toNat_lt
  have h₂ := now.toNat_lt
  split <;> omega

lemma toNat_sub_eq_lead {now w : UInt32} (h : Within now w) (hp : 0 ≤ lead now w) :
    ((w - now).toNat : Int) = lead now w := by
  have hl := lead_range h
  obtain ⟨k, hk⟩ := lead_modEq now w
  rw [UInt32.toNat_sub]
  have h₁ := w.toNat_lt
  have h₂ := now.toNat_lt
  omega

lemma lead_tick {now w : UInt32} (h : Within now w) (h' : Within (now + 1) w) :
    lead (now + 1) w = lead now w - 1 := by
  have hl := lead_range h
  have hl' := lead_range h'
  obtain ⟨k, hk⟩ := lead_modEq now w
  obtain ⟨k', hk'⟩ := lead_modEq (now + 1) w
  have hone : (1 : UInt32).toNat = 1 := rfl
  rw [UInt32.toNat_add, hone] at hk'
  have h₂ := now.toNat_lt
  omega

lemma lead_add {now w d : UInt32} (h : Within now w) (h' : Within now (w + d))
    (hd : d.toNat < 2 ^ 30) : lead now (w + d) = lead now w + d.toNat := by
  have hl := lead_range h
  have hl' := lead_range h'
  obtain ⟨k, hk⟩ := lead_modEq now w
  obtain ⟨k', hk'⟩ := lead_modEq now (w + d)
  rw [UInt32.toNat_add] at hk'
  have h₁ := w.toNat_lt
  have h₂ := now.toNat_lt
  omega

/-- The signed difference of two readings, in the order of `wrapBefore`. -/
def ticksFrom (t w : UInt32) : Int := (w - t).toInt32.toInt

lemma ticksFrom_eq (t w : UInt32) :
    ticksFrom t w =
      if (w - t).toNat < 2 ^ 31 then ((w - t).toNat : Int) else (w - t).toNat - 2 ^ 32 := by
  rw [ticksFrom, ← Int32.toInt_toBitVec, UInt32.toBitVec_toInt32, BitVec.toInt_eq_toNat_cond]
  simp only [UInt32.toNat_toBitVec]
  split <;> split <;> omega

@[simp] lemma ticksFrom_self (t : UInt32) : ticksFrom t t = 0 := by
  simp [ticksFrom]

lemma wrapBefore_iff_ticksFrom (a b : UInt32) : wrapBefore a b = true ↔ ticksFrom b a < 0 := by
  rw [wrapBefore_iff, ticksFrom_eq]
  have h := (a - b).toNat_lt
  split <;> omega

lemma ticksFrom_add (t : UInt32) {d : UInt32} (hd : d.toNat < 2 ^ 31) :
    ticksFrom t (t + d) = d.toNat := by
  rw [ticksFrom_eq, add_sub_self, if_pos hd]

lemma ticksFrom_le_of_not_wrapBefore {t w d : UInt32} (hd : d.toNat < 2 ^ 31)
    (h : wrapBefore (t + d) w = false) : ticksFrom t w ≤ d.toNat := by
  have hw : ¬ 2 ^ 31 ≤ (t + d - w).toNat := by
    rw [← wrapBefore_iff, h]
    exact Bool.false_ne_true
  rw [UInt32.toNat_sub, UInt32.toNat_add] at hw
  rw [ticksFrom_eq, UInt32.toNat_sub]
  have h₁ := t.toNat_lt
  have h₂ := w.toNat_lt
  split <;> omega

end KlipperMcu.Lib
