import KlipperMcu.Firmware.EddyNoise

/-!
# The square root of the eddy probe

`ff_eddy_isqrt` with its ways to fail. Its first guess is `(v + 1) >> 1` in 32 bits, which is zero
for the largest number. For every other number the guesses stay positive and end at the root.
-/

namespace KlipperMcu.Eddy

open Lib

/-- The loop of `ff_eddy_isqrt`. There is no result if it divides by zero or has not ended after as
many rounds as there is fuel. -/
def isqrtChecked (v : UInt32) : Nat → UInt32 → UInt32 → Option UInt32
  | 0, _, _ => none
  | fuel + 1, r, next =>
    if next < r then
      let r := next
      if r = 0 then none else isqrtChecked v fuel r ((v / r + r) >>> 1)
    else some r

def ffEddyIsqrtChecked (v : UInt32) : Option UInt32 :=
  if v = 0 then some 0 else isqrtChecked v (v.toNat + 1) v ((v + 1) >>> 1)

/-- From a positive guess no guess is zero, and each one is smaller than the one before. -/
lemma isqrtChecked_eq {v r next : UInt32} {fuel : Nat} (hv : v.toNat + 1 < 2 ^ 32)
    (hr : 0 < r.toNat) (hrv : r.toNat ≤ v.toNat)
    (hnext : next.toNat = (v.toNat / r.toNat + r.toNat) / 2) (hfuel : r.toNat ≤ fuel) :
    isqrtChecked v (fuel + 1) r next = some (isqrtLoop v fuel r next) := by
  induction fuel generalizing r next with
  | zero => omega
  | succ fuel ih =>
    rw [isqrtChecked, isqrtLoop]
    dsimp only
    split_ifs with hlt hzero
    · have hq : 1 ≤ v.toNat / r.toNat := Nat.div_pos hrv hr
      rw [hzero] at hnext
      change 0 = _ at hnext
      rw [UInt32.lt_iff_toNat_lt, hzero] at hlt
      omega
    · rw [UInt32.lt_iff_toNat_lt] at hlt
      have hpos : 0 < next.toNat := by
        apply Nat.pos_of_ne_zero
        intro h
        exact hzero (UInt32.toNat_inj.mp h)
      exact ih hpos (by omega) (toNat_newton hv hpos (by omega)) (by omega)
    · rfl

lemma ffEddyIsqrtChecked_eq {v : UInt32} (hv : v.toNat + 1 < 2 ^ 32) :
    ffEddyIsqrtChecked v = some (ffEddyIsqrt v) := by
  unfold ffEddyIsqrtChecked ffEddyIsqrt
  split_ifs with hzero
  · rfl
  · have hpos : 0 < v.toNat := by
      apply Nat.pos_of_ne_zero
      intro h
      exact hzero (UInt32.toNat_inj.mp h)
    apply isqrtChecked_eq hv hpos (le_refl _) _ (le_refl _)
    rw [toNat_shiftRight_one, UInt32.toNat_add, Nat.div_self hpos]
    have hone : (1 : UInt32).toNat = 1 := rfl
    omega

lemma ffEddyIsqrtChecked_max : ffEddyIsqrtChecked 0xffffffff = none := by
  have hguess : (0xffffffff + 1 : UInt32) >>> 1 = 0 := by decide
  rw [ffEddyIsqrtChecked, if_neg (by decide), isqrtChecked, hguess, if_pos (by decide)]
  exact if_pos rfl

/-- The loop ends at the root without a division by zero, for every number but the largest one. -/
theorem ffEddyIsqrtChecked_iff (v : UInt32) :
    (∃ r, ffEddyIsqrtChecked v = some r ∧ r.toNat * r.toNat ≤ v.toNat ∧
        v.toNat < (r.toNat + 1) * (r.toNat + 1)) ↔ v ≠ 0xffffffff := by
  constructor
  · rintro ⟨r, hr, -⟩ rfl
    rw [ffEddyIsqrtChecked_max] at hr
    cases hr
  · intro hne
    have hmax : v.toNat ≠ 4294967295 := fun h => hne (UInt32.toNat_inj.mp h)
    have hlt := v.toNat_lt
    have hv : v.toNat + 1 < 2 ^ 32 := by omega
    refine ⟨ffEddyIsqrt v, ffEddyIsqrtChecked_eq hv, ?_⟩
    exact Nat.eq_sqrt.mp (toNat_ffEddyIsqrt hv)

/-- The guess is zero and is divided by. Where the division gives zero, the root is zero. -/
theorem ffEddyIsqrt_max :
    ffEddyIsqrtChecked 0xffffffff = none ∧ ffEddyIsqrt 0xffffffff = 0 :=
  ⟨ffEddyIsqrtChecked_max, ffEddyIsqrt_eq_zero⟩

end KlipperMcu.Eddy
