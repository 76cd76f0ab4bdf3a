import KlipperMcu.Host.BisectInner

/-!
# The outer loop of compress_bisect_add

Each round takes the current `add` out of the range that is left, and every sequence that the
search keeps fits its windows. No product overflows: a sequence longer than 0x200 steps ends the
search unless it reaches no further than the best one.
-/

namespace KlipperMcu.Compress

open Lib

/-- A sequence of queued steps that `compress_bisect_add` may return. -/
structure Candidate (lo hi : Nat → Int) (n : Nat) (interval : Int32) (count : Nat) (add : Int32) :
    Prop where
  pos : 1 ≤ count
  le : count ≤ n
  add_range : -32768 ≤ add.toInt ∧ add.toInt ≤ 32767
  fits : Fits lo hi interval.toInt add.toInt count

/-- The best sequence and the best one with a constant interval. -/
structure Bisect.Found (lo hi : Nat → Int) (n : Nat) (b : Bisect) : Prop where
  best : ∃ k, b.bestcount = Int32.ofNat k ∧ Candidate lo hi n b.bestinterval k b.bestadd ∧
    b.bestreach.toInt = quad b.bestinterval.toInt b.bestadd.toInt k
  zero : ∃ k, b.zerocount = Int32.ofNat k ∧ Candidate lo hi n b.zerointerval k 0

/-- The ranges of the interval and of `add`. -/
structure Bisect.Ranges (lo hi : Nat → Int) (b : Bisect) : Prop where
  outer : lo 0 ≤ b.outerMininterval.toInt ∧
    b.outerMininterval.toInt ≤ b.outerMaxinterval.toInt ∧ b.outerMaxinterval.toInt ≤ hi 0
  add_range : -32768 ≤ b.minadd.toInt ∧ b.minadd.toInt ≤ b.add.toInt ∧
    b.add.toInt ≤ b.maxadd.toInt ∧ b.maxadd.toInt ≤ 32767

/-- What holds before each round. Only the first round uses an `add` of zero. -/
structure Bisect.Inv (lo hi : Nat → Int) (n : Nat) (b : Bisect) : Prop
    extends Bisect.Ranges lo hi b where
  found : (b.add = 0 ∧ b.bestreach = Int32.minValue) ∨
    ((0 < b.minadd.toInt ∨ b.maxadd.toInt < 0) ∧ b.Found lo hi n ∧ b.bestcount.toInt ≤ 512)

/-- The move is made of a sequence that fits. -/
def MoveOk (lo hi : Nat → Int) (n : Nat) (move : StepMove) : Prop :=
  ∃ interval k add, move = toMove interval (Int32.ofNat k) add ∧ Candidate lo hi n interval k add

section Outer

variable {lo hi : Nat → Int} {n k : Nat} {b : Bisect} {interval add : Int32}

lemma Candidate.abs_add (hc : Candidate lo hi n interval k add) : |add.toInt| ≤ 32768 := by
  have h := hc.add_range
  rw [abs_le]
  omega

lemma Bisect.Found.finish (h : b.Found lo hi n) : MoveOk lo hi n b.finish := by
  obtain ⟨k, hk, hbest, -⟩ := h.best
  obtain ⟨z, hz, hzero⟩ := h.zero
  unfold Bisect.finish
  split
  · exact ⟨_, z, _, by rw [hz], hzero⟩
  · exact ⟨_, k, _, by rw [hk], hbest⟩

lemma Candidate.reach_toInt (hc : Candidate lo hi n interval k add) (hw : Windows lo hi n)
    (hn : n ≤ 65535) :
    (add * addFactor (Int32.ofNat k) + interval * Int32.ofNat k).toInt =
      quad interval.toInt add.toInt k := by
  have hM : (clockDiffMax : Int) = 805306368 := rfl
  have hle := hc.le
  have hpos := hc.pos
  have hdev := hc.fits.abs_mul_tri_le hw hle hpos
  have hlast := hc.fits.last hpos
  have hlt := hw.lt (k - 1) (by omega)
  have hlo := hw.lo_pos (show k - 1 < n by omega)
  obtain ⟨h1, hmul⟩ := hc.fits.interval_mul_le hw hle hpos hc.abs_add
  have hexp : interval.toInt * (k + 1) = interval.toInt * k + interval.toInt := by ring
  have hnonneg : 0 ≤ interval.toInt * k := mul_nonneg (by omega) (by omega)
  have hcount : (Int32.ofNat k).toInt = k := Int32.toInt_ofNat_of_lt (by omega)
  have hfactor := @mul_addFactor_toInt add k hpos (by omega)
  have hprod : (interval * Int32.ofNat k).toInt = interval.toInt * k := by
    rw [toInt_mul_of_range (by rw [hcount]; omega) (by rw [hcount]; omega), hcount]
  have hquad : quad interval.toInt add.toInt k = add.toInt * tri k + interval.toInt * k := by
    unfold quad
    ring
  rw [toInt_add_of_range (by rw [hfactor, hprod]; omega) (by rw [hfactor, hprod]; omega), hfactor,
    hprod, hquad]

lemma Bisect.Inv.record (hi' : b.Inv lo hi n) (hc : Candidate lo hi n interval k b.add)
    {reach : Int32} (hr : reach.toInt = quad interval.toInt b.add.toInt k) :
    (b.record interval (Int32.ofNat k) reach).Found lo hi n := by
  refine ⟨⟨k, rfl, hc, hr⟩, ?_⟩
  by_cases hz : b.add = 0
  · refine ⟨k, by simp only [Bisect.record, hz, if_true], ?_⟩
    simp only [Bisect.record, hz, if_true]
    rw [← hz]
    exact hc
  · simp only [Bisect.record, hz, if_false]
    rcases hi'.found with hfirst | hlater
    · exact absurd hfirst.1 hz
    · exact hlater.2.1.zero

lemma Bisect.Inv.not_better (hi' : b.Inv lo hi n) (hw : Windows lo hi n) (hn : n ≤ 65535)
    (hc : Candidate lo hi n interval k b.add) {reach : Int32}
    (hr : reach.toInt = quad interval.toInt b.add.toInt k) (hnot : b.better reach interval = false) :
    b.Found lo hi n ∧ b.bestcount.toInt ≤ 512 ∧ k ≤ 514 := by
  have hle : reach.toInt ≤ b.bestreach.toInt := by
    have hlt : ¬b.bestreach < reach := by
      intro hlt
      simp [Bisect.better, hlt] at hnot
    rw [Int32.lt_iff_toInt_lt] at hlt
    omega
  have hlast := hc.fits.last hc.pos
  have hlo := hw.lo_pos (show k - 1 < n by have := hc.pos; have := hc.le; omega)
  rcases hi'.found with ⟨-, hmin⟩ | ⟨hrange, hfound, hcount⟩
  · have hval : Int32.minValue.toInt = -2147483648 := rfl
    rw [hmin, hval] at hle
    omega
  · refine ⟨hfound, hcount, ?_⟩
    obtain ⟨c, hcc, hbest, hreach⟩ := hfound.best
    have hadd := hi'.add_range
    have hc31 := hbest.le
    have hcpos := hbest.pos
    rw [hcc, Int32.toInt_ofNat_of_lt (by omega)] at hcount
    have hbl := (hbest.fits.last hcpos).2
    have hshort := hc.fits.count_le hw hc.le (show b.add.toInt ≠ 0 by omega)
      (show quad interval.toInt b.add.toInt k ≤ hi (c - 1) by omega)
    omega

end Outer

/-- The ranges after a part of the round of `b` that tried `interval`. The current `add` is no
longer in the range. -/
structure Bisect.Narrowed (lo hi : Nat → Int) (b : Bisect) (interval : Int) (b' : Bisect) :
    Prop where
  outer : lo 0 ≤ b'.outerMininterval.toInt ∧ b'.outerMininterval.toInt ≤ interval ∧
    interval ≤ b'.outerMaxinterval.toInt ∧ b'.outerMaxinterval.toInt ≤ hi 0
  minadd : b.minadd.toInt ≤ b'.minadd.toInt
  maxadd : b'.maxadd.toInt ≤ b.maxadd.toInt
  add : b'.add = b.add
  excluded : b.add.toInt < b'.minadd.toInt ∨ b'.maxadd.toInt < b.add.toInt

section Narrow

variable {sc : StepCompress} {lo hi : Nat → Int} {n k : Nat} {b b' : Bisect}
  {interval nextmin nextmax : Int32} {point : Points}

lemma ofNat_succ (h : k < 65535) : Int32.ofNat k + 1 = Int32.ofNat (k + 1) := by
  have hone : (1 : Int32).toInt = 1 := rfl
  have hk : (Int32.ofNat k).toInt = k := Int32.toInt_ofNat_of_lt (by omega)
  apply Int32.toInt_inj.mp
  rw [toInt_add_of_range (by omega) (by omega), hk, hone, Int32.toInt_ofNat_of_lt (by omega)]
  rfl

lemma Candidate.nextreach_toInt (hc : Candidate lo hi n interval k b.add) (hw : Windows lo hi n)
    (hk : k ≤ 514) :
    (b.add * addFactor (Int32.ofNat (k + 1)) + interval * Int32.ofNat (k + 1)).toInt =
      quad interval.toInt b.add.toInt (k + 1) := by
  have hM : (clockDiffMax : Int) = 805306368 := rfl
  have hle := hc.le
  have hpos := hc.pos
  have hdev := hc.fits.deviation_le hw hle hpos hc.abs_add
  have hlast := hc.fits.last hpos
  have hfirst := hc.fits.first hpos
  have hlt := hw.lt (k - 1) (by omega)
  have hlt0 := hw.lt 0 (by omega)
  have hlo := hw.lo_pos (show k - 1 < n by omega)
  obtain ⟨h1, hmul⟩ := hc.fits.interval_mul_le hw hle hpos hc.abs_add
  have hstep : |(k : Int) * b.add.toInt| ≤ 514 * 32768 := by
    rw [abs_mul, abs_of_nonneg (Int.natCast_nonneg k)]
    exact mul_le_mul (by omega) hc.abs_add (abs_nonneg _) (by decide)
  rw [abs_le] at hstep
  have habs : |b.add.toInt * tri (k + 1)| ≤ 813694976 := by
    rwa [abs_mul, abs_of_nonneg (Int.natCast_nonneg _)]
  rw [abs_le] at habs
  have hnonneg : 0 ≤ interval.toInt * (k + 1) := mul_nonneg (by omega) (by omega)
  have hcount : (Int32.ofNat (k + 1)).toInt = k + 1 := Int32.toInt_ofNat_of_lt (by omega)
  have hfactor := @mul_addFactor_toInt b.add (k + 1) (by omega) (by omega)
  have hprod : (interval * Int32.ofNat (k + 1)).toInt = interval.toInt * (k + 1) := by
    rw [toInt_mul_of_range (by rw [hcount]; omega) (by rw [hcount]; omega), hcount]
  have hquad : quad interval.toInt b.add.toInt (k + 1) =
      b.add.toInt * tri (k + 1) + interval.toInt * (k + 1) := by
    unfold quad
    push_cast
    ring
  have hsucc := quad_succ interval.toInt b.add.toInt k
  rw [toInt_add_of_range (by rw [hfactor, hprod]; omega) (by rw [hfactor, hprod]; omega), hfactor,
    hprod, hquad]

lemma Bisect.Ranges.split (hr : b.Ranges lo hi) (hw : Windows lo hi n)
    (hc : Candidate lo hi n interval k b.add) (hk : k ≤ 514)
    (hp : point.Is (lo k) (hi k))
    (hin : b.outerMininterval.toInt ≤ interval.toInt ∧ interval.toInt ≤ b.outerMaxinterval.toInt)
    (hbelow : quad interval.toInt b.add.toInt (k + 1) < lo k → nextmax = interval)
    (hreach : lo k ≤ quad interval.toInt b.add.toInt (k + 1) →
      b.outerMininterval.toInt ≤ nextmin.toInt ∧ nextmin.toInt ≤ interval.toInt) :
    b.Narrowed lo hi interval.toInt
      (b.split (Int32.ofNat k) point nextmin nextmax interval) ∧
    (b.split (Int32.ofNat k) point nextmin nextmax interval).minadd.toInt ≤ b.add.toInt + 1 ∧
    b.add.toInt - 1 ≤ (b.split (Int32.ofNat k) point nextmin nextmax interval).maxadd.toInt := by
  have hone : (1 : Int32).toInt = 1 := rfl
  have hout := hr.outer
  have hadd := hr.add_range
  unfold Bisect.split
  simp only [ofNat_succ (show k < 65535 by omega)]
  split
  · rename_i hlt
    rw [Int32.lt_iff_toInt_lt, hc.nextreach_toInt hw hk, hp.minp] at hlt
    have hnext : (b.add + 1).toInt = b.add.toInt + 1 := toInt_add_of_range (by omega) (by omega)
    refine ⟨⟨?_, ?_, le_refl _, rfl, Or.inl ?_⟩, ?_, ?_⟩
    · simp only [hbelow hlt]
      omega
    · simp only [hnext]
      omega
    · simp only [hnext]
      omega
    · simp only [hnext]
      omega
    · simp only []
      omega
  · rename_i hge
    rw [Int32.lt_iff_toInt_lt, hc.nextreach_toInt hw hk, hp.minp] at hge
    have hnext : (b.add - 1).toInt = b.add.toInt - 1 := toInt_sub_of_range (by omega) (by omega)
    have hmin := hreach (by omega)
    refine ⟨⟨?_, le_refl _, ?_, rfl, Or.inr ?_⟩, ?_, ?_⟩
    · simp only []
      omega
    · simp only [hnext]
      omega
    · simp only [hnext]
      omega
    · simp only []
      omega
    · simp only [hnext]
      omega

lemma errdelta_toInt (herr : sc.maxError.toNat ≤ 65536) (h1 : 1 ≤ k) (hk : k ≤ 514) :
    (sc.maxError * quadraticDev / (Int32.ofNat k * Int32.ofNat k).toUInt32).toInt32.toInt =
      (sc.maxError.toNat * 11 / (k * k) : Nat) := by
  have hkk : k * k ≤ 514 * 514 := Nat.mul_le_mul hk hk
  have hcount : (Int32.ofNat k).toInt = k := Int32.toInt_ofNat_of_lt (by omega)
  have hsq : (Int32.ofNat k * Int32.ofNat k).toInt = ((k * k : Nat) : Int) := by
    have hprod : (Int32.ofNat k).toInt * (Int32.ofNat k).toInt = ((k * k : Nat) : Int) := by
      rw [hcount]
      push_cast
      rfl
    rw [toInt_mul_of_range (by omega) (by omega), hprod]
  have hden : (Int32.ofNat k * Int32.ofNat k).toUInt32.toNat = k * k := by
    have h := @toNat_toUInt32_of_nonneg (Int32.ofNat k * Int32.ofNat k) (by omega)
    omega
  have hnum : (sc.maxError * quadraticDev).toNat = sc.maxError.toNat * 11 := by
    have hdev : quadraticDev.toNat = 11 := rfl
    rw [UInt32.toNat_mul, hdev]
    omega
  have hle : sc.maxError.toNat * 11 / (k * k) ≤ sc.maxError.toNat * 11 := Nat.div_le_self _ _
  have hquot : sc.maxError * quadraticDev / (Int32.ofNat k * Int32.ofNat k).toUInt32 =
      UInt32.ofNat (sc.maxError.toNat * 11 / (k * k)) := by
    rw [← UInt32.toNat_inj, UInt32.toNat_div, hnum, hden, toNat_ofNat_of_lt (by omega)]
  rw [hquot, toInt_toInt32_ofNat (by omega)]

lemma errdelta_mul_tri_le (herr : sc.maxError.toNat ≤ 65536) (h1 : 1 ≤ k) :
    (sc.maxError.toNat * 11 / (k * k)) * tri (k + 1) ≤ 720896 := by
  have htri : tri (k + 1) ≤ k * k := by
    have htwo := two_mul_tri (k + 1)
    rw [Nat.add_sub_cancel, Nat.add_mul, Nat.one_mul] at htwo
    have hle : k ≤ k * k := Nat.le_mul_of_pos_left k h1
    omega
  calc (sc.maxError.toNat * 11 / (k * k)) * tri (k + 1)
      ≤ (sc.maxError.toNat * 11 / (k * k)) * (k * k) := Nat.mul_le_mul_left _ htri
    _ ≤ sc.maxError.toNat * 11 := Nat.div_mul_le_self _ _
    _ ≤ 720896 := by omega

/-- A value of `add` close to the current one gives products with the addfactor in range. -/
def AddFits (k : Nat) (add : Int) : Prop :=
  -2 ^ 31 ≤ add * tri (k + 1) ∧ add * tri (k + 1) < 2 ^ 31

lemma addFits_of_le {x add err : Int} (hdev : |add| * tri (k + 1) ≤ 813694976) (hk : k ≤ 514)
    (herr : err * tri (k + 1) ≤ 720896) (hlo : add - err - 1 ≤ x) (hhi : x ≤ add + err + 1) :
    AddFits k x := by
  have htri0 : (0 : Int) ≤ tri (k + 1) := Int.natCast_nonneg _
  have htri : (tri (k + 1) : Int) ≤ 132355 := by
    have htwo := two_mul_tri (k + 1)
    have hmul : (k + 1) * (k + 1 - 1) ≤ 515 * 514 := Nat.mul_le_mul (by omega) (by omega)
    omega
  have habs : |add * tri (k + 1)| ≤ 813694976 := by
    rwa [abs_mul, abs_of_nonneg htri0]
  rw [abs_le] at habs
  have h₁ := mul_le_mul_of_nonneg_right hlo htri0
  have h₂ := mul_le_mul_of_nonneg_right hhi htri0
  rw [sub_mul, sub_mul, one_mul] at h₁
  rw [add_mul, add_mul, one_mul] at h₂
  unfold AddFits
  omega

lemma Bisect.Narrowed.tighten {i : Int} (h : b.Narrowed lo hi i b') {x y : Int32}
    (hx : b'.minadd.toInt ≤ x.toInt) (hy : y.toInt ≤ b'.maxadd.toInt) :
    b.Narrowed lo hi i { b' with minadd := x, maxadd := y } := by
  refine ⟨h.outer, le_trans h.minadd hx, le_trans hy h.maxadd, h.add, ?_⟩
  rcases h.excluded with hlt | hlt
  · exact Or.inl (lt_of_lt_of_le hlt hx)
  · exact Or.inr (lt_of_le_of_lt hy hlt)

lemma Bisect.Narrowed.limitDeviation (h : b.Narrowed lo hi interval.toInt b') (hr : b.Ranges lo hi)
    (hw : Windows lo hi n) (hc : Candidate lo hi n interval k b.add)
    (herr : sc.maxError.toNat ≤ 65536) (hk : k ≤ 514)
    (hmin : b'.minadd.toInt ≤ b.add.toInt + 1) (hmax : b.add.toInt - 1 ≤ b'.maxadd.toInt) :
    b.Narrowed lo hi interval.toInt (b'.limitDeviation sc (Int32.ofNat k)) ∧
      AddFits k (b'.limitDeviation sc (Int32.ofNat k)).minadd.toInt ∧
      AddFits k (b'.limitDeviation sc (Int32.ofNat k)).maxadd.toInt := by
  have h1 := hc.pos
  have hdev := hc.fits.deviation_le hw hc.le h1 hc.abs_add
  have hone : (1 : Int32).toInt = 1 := rfl
  have hcount : (Int32.ofNat k).toInt = k := Int32.toInt_ofNat_of_lt (by omega)
  have hadd := hr.add_range
  have hm := h.minadd
  have hM := h.maxadd
  unfold Bisect.limitDeviation
  split
  · have herrd := errdelta_toInt herr h1 hk
    have hprod := @errdelta_mul_tri_le sc k herr h1
    have hdelta : sc.maxError.toNat * 11 / (k * k) ≤ sc.maxError.toNat * 11 := Nat.div_le_self _ _
    have hprod' : ((sc.maxError.toNat * 11 / (k * k) : Nat) : Int) * (tri (k + 1) : Int) ≤
        720896 := by exact_mod_cast hprod
    have hpos : (0 : Int) ≤ (sc.maxError.toNat * 11 / (k * k) : Nat) := Int.natCast_nonneg _
    rw [← herrd] at hprod' hpos
    simp only []
    generalize (sc.maxError * quadraticDev / (Int32.ofNat k * Int32.ofNat k).toUInt32).toInt32 =
      errdelta at *
    have hsub : (b'.add - errdelta).toInt = b.add.toInt - errdelta.toInt := by
      rw [h.add]
      exact toInt_sub_of_range (by omega) (by omega)
    have hplus : (b'.add + errdelta).toInt = b.add.toInt + errdelta.toInt := by
      rw [h.add]
      exact toInt_add_of_range (by omega) (by omega)
    have hminadd : ∀ x : Int32, x = (if b'.minadd < b'.add - errdelta then b'.add - errdelta
        else b'.minadd) → b'.minadd.toInt ≤ x.toInt ∧ b.add.toInt - errdelta.toInt ≤ x.toInt ∧
        x.toInt ≤ b.add.toInt + 1 := by
      rintro x rfl
      split <;> rename_i hlt <;> rw [Int32.lt_iff_toInt_lt] at hlt <;> omega
    have hmaxadd : ∀ x : Int32, x = (if b'.add + errdelta < b'.maxadd then b'.add + errdelta
        else b'.maxadd) → x.toInt ≤ b'.maxadd.toInt ∧ x.toInt ≤ b.add.toInt + errdelta.toInt ∧
        b.add.toInt - 1 ≤ x.toInt := by
      rintro x rfl
      split <;> rename_i hlt <;> rw [Int32.lt_iff_toInt_lt] at hlt <;> omega
    obtain ⟨h₁, h₂, h₃⟩ := hminadd _ rfl
    obtain ⟨h₄, h₅, h₆⟩ := hmaxadd _ rfl
    refine ⟨h.tighten h₁ h₄, ?_, ?_⟩
    · exact addFits_of_le hdev hk hprod' (by omega) (by omega)
    · exact addFits_of_le hdev hk hprod' (by omega) (by omega)
  · rename_i hsmall
    rw [Int32.lt_iff_toInt_lt, hone, hcount] at hsmall
    obtain rfl : k = 1 := by omega
    have htri : (tri (1 + 1) : Int) = 1 := rfl
    refine ⟨h, ?_, ?_⟩
    · unfold AddFits
      rw [htri]
      omega
    · unfold AddFits
      rw [htri]
      omega

lemma Bisect.Narrowed.limitPoint (h : b.Narrowed lo hi interval.toInt b') (hw : Windows lo hi n)
    (hc : Candidate lo hi n interval k b.add) (hk : k ≤ 514) (hlt : k < n)
    (hp : point.Is (lo k) (hi k)) (hmin : AddFits k b'.minadd.toInt)
    (hmax : AddFits k b'.maxadd.toInt) :
    b.Narrowed lo hi interval.toInt (b'.limitPoint (Int32.ofNat k) point) := by
  have hM : (clockDiffMax : Int) = 805306368 := rfl
  have h1 := hc.pos
  obtain ⟨hint, hmul⟩ := hc.fits.interval_mul_le hw hc.le h1 hc.abs_add
  have hfirst := hc.fits.first h1
  have hslack := hw.slack
  have hlo := hw.lo_pos hlt
  have hle := hw.le k hlt
  have hhi := hw.lt k hlt
  have hout := h.outer
  have htri : 1 ≤ tri (k + 1) ∧ tri (k + 1) ≤ 132355 := by
    have htwo := two_mul_tri (k + 1)
    have hup : (k + 1) * (k + 1 - 1) ≤ 515 * 514 := Nat.mul_le_mul (by omega) (by omega)
    have hdown : 2 * 1 ≤ (k + 1) * (k + 1 - 1) := Nat.mul_le_mul (by omega) (by omega)
    omega
  have hfactor : (addFactor (Int32.ofNat (k + 1))).toInt = tri (k + 1) :=
    addFactor_toInt (by omega) (by omega)
  have hcount : (Int32.ofNat (k + 1)).toInt = k + 1 := Int32.toInt_ofNat_of_lt (by omega)
  -- an interval in the first window is at most `max_error` above the one that fits
  have hprod : ∀ x : Int32, lo 0 ≤ x.toInt → x.toInt ≤ hi 0 →
      (x * Int32.ofNat (k + 1)).toInt = x.toInt * (k + 1) ∧ 0 ≤ x.toInt * (k + 1) ∧
        x.toInt * (k + 1) ≤ 2047016960 := by
    intro x hx₀ hx₁
    have hpos0 := hw.pos
    have hnonneg : 0 ≤ x.toInt * (k + 1) := mul_nonneg (by omega) (by omega)
    have hbound : x.toInt * (k + 1) ≤ (interval.toInt + 65536) * (k + 1) :=
      mul_le_mul_of_nonneg_right (by omega) (by omega)
    rw [add_mul] at hbound
    refine ⟨?_, hnonneg, by omega⟩
    rw [toInt_mul_of_range (by rw [hcount]; omega) (by rw [hcount]; omega), hcount]
  obtain ⟨hmaxp, hmax0, hmax1⟩ := hprod b'.outerMaxinterval (by omega) (by omega)
  obtain ⟨hminp, hmin0, hmin1⟩ := hprod b'.outerMininterval (by omega) (by omega)
  have hlow : (point.minp - b'.outerMaxinterval * Int32.ofNat (k + 1)).toInt =
      lo k - b'.outerMaxinterval.toInt * (k + 1) := by
    rw [toInt_sub_of_range (by rw [hmaxp, hp.minp]; omega) (by rw [hmaxp, hp.minp]; omega), hmaxp,
      hp.minp]
  have hhigh : (point.maxp - b'.outerMininterval * Int32.ofNat (k + 1)).toInt =
      hi k - b'.outerMininterval.toInt * (k + 1) := by
    rw [toInt_sub_of_range (by rw [hminp, hp.maxp]; omega) (by rw [hminp, hp.maxp]; omega), hminp,
      hp.maxp]
  unfold Bisect.limitPoint
  simp only [ofNat_succ (show k < 65535 by omega)]
  have hraise := @raiseTo_spec (addFactor (Int32.ofNat (k + 1))) b'.minadd
    (point.minp - b'.outerMaxinterval * Int32.ofNat (k + 1)) (by omega)
    (by rw [hfactor]; exact hmin.1) (by rw [hfactor]; exact hmin.2) (by rw [hlow, hfactor]; omega)
  have hlower := @lowerTo_spec (addFactor (Int32.ofNat (k + 1))) b'.maxadd
    (point.maxp - b'.outerMininterval * Int32.ofNat (k + 1)) (by omega)
    (by rw [hfactor]; exact hmax.1) (by rw [hfactor]; exact hmax.2) (by rw [hhigh, hfactor]; omega)
  exact h.tighten hraise.1 hlower.1

end Narrow

end KlipperMcu.Compress
