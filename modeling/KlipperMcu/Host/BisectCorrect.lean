import KlipperMcu.Host.BisectOuter
import KlipperMcu.Host.MoveClock

/-!
# compress_bisect_add returns moves that pass check_line

The rounds of the outer loop keep the invariant and shrink the range of `add`, so the search ends
within 65536 rounds. The move that it returns hits the windows of the steps it stands for.
-/

namespace KlipperMcu.Compress

open Lib

/-- The width of the range of `add`. -/
def Bisect.width (b : Bisect) : Int := b.maxadd.toInt - b.minadd.toInt

/-- A best sequence that is short enough for the search to go on. -/
def Bisect.Short (lo hi : Nat → Int) (n : Nat) (b : Bisect) : Prop :=
  b.Found lo hi n ∧ b.bestcount.toInt ≤ 512

/-- A round returns a move that fits, or leaves a smaller range to search. -/
def Round.Ok (lo hi : Nat → Int) (n : Nat) (b : Bisect) : Round → Prop
  | .done move => MoveOk lo hi n move
  | .again b' => b'.Inv lo hi n ∧ b'.width < b.width

section Rounds

variable {sc : StepCompress} {lo hi : Nat → Int} {n k : Nat} {b : Bisect}
  {interval nextmin nextmax count : Int32} {point : Points}

lemma Bisect.Short.split (h : b.Short lo hi n) :
    (b.split count point nextmin nextmax interval).Short lo hi n := by
  unfold Bisect.split
  simp only []
  split <;> exact ⟨⟨h.1.best, h.1.zero⟩, h.2⟩

lemma Bisect.Short.limitDeviation (h : b.Short lo hi n) :
    (b.limitDeviation sc count).Short lo hi n := by
  unfold Bisect.limitDeviation
  split
  · exact ⟨⟨h.1.best, h.1.zero⟩, h.2⟩
  · exact h

lemma Bisect.Short.limitPoint (h : b.Short lo hi n) :
    (b.limitPoint count point).Short lo hi n := ⟨⟨h.1.best, h.1.zero⟩, h.2⟩

lemma bisect_range {minadd maxadd : Int32} (hmin : -32768 ≤ minadd.toInt)
    (hle : minadd.toInt ≤ maxadd.toInt) (hmax : maxadd.toInt ≤ 32767) :
    minadd.toInt ≤ (maxadd - (maxadd - minadd) / 4).toInt ∧
      (maxadd - (maxadd - minadd) / 4).toInt ≤ maxadd.toInt := by
  have hfour : (4 : Int32).toInt = 4 := rfl
  have hsub : (maxadd - minadd).toInt = maxadd.toInt - minadd.toInt :=
    toInt_sub_of_range (by omega) (by omega)
  have hdiv : ((maxadd - minadd) / 4).toInt = (maxadd.toInt - minadd.toInt).tdiv 4 := by
    rw [toInt_div_of_pos (by rw [hfour]; decide), hsub, hfour]
  have hq := tdiv_of_nonneg (show 0 ≤ maxadd.toInt - minadd.toInt by omega)
    (show (0 : Int) < 4 by decide)
  rw [toInt_sub_of_range (by omega) (by omega), hdiv]
  omega

lemma Bisect.Short.conclude (h : b.Short lo hi n) (hr : b.Ranges lo hi)
    (hzero : b.add.toInt = 0 ∨ 0 < b.minadd.toInt ∨ b.maxadd.toInt < 0) (hw : Windows lo hi n)
    (herr : sc.maxError.toNat ≤ 65536) (hc : Candidate lo hi n interval k b.add) (hk : k ≤ 514)
    (hlt : k < n) (hp : point.Is (lo k) (hi k))
    (hin : b.outerMininterval.toInt ≤ interval.toInt ∧ interval.toInt ≤ b.outerMaxinterval.toInt)
    (hbelow : quad interval.toInt b.add.toInt (k + 1) < lo k → nextmax = interval)
    (hreach : lo k ≤ quad interval.toInt b.add.toInt (k + 1) →
      b.outerMininterval.toInt ≤ nextmin.toInt ∧ nextmin.toInt ≤ interval.toInt) :
    let b₁ := b.split (Int32.ofNat k) point nextmin nextmax interval
    let b₂ := b₁.limitDeviation sc (Int32.ofNat k)
    let b₃ := b₂.limitPoint (Int32.ofNat k) point
    Round.Ok lo hi n b (if b₃.maxadd < b₃.minadd then .done b₃.finish
      else .again { b₃ with add := b₃.maxadd - (b₃.maxadd - b₃.minadd) / 4 }) := by
  intro b₁ b₂ b₃
  obtain ⟨hn₁, hmin₁, hmax₁⟩ := hr.split hw hc hk hp hin hbelow hreach
  obtain ⟨hn₂, hmin₂, hmax₂⟩ := hn₁.limitDeviation hr hw hc herr hk hmin₁ hmax₁
  have hn₃ : b.Narrowed lo hi interval.toInt b₃ := hn₂.limitPoint hw hc hk hlt hp hmin₂ hmax₂
  have hs₃ : b₃.Short lo hi n := h.split.limitDeviation.limitPoint
  have hadd := hr.add_range
  have hmin := hn₃.minadd
  have hmax := hn₃.maxadd
  have hex := hn₃.excluded
  split
  · exact hs₃.1.finish
  · rename_i hge
    rw [Int32.lt_iff_toInt_lt] at hge
    obtain ⟨h₁, h₂⟩ := bisect_range (show -32768 ≤ b₃.minadd.toInt by omega)
      (show b₃.minadd.toInt ≤ b₃.maxadd.toInt by omega) (by omega)
    have hout := hn₃.outer
    have hranges : Bisect.Ranges lo hi
        { b₃ with add := b₃.maxadd - (b₃.maxadd - b₃.minadd) / 4 } :=
      ⟨⟨hout.1, le_trans hout.2.1 hout.2.2.1, hout.2.2.2⟩, le_trans hadd.1 hmin, h₁, h₂,
        le_trans hmax hadd.2.2.2⟩
    have hzero₃ : 0 < b₃.minadd.toInt ∨ b₃.maxadd.toInt < 0 := by omega
    have hwidth : b₃.width < b.width := by
      unfold Bisect.width
      omega
    exact ⟨⟨hranges, Or.inr ⟨hzero₃, ⟨hs₃.1.best, hs₃.1.zero⟩, hs₃.2⟩⟩, hwidth⟩

lemma Bisect.Inv.conclude (hi' : b.Inv lo hi n) (hw : Windows lo hi n) (hn : n ≤ 65535)
    (herr : sc.maxError.toNat ≤ 65536) (hc : Candidate lo hi n interval k b.add)
    (hlt : k < n) (hp : point.Is (lo k) (hi k))
    (hin : b.outerMininterval.toInt ≤ interval.toInt ∧ interval.toInt ≤ b.outerMaxinterval.toInt)
    (hbelow : quad interval.toInt b.add.toInt (k + 1) < lo k → nextmax = interval)
    (hreach : lo k ≤ quad interval.toInt b.add.toInt (k + 1) →
      b.outerMininterval.toInt ≤ nextmin.toInt ∧ nextmin.toInt ≤ interval.toInt) :
    (b.conclude sc (Int32.ofNat k) point nextmin nextmax interval).Ok lo hi n b := by
  have hr := hc.reach_toInt hw hn
  have hzero : b.add.toInt = 0 ∨ 0 < b.minadd.toInt ∨ b.maxadd.toInt < 0 := by
    rcases hi'.found with ⟨hz, -⟩ | ⟨hex, -⟩
    · rw [hz]
      exact Or.inl rfl
    · exact Or.inr hex
  have hcount : (Int32.ofNat k).toInt = k := Int32.toInt_ofNat_of_lt (by omega)
  have hlong : (0x200 : Int32).toInt = 512 := rfl
  unfold Bisect.conclude
  simp only []
  generalize b.add * addFactor (Int32.ofNat k) + interval * Int32.ofNat k = reach at *
  by_cases hb : b.better reach interval = true
  · have hfound := hi'.record hc hr
    by_cases hk : 0x200 < Int32.ofNat k
    · rw [if_pos ⟨hb, hk⟩]
      exact hfound.finish
    · rw [if_neg fun hand => hk hand.2, if_pos hb]
      rw [Int32.lt_iff_toInt_lt, hlong, hcount] at hk
      have hshort : (b.record interval (Int32.ofNat k) reach).Short lo hi n :=
        ⟨hfound, by simp only [Bisect.record, hcount]; omega⟩
      exact hshort.conclude ⟨hi'.outer, hi'.add_range⟩ hzero hw herr hc (by omega) hlt hp hin hbelow
        hreach
  · obtain ⟨hfound, hbest, hk⟩ := hi'.not_better hw hn hc hr (Bool.eq_false_iff.mpr hb)
    rw [if_neg fun hand => hb hand.1, if_neg hb]
    exact Bisect.Short.conclude ⟨hfound, hbest⟩ hi'.toRanges hzero hw herr hc hk hlt hp hin hbelow
      hreach

lemma Bisect.Inv.round (hi' : b.Inv lo hi n) (hw : Windows lo hi n) (h1 : 1 ≤ n) (hn : n ≤ 65535)
    (herr : sc.maxError.toNat ≤ 65536)
    (hp : ∀ i < n, ∃ point, minmaxPoint sc i = some point ∧ point.Is (lo i) (hi i)) :
    ∃ r, b.round sc n = some r ∧ r.Ok lo hi n b := by
  have hadd := hi'.add_range
  have hout := hi'.outer
  have habs : |b.add.toInt| ≤ 32768 := by
    rw [abs_le]
    omega
  have hone : ∀ x : Int, lo 0 ≤ x → x ≤ hi 0 → Fits lo hi x b.add.toInt 1 := by
    intro x hx₀ hx₁ j hj
    obtain rfl : j = 0 := by omega
    rw [Nat.zero_add, quad_one]
    exact ⟨hx₀, hx₁⟩
  obtain ⟨e, he, hok⟩ := @extend_spec sc lo hi n 1 b.add b.outerMininterval.toInt
    b.outerMaxinterval.toInt b.outerMininterval b.outerMaxinterval hw hn hp habs (n - 1) (le_refl 1)
    (by omega) ⟨hout.2.1, le_refl _, le_refl _, hone _ hout.1 (le_trans hout.2.1 hout.2.2),
      hone _ (le_trans hout.1 hout.2.1) hout.2.2⟩
  unfold Bisect.round
  rw [he]
  cases e with
  | all interval count =>
    obtain ⟨rfl, hfit⟩ := hok
    exact ⟨_, rfl, interval, count, b.add, rfl, h1, le_refl _, by omega, hfit⟩
  | stop count nextpoint nextmin nextmax interval =>
    obtain ⟨hpos, hlt, hpt, hfit, hin₀, hin₁, hbelow, hreach⟩ := hok
    exact ⟨_, rfl, hi'.conclude hw hn herr ⟨hpos, hlt.le, by omega, hfit⟩ hlt hpt ⟨hin₀, hin₁⟩ hbelow
      hreach⟩

lemma Bisect.Inv.loop (hw : Windows lo hi n) (h1 : 1 ≤ n) (hn : n ≤ 65535)
    (herr : sc.maxError.toNat ≤ 65536)
    (hp : ∀ i < n, ∃ point, minmaxPoint sc i = some point ∧ point.Is (lo i) (hi i)) {w : Nat}
    (hi' : b.Inv lo hi n) (hwidth : b.width ≤ w) :
    ∃ move, MoveOk lo hi n move ∧ ∀ rounds, w < rounds → Bisect.loop sc n rounds b = some move := by
  induction w using Nat.strong_induction_on generalizing b with
  | h w ih =>
    obtain ⟨r, hr, hok⟩ := hi'.round hw h1 hn herr hp
    cases r with
    | done move =>
      refine ⟨move, hok, fun rounds hlt => ?_⟩
      obtain ⟨m, rfl⟩ : ∃ m, rounds = m + 1 := ⟨rounds - 1, by omega⟩
      rw [Bisect.loop, hr]
    | again b' =>
      have hsmall := hok.2
      have hpos : 0 ≤ b'.width := by
        have hrange := hok.1.add_range
        unfold Bisect.width
        omega
      obtain ⟨move, hmove, hloop⟩ := ih b'.width.toNat (by omega) hok.1 (by omega)
      refine ⟨move, hmove, fun rounds hlt => ?_⟩
      obtain ⟨m, rfl⟩ : ∃ m, rounds = m + 1 := ⟨rounds - 1, by omega⟩
      rw [Bisect.loop, hr]
      exact hloop m (by omega)

end Rounds

section Queue

variable {sc : StepCompress} {clocks : List Nat} {n : Nat}

lemma QueueOk.windows (h : QueueOk sc clocks) (hpos : ∀ c ∈ clocks, sc.lastStepClock < c)
    (herr : sc.maxError.toNat ≤ 65536) (h1 : 1 ≤ n) (hn : n ≤ clocks.length) :
    Windows (fun i => minAt sc clocks i) (fun i => maxAt sc clocks i) n := by
  have hfirst : 1 ≤ maxAt sc clocks 0 := by
    have hlt := hpos _ (List.getElem_mem (show 0 < clocks.length by omega))
    unfold maxAt
    rw [List.getD_eq_getElem _ _ (show 0 < clocks.length by omega)]
    omega
  have hprev : prevAt sc clocks 0 = 0 := rfl
  constructor
  · unfold minAt
    omega
  · unfold minAt
    omega
  · intro i _
    unfold minAt
    omega
  · intro i hi'
    have hle := @QueueOk.prevAt_le sc clocks (i + 1) h (by omega)
    have hp : prevAt sc clocks (i + 1) = maxAt sc clocks i := rfl
    unfold minAt
    omega
  · intro i hi'
    have hlt := @QueueOk.maxAt_lt sc clocks i h (by omega)
    exact_mod_cast hlt

lemma QueueOk.points (h : QueueOk sc clocks) (hn : n ≤ clocks.length) :
    ∀ i < n, ∃ point, minmaxPoint sc i = some point ∧
      point.Is (minAt sc clocks i) (maxAt sc clocks i) := by
  intro i hi'
  have hM : clockDiffMax = 805306368 := rfl
  have hlt := @QueueOk.maxAt_lt sc clocks i h (by omega)
  have hle : minAt sc clocks i ≤ maxAt sc clocks i := Nat.sub_le _ _
  exact ⟨_, h.minmaxPoint_eq (by omega), toInt_toInt32_ofNat (by omega),
    toInt_toInt32_ofNat (by omega)⟩

lemma MoveOk.checkLine (h : QueueOk sc clocks) (hn : n ≤ clocks.length) (hn' : n ≤ 65535)
    (hw : Windows (fun i => minAt sc clocks i) (fun i => maxAt sc clocks i) n) {move : StepMove}
    (hm : MoveOk (fun i => minAt sc clocks i) (fun i => maxAt sc clocks i) n move) :
    checkLine sc move = some true ∧ 1 ≤ move.count.toNat ∧ move.count.toNat ≤ clocks.length ∧
      ∀ j < move.count.toNat, minAt sc clocks j ≤ move.reach (j + 1) ∧
        move.reach (j + 1) ≤ maxAt sc clocks j ∧ 0 ≤ move.interval.toNat + j * move.add.toInt := by
  obtain ⟨interval, k, add, rfl, hc⟩ := hm
  have hM : (clockDiffMax : Int) = 805306368 := rfl
  have hpos := hc.pos
  have hle := hc.le
  have hrange := hc.add_range
  have hfirst := hc.fits.first hpos
  have hlo := hw.pos
  have hlt0 := hw.lt 0 (by omega)
  have hinterval : (((toMove interval (Int32.ofNat k) add).interval.toNat : Nat) : Int) =
      interval.toInt := @toNat_toUInt32_of_nonneg interval (by omega)
  have hcount : (toMove interval (Int32.ofNat k) add).count.toNat = k := by
    have hk : (Int32.ofNat k).toInt = k := Int32.toInt_ofNat_of_lt (by omega)
    have hnat := @toNat_toUInt32_of_nonneg (Int32.ofNat k) (by omega)
    change (Int32.ofNat k).toUInt32.toUInt16.toNat = k
    rw [UInt32.toNat_toUInt16]
    omega
  have hadd : (toMove interval (Int32.ofNat k) add).add.toInt = add.toInt := by
    change add.toInt16.toInt = add.toInt
    rw [Int32.toInt_toInt16]
    exact Int.bmod_eq_of_le (by omega) (by omega)
  have hnonneg := hc.fits.nonneg hw hle
  have hsteps : ∀ j < k, minAt sc clocks j ≤ quad interval.toInt add.toInt (j + 1) ∧
      quad interval.toInt add.toInt (j + 1) ≤ maxAt sc clocks j ∧
      0 ≤ interval.toInt + j * add.toInt ∧ interval.toInt + j * add.toInt < 2 ^ 31 := by
    intro j hj
    obtain ⟨h₁, h₂⟩ := hc.fits j hj
    have hlt := lt_of_le_of_lt h₂ (hw.lt j (by omega))
    have hzero := quad_le_quad (Nat.zero_le j) fun i hi' => hnonneg i (by omega)
    rw [quad_zero] at hzero
    have hsucc := quad_succ interval.toInt add.toInt j
    refine ⟨h₁, h₂, hnonneg j hj, ?_⟩
    omega
  rw [checkLine_iff h, stepsFit_iff, hcount]
  unfold StepMove.reach
  rw [hinterval, hadd]
  simp only [zero_add]
  refine ⟨⟨hpos, by omega, ?_, by omega, hsteps⟩, hpos, by omega, ?_⟩
  · rintro ⟨hz, -⟩
    have hnat : (toMove interval (Int32.ofNat k) add).interval.toNat = 0 := by
      rw [hz]
      rfl
    omega
  · exact fun j hj => ⟨(hsteps j hj).1, (hsteps j hj).2.1, (hsteps j hj).2.2.1⟩

end Queue

/-- The search ends, and the move that it returns passes `check_line`: it stands for queued steps,
hits the window of each of them and has no negative interval. -/
theorem compressBisectAdd_checkLine {sc : StepCompress} {clocks : List Nat} (hne : clocks ≠ [])
    (hqueue : sc.queue = clocks.map UInt32.ofNat) (hsorted : clocks.Pairwise (· ≤ ·))
    (hclocks : ∀ c ∈ clocks, sc.lastStepClock < c ∧ c < sc.lastStepClock + clockDiffMax)
    (herr : sc.maxError.toNat ≤ 65536) :
    ∃ move, (∀ rounds, 65536 ≤ rounds → compressBisectAdd rounds sc = some move) ∧
      checkLine sc move = some true ∧
      1 ≤ move.count.toNat ∧ move.count.toNat ≤ sc.queue.length ∧
      ∀ k < move.count.toNat, ∃ point, minmaxPoint sc k = some point ∧
        point.minp.toInt ≤ move.reach (k + 1) ∧ move.reach (k + 1) ≤ point.maxp.toInt ∧
        0 ≤ move.interval.toNat + k * move.add.toInt := by
  have h : QueueOk sc clocks :=
    ⟨hqueue, hsorted, fun c hc => (hclocks c hc).1.le, fun c hc => (hclocks c hc).2⟩
  have hlen : sc.queue.length = clocks.length := by
    rw [hqueue, List.length_map]
  have hpos : 0 < clocks.length := List.length_pos_iff.mpr hne
  have hw := h.windows (fun c hc => (hclocks c hc).1) herr
    (show 1 ≤ min sc.queue.length 65535 by omega) (by omega)
  have hp := h.points (show min sc.queue.length 65535 ≤ clocks.length by omega)
  obtain ⟨point, hpoint, his⟩ := hp 0 (by omega)
  have hstart : (-32768 : Int) ≤ (-0x8000 : Int32).toInt ∧
      (-0x8000 : Int32).toInt ≤ (0 : Int32).toInt ∧ (0 : Int32).toInt ≤ (0x7fff : Int32).toInt ∧
      (0x7fff : Int32).toInt ≤ 32767 := by decide
  have hinv : (Bisect.start point).Inv (fun i => minAt sc clocks i) (fun i => maxAt sc clocks i)
      (min sc.queue.length 65535) := by
    refine ⟨⟨⟨?_, ?_, ?_⟩, hstart⟩, Or.inl ⟨rfl, rfl⟩⟩
    · exact his.minp.ge
    · exact le_trans his.minp.le (le_trans (hw.le 0 (by omega)) his.maxp.ge)
    · exact his.maxp.le
  obtain ⟨move, hmove, hloop⟩ := @Bisect.Inv.loop sc _ _ _ _ hw (by omega) (by omega) herr hp 65535
    hinv (show (0x7fff : Int32).toInt - (-0x8000 : Int32).toInt ≤ 65535 by decide)
  obtain ⟨hcheck, h1, hle, hsteps⟩ := hmove.checkLine h (by omega) (by omega) hw
  refine ⟨move, fun rounds hr => ?_, hcheck, h1, by omega, fun k hk => ?_⟩
  · unfold compressBisectAdd
    rw [hpoint]
    exact hloop rounds (by omega)
  · obtain ⟨pt, hpt, hpis⟩ := h.points (le_refl clocks.length) k (by omega)
    refine ⟨pt, hpt, ?_⟩
    rw [hpis.minp, hpis.maxp]
    exact hsteps k hk

/-- Three queued steps that get faster. -/
def threeSteps : StepCompress := ⟨[1100, 1190, 1270], 1, 1000, [], 1, 0, []⟩

theorem compressBisectAdd_checkLine_threeSteps :
    ∃ move, compressBisectAdd 65536 threeSteps = some move ∧
      checkLine threeSteps move = some true := by
  obtain ⟨move, hmove, hcheck, -⟩ := @compressBisectAdd_checkLine threeSteps [1100, 1190, 1270]
    (by decide) (by decide) (by decide) (by decide) (by decide)
  exact ⟨move, hmove 65536 (le_refl _), hcheck⟩

example : compressBisectAdd 5 threeSteps = some ⟨99, 3, -9⟩ := by decide +kernel

end KlipperMcu.Compress
