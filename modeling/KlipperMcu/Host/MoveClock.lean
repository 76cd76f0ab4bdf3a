import KlipperMcu.Host.CheckLine

/-!
# The clock after a move

`add_move` computes the clock of the last step of a move in closed form. For a move that passed
`check_line` no intermediate result overflows, so the clock is the exact sum of the intervals.
-/

namespace KlipperMcu.Compress

open Lib

lemma wrap_emod (x : Int) : wrap x % 2 ^ 32 = x % 2 ^ 32 := by
  unfold wrap
  omega

lemma wrap_of_range {x : Int} (h₀ : -2 ^ 31 ≤ x) (h₁ : x < 2 ^ 31) : wrap x = x := by
  unfold wrap
  omega

/-- The time of step `k` of a move, relative to the step before the move. -/
def StepMove.reach (move : StepMove) (k : Nat) : Int :=
  quad move.interval.toNat move.add.toInt k

section Move

variable {sc sc' : StepCompress} {clocks : List Nat} {move : StepMove}

lemma moveTicks_eq (h : move.add.toInt = 0 ∨ 2 * tri move.count.toNat < 2 ^ 31) :
    moveTicks move = UInt32.ofInt (move.reach move.count.toNat - move.interval.toNat) := by
  have hfactor : UInt32.ofInt (wrap (move.add.toInt *
      (wrap (move.count.toNat * (move.count.toNat - 1))).tdiv 2)) =
      UInt32.ofInt (move.add.toInt * tri move.count.toNat) := by
    rcases h with hzero | hsmall
    · rw [hzero, zero_mul, zero_mul]
      rfl
    · have htwo := two_mul_tri_int move.count.toNat
      have hwrap : wrap (2 * (tri move.count.toNat : Int)) = 2 * tri move.count.toNat :=
        wrap_of_range (by omega) (by omega)
      rw [← htwo, hwrap, Int.mul_tdiv_cancel_left _ (by decide)]
      exact ofInt_congr (wrap_emod _)
  have hcount : move.count.toUInt32 - 1 = UInt32.ofInt (move.count.toNat - 1 : Int) := by
    have hlt := move.count.toNat_lt
    have hone : (1 : UInt32).toNat = 1 := rfl
    have hnat := toNat_ofInt (move.count.toNat - 1 : Int)
    rw [← UInt32.toNat_inj, UInt32.toNat_sub, UInt16.toNat_toUInt32, hone]
    omega
  have hinterval : move.interval = UInt32.ofInt (move.interval.toNat : Int) := by
    rw [ofInt_natCast, UInt32.ofNat_toNat]
  unfold moveTicks
  simp only []
  rw [hfactor, hcount]
  nth_rewrite 1 [hinterval]
  rw [← UInt32.ofInt_mul, ← UInt32.ofInt_add]
  congr 1
  unfold StepMove.reach quad
  ring

lemma QueueOk.steps (h : QueueOk sc clocks) (hc : checkLine sc move = some true) :
    1 ≤ move.count.toNat ∧ move.count.toNat ≤ clocks.length ∧ ∀ j < move.count.toNat,
      move.reach (j + 1) ≤ maxAt sc clocks j ∧ 0 ≤ move.interval.toNat + j * move.add.toInt := by
  obtain ⟨h₁, h₂, -, -, hfit⟩ := (checkLine_iff h move).mp hc
  rw [stepsFit_iff] at hfit
  refine ⟨h₁, h₂, fun j hj => ?_⟩
  obtain ⟨-, hmax, hpos, -⟩ := hfit j hj
  rw [Nat.zero_add, zero_add] at hmax
  exact ⟨hmax, hpos⟩

lemma QueueOk.reach_le (h : QueueOk sc clocks) (hc : checkLine sc move = some true) :
    move.interval.toNat ≤ move.reach move.count.toNat ∧
      move.reach move.count.toNat ≤ maxAt sc clocks (move.count.toNat - 1) := by
  obtain ⟨h₁, -, hsteps⟩ := h.steps hc
  constructor
  · have hmono := quad_le_quad h₁ fun j hj => (hsteps j hj).2
    rw [quad_one] at hmono
    exact hmono
  · have hlast := (hsteps (move.count.toNat - 1) (by omega)).1
    rw [Nat.sub_add_cancel h₁] at hlast
    exact hlast

lemma QueueOk.moveTicks_toNat (h : QueueOk sc clocks) (hc : checkLine sc move = some true) :
    ((moveTicks move).toNat : Int) = move.reach move.count.toNat - move.interval.toNat := by
  obtain ⟨h₁, h₂, hsteps⟩ := h.steps hc
  obtain ⟨hlo, hhi⟩ := h.reach_le hc
  have hmax := @QueueOk.maxAt_lt sc clocks (move.count.toNat - 1) h (by omega)
  have hM : clockDiffMax = 805306368 := rfl
  have hsmall : move.add.toInt = 0 ∨ 2 * tri move.count.toNat < 2 ^ 31 := by
    by_cases hadd : move.add.toInt = 0
    · exact Or.inl hadd
    · have htri := tri_le_quad hadd h₁ (Int.natCast_nonneg move.interval.toNat)
        (hsteps (move.count.toNat - 1) (by omega)).2
      change (tri move.count.toNat : Int) ≤ move.reach move.count.toNat at htri
      omega
  have hnat := toNat_ofInt (move.reach move.count.toNat - move.interval.toNat)
  rw [moveTicks_eq hsmall]
  omega

lemma addMove_msgQueue (sc : StepCompress) (firstClock : Nat) (move : StepMove) :
    ∃ reqClock, (addMove sc firstClock move).msgQueue =
      sc.msgQueue ++ [⟨move, sc.lastStepClock, reqClock⟩] := ⟨_, rfl⟩

lemma flushMove_eq_some (hf : flushMove sc move = some sc') :
    checkLine sc move = some true ∧ sc' =
      { addMove sc (sc.lastStepClock + move.interval.toNat) move with
        queue := sc.queue.drop move.count.toNat } := by
  unfold flushMove at hf
  split at hf
  · rename_i hc
    exact ⟨hc, (Option.some.inj hf).symm⟩
  · cases hf

lemma QueueOk.lastStepClock_flushMove (h : QueueOk sc clocks) (hf : flushMove sc move = some sc') :
    (sc'.lastStepClock : Int) = sc.lastStepClock + move.reach move.count.toNat := by
  obtain ⟨hc, rfl⟩ := flushMove_eq_some hf
  have hticks := h.moveTicks_toNat hc
  change ((sc.lastStepClock + move.interval.toNat + (moveTicks move).toNat : Nat) : Int) = _
  omega

lemma stepcompressFlushFar_lastStepClock (sc : StepCompress) (clock : Nat) :
    (stepcompressFlushFar sc clock).lastStepClock = clock := by
  have hticks : moveTicks ⟨UInt32.ofNat (clock - sc.lastStepClock), 1, 0⟩ = 0 := by
    simp [moveTicks, wrap]
    rfl
  change clock + (moveTicks ⟨UInt32.ofNat (clock - sc.lastStepClock), 1, 0⟩).toNat = clock
  rw [hticks]
  rfl

lemma QueueOk.flushMove (h : QueueOk sc clocks) (hf : flushMove sc move = some sc') :
    QueueOk sc' (clocks.drop move.count.toNat) := by
  have hlsc := h.lastStepClock_flushMove hf
  obtain ⟨hc, heq⟩ := flushMove_eq_some hf
  obtain ⟨h₁, h₂, -⟩ := h.steps hc
  obtain ⟨hlo, hhi⟩ := h.reach_le hc
  have hin : move.count.toNat - 1 < clocks.length := by omega
  have hlast : clocks[move.count.toNat - 1] ∈ clocks := List.getElem_mem hin
  have hlower := h.lower _ hlast
  unfold maxAt at hhi
  rw [List.getD_eq_getElem _ _ hin] at hhi
  constructor
  · rw [heq]
    change sc.queue.drop _ = _
    rw [h.queue, List.map_drop]
  · exact h.sorted.sublist (List.drop_sublist _ _)
  · intro c hmem
    obtain ⟨k, hk, rfl⟩ := List.getElem_of_mem hmem
    rw [List.length_drop] at hk
    rw [List.getElem_drop]
    have hle := List.pairwise_iff_getElem.mp h.sorted (move.count.toNat - 1)
      (move.count.toNat + k) hin (by omega) (by omega)
    omega
  · intro c hmem
    have hup := h.upper c (List.mem_of_mem_drop hmem)
    omega

lemma QueueOk.append (h : QueueOk sc clocks) {c : Nat} (hsorted : ∀ c' ∈ clocks, c' ≤ c)
    (hlo : sc.lastStepClock ≤ c) (hup : c < sc.lastStepClock + clockDiffMax) :
    QueueOk { sc with queue := sc.queue ++ [UInt32.ofNat c] } (clocks ++ [c]) := by
  refine ⟨?_, ?_, ?_, ?_⟩
  · change sc.queue ++ _ = _
    rw [h.queue, List.map_append, List.map_singleton]
  · rw [List.pairwise_append]
    exact ⟨h.sorted, List.pairwise_singleton _ _,
      fun a ha b hb => (List.mem_singleton.mp hb) ▸ hsorted a ha⟩
  · intro c' hmem
    rcases List.mem_append.mp hmem with hold | hnew
    · exact h.lower c' hold
    · exact (List.mem_singleton.mp hnew) ▸ hlo
  · intro c' hmem
    rcases List.mem_append.mp hmem with hold | hnew
    · exact h.upper c' hold
    · exact (List.mem_singleton.mp hnew) ▸ hup

lemma QueueOk.flushFar (h : QueueOk sc []) (clock : Nat) :
    QueueOk (stepcompressFlushFar sc clock) [] :=
  ⟨h.queue, List.Pairwise.nil, by simp, by simp⟩

end Move

end KlipperMcu.Compress
