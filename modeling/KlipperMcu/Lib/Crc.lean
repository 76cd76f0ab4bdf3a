import Mathlib.Logic.Function.Iterate
import Mathlib.Tactic.Common

/-!
# Reflected cyclic redundancy checks

A register of `w` bits that takes a message bit by bit, the lowest bit of the register first. For a
polynomial with the highest bit set the register can be run backwards, so two messages that differ
only within `w` consecutive bits leave it in different states.
-/

namespace KlipperMcu.Lib.Crc

variable {w : Nat}

/-- The register moves by one bit, and the polynomial is added if the bit that leaves it is set. -/
def shift (poly s : BitVec w) : BitVec w :=
  if s.getLsbD 0 then (s >>> 1) ^^^ poly else s >>> 1

/-- A bit of the message is added to the lowest bit before the register moves. -/
def step (poly s : BitVec w) (b : Bool) : BitVec w :=
  shift poly (s ^^^ (BitVec.ofBool b).setWidth w)

def run (poly s : BitVec w) (bs : List Bool) : BitVec w := bs.foldl (step poly) s

variable {poly s t e : BitVec w} {b : Bool} {as bs : List Bool}

lemma run_cons (poly s : BitVec w) (b : Bool) (bs : List Bool) :
    run poly s (b :: bs) = run poly (step poly s b) bs := rfl

lemma run_append (poly s : BitVec w) (as bs : List Bool) :
    run poly s (as ++ bs) = run poly (run poly s as) bs := List.foldl_append

lemma getLsbD_shift (poly s : BitVec w) (i : Nat) :
    (shift poly s).getLsbD i = (s.getLsbD (i + 1) ^^ (s.getLsbD 0 && poly.getLsbD i)) := by
  unfold shift
  cases s.getLsbD 0 <;> simp [Nat.add_comm]

lemma getLsbD_step (poly s : BitVec w) (b : Bool) (i : Nat) :
    (step poly s b).getLsbD i = (s.getLsbD (i + 1) ^^ ((s.getLsbD 0 ^^ b) && poly.getLsbD i)) := by
  rw [step, getLsbD_shift]
  rcases Nat.eq_zero_or_pos w with rfl | hw
  · simp
  · simp [hw]

/-! ### Running backwards -/

/-- The bits of the register and of the message that lead to a state, as long as no bit of the
message has left the register. -/
lemma getLsbD_of_run_eq (hpoly : poly.getLsbD (w - 1) = true) (hw : as.length ≤ w)
    (hlen : as.length = bs.length) (h : run poly s as = run poly t bs) (i : Nat) :
    (s.getLsbD i ^^ as.getD i false) = (t.getLsbD i ^^ bs.getD i false) := by
  induction as generalizing bs s t i with
  | nil =>
    obtain rfl := List.length_eq_zero_iff.mp hlen.symm
    rw [show s = t from h]
  | cons a as ih =>
    cases bs with
    | nil => cases hlen
    | cons b bs =>
      have hlen' : as.length = bs.length := Nat.succ.inj hlen
      have hw' : as.length + 1 ≤ w := hw
      have ih' := ih (by omega) hlen' h
      have hback : (s.getLsbD 0 ^^ a) = (t.getLsbD 0 ^^ b) := by
        have htop := ih' (w - 1)
        rw [List.getD_eq_getElem?_getD, List.getD_eq_getElem?_getD,
          List.getElem?_eq_none (by omega), List.getElem?_eq_none (by omega), getLsbD_step,
          getLsbD_step, hpoly, Nat.sub_add_cancel (by omega)] at htop
        simpa using htop
      cases i with
      | zero => exact hback
      | succ i =>
        have hi := ih' i
        rw [getLsbD_step, getLsbD_step, hback, Bool.xor_right_comm,
          Bool.xor_right_comm _ _ (bs.getD i false)] at hi
        exact Bool.xor_left_inj.mp hi

lemma run_injective (hw : 0 < w) (hpoly : poly.getLsbD (w - 1) = true)
    (h : run poly s bs = run poly t bs) : s = t := by
  induction bs generalizing s t with
  | nil => exact h
  | cons b bs ih =>
    have hstep : run poly s [b] = run poly t [b] := ih h
    have hone : [b].length ≤ w := hw
    apply BitVec.eq_of_getLsbD_eq
    intro i _
    have hbit : (s.getLsbD i ^^ [b].getD i false) = (t.getLsbD i ^^ [b].getD i false) :=
      getLsbD_of_run_eq hpoly hone rfl hstep i
    exact Bool.xor_left_inj.mp hbit

lemma eq_of_run_eq (hpoly : poly.getLsbD (w - 1) = true) (hw : as.length ≤ w)
    (hlen : as.length = bs.length) (h : run poly s as = run poly s bs) : as = bs := by
  apply List.ext_getElem hlen
  intro i hi hi'
  have hbit := Bool.xor_right_inj.mp (getLsbD_of_run_eq hpoly hw hlen h i)
  rwa [List.getD_eq_getElem?_getD, List.getD_eq_getElem?_getD, List.getElem?_eq_getElem hi,
    List.getElem?_eq_getElem hi'] at hbit

/-- Messages that differ only within `w` consecutive bits leave the register in different states. -/
theorem run_ne_of_burst (hw : 0 < w) (hpoly : poly.getLsbD (w - 1) = true)
    (hlen : as.length = bs.length) (hne : as ≠ bs) {k : Nat} (hbefore : as.take k = bs.take k)
    (hbehind : as.drop (k + w) = bs.drop (k + w)) : run poly s as ≠ run poly s bs := by
  intro h
  have hsplit : ∀ xs : List Bool, xs = xs.take k ++ ((xs.drop k).take w ++ xs.drop (k + w)) := by
    intro xs
    rw [← List.drop_drop, List.take_append_drop, List.take_append_drop]
  rw [hsplit as, hsplit bs, run_append, run_append, run_append, run_append, hbefore, hbehind] at h
  have hmid := eq_of_run_eq hpoly (List.length_take_le _ _) (by simp [hlen])
    (run_injective hw hpoly h)
  apply hne
  rw [hsplit as, hsplit bs, hbefore, hbehind, hmid]

/-! ### Several bits at once -/

lemma run_eq_iterate (he : ∀ i, e.getLsbD i = bs.getD i false) :
    run poly s bs = (shift poly)^[bs.length] (s ^^^ e) := by
  induction bs generalizing s e with
  | nil =>
    have hzero : e = 0#w := by
      apply BitVec.eq_of_getLsbD_eq
      intro i _
      simpa using he i
    rw [hzero, BitVec.xor_zero]
    rfl
  | cons b bs ih =>
    have hrest : ∀ i, (e >>> 1).getLsbD i = bs.getD i false := by
      intro i
      simpa [Nat.add_comm] using he (i + 1)
    have hfirst : step poly s b ^^^ (e >>> 1) = shift poly (s ^^^ e) := by
      apply BitVec.eq_of_getLsbD_eq
      intro i _
      have hb : e.getLsbD 0 = b := he 0
      rw [BitVec.getLsbD_xor, getLsbD_step, getLsbD_shift, BitVec.getLsbD_xor, BitVec.getLsbD_xor,
        hb, BitVec.getLsbD_ushiftRight, Nat.add_comm 1 i, Bool.xor_right_comm]
    rw [run_cons, ih hrest, hfirst, List.length_cons, Function.iterate_succ_apply]

lemma iterate_shift_xor (n : Nat) (he : ∀ i < n, e.getLsbD i = false) :
    (shift poly)^[n] (s ^^^ e) = (shift poly)^[n] s ^^^ (e >>> n) := by
  induction n generalizing s e with
  | zero => simp
  | succ n ih =>
    have hfirst : shift poly (s ^^^ e) = shift poly s ^^^ (e >>> 1) := by
      apply BitVec.eq_of_getLsbD_eq
      intro i _
      have h0 := he 0 (Nat.succ_pos n)
      rw [BitVec.getLsbD_xor, getLsbD_shift, getLsbD_shift, BitVec.getLsbD_xor, BitVec.getLsbD_xor,
        h0, BitVec.getLsbD_ushiftRight, Nat.add_comm 1 i, Bool.xor_false, Bool.xor_right_comm]
    have hrest : ∀ i < n, (e >>> 1).getLsbD i = false := by
      intro i hi
      rw [BitVec.getLsbD_ushiftRight]
      exact he (1 + i) (by omega)
    rw [Function.iterate_succ_apply, Function.iterate_succ_apply, hfirst, ih hrest,
      ← BitVec.shiftRight_add, Nat.add_comm 1 n]

end KlipperMcu.Lib.Crc
