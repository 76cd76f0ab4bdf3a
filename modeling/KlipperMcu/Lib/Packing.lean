import Mathlib.Data.Nat.Digits.Lemmas

/-!
# Fields of one width side by side

A loop that shifts each value to its place and combines them computes the number with these values
as digits.
-/

namespace KlipperMcu.Lib

variable {α : Type*} {f : α → Nat} {width : Nat}

/-- The fields `f x` from the least significant bit on, and the position behind them. -/
def pack (f : α → Nat) (width : Nat) (l : List α) : Nat × Nat :=
  l.foldl (fun (out, pos) x => (out ||| f x <<< pos, pos + width)) (0, 0)

lemma or_shiftLeft_eq_add {x k : Nat} (h : x < 2 ^ k) (y : Nat) :
    x ||| y <<< k = x + 2 ^ k * y := by
  rw [Nat.or_comm, ← Nat.shiftLeft_add_eq_or_of_lt h, Nat.shiftLeft_eq, Nat.add_comm, Nat.mul_comm]

lemma ofDigits_two_pow_lt {l : List Nat} (hwidth : width ≠ 0) (h : ∀ x ∈ l, x < 2 ^ width) :
    Nat.ofDigits (2 ^ width) l < 2 ^ (width * l.length) := by
  rw [pow_mul]
  exact Nat.ofDigits_lt_base_pow_length (Nat.one_lt_two_pow hwidth) h

lemma pack_eq {l : List α} (hwidth : width ≠ 0) (h : ∀ x ∈ l, f x < 2 ^ width) :
    pack f width l = (Nat.ofDigits (2 ^ width) (l.map f), width * l.length) := by
  induction l using List.reverseRecOn with
  | nil => rfl
  | append_singleton l x ih =>
    have hl : ∀ y ∈ l.map f, y < 2 ^ width := by
      intro y hy
      obtain ⟨x, hx, rfl⟩ := List.mem_map.mp hy
      exact h x (List.mem_append_left _ hx)
    have hlt := ofDigits_two_pow_lt hwidth hl
    rw [List.length_map] at hlt
    unfold pack at ih ⊢
    rw [List.foldl_append, ih fun y hy => h y (List.mem_append_left _ hy)]
    simp only [List.foldl_cons, List.foldl_nil]
    rw [or_shiftLeft_eq_add hlt, List.map_append, Nat.ofDigits_append, List.length_map,
      List.length_append, List.map_singleton, Nat.ofDigits_singleton, pow_mul]
    rfl

lemma ofDigits_div_pow {l : List Nat} (h : ∀ x ∈ l, x < 2 ^ width) {i : Nat} (hi : i < l.length) :
    ∃ rest, Nat.ofDigits (2 ^ width) l / 2 ^ (width * i) = l[i] + 2 ^ width * rest := by
  refine ⟨Nat.ofDigits (2 ^ width) (l.drop (i + 1)), ?_⟩
  rw [pow_mul, Nat.ofDigits_div_pow_eq_ofDigits_drop i (Nat.two_pow_pos width) l h,
    List.drop_eq_getElem_cons hi, Nat.ofDigits_cons]

lemma ofDigits_bytes (x n : Nat) :
    Nat.ofDigits (2 ^ 8) ((List.range n).map fun i => (x >>> (i * 8)) &&& 0xff) =
      x % 2 ^ (8 * n) := by
  induction n with
  | zero =>
    rw [Nat.mul_zero, pow_zero, Nat.mod_one]
    rfl
  | succ n ih =>
    have hbyte : (x >>> (n * 8)) &&& 0xff = x / (2 ^ 8) ^ n % 2 ^ 8 := by
      rw [Nat.shiftRight_eq_div_pow, ← pow_mul, Nat.mul_comm 8 n]
      exact Nat.and_two_pow_sub_one_eq_mod _ 8
    rw [List.range_succ, List.map_append, Nat.ofDigits_append, ih, List.length_map,
      List.length_range, List.map_singleton, Nat.ofDigits_singleton, hbyte, pow_mul, pow_mul]
    exact Nat.mod_pow_succ.symm

end KlipperMcu.Lib
