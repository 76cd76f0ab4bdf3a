import KlipperMcu.Lib.LeakySum
import KlipperMcu.Lib.Signed

/-!
# The sample filter of the main board

The integer filter of mclib_commands.c for the samples of the motor currents. It keeps a running sum
of 32 bits, of which the output is a part, rounded down by an arithmetic shift. For shifts up to 15
nothing overflows, and the outputs stay between the samples.
-/

namespace KlipperMcu.Acquisition

open Lib

/-- `struct mclib_sample_filter`. -/
structure SampleFilter where
  accumulator : Int32
  shift : UInt16
deriving DecidableEq, Repr

/-- The variable `sum` of `mclib_sample_filter_update`. -/
def filterSum (f : SampleFilter) (sample : Int16) : Int32 := f.accumulator + sample.toInt32

/-- The variable `output`. The shift of a signed number is arithmetic. -/
def filterOutput (f : SampleFilter) (sample : Int16) : Int32 :=
  Int32.ofInt ((filterSum f sample).toInt >>> f.shift.toNat)

def mclibSampleFilterUpdate (f : SampleFilter) (sample : Int16) : SampleFilter × Int16 :=
  ({ f with accumulator := filterSum f sample - filterOutput f sample },
    (filterOutput f sample).toInt16)

def mclibSampleFilterInit (shift : UInt16) (initial : Int16) : SampleFilter :=
  ⟨Int32.ofInt (initial.toInt32.toInt <<< shift.toNat) - initial.toInt32, shift⟩

/-- The filter after some samples. -/
def filterAfter (f : SampleFilter) (samples : List Int16) : SampleFilter :=
  samples.foldl (fun f sample => (mclibSampleFilterUpdate f sample).1) f

/-- The number of samples in the running sum. -/
def SampleFilter.weight (f : SampleFilter) : Int := 2 ^ f.shift.toNat

/-- The running sum is one of samples between `lo` and `hi`. -/
structure Between (lo hi : Int) (f : SampleFilter) : Prop where
  shift : f.shift.toNat ≤ 15
  lower : (f.weight - 1) * lo ≤ f.accumulator.toInt
  upper : f.accumulator.toInt ≤ (f.weight - 1) * hi

/-- An update without an overflow. -/
structure Exact (f : SampleFilter) (sample : Int16) : Prop where
  sum : (filterSum f sample).toInt = f.accumulator.toInt + sample.toInt
  output : (filterOutput f sample).toInt = (f.accumulator.toInt + sample.toInt) / f.weight
  accumulator : (mclibSampleFilterUpdate f sample).1.accumulator.toInt =
    (filterSum f sample).toInt - (filterOutput f sample).toInt
  narrow : (mclibSampleFilterUpdate f sample).2.toInt = (filterOutput f sample).toInt

section Filter

variable {lo hi : Int} {f : SampleFilter} {sample : Int16}

lemma weight_bounds (h : f.shift.toNat ≤ 15) : 1 ≤ f.weight ∧ f.weight ≤ 2 ^ 15 := by
  unfold SampleFilter.weight
  exact ⟨one_le_pow₀ (by decide), pow_le_pow_right₀ (by decide) h⟩

lemma weight_mul_bounds {w x : Int} (h₁ : 1 ≤ w) (h₂ : w ≤ 2 ^ 15) (hx : -2 ^ 15 ≤ x ∧ x < 2 ^ 15) :
    -2 ^ 30 ≤ w * x ∧ w * x ≤ 2 ^ 30 := by
  have hlo : w * -2 ^ 15 ≤ w * x := mul_le_mul_of_nonneg_left hx.1 (by omega)
  have hhi : w * x ≤ w * 2 ^ 15 := mul_le_mul_of_nonneg_left hx.2.le (by omega)
  omega

lemma Between.sum_mem (h : Between lo hi f) (hlo : lo ≤ sample.toInt) (hhi : sample.toInt ≤ hi) :
    f.weight * lo ≤ f.accumulator.toInt + sample.toInt ∧
      f.accumulator.toInt + sample.toInt ≤ f.weight * hi := by
  have hl := h.lower
  have hu := h.upper
  rw [sub_mul, one_mul] at hl hu
  omega

lemma Between.exact (h : Between lo hi f) (hrange : -2 ^ 15 ≤ lo ∧ hi < 2 ^ 15)
    (hlo : lo ≤ sample.toInt) (hhi : sample.toInt ≤ hi) : Exact f sample := by
  obtain ⟨hw₁, hw₂⟩ := weight_bounds h.shift
  obtain ⟨hl, hu⟩ := h.sum_mem hlo hhi
  have hl' := (weight_mul_bounds hw₁ hw₂ ⟨hrange.1, by omega⟩).1
  have hu' := (weight_mul_bounds hw₁ hw₂ ⟨by omega, hrange.2⟩).2
  obtain ⟨hq₁, hq₂⟩ := ediv_mem (by omega) hl hu
  have hsum : (filterSum f sample).toInt = f.accumulator.toInt + sample.toInt := by
    rw [filterSum, toInt_add_of_range, Int16.toInt_toInt32] <;>
      rw [Int16.toInt_toInt32] <;> omega
  have houtput : (filterOutput f sample).toInt =
      (f.accumulator.toInt + sample.toInt) / f.weight := by
    rw [filterOutput, hsum, Int.shiftRight_eq_div_pow, Int32.toInt_ofInt, Nat.cast_pow,
      Nat.cast_ofNat]
    exact bmod_of_range (by change _ ≤ _ / f.weight; omega) (by change _ / f.weight < _; omega)
  refine ⟨hsum, houtput, ?_, ?_⟩
  · rw [mclibSampleFilterUpdate, toInt_sub_of_range]
    · rw [hsum, houtput]
      omega
    · rw [hsum, houtput]
      omega
  · rw [mclibSampleFilterUpdate, Int32.toInt_toInt16, houtput]
    exact Int.bmod_eq_of_le (by omega) (by omega)

lemma Between.update (h : Between lo hi f) (hrange : -2 ^ 15 ≤ lo ∧ hi < 2 ^ 15)
    (hlo : lo ≤ sample.toInt) (hhi : sample.toInt ≤ hi) :
    Between lo hi (mclibSampleFilterUpdate f sample).1 ∧
      lo ≤ (mclibSampleFilterUpdate f sample).2.toInt ∧
      (mclibSampleFilterUpdate f sample).2.toInt ≤ hi := by
  obtain ⟨hw₁, -⟩ := weight_bounds h.shift
  obtain ⟨hl, hu⟩ := h.sum_mem hlo hhi
  have hexact := h.exact hrange hlo hhi
  have hacc : (mclibSampleFilterUpdate f sample).1.accumulator.toInt =
      leak f.weight (f.accumulator.toInt + sample.toInt) := by
    rw [hexact.accumulator, hexact.output, hexact.sum, leak]
  obtain ⟨hleak₁, hleak₂⟩ := leak_mem (by omega) hl hu
  refine ⟨⟨h.shift, ?_, ?_⟩, ?_⟩
  · rw [hacc]
    exact hleak₁
  · rw [hacc]
    exact hleak₂
  · rw [hexact.narrow, hexact.output]
    exact ediv_mem (by omega) hl hu

lemma accumulator_init {shift : UInt16} (hshift : shift.toNat ≤ 15) (initial : Int16) :
    (mclibSampleFilterInit shift initial).accumulator.toInt =
      2 ^ shift.toNat * initial.toInt - initial.toInt := by
  have hlt := initial.toInt_lt
  have hle := initial.le_toInt
  obtain ⟨hw₁, hw₂⟩ := @weight_bounds (mclibSampleFilterInit shift initial) hshift
  obtain ⟨hl, hu⟩ := weight_mul_bounds hw₁ hw₂ ⟨hle, hlt⟩
  change -2 ^ 30 ≤ 2 ^ shift.toNat * initial.toInt at hl
  change 2 ^ shift.toNat * initial.toInt ≤ 2 ^ 30 at hu
  have hshl : (Int32.ofInt (initial.toInt32.toInt <<< shift.toNat)).toInt =
      2 ^ shift.toNat * initial.toInt := by
    rw [Int32.toInt_ofInt, Int16.toInt_toInt32, Int.shiftLeft_eq, mul_comm]
    exact bmod_of_range (by omega) (by omega)
  rw [mclibSampleFilterInit, toInt_sub_of_range, hshl, Int16.toInt_toInt32] <;>
    rw [hshl, Int16.toInt_toInt32] <;> omega

lemma between_init {shift : UInt16} (hshift : shift.toNat ≤ 15) {initial : Int16}
    (hlo : lo ≤ initial.toInt) (hhi : initial.toInt ≤ hi) :
    Between lo hi (mclibSampleFilterInit shift initial) := by
  obtain ⟨hw₁, -⟩ := @weight_bounds (mclibSampleFilterInit shift initial) hshift
  have hacc : (mclibSampleFilterInit shift initial).accumulator.toInt =
      ((mclibSampleFilterInit shift initial).weight - 1) * initial.toInt := by
    rw [accumulator_init hshift, sub_mul, one_mul]
    rfl
  refine ⟨hshift, ?_, ?_⟩ <;> rw [hacc]
  · exact mul_le_mul_of_nonneg_left hlo (by omega)
  · exact mul_le_mul_of_nonneg_left hhi (by omega)

lemma Between.filterAfter (h : Between lo hi f) (hrange : -2 ^ 15 ≤ lo ∧ hi < 2 ^ 15)
    {samples : List Int16} (hs : ∀ x ∈ samples, lo ≤ x.toInt ∧ x.toInt ≤ hi) :
    Between lo hi (filterAfter f samples) := by
  induction samples generalizing f with
  | nil => exact h
  | cons x samples ih =>
    obtain ⟨hx, hrest⟩ := List.forall_mem_cons.mp hs
    exact ih (h.update hrange hx.1 hx.2).1 hrest

lemma filterAfter_concat (f : SampleFilter) (samples : List Int16) (x : Int16) :
    filterAfter f (samples ++ [x]) = (mclibSampleFilterUpdate (filterAfter f samples) x).1 := by
  simp only [filterAfter, List.foldl_append, List.foldl_cons, List.foldl_nil]

lemma shift_filterAfter (f : SampleFilter) (samples : List Int16) :
    (filterAfter f samples).shift = f.shift := by
  induction samples generalizing f with
  | nil => rfl
  | cons x samples ih => exact ih _

/-! ### A constant sample -/

/-- What is left of the difference between the initial value and a sample after `n` samples. -/
def difference (shift : UInt16) (initial c : Int16) (n : Nat) : Int :=
  (leak (2 ^ shift.toNat))^[n] ((2 ^ shift.toNat - 1) * (initial.toInt - c.toInt))

lemma difference_succ (shift : UInt16) (initial c : Int16) (n : Nat) :
    difference shift initial c (n + 1) =
      leak (2 ^ shift.toNat) (difference shift initial c n) :=
  Function.iterate_succ_apply' _ _ _

section Constant

variable {shift : UInt16} (hshift : shift.toNat ≤ 15) (initial c : Int16) (n : Nat)

lemma weight_replicate :
    (filterAfter (mclibSampleFilterInit shift initial) (List.replicate n c)).weight =
      2 ^ shift.toNat := by
  rw [SampleFilter.weight, shift_filterAfter]
  rfl

include hshift

lemma exact_replicate :
    Exact (filterAfter (mclibSampleFilterInit shift initial) (List.replicate n c)) c := by
  have hrange : -2 ^ 15 ≤ min initial.toInt c.toInt ∧ max initial.toInt c.toInt < 2 ^ 15 :=
    ⟨le_min initial.le_toInt c.le_toInt, max_lt initial.toInt_lt c.toInt_lt⟩
  have hc : ∀ x ∈ List.replicate n c,
      min initial.toInt c.toInt ≤ x.toInt ∧ x.toInt ≤ max initial.toInt c.toInt := by
    intro x hx
    rw [List.eq_of_mem_replicate hx]
    exact ⟨min_le_right _ _, le_max_right _ _⟩
  have hbetween := (between_init hshift (min_le_left initial.toInt c.toInt)
    (le_max_left _ _)).filterAfter hrange hc
  exact hbetween.exact hrange (min_le_right _ _) (le_max_right _ _)

lemma accumulator_replicate :
    (filterAfter (mclibSampleFilterInit shift initial) (List.replicate n c)).accumulator.toInt =
      difference shift initial c n + (2 ^ shift.toNat * c.toInt - c.toInt) := by
  induction n with
  | zero =>
    change (mclibSampleFilterInit shift initial).accumulator.toInt =
      (2 ^ shift.toNat - 1) * (initial.toInt - c.toInt) + _
    rw [accumulator_init hshift]
    ring
  | succ n ih =>
    have hexact := exact_replicate hshift initial c n
    rw [List.replicate_succ', filterAfter_concat, hexact.accumulator, hexact.output, hexact.sum,
      weight_replicate, ih, add_assoc, sub_add_cancel]
    have hleak := leak_add_mul (pow_ne_zero shift.toNat (by decide : (2 : Int) ≠ 0))
      (difference shift initial c n) c.toInt
    rw [sub_mul, one_mul] at hleak
    rw [difference_succ]
    exact hleak

lemma output_replicate :
    (mclibSampleFilterUpdate (filterAfter (mclibSampleFilterInit shift initial)
        (List.replicate n c)) c).2.toInt =
      difference shift initial c n / 2 ^ shift.toNat + c.toInt := by
  have hexact := exact_replicate hshift initial c n
  rw [hexact.narrow, hexact.output, weight_replicate, accumulator_replicate hshift, add_assoc,
    sub_add_cancel, Int.add_mul_ediv_left _ _ (pow_ne_zero _ (by decide))]

end Constant

end Filter

/-- Between samples and an initial value from an interval no update overflows, the narrowing of the
output loses nothing, and every output is in the interval. -/
theorem output_mem_of_samples {shift : UInt16} {initial : Int16} {lo hi : Int}
    {samples : List Int16} (hshift : shift.toNat ≤ 15)
    (hinitial : lo ≤ initial.toInt ∧ initial.toInt ≤ hi)
    (hsamples : ∀ x ∈ samples, lo ≤ x.toInt ∧ x.toInt ≤ hi) :
    (mclibSampleFilterInit shift initial).accumulator.toInt =
        2 ^ shift.toNat * initial.toInt - initial.toInt ∧
      ∀ before sample behind, samples = before ++ sample :: behind →
        Exact (filterAfter (mclibSampleFilterInit shift initial) before) sample ∧
        lo ≤ (mclibSampleFilterUpdate
          (filterAfter (mclibSampleFilterInit shift initial) before) sample).2.toInt ∧
        (mclibSampleFilterUpdate
          (filterAfter (mclibSampleFilterInit shift initial) before) sample).2.toInt ≤ hi := by
  refine ⟨accumulator_init hshift initial, ?_⟩
  intro before sample behind hsplit
  have hrange : -2 ^ 15 ≤ max lo (-2 ^ 15) ∧ min hi (2 ^ 15 - 1) < 2 ^ 15 := by omega
  have hin : ∀ x : Int16, lo ≤ x.toInt ∧ x.toInt ≤ hi →
      max lo (-2 ^ 15) ≤ x.toInt ∧ x.toInt ≤ min hi (2 ^ 15 - 1) := by
    intro x hx
    have hlt := x.toInt_lt
    have hle := x.le_toInt
    omega
  have hbefore : ∀ x ∈ before, max lo (-2 ^ 15) ≤ x.toInt ∧ x.toInt ≤ min hi (2 ^ 15 - 1) := by
    intro x hx
    apply hin x (hsamples x _)
    rw [hsplit]
    exact List.mem_append_left _ hx
  have hsample : max lo (-2 ^ 15) ≤ sample.toInt ∧ sample.toInt ≤ min hi (2 ^ 15 - 1) := by
    apply hin sample (hsamples sample _)
    rw [hsplit]
    exact List.mem_append_right _ List.mem_cons_self
  have hinit := hin initial hinitial
  have hbetween := (between_init hshift hinit.1 hinit.2).filterAfter hrange hbefore
  obtain ⟨-, hlo, hhi⟩ := hbetween.update hrange hsample.1 hsample.2
  exact ⟨hbetween.exact hrange hsample.1 hsample.2, by omega, by omega⟩

/-- The largest sums of either sign. -/
theorem output_mem_of_samples_extremes :
    (mclibSampleFilterUpdate
        (filterAfter (mclibSampleFilterInit 15 (-32768)) [-32768]) 32767).2.toInt ≤ 32767 ∧
      Exact (filterAfter (mclibSampleFilterInit 15 (-32768)) [-32768]) 32767 := by
  have h := (@output_mem_of_samples 15 (-32768) (-32768) 32767 [-32768, 32767] (by decide)
    (by decide) (List.forall_mem_cons.mpr ⟨by decide, List.forall_mem_singleton.mpr (by decide)⟩)).2
    [-32768] 32767 [] rfl
  exact ⟨h.2.2, h.1⟩

end KlipperMcu.Acquisition
