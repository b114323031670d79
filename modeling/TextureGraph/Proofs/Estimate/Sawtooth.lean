import Mathlib.Analysis.SpecialFunctions.Integrals.Basic
import Mathlib.MeasureTheory.Function.Floor
import Mathlib.MeasureTheory.Integral.IntervalIntegral.Periodic
import TextureGraph.Expression.Basic
import TextureGraph.Pattern.Wood
import TextureGraph.Proofs.Number.ExactOrder

/-!
# Means of the sawtooth

The fractional part rises from zero to one between two whole numbers, and starts again at the second one.
`sawtoothArea` is its integral from zero (`integral_fract`) and `sawtoothMean` its mean over an interval.

Two places of the library average the sawtooth, and both find this mean:

* a remainder in an expression, which compares the whole parts of the ends of the interval
  (`BinaryOp.moduloBy_value`);
* the rings of wood, which compare the fractional parts of the ends (`Pattern.sawtooth_value`).
-/

namespace TextureGraph

/-! ### The integral of the fractional part -/

/-- The integral of the fractional part from zero. -/
noncomputable def sawtoothArea (u : ℝ) : ℝ :=
  (⌊u⌋ + Int.fract u ^ 2) / (2 : ℕ)

theorem sawtoothArea_eq (u : ℝ) : sawtoothArea u = (⌊u⌋ + Int.fract u ^ 2) / 2 := by
  rw [sawtoothArea, Nat.cast_ofNat]

/-- The mean of the fractional part over an interval. -/
noncomputable def sawtoothMean (lo hi : ℝ) : ℝ :=
  (sawtoothArea hi - sawtoothArea lo) / (hi - lo)

theorem intervalIntegrable_fract (a b : ℝ) :
    IntervalIntegrable (Int.fract : ℝ → ℝ) MeasureTheory.volume a b := by
  refine (intervalIntegrable_const (c := (1 : ℝ))).mono_fun' measurable_fract.aestronglyMeasurable
    (Filter.Eventually.of_forall fun t => ?_)
  exact (Real.norm_of_nonneg (Int.fract_nonneg t)).trans_le (Int.fract_lt_one t).le

/-- Within one tooth. -/
theorem integral_fract_tooth {n : ℤ} {u : ℝ} (hlow : n ≤ u) (hhigh : u ≤ n + 1) :
    ∫ t in (n : ℝ)..u, Int.fract t = (u - n) ^ 2 / 2 := by
  have hline : Set.EqOn (Int.fract : ℝ → ℝ) (fun t => t - n) (Set.Ioo (n : ℝ) u) := by
    intro t ht
    rw [Int.fract, Int.floor_eq_iff.mpr ⟨ht.1.le, ht.2.trans_le hhigh⟩]
  rw [intervalIntegral.integral_congr_Ioo_of_le hlow hline,
    intervalIntegral.integral_sub intervalIntegral.intervalIntegrable_id intervalIntegrable_const,
    integral_id, intervalIntegral.integral_const, smul_eq_mul]
  ring

/-- **The integral of the fractional part**: each whole tooth adds one half. -/
theorem integral_fract (u : ℝ) : ∫ t in (0 : ℝ)..u, Int.fract t = sawtoothArea u := by
  have hunit : ∫ t in (0 : ℝ)..0 + 1, Int.fract t = 1 / 2 := by
    have htooth := integral_fract_tooth (n := 0) (u := 1) (by norm_num) (by norm_num)
    norm_num at htooth ⊢
    exact htooth
  have hwhole : ∫ t in (0 : ℝ)..⌊u⌋, Int.fract t = ⌊u⌋ / 2 := by
    have hteeth := (Int.fract_periodic ℝ).intervalIntegral_add_zsmul_eq ⌊u⌋ 0 intervalIntegrable_fract
    rw [hunit, zero_add, zsmul_one, zsmul_eq_mul, mul_one_div] at hteeth
    exact hteeth
  have hpart : ∫ t in (⌊u⌋ : ℝ)..u, Int.fract t = Int.fract u ^ 2 / 2 :=
    integral_fract_tooth (Int.floor_le u) (Int.lt_floor_add_one u).le
  rw [← intervalIntegral.integral_add_adjacent_intervals (intervalIntegrable_fract 0 ⌊u⌋)
    (intervalIntegrable_fract ⌊u⌋ u), hwhole, hpart, sawtoothArea_eq, add_div]

/-! ### Means over an interval -/

section Interval

variable {lo hi : ℝ}

theorem sawtoothArea_sub (lo hi : ℝ) :
    sawtoothArea hi - sawtoothArea lo = ∫ t in lo..hi, Int.fract t := by
  rw [← integral_fract, ← integral_fract]
  exact intervalIntegral.integral_interval_sub_left (intervalIntegrable_fract 0 hi)
    (intervalIntegrable_fract 0 lo)

/-- A mean of fractional parts lies between zero and one, as they do. -/
theorem sawtoothMean_mem (h : lo < hi) : sawtoothMean lo hi ∈ Set.Icc 0 1 := by
  have hpos : 0 < hi - lo := sub_pos.mpr h
  have hnonneg : 0 ≤ ∫ t in lo..hi, Int.fract t :=
    intervalIntegral.integral_nonneg h.le fun t _ => Int.fract_nonneg t
  have hle : ∫ t in lo..hi, Int.fract t ≤ ∫ _ in lo..hi, (1 : ℝ) :=
    intervalIntegral.integral_mono h.le (intervalIntegrable_fract lo hi) intervalIntegrable_const
      fun t => (Int.fract_lt_one t).le
  rw [intervalIntegral.integral_const, smul_eq_mul, mul_one] at hle
  rw [sawtoothMean, sawtoothArea_sub]
  exact ⟨div_nonneg hnonneg hpos.le, (div_le_one hpos).mpr hle⟩

/-- Within one tooth, the mean is the fractional part of the middle. -/
theorem sawtoothMean_of_floor_eq (h : lo < hi) (hfloor : ⌊lo⌋ = ⌊hi⌋) :
    sawtoothMean lo hi = (hi + lo) / 2 - ⌊lo⌋ := by
  have hpos : 0 < hi - lo := sub_pos.mpr h
  rw [sawtoothMean, div_eq_iff hpos.ne', sawtoothArea_eq, sawtoothArea_eq, Int.fract, Int.fract, hfloor]
  ring

/-- Across the end of a tooth, an interval that is shorter than a tooth holds the upper part of one tooth and
the lower part of the next. -/
theorem sawtoothMean_of_floor_eq_add_one (hfloor : ⌊hi⌋ = ⌊lo⌋ + 1) :
    sawtoothMean lo hi
      = (Int.fract hi ^ 2 + (1 + Int.fract lo) * (1 - Int.fract lo)) / 2
        / (1 - Int.fract lo + Int.fract hi) := by
  have hwidth : hi - lo = 1 - Int.fract lo + Int.fract hi := by
    rw [Int.fract, Int.fract, hfloor]
    push_cast
    ring
  rw [sawtoothMean, hwidth, sawtoothArea_eq, sawtoothArea_eq, hfloor]
  push_cast
  ring

theorem floor_eq_or_eq_add_one (h : lo < hi) (hshort : hi < lo + 1) :
    ⌊hi⌋ = ⌊lo⌋ ∨ ⌊hi⌋ = ⌊lo⌋ + 1 := by
  have hlow : ⌊lo⌋ ≤ ⌊hi⌋ := Int.floor_mono h.le
  have hhigh : ⌊hi⌋ ≤ ⌊lo⌋ + 1 := by
    rw [← Int.floor_add_one]
    exact Int.floor_mono hshort.le
  omega

/-- Of an interval that is shorter than a tooth, the fractional parts of the ends tell whether it holds the end
of a tooth. -/
theorem fract_lt_fract_iff (h : lo < hi) (hshort : hi < lo + 1) :
    Int.fract lo < Int.fract hi ↔ ⌊hi⌋ = ⌊lo⌋ := by
  rcases floor_eq_or_eq_add_one h hshort with hfloor | hfloor
  · refine iff_of_true ?_ hfloor
    rw [Int.fract, Int.fract, hfloor]
    linarith
  · refine iff_of_false ?_ (by omega)
    rw [Int.fract, Int.fract, hfloor]
    push_cast
    linarith

end Interval

/-! ### Remainders -/

theorem Mean.sawtoothIntegral_eq (u : ℝ) : Mean.sawtoothIntegral u = sawtoothArea u := by
  show (Arith.toOfScientific.ofScientific 5 true 1 : ℝ) * (⌊u⌋ + Int.fract u * Int.fract u)
    = sawtoothArea u
  rw [ExactArith.half_eq, sawtoothArea_eq]
  ring

/-- **Remainders**: the mean remainder is the divisor times the mean fractional part of the quotient. -/
theorem BinaryOp.moduloBy_value (a b : Estimate ℝ) (ha : 0 < a.error) (hb : b.value ≠ 0) :
    (moduloBy a b).value = b.value *
      sawtoothMean (a.value / b.value - a.error / |b.value|)
        (a.value / b.value + a.error / |b.value|) := by
  have hspread : 0 < a.error / |b.value| := div_pos ha (abs_pos.mpr hb)
  unfold moduloBy
  simp only [ExactOrder.abs_eq, ExactOrder.beq_iff]
  generalize a.value / b.value = quotient
  generalize a.error / |b.value| = spread at hspread
  have hends : quotient - spread < quotient + spread := by linarith
  split_ifs with hfloor
  · replace hfloor : ⌊quotient - spread⌋ = ⌊quotient + spread⌋ := Int.cast_injective hfloor
    -- The quotient lies between the ends, so its whole part is theirs.
    have hwhole : ⌊quotient⌋ = ⌊quotient - spread⌋ :=
      le_antisymm ((Int.floor_mono (by linarith)).trans_eq hfloor.symm)
        (Int.floor_mono (by linarith))
    rw [sawtoothMean_of_floor_eq hends hfloor, ← hwhole]
    show b.value * (quotient - ⌊quotient⌋) = _
    ring
  · rw [Mean.sawtoothIntegral_eq, Mean.sawtoothIntegral_eq, mul_div_assoc, sawtoothMean]

/-- A divisor of zero is a pole: there, the remainder is zero, and so is the product. -/
theorem BinaryOp.modulo_value (a b : Estimate ℝ) (ha : 0 < a.error) (hb : b.error < |b.value|) :
    (BinaryOp.modulo.apply a b).value = b.value *
      sawtoothMean (a.value / b.value - a.error / |b.value|)
        (a.value / b.value + a.error / |b.value|) := by
  have hreach : Bound.reachesZero b.value b.error = true ↔ b.value = 0 := by
    rw [Bound.reachesZero, Bool.or_eq_true, ExactOrder.beq_iff, decide_eq_true_eq,
      ExactOrder.abs_eq, ExactArith.zero_eq]
    exact or_iff_left hb.not_ge
  show (if Bound.reachesZero b.value b.error then Estimate.pole else moduloBy a b).value = _
  split_ifs with hzero
  · rw [hreach.mp hzero, zero_mul]
    exact ExactArith.zero_eq
  · exact moduloBy_value a b ha (mt hreach.mpr hzero)

/-! ### Rings -/

namespace Pattern

/-- **Rings**: the sawtooth of the rings is its mean over their error. -/
theorem sawtooth_value (rings : Estimate ℝ) (hpos : 0 < rings.error) (hlt : rings.error < 1 / 2) :
    (sawtooth rings).value
      = sawtoothMean (rings.value - rings.error) (rings.value + rings.error) := by
  have hends : rings.value - rings.error < rings.value + rings.error := by linarith
  have hshort : rings.value + rings.error < rings.value - rings.error + 1 := by linarith
  have hfract : ∀ a : ℝ, a - Arith.floor a = Int.fract a := fun _ => rfl
  unfold sawtooth
  simp only [ExactOrder.beq_iff, ExactArith.zero_eq, ExactArith.half_eq, ExactArith.one_eq,
    ExactArith.two_eq, hfract, fract_lt_fract_iff hends hshort]
  rw [if_neg hpos.ne', if_neg hlt.not_ge]
  split_ifs with hfloor
  · rw [sawtoothMean_of_floor_eq hends hfloor.symm, Int.fract, Int.fract, hfloor]
    ring
  · rw [sawtoothMean_of_floor_eq_add_one ((floor_eq_or_eq_add_one hends hshort).resolve_left hfloor)]
    ring

end Pattern

end TextureGraph
