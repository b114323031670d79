import Mathlib.Analysis.Calculus.Deriv.Mul
import Mathlib.Analysis.Calculus.Deriv.Pow
import Mathlib.MeasureTheory.Integral.DivergenceTheorem
import TextureGraph.Proofs.Estimate.Mixing

/-!
# Mean weights are interval means

`Mean.fraction_isMean`: in real arithmetic, `Mean.fraction` is the mean over an interval of what is
confined to the interval from zero to one (`unitClamp`).  So it is a weight, and it does not fall when the
interval is moved up.

An antiderivative in closed form (`Mean.clampedArea_eq`) shows that the cases of `Mean.fraction` compute
the mean; that the mean is monotone is seen from the integral itself.
-/

namespace TextureGraph

theorem unitClamp_of_nonpos {a : ℝ} (h : a ≤ 0) : unitClamp a = 0 := by
  rw [unitClamp_of_le_one (h.trans zero_le_one), max_eq_right h]

theorem unitClamp_of_one_le {a : ℝ} (h : 1 ≤ a) : unitClamp a = 1 := by
  rw [unitClamp_of_nonneg (zero_le_one.trans h), min_eq_right h]

theorem unitClamp_of_mem {a : ℝ} (h0 : 0 ≤ a) (h1 : a ≤ 1) : unitClamp a = a := by
  rw [unitClamp_of_nonneg h0, min_eq_left h1]

theorem continuous_unitClamp : Continuous unitClamp :=
  continuous_const.max (continuous_const.min continuous_id)

namespace Mean

/-! ### The area under the clamped line -/

/-- The integral of the clamped number from zero. -/
noncomputable def clampedArea (u : ℝ) : ℝ :=
  ∫ t in (0 : ℝ)..u, unitClamp t

/-- Below zero, between zero and one, and above one, the closed form rises by the clamped number. -/
theorem hasDerivAt_clampedArea {t : ℝ} (h0 : t ≠ 0) (h1 : t ≠ 1) :
    HasDerivAt (fun u => unitClamp u ^ 2 / 2 + max (u - 1) 0) (unitClamp t) t := by
  rcases lt_or_gt_of_ne h0 with hneg | hpos
  · rw [unitClamp_of_nonpos hneg.le]
    refine (hasDerivAt_const t (0 : ℝ)).congr_of_eventuallyEq ?_
    filter_upwards [Iio_mem_nhds hneg] with u hu
    rw [unitClamp_of_nonpos (Set.mem_Iio.mp hu).le, max_eq_right (by linarith [Set.mem_Iio.mp hu])]
    norm_num
  rcases lt_or_gt_of_ne h1 with hlt | hgt
  · rw [unitClamp_of_mem hpos.le hlt.le]
    refine HasDerivAt.congr_of_eventuallyEq (f := fun u => u ^ 2 / 2) ?_ ?_
    · exact ((hasDerivAt_pow 2 t).div_const 2).congr_deriv (by norm_num)
    · filter_upwards [Ioo_mem_nhds hpos hlt] with u hu
      rw [unitClamp_of_mem hu.1.le hu.2.le, max_eq_right (by linarith [hu.2]), add_zero]
  · rw [unitClamp_of_one_le hgt.le]
    refine HasDerivAt.congr_of_eventuallyEq (f := fun u => 1 / 2 + (u - 1)) ?_ ?_
    · exact ((hasDerivAt_id t).sub_const 1).const_add _
    · filter_upwards [Ioi_mem_nhds hgt] with u hu
      rw [unitClamp_of_one_le (Set.mem_Ioi.mp hu).le, max_eq_left (by linarith [Set.mem_Ioi.mp hu])]
      norm_num

/-- **The area in closed form.** -/
theorem clampedArea_eq (u : ℝ) : clampedArea u = unitClamp u ^ 2 / 2 + max (u - 1) 0 := by
  have hzero : unitClamp 0 ^ 2 / 2 + max ((0 : ℝ) - 1) 0 = 0 := by
    rw [unitClamp_of_nonpos le_rfl]
    norm_num
  have hcontinuous : Continuous fun u => unitClamp u ^ 2 / 2 + max (u - 1) 0 :=
    ((continuous_unitClamp.pow 2).div_const 2).add
      ((continuous_id.sub continuous_const).max continuous_const)
  have hintegral := MeasureTheory.integral_eq_of_hasDerivAt_off_countable
    (fun u => unitClamp u ^ 2 / 2 + max (u - 1) 0) unitClamp (a := 0) (b := u)
    (Set.toFinite {0, 1}).countable hcontinuous.continuousOn
    (fun t ht => hasDerivAt_clampedArea (fun h => ht.2 (.inl h)) (fun h => ht.2 (.inr h)))
    (continuous_unitClamp.intervalIntegrable 0 u)
  rw [clampedArea, hintegral, hzero, sub_zero]

theorem clampedArea_sub (a b : ℝ) : clampedArea b - clampedArea a = ∫ t in a..b, unitClamp t :=
  intervalIntegral.integral_interval_sub_left (continuous_unitClamp.intervalIntegrable 0 b)
    (continuous_unitClamp.intervalIntegrable 0 a)

/-! ### The mean weight -/

/-- The cases of the mean weight are those of the ends of the interval. -/
theorem fraction_eq_area_div (x : ℝ) {e : ℝ} (he : 0 < e) :
    fraction x e = (clampedArea (x + e) - clampedArea (x - e)) / (2 * e) := by
  have hwidth : x + e - (x - e) = 2 * e := by ring
  have hpos : 0 < 2 * e := by positivity
  rw [eq_div_iff hpos.ne', clampedArea_eq, clampedArea_eq]
  unfold fraction
  simp only [ExactArith.zero_eq, ExactArith.one_eq, ExactArith.half_eq, ExactArith.two_eq,
    ExactArith.max_real, ExactArith.min_real, Bool.or_eq_true, decide_eq_true_eq]
  split_ifs with hbelow habove hbeyond
  · rw [unitClamp_of_nonpos hbelow, unitClamp_of_nonpos (by linarith),
      max_eq_right (show x + e - 1 ≤ 0 by linarith), max_eq_right (show x - e - 1 ≤ 0 by linarith)]
    ring
  · rw [unitClamp_of_one_le habove, unitClamp_of_one_le (by linarith),
      max_eq_left (show 0 ≤ x + e - 1 by linarith), max_eq_left (show 0 ≤ x - e - 1 by linarith)]
    ring
  -- Of the ends, the lower one may be cut off at zero only and the upper one at one only.
  · rw [div_mul_cancel₀ _ hpos.ne', unitClamp_of_nonneg (not_le.mp hbelow).le,
      unitClamp_of_le_one (not_le.mp habove).le, max_eq_right (show x - e - 1 ≤ 0 by linarith)]
    ring
  · rw [not_or, not_lt, not_lt] at hbeyond
    rw [unitClamp_of_mem (by linarith) hbeyond.2, unitClamp_of_mem hbeyond.1 (by linarith),
      max_eq_right (show x + e - 1 ≤ 0 by linarith), max_eq_right (show x - e - 1 ≤ 0 by linarith)]
    ring

theorem fraction_eq_integral_div (x : ℝ) {e : ℝ} (he : 0 < e) :
    fraction x e = (∫ t in -e..e, unitClamp (x + t)) / (2 * e) := by
  rw [fraction_eq_area_div x he, clampedArea_sub, intervalIntegral.integral_comp_add_left,
    ← sub_eq_add_neg]

theorem fraction_mono {e : ℝ} (he : 0 ≤ e) : Monotone fun x : ℝ => fraction x e := by
  intro x y hxy
  dsimp only
  rcases he.eq_or_lt with rfl | hpos
  · rw [fraction_exact, fraction_exact]
    exact unitClamp_mono hxy
  · have hcontinuous : ∀ z : ℝ, Continuous fun t => unitClamp (z + t) := fun z =>
      continuous_unitClamp.comp (continuous_const.add continuous_id)
    have hends : -e ≤ e := (neg_nonpos.mpr he).trans he
    rw [fraction_eq_integral_div x hpos, fraction_eq_integral_div y hpos]
    refine div_le_div_of_nonneg_right ?_ (by positivity)
    refine intervalIntegral.integral_mono hends ((hcontinuous x).intervalIntegrable _ _)
      ((hcontinuous y).intervalIntegrable _ _) fun t => ?_
    exact unitClamp_mono (add_le_add_left hxy t)

/-- **The mean weight is the mean over an interval**: in real arithmetic, let a number be known up to an
error.

* With an error above zero, its mean weight is the mean over the interval of the numbers it may be, each
  confined to the interval from zero to one; without an error, it is the number itself, so confined.
* It lies between zero and one, and it does not fall when the number rises. -/
theorem fraction_isMean :
    (∀ x e : ℝ, 0 < e →
      fraction x e = (clampedArea (x + e) - clampedArea (x - e)) / (2 * e)) ∧
    (∀ x : ℝ, fraction x 0 = max 0 (min 1 x)) ∧
    ∀ e : ℝ, 0 ≤ e → (∀ x, fraction x e ∈ Set.Icc 0 1) ∧ Monotone fun x => fraction x e := by
  refine ⟨fun x e he => fraction_eq_area_div x he, fraction_exact, fun e he => ⟨fun x => ?_, ?_⟩⟩
  · obtain ⟨hlow, hhigh⟩ := fraction_mem x he
    exact ⟨(unitClamp_nonneg _).trans hlow, hhigh.trans (unitClamp_le_one _)⟩
  · exact fraction_mono he

/-- An interval that reaches beyond zero and beyond one. -/
theorem fraction_isMean_beyond :
    (0 : ℝ) < 1 ∧ fraction (1 / 4 : ℝ) 1 = 3 / 8 ∧ fraction (1 / 4 : ℝ) 1 ∈ Set.Icc 0 1 ∧
      fraction (0 : ℝ) 1 ≤ fraction (1 / 4) 1 := by
  obtain ⟨harea, -, hrange⟩ := fraction_isMean
  refine ⟨one_pos, (harea (1 / 4) 1 one_pos).trans ?_, (hrange 1 zero_le_one).1 _,
    (hrange 1 zero_le_one).2 (by norm_num)⟩
  rw [clampedArea_eq, clampedArea_eq, unitClamp_of_one_le (by norm_num),
    unitClamp_of_nonpos (by norm_num)]
  norm_num

end Mean

end TextureGraph
