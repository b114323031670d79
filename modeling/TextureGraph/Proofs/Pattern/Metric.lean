import Mathlib.Analysis.Normed.Lp.PiLp
import TextureGraph.Pattern.Cells
import TextureGraph.Proofs.Space.Inverse

/-!
# Metrics are norms

In real arithmetic, the length of a vector in a metric is a norm: that of `ℓ²` along the straight line, that
of `ℓ¹` for the sum along the axes and that of `ℓ^∞` for the largest coordinate (`Metric.spread_eq_norm`).
So distances in a metric change by no more than the length of the step between two positions
(`Metric.abs_spread_sub_le`).
-/

namespace TextureGraph.Metric

open scoped ENNReal

/-- The exponent of the norm that measures distances. -/
noncomputable def exponent : Metric → ℝ≥0∞
  | .euclidean => (2 : ℕ)
  | .cityBlock => 1
  | .chessBoard => ∞

instance (m : Metric) : Fact (1 ≤ m.exponent) := by
  cases m
  · exact ⟨Nat.one_le_ofNat⟩
  · exact ⟨le_rfl⟩
  · exact ⟨le_top⟩

variable (m : Metric)

theorem chessBoard_spread (e : Vec ℝ) :
    chessBoard.spread e = max (max (|e.x|) |e.y|) |e.z| := by
  show Arith.max (Arith.max (|e.x|) |e.y|) |e.z| = _
  rw [ExactArith.max_real, ExactArith.max_real]

/-- **The spread of an error is its norm.** -/
theorem spread_eq_norm (e : Vec ℝ) : m.spread e = ‖WithLp.toLp m.exponent e.toFun‖ := by
  cases m with
  | euclidean =>
    show √(|e.x| * |e.x| + |e.y| * |e.y| + |e.z| * |e.z|) = ‖WithLp.toLp 2 e.toFun‖
    rw [PiLp.norm_eq_of_L2, Fin.sum_univ_three, sq, sq, sq]
    rfl
  | cityBlock =>
    show |e.x| + |e.y| + |e.z| = ‖WithLp.toLp 1 e.toFun‖
    rw [PiLp.norm_eq_of_L1, Fin.sum_univ_three]
    rfl
  | chessBoard =>
    have hcomponent : ∀ i, |e.toFun i| ≤ ‖e.toFun‖ := norm_le_pi_norm e.toFun
    show _ = ‖WithLp.toLp ∞ e.toFun‖
    rw [chessBoard_spread, PiLp.norm_toLp]
    refine le_antisymm ?_ ?_
    · exact max_le (max_le (hcomponent 0) (hcomponent 1)) (hcomponent 2)
    · refine (pi_norm_le_iff_of_nonneg (by positivity)).mpr fun i => ?_
      fin_cases i
      · exact (le_max_left _ _).trans (le_max_left _ _)
      · exact (le_max_right _ _).trans (le_max_left _ _)
      · exact le_max_right _ _

/-- The length of a vector is its norm. -/
theorem measure_eq_spread (d : Vec ℝ) : (m.measure d).1 = m.spread d := by
  cases m with
  | euclidean =>
    have hlength : d.abs.length = d.length := by
      show √(|d.x| * |d.x| + |d.y| * |d.y| + |d.z| * |d.z|) = √(d.x * d.x + d.y * d.y + d.z * d.z)
      rw [abs_mul_abs_self, abs_mul_abs_self, abs_mul_abs_self]
    rw [measure, spread, hlength]
    simp only [ExactOrder.beq_iff, ExactArith.zero_eq]
    split_ifs with hzero
    · exact hzero.symm
    · rfl
  | cityBlock => rfl
  | chessBoard =>
    have habs : d.abs = ⟨|d.x|, |d.y|, |d.z|⟩ := rfl
    rw [chessBoard_spread, measure, habs]
    simp only [Bool.and_eq_true, decide_eq_true_eq]
    split_ifs with hfirst hsecond
    · rw [max_eq_left hfirst.1, max_eq_left hfirst.2]
    -- Where the first coordinate is not the largest, only the other two are compared.
    · have hxy : |d.x| ≤ |d.y| :=
        le_of_not_gt fun hlt => hfirst ⟨hlt.le, hsecond.trans hlt.le⟩
      rw [max_eq_right hxy, max_eq_left hsecond]
    · have hyz : |d.y| < |d.z| := lt_of_not_ge hsecond
      have hxz : |d.x| ≤ |d.z| :=
        le_of_not_gt fun hlt => hfirst ⟨hyz.le.trans hlt.le, hlt.le⟩
      rw [max_eq_right (max_le hxz hyz.le)]

/-- No coordinate exceeds the length. -/
theorem abs_le_spread (d : Vec ℝ) (i : Fin 3) : |d.toFun i| ≤ m.spread d := by
  rw [spread_eq_norm]
  exact PiLp.norm_apply_le (WithLp.toLp m.exponent d.toFun) i

/-- Larger coordinates do not make a vector shorter. -/
theorem spread_mono {d e : Vec ℝ} (h : ∀ i, |d.toFun i| ≤ |e.toFun i|) : m.spread d ≤ m.spread e := by
  have hx : |d.x| ≤ |e.x| := h 0
  have hy : |d.y| ≤ |e.y| := h 1
  have hz : |d.z| ≤ |e.z| := h 2
  cases m with
  | euclidean =>
    show √(|d.x| * |d.x| + |d.y| * |d.y| + |d.z| * |d.z|)
      ≤ √(|e.x| * |e.x| + |e.y| * |e.y| + |e.z| * |e.z|)
    gcongr
  | cityBlock =>
    show |d.x| + |d.y| + |d.z| ≤ |e.x| + |e.y| + |e.z|
    gcongr
  | chessBoard =>
    rw [chessBoard_spread, chessBoard_spread]
    gcongr

theorem spread_sub_comm (d e : Vec ℝ) : m.spread (d - e) = m.spread (e - d) := by
  rw [spread_eq_norm, spread_eq_norm, Vec.toFun_sub, Vec.toFun_sub, WithLp.toLp_sub, WithLp.toLp_sub,
    norm_sub_rev]

theorem abs_spread_sub_le (d e : Vec ℝ) : |m.spread d - m.spread e| ≤ m.spread (d - e) := by
  rw [spread_eq_norm, spread_eq_norm, spread_eq_norm, Vec.toFun_sub, WithLp.toLp_sub]
  exact abs_norm_sub_norm_le _ _

end TextureGraph.Metric
