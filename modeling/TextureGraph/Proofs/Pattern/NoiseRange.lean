import Mathlib.Data.Real.Basic
import TextureGraph.Catalog.Basic
import TextureGraph.Proofs.Graph.ExactEvaluation
import TextureGraph.Proofs.Graph.KindSafety
import TextureGraph.Proofs.Pattern.GradientNoise
import TextureGraph.Proofs.Pattern.Octaves

/-!
# The range of the noise

`FrozenGraph.noise_range`: in real arithmetic, the noise lies between `-3 / 2` and `3 / 2`, whatever slopes the
lattice points carry, and it is zero at the lattice points.  So a `noise` module stays around one half, within
what the amplitudes of its octaves allow.

* Within a cell the noise is a mean of linear functions, for the weights of the corners are not negative and
  add up to one (`sum_corners`).  A linear function whose slope is the edge of a cube grows no faster than the
  distances along the axes do (`abs_dot_edgeDirection_le`).
* Along each axis, the mean distance from the two ends of an interval is at most one half
  (`meanDistance_le_half`): the fade is on the same side of one half as the place.
* An octave is at most kept in full (`share_le_one`), so the bounds of the octaves add up
  (`abs_fractal_le`).

All of this holds at every distance from the origin, for the integers that the real numbers count with have
no bounds (`ExactArith`).
-/

namespace TextureGraph

namespace Pattern

/-! ### Means along an axis -/

theorem fade_mem {t : ℝ} (h : t ∈ Set.Icc 0 1) : fade t ∈ Set.Icc 0 1 := by
  have hlow : fade t = t ^ 3 * (6 * (t - 5 / 4) ^ 2 + 5 / 8) := by
    rw [fade_eq]
    ring
  have hhigh : 1 - fade t = (1 - t) ^ 3 * (6 * (t + 1 / 4) ^ 2 + 5 / 8) := by
    rw [fade_eq]
    ring
  have hcube : 0 ≤ t ^ 3 := pow_nonneg h.1 3
  have hcube' : 0 ≤ (1 - t) ^ 3 := pow_nonneg (sub_nonneg.mpr h.2) 3
  constructor
  · rw [hlow]
    positivity
  · rw [← sub_nonneg, hhigh]
    positivity

theorem endWeight_nonneg (upper : Bool) {t : ℝ} (h : t ∈ Set.Icc 0 1) : 0 ≤ endWeight upper (fade t) := by
  cases upper with
  | false => simpa [endWeight] using (fade_mem h).2
  | true => simpa [endWeight] using (fade_mem h).1

theorem endWeight_add (t : ℝ) : endWeight false (fade t) + endWeight true (fade t) = 1 := by
  simp [endWeight]

/-- **The mean distance** from the two ends of the unit interval, with their weights, is at most one half. -/
theorem meanDistance_le_half {t : ℝ} (h : t ∈ Set.Icc 0 1) :
    endWeight false (fade t) * |t - Arith.ofBool false| + endWeight true (fade t) * |t - Arith.ofBool true|
      ≤ 1 / 2 := by
  -- The fade and the place are on the same side of one half.
  have hside : (fade t - 1 / 2) * (t - 1 / 2)
      = (t - 1 / 2) ^ 2 * (6 * (t * (1 - t) + 1 / 6) ^ 2 + 5 / 6) := by
    rw [fade_eq]
    ring
  have hnonneg : 0 ≤ (fade t - 1 / 2) * (t - 1 / 2) := by
    rw [hside]
    positivity
  have hlower : |t - Arith.ofBool false| = t := by
    simp [Arith.ofBool, abs_of_nonneg h.1]
  have hupper : |t - Arith.ofBool true| = 1 - t := by
    rw [abs_sub_comm]
    simp [Arith.ofBool, abs_of_nonneg (sub_nonneg.mpr h.2)]
  rw [hlower, hupper]
  simp only [endWeight, if_true, Bool.false_eq_true, if_false, ExactArith.one_eq]
  linarith

/-! ### Means over a cell -/

/-- Weights along the axes that add up to one leave the means along the axes as they are. -/
theorem sum_corners {weight distance : Vec (Bool → ℝ)} (hx : weight.x false + weight.x true = 1)
    (hy : weight.y false + weight.y true = 1) (hz : weight.z false + weight.z true = 1) :
    (corners.map fun c => weight.x c.x * weight.y c.y * weight.z c.z
        * (distance.x c.x + distance.y c.y + distance.z c.z)).sum
      = (weight.x false * distance.x false + weight.x true * distance.x true)
        + (weight.y false * distance.y false + weight.y true * distance.y true)
        + (weight.z false * distance.z false + weight.z true * distance.z true) := by
  rw [← eq_sub_iff_add_eq] at hx hy hz
  simp only [corners, List.map_cons, List.map_nil, List.sum_cons, List.sum_nil, hx, hy, hz]
  ring

/-- The mean over the unit cube of the linear functions that vanish at its corners and have the given slopes
there. -/
noncomputable def cornerMean (slope : Vec Bool → Vec ℝ) (t : Vec ℝ) : ℝ :=
  (corners.map fun corner =>
    endWeight corner.x (fade t.x) * endWeight corner.y (fade t.y) * endWeight corner.z (fade t.z)
      * (slope corner).dot (t - corner.map Arith.ofBool)).sum

/-- The noise is the mean of the linear functions at the corners of its cell. -/
theorem gradientNoise_eq_cornerMean (p : Vec ℝ) :
    (gradientNoise p).1
      = cornerMean
          (fun corner =>
            let n := vertex p corner
            latticeSlope n.x n.y n.z)
          (p.map Int.fract) := by
  rw [gradientNoise_fst, cornerMean]
  refine congrArg List.sum (List.map_congr_left fun corner _ => ?_)
  rw [cornerTerm_eq_weighted, weighted]
  rfl

theorem latticeSlope_mem_range (x y z : Int) :
    (latticeSlope x y z : Vec ℝ) ∈ Set.range edgeDirection := by
  rw [latticeSlope]
  exact Set.mem_range_self _

/-- The edges of a cube reach no farther than one along each axis. -/
theorem abs_dot_edgeDirection_le (k : Nat) (d : Vec ℝ) :
    |(edgeDirection k).dot d| ≤ |d.x| + |d.y| + |d.z| := by
  have hunit : |(edgeDirection k : Vec ℝ).x| ≤ 1 ∧ |(edgeDirection k : Vec ℝ).y| ≤ 1 ∧
      |(edgeDirection k : Vec ℝ).z| ≤ 1 := by
    unfold edgeDirection
    split <;> simp
  have hscaled : ∀ {a b : ℝ}, |a| ≤ 1 → |a * b| ≤ |b| := by
    intro a b ha
    rw [abs_mul]
    exact mul_le_of_le_one_left (abs_nonneg b) ha
  calc |(edgeDirection k).dot d|
      ≤ |(edgeDirection k).x * d.x| + |(edgeDirection k).y * d.y| + |(edgeDirection k).z * d.z| :=
        abs_add_three _ _ _
    _ ≤ |d.x| + |d.y| + |d.z| :=
        add_le_add_three (hscaled hunit.1) (hscaled hunit.2.1) (hscaled hunit.2.2)

theorem abs_sum_map_le {ι : Type} (l : List ι) (f : ι → ℝ) :
    |(l.map f).sum| ≤ (l.map fun i => |f i|).sum := by
  simpa [Function.comp_def] using Multiset.abs_sum_le_sum_abs (s := (l.map f : Multiset ℝ))

/-- **The mean is bounded**, whichever edges the slopes at the corners are. -/
theorem abs_cornerMean_le {slope : Vec Bool → Vec ℝ}
    (hslope : ∀ corner, slope corner ∈ Set.range edgeDirection) {t : Vec ℝ}
    (ht : ∀ i, t.toFun i ∈ Set.Icc 0 1) : |cornerMean slope t| ≤ 3 / 2 := by
  let distance : Vec (Bool → ℝ) :=
    ⟨fun b => |t.x - Arith.ofBool b|, fun b => |t.y - Arith.ofBool b|, fun b => |t.z - Arith.ofBool b|⟩
  let weight : Vec (Bool → ℝ) :=
    ⟨fun b => endWeight b (fade t.x), fun b => endWeight b (fade t.y), fun b => endWeight b (fade t.z)⟩
  have hterm : ∀ corner : Vec Bool,
      |endWeight corner.x (fade t.x) * endWeight corner.y (fade t.y) * endWeight corner.z (fade t.z)
          * (slope corner).dot (t - corner.map Arith.ofBool)|
        ≤ weight.x corner.x * weight.y corner.y * weight.z corner.z
          * (distance.x corner.x + distance.y corner.y + distance.z corner.z) := by
    intro corner
    have hnonneg : 0 ≤ weight.x corner.x * weight.y corner.y * weight.z corner.z :=
      mul_nonneg (mul_nonneg (endWeight_nonneg _ (ht 0)) (endWeight_nonneg _ (ht 1)))
        (endWeight_nonneg _ (ht 2))
    obtain ⟨k, hk⟩ := hslope corner
    rw [abs_mul, abs_of_nonneg hnonneg, ← hk]
    exact mul_le_mul_of_nonneg_left (abs_dot_edgeDirection_le k _) hnonneg
  calc |cornerMean slope t|
      ≤ (corners.map fun corner => |_|).sum := abs_sum_map_le _ _
    _ ≤ (corners.map fun c => weight.x c.x * weight.y c.y * weight.z c.z
          * (distance.x c.x + distance.y c.y + distance.z c.z)).sum :=
        List.sum_le_sum fun corner _ => hterm corner
    _ = _ := sum_corners (endWeight_add t.x) (endWeight_add t.y) (endWeight_add t.z)
    _ ≤ 1 / 2 + 1 / 2 + 1 / 2 :=
        add_le_add_three (meanDistance_le_half (ht 0)) (meanDistance_le_half (ht 1))
          (meanDistance_le_half (ht 2))
    _ = 3 / 2 := by norm_num

theorem abs_gradientNoise_le (p : Vec ℝ) : |(gradientNoise p).1| ≤ 3 / 2 := by
  rw [gradientNoise_eq_cornerMean]
  refine abs_cornerMean_le (fun corner => latticeSlope_mem_range _ _ _) fun i => ?_
  rw [Vec.toFun_map]
  exact ⟨Int.fract_nonneg _, (Int.fract_lt_one _).le⟩

/-- At a corner, the linear function that vanishes there has all the weight. -/
theorem cornerMean_corner (slope : Vec Bool → Vec ℝ) : cornerMean slope ⟨0, 0, 0⟩ = 0 := by
  have hfade : fade (0 : ℝ) = 0 := by
    norm_num [fade_eq]
  have horigin : (⟨0, 0, 0⟩ : Vec ℝ) - ⟨0, 0, 0⟩ = ⟨0, 0, 0⟩ := by
    show (⟨0 - 0, 0 - 0, 0 - 0⟩ : Vec ℝ) = _
    rw [sub_zero]
  simp [cornerMean, corners, endWeight, hfade, Vec.map, Arith.ofBool, horigin, Vec.dot]

/-- **The noise vanishes at the lattice points.** -/
theorem gradientNoise_lattice (n : Vec Int) : (gradientNoise (n.map Int.cast : Vec ℝ)).1 = 0 := by
  have hplace : (n.map Int.cast).map Int.fract = (⟨0, 0, 0⟩ : Vec ℝ) := by
    simp [Vec.map]
  rw [gradientNoise_eq_cornerMean, hplace]
  exact cornerMean_corner _

/-! ### Octaves -/

theorem Mode.abs_orient (mode : Mode) (s : ℝ) (g : Vec ℝ) : |(mode.orient s g).1| = |s| := by
  cases mode with
  | signed => rfl
  | absolute =>
    rw [Mode.orient]
    split_ifs
    · exact abs_neg s
    · rfl

theorem abs_octave_le (mode : Mode) (p : Vec ℝ) (frequency amplitude : ℝ) :
    |(octave mode p frequency amplitude).1| ≤ |amplitude| * (3 / 2) := by
  rw [octave_eq_orient, Mode.abs_orient, abs_mul]
  exact mul_le_mul_of_nonneg_left (abs_gradientNoise_le _) (abs_nonneg _)

/-- An octave that is not left out is at most kept in full. -/
theorem share_le_one {limit : Option ℝ} {frequency : ℝ} (hpos : 0 < frequency)
    (hkept : isDropped limit frequency ≠ true) : share limit frequency ≤ 1 := by
  cases limit with
  | none => exact le_rfl
  | some limit =>
    rw [isDropped, ne_eq, decide_eq_true_eq, not_le] at hkept
    rw [share_some (hpos.trans hkept)]
    exact min_le_left _ _

/-- **The octaves are bounded** by their amplitudes, over every footprint. -/
theorem abs_fractal_le (mode : Mode) (octaves : ℕ) (amplitude persistence : ℝ) (p size : Vec ℝ) :
    |(fractal mode octaves amplitude persistence p size).value|
      ≤ 3 / 2 * |amplitude| * ∑ i ∈ Finset.range octaves, |persistence| ^ i := by
  have hparts := congrArg Prod.fst (parts_fractal mode octaves amplitude persistence p size)
  rw [Prod.fst_sum] at hparts
  refine (congrArg abs hparts).trans_le ((Finset.abs_sum_le_sum_abs _ _).trans ?_)
  rw [Finset.mul_sum]
  refine Finset.sum_le_sum fun i _ => ?_
  have hoctave := abs_octave_le mode p (2 ^ i) (amplitude * persistence ^ i)
  rw [abs_mul, abs_pow] at hoctave
  split_ifs with hdropped
  · simp only [Prod.fst_zero, abs_zero]
    positivity
  · rw [contribution, abs_mul, abs_of_pos (share_pos (by positivity) hdropped)]
    calc share _ (2 ^ i) * |(octave mode p (2 ^ i) (amplitude * persistence ^ i)).1|
        ≤ 1 * (|amplitude| * |persistence| ^ i * (3 / 2)) :=
          mul_le_mul (share_le_one (by positivity) hdropped) hoctave (abs_nonneg _) zero_le_one
      _ = 3 / 2 * |amplitude| * |persistence| ^ i := by ring

end Pattern

/-! ### Graphs -/

/-- The graph has noise of this number. -/
def Graph.HasNoise (g : Graph (Catalog ℝ) ℝ) (id : ModuleId) (e : Entry (Catalog ℝ) ℝ) (o : Octaves ℝ) :
    Prop :=
  g.entry? id = some e ∧ e.module = .texture (.noise o)

namespace FrozenGraph

open Pattern

variable {f : FrozenGraph (Catalog ℝ) ℝ} {id : ModuleId} {e : Entry (Catalog ℝ) ℝ} {o : Octaves ℝ}
  {q : Query ℝ}

/-- The output of noise can be asked for with every blur that is not negative. -/
theorem evaluate_noise (hg : f.graph.Consistent) (h : f.graph.freeze = .ok f)
    (hnoise : f.graph.HasNoise id e o) (hblur : 0 ≤ q.blur) :
    f.evaluateScalar ⟨id, 0⟩ q
      = .ok (1 / 2 + (o.estimate .signed (1 / 2) (f.graph.pull f.answers e) q).value) := by
  have hkind : (TextureModule.signature e.module : Signature ℝ).outputKind? 0 = some .scalar := by
    rw [hnoise.2]
    rfl
  rw [(evaluate_module (t := ⟨id, 0⟩) hg h hnoise.1 hkind (by decide) hblur).1, hnoise.2,
    ← ExactArith.half_eq]
  rfl

/-- **The range of the noise**, in real arithmetic.

* Whichever edges of a cube are the slopes at the corners of a cell, at every place in the cell the mean of
  the linear functions lies between `-3 / 2` and `3 / 2`.
* The noise is such a mean, with the slopes that the hash selects.  So it lies between `-3 / 2` and `3 / 2` at
  every position, and at the lattice points it is zero.
* Whatever changes have led to a graph without cycles, a `noise` module in it yields a number for every
  position, over every footprint and with every blur.  The number differs from one half by at most three
  quarters of the amplitude times the sum of the powers of the persistence, one for each octave. -/
theorem noise_range :
    (∀ slope : Vec Bool → Vec ℝ, (∀ corner, slope corner ∈ Set.range edgeDirection) →
      ∀ t : Vec ℝ, (∀ i, t.toFun i ∈ Set.Icc 0 1) → |cornerMean slope t| ≤ 3 / 2) ∧
    (∀ p : Vec ℝ,
      (gradientNoise p).1
          = cornerMean
              (fun corner =>
                let n := vertex p corner
                latticeSlope n.x n.y n.z)
              (p.map Int.fract) ∧
        |(gradientNoise p).1| ≤ 3 / 2) ∧
    (∀ n : Vec Int, (gradientNoise (n.map Int.cast : Vec ℝ)).1 = 0) ∧
    ∀ (name : String) (edits : List (Edit (Catalog ℝ) ℝ)) (f : FrozenGraph (Catalog ℝ) ℝ)
      (id : ModuleId) (e : Entry (Catalog ℝ) ℝ) (o : Octaves ℝ) (q : Query ℝ),
      (Graph.ofEdits name edits).freeze = .ok f → f.graph.HasNoise id e o → 0 ≤ q.blur →
        let persistence := (f.graph.pull f.answers e).value 3 q
        ∃ v, f.evaluateScalar ⟨id, 0⟩ q = .ok v ∧
          |v - 1 / 2| ≤ 3 / 4 * |o.amplitude| * ∑ i ∈ Finset.range o.count, |persistence| ^ i := by
  refine ⟨fun slope hslope t ht => abs_cornerMean_le hslope ht,
    fun p => ⟨gradientNoise_eq_cornerMean p, abs_gradientNoise_le p⟩, gradientNoise_lattice, ?_⟩
  intro name edits f id e o q h hnoise hblur persistence
  obtain ⟨hg, hf⟩ := Graph.freeze_ofEdits h
  refine ⟨_, evaluate_noise hg hf hnoise hblur, ?_⟩
  have hbound := abs_fractal_le .signed o.count (1 / 2 * o.amplitude) persistence
    ((f.graph.pull f.answers e).position q) ((f.graph.pull f.answers e).positionError q)
  have hamplitude : |1 / 2 * o.amplitude| = 1 / 2 * |o.amplitude| := by
    rw [abs_mul, abs_of_pos one_half_pos]
  rw [hamplitude] at hbound
  rw [add_sub_cancel_left, Octaves.estimate]
  linarith

end FrozenGraph

/-- Noise of its own, with two octaves. -/
noncomputable def onlyNoise : Graph (Catalog ℝ) ℝ :=
  Graph.ofEdits "noise" [.add (.texture (.noise ⟨2, 1⟩))]

theorem freeze_onlyNoise : onlyNoise.freeze = .ok ⟨onlyNoise, ⟨[⟨0⟩], 1⟩⟩ :=
  Graph.freeze_eq_ok (by decide +kernel)

/-- Over a footprint, with the persistence that nothing is bound to. -/
theorem FrozenGraph.noise_range_twoOctaves :
    ∃ f v, onlyNoise.freeze = .ok f ∧
      f.evaluateScalar ⟨⟨0⟩, 0⟩ ⟨⟨⟨1 / 3, 2, 0⟩, ⟨1 / 10, 0, 0⟩, 0, []⟩, 1 / 20⟩ = .ok v ∧
      |v - 1 / 2| ≤ 9 / 8 := by
  obtain ⟨-, -, -, hmodule⟩ := FrozenGraph.noise_range
  obtain ⟨v, hv, hbound⟩ := hmodule "noise" _ _ ⟨0⟩ _ ⟨2, 1⟩
    ⟨⟨⟨1 / 3, 2, 0⟩, ⟨1 / 10, 0, 0⟩, 0, []⟩, 1 / 20⟩ freeze_onlyNoise ⟨rfl, rfl⟩ (by norm_num)
  refine ⟨_, v, freeze_onlyNoise, hv, hbound.trans_eq ?_⟩
  show 3 / 4 * |(1 : ℝ)| * ∑ i ∈ Finset.range 2,
    |(Arith.toOfScientific.ofScientific 5 true 1 : ℝ)| ^ i = 9 / 8
  rw [ExactArith.half_eq, Finset.sum_range_succ, Finset.sum_range_one]
  norm_num

end TextureGraph
