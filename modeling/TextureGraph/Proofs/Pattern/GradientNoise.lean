import Mathlib.Analysis.Calculus.Deriv.Shift
import TextureGraph.Pattern.GradientNoise
import TextureGraph.Proofs.Estimate.ClampedMean
import TextureGraph.Proofs.Estimate.Derivative

/-!
# The gradient of the noise is its derivative

`Pattern.hasFDerivAt_gradientNoise`: in real arithmetic, the noise has a derivative at every position, on the
planes, edges and corners of the lattice as well as inside of a cell.  The derivative is the gradient that
comes with the noise, and both are continuous.

The noise is computed cell by cell.  Here it is seen from the lattice points instead.  Along each axis, the
weight of a lattice point is a bump that rises from zero to one and falls back to zero within the two cells
beside it (`bump`).  A lattice point adds a linear function with this weight (`latticeTerm`), and the noise is
the sum over the whole lattice (`gradientNoise_eq_finsum`), in which no borders are left.  Around a position
only finitely many lattice points add something (`locallyFinite_latticeTerm`), so that the sum is
differentiated term by term (`hasFDerivAt_pointTerm`).  The lattice is infinite, for the integers that the
real numbers count with have no bounds (`ExactArith`).
-/

namespace TextureGraph

namespace Pattern

open Filter Topology

/-! ### Fading -/

theorem fade_eq (t : ℝ) : fade t = t * t * t * (t * (t * 6 - 15) + 10) := by
  norm_num [fade, ExactArith.literal_eq]

theorem fadeSlope_eq (t : ℝ) : fadeSlope t = 30 * t * t * (t * (t - 2) + 1) := by
  norm_num [fadeSlope, ExactArith.literal_eq]

theorem hasDerivAt_fade (t : ℝ) : HasDerivAt fade (fadeSlope t) t := by
  have hid := hasDerivAt_id' t
  have hproduct := ((hid.mul hid).mul hid).mul
    ((hid.mul ((hid.mul_const 6).sub_const 15)).add_const 10)
  refine (hproduct.congr_of_eventuallyEq (.of_forall fade_eq)).congr_deriv ?_
  rw [fadeSlope_eq]
  simp only [Pi.mul_apply]
  ring

/-- A function that stands still at both ends of the unit interval can be continued by constants. -/
theorem hasDerivAt_comp_unitClamp {f f' : ℝ → ℝ} (hf : ∀ t, HasDerivAt f (f' t) t) (h0 : f' 0 = 0)
    (h1 : f' 1 = 0) (t : ℝ) : HasDerivAt (fun u => f (unitClamp u)) (f' (unitClamp t)) t := by
  by_cases ht : t ∈ Set.Ioo 0 1
  · rw [unitClamp_of_mem ht.1.le ht.2.le]
    refine (hf t).congr_of_eventuallyEq ?_
    filter_upwards [Ioo_mem_nhds ht.1 ht.2] with u hu
    rw [unitClamp_of_mem hu.1.le hu.2.le]
  · have hzero : f' (unitClamp t) = 0 := by
      rcases le_or_gt t 0 with hle | hpos
      · rw [unitClamp_of_nonpos hle, h0]
      · rw [unitClamp_of_one_le (not_lt.mp fun hlt => ht ⟨hpos, hlt⟩), h1]
    -- The function changes slowly there, and its argument no faster than `u`.
    have hslow := (hasDerivAt_iff_isLittleO.mp (hf (unitClamp t))).comp_tendsto
      (continuous_unitClamp.tendsto t)
    have hclamp : ∀ u, ‖unitClamp u - unitClamp t‖ ≤ ‖u - t‖ := by
      intro u
      unfold unitClamp
      rw [max_comm 0, max_comm 0, min_comm 1, min_comm 1]
      refine (abs_max_sub_max_le_abs _ _ _).trans ((abs_min_sub_min_le_max _ _ _ _).trans ?_)
      rw [sub_self, abs_zero, max_eq_left (abs_nonneg _)]
      exact le_rfl
    rw [hasDerivAt_iff_isLittleO]
    simp only [hzero, smul_zero, sub_zero] at hslow ⊢
    exact hslow.trans_isBigO (Asymptotics.isBigO_of_le _ hclamp)

/-- The weight of a lattice coordinate, by the way from it: one at the coordinate, zero from the neighbouring
ones on. -/
noncomputable def bump (t : ℝ) : ℝ :=
  fade (unitClamp (t + 1)) - fade (unitClamp t)

/-- The derivative of `bump`. -/
noncomputable def bumpSlope (t : ℝ) : ℝ :=
  fadeSlope (unitClamp (t + 1)) - fadeSlope (unitClamp t)

theorem hasDerivAt_bump (t : ℝ) : HasDerivAt bump (bumpSlope t) t := by
  have hfade := hasDerivAt_comp_unitClamp hasDerivAt_fade (by norm_num [fadeSlope_eq])
    (by norm_num [fadeSlope_eq])
  exact ((hfade (t + 1)).comp_add_const t 1).sub (hfade t)

@[fun_prop]
theorem continuous_bump : Continuous bump :=
  continuous_iff_continuousAt.mpr fun t => (hasDerivAt_bump t).continuousAt

@[fun_prop]
theorem continuous_bumpSlope : Continuous bumpSlope := by
  have hslope : Continuous (fadeSlope : ℝ → ℝ) := by
    rw [funext fadeSlope_eq]
    fun_prop
  exact (hslope.comp (continuous_unitClamp.comp (continuous_add_const 1))).sub
    (hslope.comp continuous_unitClamp)

/-- From the neighbouring coordinates on, the weight stays zero. -/
theorem bump_eq_zero {t : ℝ} (h : 1 ≤ |t|) : bump t = 0 ∧ bumpSlope t = 0 := by
  have hclamp : unitClamp (t + 1) = unitClamp t := by
    rcases le_abs.mp h with hle | hle
    · rw [unitClamp_of_one_le hle, unitClamp_of_one_le (by linarith)]
    · rw [unitClamp_of_nonpos (by linarith), unitClamp_of_nonpos (by linarith)]
  rw [bump, bumpSlope, hclamp, sub_self, sub_self]
  exact ⟨rfl, rfl⟩

/-- Within a cell, the bumps are the weights of its ends. -/
theorem endWeight_eq_bump (upper : Bool) {a : ℝ} (h0 : 0 ≤ a) (h1 : a ≤ 1) :
    endWeight upper (fade a) = bump (a - Arith.ofBool upper) ∧
      endSlope upper (fadeSlope a) = bumpSlope (a - Arith.ofBool upper) := by
  have hself := unitClamp_of_mem h0 h1
  cases upper with
  | false =>
    have hone : unitClamp (a - 0 + 1) = 1 := unitClamp_of_one_le (by linarith)
    have hself' : unitClamp (a - 0) = a := by rw [sub_zero, hself]
    rw [Arith.ofBool, if_neg Bool.false_ne_true, ExactArith.zero_eq, bump, bumpSlope, hone, hself']
    norm_num [endWeight, endSlope, fade_eq, fadeSlope_eq]
  | true =>
    have hzero : unitClamp (a - 1) = 0 := unitClamp_of_nonpos (by linarith)
    have hself' : unitClamp (a - 1 + 1) = a := by rw [sub_add_cancel, hself]
    rw [Arith.ofBool, if_pos rfl, ExactArith.one_eq, bump, bumpSlope, hzero, hself']
    norm_num [endWeight, endSlope, fade_eq, fadeSlope_eq]

/-! ### What a lattice point adds -/

/-- A linear function with the slope `g`, at the place `d` as seen from where it vanishes, with a weight along
each axis; and its gradient by the product rule. -/
noncomputable def weighted (g d weight slope : Vec ℝ) : ℝ × Vec ℝ :=
  let along := g.dot d
  let w := weight.x * weight.y * weight.z
  (w * along,
    { x := slope.x * weight.y * weight.z * along + w * g.x
      y := weight.x * slope.y * weight.z * along + w * g.y
      z := weight.x * weight.y * slope.z * along + w * g.z })

theorem cornerTerm_eq_weighted (base : Vec Int) (t : Vec ℝ) (corner : Vec Bool) :
    cornerTerm base t corner
      = weighted
          (latticeSlope (base.x + corner.x.toNat) (base.y + corner.y.toNat) (base.z + corner.z.toNat))
          (t - corner.map Arith.ofBool) (Vec.zipWith endWeight corner (t.map fade))
          (Vec.zipWith endSlope corner (t.map fadeSlope)) :=
  rfl

/-- What a lattice point with the slope `g` adds to the noise and to its gradient, at the place `d` as seen
from the lattice point. -/
noncomputable def pointTerm (g d : Vec ℝ) : ℝ × Vec ℝ :=
  weighted g d (d.map bump) (d.map bumpSlope)

theorem weighted_eq_zero (g d : Vec ℝ) {weight slope : Vec ℝ} {i : Fin 3} (hweight : weight.toFun i = 0)
    (hslope : slope.toFun i = 0) : weighted g d weight slope = (0, ⟨0, 0, 0⟩) := by
  obtain ⟨wx, wy, wz⟩ := weight
  obtain ⟨sx, sy, sz⟩ := slope
  fin_cases i
  · obtain rfl : wx = 0 := hweight
    obtain rfl : sx = 0 := hslope
    simp [weighted]
  · obtain rfl : wy = 0 := hweight
    obtain rfl : sy = 0 := hslope
    simp [weighted]
  · obtain rfl : wz = 0 := hweight
    obtain rfl : sz = 0 := hslope
    simp [weighted]

/-- A lattice point adds nothing outside of the eight cells around it. -/
theorem pointTerm_eq_zero (g : Vec ℝ) {d : Vec ℝ} {i : Fin 3} (h : 1 ≤ |d.toFun i|) :
    pointTerm g d = (0, ⟨0, 0, 0⟩) := by
  apply weighted_eq_zero (i := i)
  · rw [Vec.toFun_map, (bump_eq_zero h).1]
  · rw [Vec.toFun_map, (bump_eq_zero h).2]

/-- **What a lattice point adds has its gradient as the derivative.** -/
theorem hasFDerivAt_pointTerm (g n : Vec ℝ) (p : ℝ × ℝ × ℝ) :
    HasFDerivAt (fun v => (pointTerm g (.ofTriple v - n)).1)
      (pointTerm g (.ofTriple p - n)).2.functional p := by
  have hx := (hasFDerivAt_fst (𝕜 := ℝ) (p := p)).sub_const n.x
  have hy := ((hasFDerivAt_snd (𝕜 := ℝ) (p := p)).fst).sub_const n.y
  have hz := ((hasFDerivAt_snd (𝕜 := ℝ) (p := p)).snd).sub_const n.z
  have hweight := (((hasDerivAt_bump _).comp_hasFDerivAt p hx).mul
    ((hasDerivAt_bump _).comp_hasFDerivAt p hy)).mul ((hasDerivAt_bump _).comp_hasFDerivAt p hz)
  have halong := ((hx.const_mul g.x).add (hy.const_mul g.y)).add (hz.const_mul g.z)
  have hd : Vec.ofTriple p - n = ⟨p.1 - n.x, p.2.1 - n.y, p.2.2 - n.z⟩ := rfl
  refine (hweight.mul halong).congr_fderiv ?_
  rw [hd]
  ext <;>
    · simp [Vec.functional_apply, pointTerm, weighted, Vec.map, Vec.dot]
      ring

/-- The value as it is, and the gradient as the linear map that it stands for. -/
noncomputable def parts (term : ℝ × Vec ℝ) : ℝ × (ℝ × ℝ × ℝ →L[ℝ] ℝ) :=
  (term.1, term.2.functional)

theorem continuous_parts_pointTerm (g n : Vec ℝ) :
    Continuous fun v => parts (pointTerm g (.ofTriple v - n)) := by
  have hd : ∀ v, Vec.ofTriple v - n = ⟨v.1 - n.x, v.2.1 - n.y, v.2.2 - n.z⟩ := fun _ => rfl
  simp only [hd, parts, pointTerm, weighted, Vec.functional, Vec.map, Vec.dot]
  fun_prop

/-! ### The sum over the lattice -/

/-- What a lattice point adds at a position. -/
noncomputable def latticeTerm (n : Vec Int) (v : ℝ × ℝ × ℝ) : ℝ × (ℝ × ℝ × ℝ →L[ℝ] ℝ) :=
  parts (pointTerm (latticeSlope n.x n.y n.z) (.ofTriple v - n.map Int.cast))

/-- A lattice point that adds something is less than one away along each axis. -/
theorem abs_sub_lt_one {n : Vec Int} {v : ℝ × ℝ × ℝ} (h : latticeTerm n v ≠ 0) (i : Fin 3) :
    |(Vec.ofTriple v).toFun i - n.toFun i| < 1 := by
  by_contra hfar
  have hd : (Vec.ofTriple v - n.map Int.cast).toFun i = (Vec.ofTriple v).toFun i - n.toFun i := by
    rw [Vec.toFun_sub, Pi.sub_apply, Vec.toFun_map]
  have hzero : Vec.functional ⟨0, 0, 0⟩ = 0 := by
    ext <;> simp [Vec.functional_apply]
  apply h
  rw [latticeTerm, pointTerm_eq_zero _ (hd ▸ not_lt.mp hfar), parts, hzero]
  rfl

/-- Around a position, only finitely many lattice points add something. -/
theorem locallyFinite_latticeTerm : LocallyFinite fun n => Function.support (latticeTerm n) := by
  intro p
  refine ⟨Metric.ball p 1, Metric.ball_mem_nhds p one_pos, ?_⟩
  have hbox : (Set.Icc (fun i => ⌊(Vec.ofTriple p).toFun i⌋ - 2)
      (fun i => ⌊(Vec.ofTriple p).toFun i⌋ + 2)).Finite := Set.finite_Icc _ _
  refine (hbox.preimage Vec.toFun_injective.injOn).subset ?_
  rintro n ⟨v, hv, hball⟩
  have hnear : ∀ i, |(Vec.ofTriple v).toFun i - (Vec.ofTriple p).toFun i| < 1 := by
    rw [Metric.mem_ball, Prod.dist_eq, Prod.dist_eq, max_lt_iff, max_lt_iff] at hball
    intro i
    fin_cases i
    · exact hball.1
    · exact hball.2.1
    · exact hball.2.2
  have hbounds : ∀ i, ⌊(Vec.ofTriple p).toFun i⌋ - 2 ≤ n.toFun i ∧
      n.toFun i ≤ ⌊(Vec.ofTriple p).toFun i⌋ + 2 := by
    intro i
    have hpoint := abs_lt.mp (abs_sub_lt_one hv i)
    have hmoved := abs_lt.mp (hnear i)
    have hfloor := Int.floor_le ((Vec.ofTriple p).toFun i)
    have hceil := Int.lt_floor_add_one ((Vec.ofTriple p).toFun i)
    have hlow : (⌊(Vec.ofTriple p).toFun i⌋ - 2 : ℝ) < n.toFun i := by linarith
    have hhigh : (n.toFun i : ℝ) < ⌊(Vec.ofTriple p).toFun i⌋ + 3 := by linarith
    norm_cast at hlow hhigh
    omega
  exact ⟨fun i => (hbounds i).1, fun i => (hbounds i).2⟩

/-- A corner of the cell of a position. -/
noncomputable def vertex (p : Vec ℝ) (corner : Vec Bool) : Vec Int :=
  Vec.zipWith (fun n upper => n + upper.toNat) (p.map (⌊·⌋)) corner

theorem vertex_injective (p : Vec ℝ) : Function.Injective (vertex p) := by
  have htoNat : Function.Injective Bool.toNat := by decide
  rintro ⟨a, b, c⟩ ⟨a', b', c'⟩ h
  simp only [vertex, Vec.zipWith, Vec.mk.injEq, add_right_inj, Nat.cast_inj] at h
  rw [htoNat h.1, htoNat h.2.1, htoNat h.2.2]

theorem mem_corners (corner : Vec Bool) : corner ∈ corners := by
  obtain ⟨a, b, c⟩ := corner
  cases a <;> cases b <;> cases c <;> simp [corners]

theorem nodup_corners : corners.Nodup := by
  simp [corners]

/-- Only the corners of its cell add something at a position. -/
theorem exists_vertex {n : Vec Int} {v : ℝ × ℝ × ℝ} (h : latticeTerm n v ≠ 0) :
    ∃ corner, vertex (.ofTriple v) corner = n := by
  have hend : ∀ i, ∃ upper : Bool, ⌊(Vec.ofTriple v).toFun i⌋ + (upper.toNat : Int) = n.toFun i := by
    intro i
    have hpoint := abs_lt.mp (abs_sub_lt_one h i)
    have hfloor := Int.floor_le ((Vec.ofTriple v).toFun i)
    have hceil := Int.lt_floor_add_one ((Vec.ofTriple v).toFun i)
    have hlow : (⌊(Vec.ofTriple v).toFun i⌋ : ℝ) - 1 < n.toFun i := by linarith
    have hhigh : (n.toFun i : ℝ) < ⌊(Vec.ofTriple v).toFun i⌋ + 2 := by linarith
    norm_cast at hlow hhigh
    obtain heq | heq : n.toFun i = ⌊(Vec.ofTriple v).toFun i⌋ ∨
        n.toFun i = ⌊(Vec.ofTriple v).toFun i⌋ + 1 := by omega
    · exact ⟨false, by simp [heq]⟩
    · exact ⟨true, by simp [heq]⟩
  choose upper hupper using hend
  refine ⟨⟨upper 0, upper 1, upper 2⟩, Vec.toFun_injective (funext fun i => ?_)⟩
  rw [vertex, Vec.toFun_zipWith, Vec.toFun_map, ← hupper i]
  fin_cases i <;> rfl

/-- At a position, the corners of its cell add up to the sum over the lattice. -/
theorem finsum_latticeTerm (v : ℝ × ℝ × ℝ) :
    ∑ᶠ n, latticeTerm n v
      = (corners.map fun corner => latticeTerm (vertex (.ofTriple v) corner) v).sum := by
  classical
  have hsupport : (Function.support fun n => latticeTerm n v)
      ⊆ ((corners.map (vertex (.ofTriple v))).toFinset : Set (Vec Int)) := by
    intro n hn
    obtain ⟨corner, hcorner⟩ := exists_vertex hn
    rw [List.coe_toFinset, Set.mem_ofPred_eq, List.mem_map]
    exact ⟨corner, mem_corners corner, hcorner⟩
  rw [finsum_eq_sum_of_support_subset _ hsupport,
    List.sum_toFinset _ (nodup_corners.map (vertex_injective _)), List.map_map]
  rfl

/-- What a corner of its cell adds at a position is what the lattice point there adds. -/
theorem parts_cornerTerm (p : Vec ℝ) (corner : Vec Bool) :
    parts (cornerTerm (p.map (⌊·⌋)) (p.map Int.fract) corner)
      = latticeTerm (vertex p corner) (p.x, p.y, p.z) := by
  have hplace : p.map Int.fract - corner.map Arith.ofBool
      = Vec.ofTriple (p.x, p.y, p.z) - (vertex p corner).map Int.cast := by
    refine Vec.toFun_injective (funext fun i => ?_)
    have htoNat : ∀ upper : Bool, (Arith.ofBool upper : ℝ) = ((upper.toNat : Int) : ℝ) := by
      intro upper
      cases upper <;> simp [Arith.ofBool]
    show (p.map Int.fract - corner.map Arith.ofBool).toFun i = (p - _).toFun i
    rw [Vec.toFun_sub, Vec.toFun_sub, Pi.sub_apply, Pi.sub_apply, Vec.toFun_map, Vec.toFun_map,
      Vec.toFun_map, vertex, Vec.toFun_zipWith, Vec.toFun_map, htoNat, Int.cast_add, Int.fract,
      sub_sub]
  have hend : ∀ i, endWeight (corner.toFun i) (fade (Int.fract (p.toFun i)))
        = bump (Int.fract (p.toFun i) - Arith.ofBool (corner.toFun i)) ∧
      endSlope (corner.toFun i) (fadeSlope (Int.fract (p.toFun i)))
        = bumpSlope (Int.fract (p.toFun i) - Arith.ofBool (corner.toFun i)) := fun i =>
    endWeight_eq_bump _ (Int.fract_nonneg _) (Int.fract_lt_one _).le
  have hweight : Vec.zipWith endWeight corner ((p.map Int.fract).map fade)
      = (p.map Int.fract - corner.map Arith.ofBool).map bump := by
    refine Vec.toFun_injective (funext fun i => ?_)
    simp only [Vec.toFun_zipWith, Vec.toFun_map, Vec.toFun_sub, Pi.sub_apply, (hend i).1]
  have hslope : Vec.zipWith endSlope corner ((p.map Int.fract).map fadeSlope)
      = (p.map Int.fract - corner.map Arith.ofBool).map bumpSlope := by
    refine Vec.toFun_injective (funext fun i => ?_)
    simp only [Vec.toFun_zipWith, Vec.toFun_map, Vec.toFun_sub, Pi.sub_apply, (hend i).2]
  rw [cornerTerm_eq_weighted, hweight, hslope, hplace]
  rfl

/-- Terms and gradients that are added up side by side. -/
theorem parts_foldl {ι : Type} (term : ι → ℝ × Vec ℝ) (l : List ι) (start : ℝ × Vec ℝ) :
    parts (l.foldl (fun (value, gradient) i => (value + (term i).1, gradient + (term i).2)) start)
      = parts start + (l.map fun i => parts (term i)).sum := by
  induction l generalizing start with
  | nil => rw [List.foldl_nil, List.map_nil, List.sum_nil, add_zero]
  | cons i l ih =>
    rw [List.foldl_cons, ih, List.map_cons, List.sum_cons, ← add_assoc]
    simp [parts]

/-- The noise is the sum of what the corners of a cell add. -/
theorem parts_gradientNoise (p : Vec ℝ) :
    parts (gradientNoise p)
      = (corners.map fun corner =>
          parts (cornerTerm (p.map (⌊·⌋)) (p.map Int.fract) corner)).sum := by
  have hbase : (p.map Arith.floor).map Arith.floorInt = p.map (⌊·⌋) := by
    simp only [Vec.map, Vec.mk.injEq]
    exact ⟨Int.floor_intCast _, Int.floor_intCast _, Int.floor_intCast _⟩
  have hfract : p - p.map Arith.floor = p.map Int.fract := rfl
  have hstart : parts (0, (Vec.zero : Vec ℝ)) = 0 := by
    rw [parts, Vec.functional_zero]
    rfl
  have hfold : gradientNoise p
      = corners.foldl
          (fun (value, gradient) corner =>
            (value + (cornerTerm ((p.map Arith.floor).map Arith.floorInt) (p - p.map Arith.floor)
                corner).1,
              gradient + (cornerTerm ((p.map Arith.floor).map Arith.floorInt) (p - p.map Arith.floor)
                corner).2))
          (0.0, Vec.zero) := rfl
  rw [hfold, hbase, hfract, parts_foldl, ExactArith.zero_eq, hstart, zero_add]

theorem gradientNoise_fst (p : Vec ℝ) :
    (gradientNoise p).1
      = (corners.map fun corner => (cornerTerm (p.map (⌊·⌋)) (p.map Int.fract) corner).1).sum := by
  have hvalue := congrArg Prod.fst (parts_gradientNoise p)
  rw [← AddMonoidHom.coe_fst, map_list_sum, List.map_map] at hvalue
  exact hvalue

/-- **The noise is a sum over the lattice.** -/
theorem gradientNoise_eq_finsum (v : ℝ × ℝ × ℝ) :
    parts (gradientNoise (.ofTriple v)) = ∑ᶠ n, latticeTerm n v := by
  rw [finsum_latticeTerm, parts_gradientNoise]
  simp only [parts_cornerTerm]
  rfl

/-! ### The derivative -/

/-- **The gradient of the noise is its derivative**: in real arithmetic, at every position, on the planes, edges
and corners of the lattice as well as inside of a cell, the noise has a derivative, and this is the linear map
that its gradient stands for: the components of the gradient are the partial derivatives.  The noise and each
component of its gradient are continuous. -/
theorem hasFDerivAt_gradientNoise :
    (∀ p : Vec ℝ, HasFDerivAt (fun v => (gradientNoise (.ofTriple v)).1)
      (gradientNoise p).2.functional (p.x, p.y, p.z)) ∧
    Continuous (fun v => (gradientNoise (.ofTriple v : Vec ℝ)).1) ∧
    ∀ i, Continuous (fun v => (gradientNoise (.ofTriple v : Vec ℝ)).2.toFun i) := by
  have hcontinuous : Continuous fun v => parts (gradientNoise (.ofTriple v)) := by
    simp only [gradientNoise_eq_finsum]
    exact continuous_finsum (fun n => continuous_parts_pointTerm _ _) locallyFinite_latticeTerm
  refine ⟨fun p => ?_, hcontinuous.fst, fun i => ?_⟩
  · -- Around the position, the sum over the lattice is a finite one.
    obtain ⟨near, hnear⟩ := finsum_eventually_eq_sum locallyFinite_latticeTerm (p.x, p.y, p.z)
    have hparts : ∀ᶠ v in 𝓝 (p.x, p.y, p.z),
        parts (gradientNoise (.ofTriple v)) = ∑ n ∈ near, latticeTerm n v := by
      filter_upwards [hnear] with v hv
      rw [gradientNoise_eq_finsum, hv]
    have hsum : HasFDerivAt (fun v => ∑ n ∈ near, (latticeTerm n v).1)
        (∑ n ∈ near, (latticeTerm n (p.x, p.y, p.z)).2) (p.x, p.y, p.z) :=
      .fun_sum fun n _ => hasFDerivAt_pointTerm _ _ _
    refine (hsum.congr_of_eventuallyEq ?_).congr_fderiv ?_
    · filter_upwards [hparts] with v hv
      exact (congrArg Prod.fst hv).trans Prod.fst_sum
    · exact ((congrArg Prod.snd hparts.self_of_nhds).trans Prod.snd_sum).symm
  · -- A component of the gradient is what the linear map takes a unit vector to.
    have happly : ∀ w, Continuous fun v => (gradientNoise (.ofTriple v)).2.functional w := fun w =>
      hcontinuous.snd.clm_apply continuous_const
    fin_cases i
    · simpa [Vec.functional_apply, Vec.toFun] using happly (1, 0, 0)
    · simpa [Vec.functional_apply, Vec.toFun] using happly (0, 1, 0)
    · simpa [Vec.functional_apply, Vec.toFun] using happly (0, 0, 1)

end Pattern

end TextureGraph
