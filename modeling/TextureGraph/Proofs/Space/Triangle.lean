import Mathlib.LinearAlgebra.CrossProduct
import TextureGraph.Proofs.Space.Transform

/-!
# The weights of a triangle lead back to the position

`FrozenGraph.weights_reconstruct`: in real arithmetic, take a triangle whose frame can be inverted.  The
three weights of a position add up to one, and the corners with their weights, together with the normal
times the distance, add up to the position; the distance is the signed one from the plane of the triangle.
For a triangle without an area, all is zero.

The frame of a triangle has two of its edges and the unit normal as columns (`Triangle.frame`), so it takes
the last two weights and the distance to the position relative to the first corner (`frame_mulVec`), and
its inverse takes this back (`value_succ`).
-/

namespace TextureGraph

open Matrix

/-! ### Vectors by number -/

namespace Vec

theorem toFun_cross (v w : Vec ℝ) : (v.cross w).toFun = v.toFun ⨯₃ w.toFun := by
  rw [cross_apply]
  rfl

theorem dotProduct_self_nonneg (v : Fin 3 → ℝ) : 0 ≤ v ⬝ᵥ v :=
  Finset.sum_nonneg fun i _ => mul_self_nonneg (v i)

theorem length_eq (v : Vec ℝ) : v.length = √(v.toFun ⬝ᵥ v.toFun) := by
  rw [dotProduct_toFun]
  rfl

theorem length_nonneg (v : Vec ℝ) : 0 ≤ v.length :=
  Real.sqrt_nonneg _

theorem length_sq (v : Vec ℝ) : v.length ^ 2 = v.toFun ⬝ᵥ v.toFun := by
  rw [length_eq, Real.sq_sqrt (dotProduct_self_nonneg _)]

/-- An inner product with a unit vector does not exceed the length. -/
theorem abs_dotProduct_le_length {n : Fin 3 → ℝ} (hn : n ⬝ᵥ n = 1) (v : Vec ℝ) :
    |n ⬝ᵥ v.toFun| ≤ v.length := by
  have hcross : n ⨯₃ v.toFun ⬝ᵥ n ⨯₃ v.toFun
      = v.toFun ⬝ᵥ v.toFun - (n ⬝ᵥ v.toFun) ^ 2 := by
    rw [cross_dot_cross, hn, dotProduct_comm v.toFun n]
    ring
  refine abs_le_of_sq_le_sq ?_ v.length_nonneg
  rw [length_sq, ← sub_nonneg, ← hcross]
  exact dotProduct_self_nonneg _

end Vec

/-! ### The frame of a triangle -/

namespace Triangle

section Definitions

variable {α : Type} [Arith α]

/-- The unit vector that the edges turn counterclockwise around. -/
def normal (corners : Vec (Vec α)) : Vec α :=
  let product := (corners.y - corners.x).cross (corners.z - corners.x)
  product.scale (1.0 / product.length)

/-- The two edges at the first corner and the normal, as columns. -/
def frame (corners : Vec (Vec α)) : Mat α :=
  .ofColumns (corners.y - corners.x) (corners.z - corners.x) (normal corners)

end Definitions

variable {corners : Vec (Vec ℝ)}

theorem toFun_normal (corners : Vec (Vec ℝ)) :
    (normal corners).toFun
      = (1 / ((corners.y - corners.x).cross (corners.z - corners.x)).length)
          • (corners.y - corners.x).toFun ⨯₃ (corners.z - corners.x).toFun := by
  rw [normal, Vec.toFun_scale, Vec.toFun_cross, ExactArith.one_eq]

/-- The normal is perpendicular to the edges. -/
theorem normal_dotProduct_edges (corners : Vec (Vec ℝ)) :
    (normal corners).toFun ⬝ᵥ (corners.y - corners.x).toFun = 0 ∧
      (normal corners).toFun ⬝ᵥ (corners.z - corners.x).toFun = 0 := by
  rw [toFun_normal, smul_dotProduct, smul_dotProduct, dotProduct_comm, dot_self_cross,
    dotProduct_comm, dot_cross_self, smul_zero]
  exact ⟨rfl, rfl⟩

/-- The normal is a unit vector, unless the triangle has no area. -/
theorem normal_dotProduct_self
    (h : ((corners.y - corners.x).cross (corners.z - corners.x)).length ≠ 0) :
    (normal corners).toFun ⬝ᵥ (normal corners).toFun = 1 := by
  rw [toFun_normal, smul_dotProduct, dotProduct_smul, ← Vec.toFun_cross, ← Vec.length_sq, smul_eq_mul,
    smul_eq_mul]
  field_simp

/-- The frame takes coordinates along the edges and the normal to the vector that they are for. -/
theorem frame_mulVec (corners : Vec (Vec ℝ)) (t : Fin 3 → ℝ) :
    (frame corners).toMatrix *ᵥ t
      = t 0 • (corners.y - corners.x).toFun + t 1 • (corners.z - corners.x).toFun
        + t 2 • (normal corners).toFun := by
  refine funext fun i => ?_
  rw [mulVec, dotProduct, Fin.sum_univ_three]
  have hterms : ∀ e e' n : ℝ, e * t 0 + e' * t 1 + n * t 2 = t 0 * e + t 1 * e' + t 2 * n := by
    intro e e' n
    ring
  fin_cases i <;> exact hterms _ _ _

/-! ### The affine forms of a triangle -/

section Inverted

variable {m : Mat ℝ} (hm : LinearSolver.standard.invert (frame corners) = some m)

include hm

/-- The inverse of the frame takes back what the frame does. -/
theorem mulVec_frame_mulVec (t : Fin 3 → ℝ) :
    m.toMatrix *ᵥ ((frame corners).toMatrix *ᵥ t) = t := by
  rw [mulVec_mulVec, (LinearSolver.invert_eq_some Transform.epsilon_nonneg hm).2, one_mulVec]

theorem frame_mulVec_mulVec (v : Fin 3 → ℝ) :
    (frame corners).toMatrix *ᵥ (m.toMatrix *ᵥ v) = v := by
  rw [mulVec_mulVec, (LinearSolver.invert_eq_some Transform.epsilon_nonneg hm).1, one_mulVec]

/-- A triangle whose frame can be inverted has an area. -/
theorem length_ne_zero :
    ((corners.y - corners.x).cross (corners.z - corners.x)).length ≠ 0 := by
  intro hzero
  have hnormal : (normal corners).toFun = 0 := by
    rw [toFun_normal, hzero, div_zero, zero_smul]
  have hcolumn : (frame corners).toMatrix *ᵥ ![0, 0, 1] = 0 := by
    rw [frame_mulVec, hnormal]
    simp
  have hback := mulVec_frame_mulVec hm ![0, 0, 1]
  rw [hcolumn, mulVec_zero] at hback
  exact zero_ne_one (congrFun hback 2)

/-- The four forms of a triangle whose frame can be inverted. -/
theorem solveRows_eq :
    solveRows corners .standard
      = #v[⟨-(m.rows.x + m.rows.y), 1 - (-(m.rows.x + m.rows.y)).dot corners.x⟩,
          ⟨m.rows.x, -m.rows.x.dot corners.x⟩, ⟨m.rows.y, -m.rows.y.dot corners.x⟩,
          ⟨m.rows.z, -m.rows.z.dot corners.x⟩] := by
  have harea : ¬ (((corners.y - corners.x).cross (corners.z - corners.x)).length
      == Arith.toOfScientific.ofScientific 0 true 1
        || !Arith.isFinite ((corners.y - corners.x).cross (corners.z - corners.x)).length)
      = true := by
    -- Lengths of real vectors are finite, so the triangle is refused only if it has no area.
    rw [ExactOrder.isFinite_eq, Bool.not_true, Bool.or_false, ExactOrder.beq_iff, ExactArith.zero_eq]
    exact length_ne_zero hm
  have hframe := hm
  rw [frame, normal, ExactArith.one_eq] at hframe
  rw [solveRows, if_neg harea]
  simp only [hframe, ExactArith.one_eq, ExactArith.zero_eq, zero_sub]

/-- The forms of the last two weights and of the distance are the rows of the inverse, anchored at the
first corner. -/
theorem row_succ (i : Fin 3) :
    (Mapping.barycentric (solved corners .standard)).row (i + 1)
      = ⟨m.rows.toFun i, -(m.rows.toFun i).dot corners.x⟩ := by
  have hrow : (Mapping.barycentric (solved corners .standard)).row (i + 1)
      = ((solveRows corners .standard)[(i : Nat) + 1]?).getD .zero := rfl
  rw [hrow, solveRows_eq hm]
  fin_cases i <;> rfl

theorem row_zero :
    (Mapping.barycentric (solved corners .standard)).row 0
      = ⟨-(m.rows.x + m.rows.y), 1 - (-(m.rows.x + m.rows.y)).dot corners.x⟩ := by
  have hrow : (Mapping.barycentric (solved corners .standard)).row 0
      = ((solveRows corners .standard)[0]?).getD .zero := rfl
  rw [hrow, solveRows_eq hm]
  rfl

/-- **The last two weights and the distance** are what the inverse of the frame makes of the position
relative to the first corner. -/
theorem value_succ (inputs : Inputs ℝ) (q : Query ℝ) :
    (fun i : Fin 3 => ((Mapping.barycentric (solved corners .standard)).row (i + 1)).value inputs q)
      = m.toMatrix *ᵥ ((inputs.position q).toFun - corners.x.toFun) := by
  refine funext fun i => ?_
  rw [row_succ hm, AffineForm.value, ← Vec.dotProduct_toFun, ← Vec.dotProduct_toFun, ← sub_eq_add_neg,
    ← dotProduct_sub]
  rfl

/-- The weight of the first corner is what the others leave of one. -/
theorem value_zero (inputs : Inputs ℝ) (q : Query ℝ) :
    ((Mapping.barycentric (solved corners .standard)).row 0).value inputs q
      = 1 - ((Mapping.barycentric (solved corners .standard)).row 1).value inputs q
        - ((Mapping.barycentric (solved corners .standard)).row 2).value inputs q := by
  have hsum : (-(m.rows.x + m.rows.y)).toFun = -(m.rows.x.toFun + m.rows.y.toFun) := by
    refine funext fun i => ?_
    fin_cases i <;> rfl
  have hsecond : ((Mapping.barycentric (solved corners .standard)).row 1).value inputs q
      = m.rows.x.toFun ⬝ᵥ ((inputs.position q).toFun - corners.x.toFun) :=
    congrFun (value_succ hm inputs q) 0
  have hthird : ((Mapping.barycentric (solved corners .standard)).row 2).value inputs q
      = m.rows.y.toFun ⬝ᵥ ((inputs.position q).toFun - corners.x.toFun) :=
    congrFun (value_succ hm inputs q) 1
  rw [hsecond, hthird, row_zero hm, AffineForm.value, ← Vec.dotProduct_toFun, ← Vec.dotProduct_toFun,
    hsum]
  simp only [neg_dotProduct, add_dotProduct, dotProduct_sub]
  ring

end Inverted

/-! ### Weights and distance -/

/-- Weights of the corners and a distance along the normal that lead to a position. -/
structure Locates (corners : Vec (Vec ℝ)) (p : Vec ℝ) (u v w d : ℝ) : Prop where
  /-- The weights add up to one. -/
  sum_eq : u + v + w = 1
  /-- The weighted corners and the normal times the distance add up to the position. -/
  point_eq :
    corners.x.scale u + corners.y.scale v + corners.z.scale w + (normal corners).scale d = p

section Locates

variable {p : Vec ℝ} {u v w d : ℝ}

/-- Weights and distance are coordinates in the frame. -/
theorem locates_iff :
    Locates corners p u v w d ↔
      u = 1 - v - w ∧ (frame corners).toMatrix *ᵥ ![v, w, d] = p.toFun - corners.x.toFun := by
  have hpoint : u = 1 - v - w →
      (corners.x.scale u + corners.y.scale v + corners.z.scale w + (normal corners).scale d).toFun
        = (frame corners).toMatrix *ᵥ ![v, w, d] + corners.x.toFun := by
    rintro rfl
    simp only [frame_mulVec, Vec.toFun_add, Vec.toFun_scale, Vec.toFun_sub, cons_val_zero,
      cons_val_one, cons_val]
    module
  constructor
  · rintro ⟨hsum, hp⟩
    have hu : u = 1 - v - w := by linarith
    exact ⟨hu, by rw [← hp, hpoint hu, add_sub_cancel_right]⟩
  · rintro ⟨hu, hframe⟩
    refine ⟨by linarith, Vec.toFun_injective ?_⟩
    rw [hpoint hu, hframe, sub_add_cancel]

/-- There is only one choice of weights and distance, if the frame can be inverted. -/
theorem Locates.weights_unique {m : Mat ℝ} (hm : LinearSolver.standard.invert (frame corners) = some m)
    {u' v' w' d' : ℝ} (h : Locates corners p u v w d) (h' : Locates corners p u' v' w' d') :
    (u, v, w) = (u', v', w') := by
  obtain ⟨rfl, hframe⟩ := locates_iff.mp h
  obtain ⟨rfl, hframe'⟩ := locates_iff.mp h'
  have hcoordinates : ![v, w, d] = ![v', w', d'] := by
    rw [← mulVec_frame_mulVec hm ![v, w, d], hframe, ← hframe', mulVec_frame_mulVec hm]
  have hv : v = v' := congrFun hcoordinates 0
  have hw : w = w' := congrFun hcoordinates 1
  rw [hv, hw]

theorem locates_first (corners : Vec (Vec ℝ)) : Locates corners corners.x 1 0 0 0 := by
  rw [locates_iff, frame_mulVec]
  simp

theorem locates_second (corners : Vec (Vec ℝ)) : Locates corners corners.y 0 1 0 0 := by
  rw [locates_iff, frame_mulVec]
  simp [Vec.toFun_sub]

theorem locates_third (corners : Vec (Vec ℝ)) : Locates corners corners.z 0 0 1 0 := by
  rw [locates_iff, frame_mulVec]
  simp [Vec.toFun_sub]

variable (hunit : (normal corners).toFun ⬝ᵥ (normal corners).toFun = 1)

include hunit

/-- The distance is the part of the position along the normal. -/
theorem Locates.distance_eq (h : Locates corners p u v w d) :
    d = (normal corners).dot (p - corners.x) := by
  obtain ⟨hfirst, hsecond⟩ := normal_dotProduct_edges corners
  obtain ⟨-, hframe⟩ := locates_iff.mp h
  rw [← Vec.dotProduct_toFun, Vec.toFun_sub, ← hframe, frame_mulVec, dotProduct_add, dotProduct_add,
    dotProduct_smul, dotProduct_smul, dotProduct_smul, hfirst, hsecond, hunit]
  simp

/-- **The magnitude of the distance** is the least one to a point of the plane of the triangle. -/
theorem Locates.isLeast_distance (h : Locates corners p u v w d) :
    IsLeast {r | ∃ x : Vec ℝ, (normal corners).dot (x - corners.x) = 0 ∧ r = (p - x).length} |d| := by
  constructor
  · -- The foot of the perpendicular is the weighted sum of the corners.
    obtain ⟨hu, hframe⟩ := locates_iff.mp h
    refine ⟨corners.x.scale u + corners.y.scale v + corners.z.scale w, ?_, ?_⟩
    · have hfoot : Locates corners (corners.x.scale u + corners.y.scale v + corners.z.scale w)
          u v w 0 := by
        refine ⟨h.sum_eq, Vec.toFun_injective ?_⟩
        rw [Vec.toFun_add, Vec.toFun_scale, zero_smul, add_zero]
      exact (hfoot.distance_eq hunit).symm
    · have hperpendicular : (p - (corners.x.scale u + corners.y.scale v + corners.z.scale w)).toFun
          = d • (normal corners).toFun := by
        rw [Vec.toFun_sub, ← h.point_eq, Vec.toFun_add _ (Vec.scale _ _), add_sub_cancel_left,
          Vec.toFun_scale]
      rw [Vec.length_eq, hperpendicular, smul_dotProduct, dotProduct_smul, hunit, smul_eq_mul,
        smul_eq_mul, mul_one, Real.sqrt_mul_self_eq_abs]
  · rintro r ⟨x, hx, rfl⟩
    have hd : d = (normal corners).toFun ⬝ᵥ (p - x).toFun := by
      rw [h.distance_eq hunit, ← sub_zero (Vec.dot _ _), ← hx, ← Vec.dotProduct_toFun,
        ← Vec.dotProduct_toFun, ← dotProduct_sub]
      simp only [Vec.toFun_sub, sub_sub_sub_cancel_right]
    rw [hd]
    exact Vec.abs_dotProduct_le_length hunit _

end Locates

/-! ### Outputs -/

/-- **The outputs are the weights and the distance** of the position that the inputs give. -/
theorem locates_value {m : Mat ℝ} (hm : LinearSolver.standard.invert (frame corners) = some m)
    (inputs : Inputs ℝ) (q : Query ℝ) :
    let t := Mapping.barycentric (solved corners .standard)
    Locates corners (inputs.position q) ((t.row 0).value inputs q) ((t.row 1).value inputs q)
      ((t.row 2).value inputs q) ((t.row 3).value inputs q) := by
  refine locates_iff.mpr ⟨value_zero hm inputs q, ?_⟩
  rw [← frame_mulVec_mulVec hm (_ - _), ← value_succ hm inputs q]
  congr 1
  refine funext fun i => ?_
  fin_cases i <;> rfl

/-- All outputs of a triangle without an area are zero. -/
theorem row_of_cross_eq_zero (solver : LinearSolver ℝ)
    (h : (corners.y - corners.x).cross (corners.z - corners.x) = Vec.zero) (output : Nat) :
    (Mapping.barycentric (solved corners solver)).row output = .zero := by
  have hlength : ((corners.y - corners.x).cross (corners.z - corners.x)).length = 0 := by
    rw [h, Vec.length_eq, Vec.toFun_zero, zero_dotProduct, Real.sqrt_zero]
  have hrows : solveRows corners solver = .replicate 4 .zero := by
    rw [solveRows]
    refine if_pos ?_
    rw [Bool.or_eq_true, ExactOrder.beq_iff, ExactArith.zero_eq]
    exact .inl hlength
  show ((solveRows corners solver)[output]?).getD .zero = .zero
  rw [hrows, Vector.getElem?_replicate]
  split <;> rfl

end Triangle

/-! ### Graphs -/

/-- The graph has a triangle of this number. -/
def Graph.HasTriangle {α : Type} [Arith α] (g : Graph (Catalog α) α) (id : ModuleId)
    (e : Entry (Catalog α) α) (t : Triangle α) : Prop :=
  g.entry? id = some e ∧ e.module = .mapping (.barycentric t)

namespace FrozenGraph

variable {f : FrozenGraph (Catalog ℝ) ℝ}

theorem evaluate_triangle (hg : f.graph.Consistent) (h : f.graph.freeze = .ok f) {id : ModuleId}
    {e : Entry (Catalog ℝ) ℝ} {t : Triangle ℝ} (ht : f.graph.HasTriangle id e t) {output : Nat}
    (houtput : output < 4) {q : Query ℝ} (hblur : 0 ≤ q.blur) :
    let row := (Mapping.barycentric t).row output
    let inputs := f.graph.pull f.answers e
    f.evaluateScalar ⟨id, output⟩ q = .ok (row.value inputs q) ∧
      f.estimateError ⟨id, output⟩ q = .ok (max (row.error inputs q) 0) ∧
      f.evaluateGradient ⟨id, output⟩ q = .ok (row.gradient inputs q) :=
  evaluate_mapping hg h ht.1 ht.2 (by interval_cases output <;> rfl) hblur

/-- **Weights and distance lead back to the position**: in real arithmetic, whatever changes have led to a
graph without cycles, take the triangle with the corners `a`, `b` and `c`, and the unit vector `n` along
the product of its edges.

* If the frame of the triangle can be inverted, the outputs are found at every position and with every
  blur: the weights add up to one, and the weighted corners and `n` times the distance add up to the
  position.  So a corner has the weight one for itself and zero for the others.  The distance is positive
  on the side that `n` points to, and no point of the plane is nearer than its magnitude, but one is as
  near.
* If the triangle has no area, all outputs, errors and gradients are zero. -/
theorem weights_reconstruct (name : String) (edits : List (Edit (Catalog ℝ) ℝ))
    (h : (Graph.ofEdits name edits).freeze = .ok f) (a b c : Vec ℝ) :
    let n := Triangle.normal ⟨a, b, c⟩
    (LinearSolver.standard.invert (Triangle.frame ⟨a, b, c⟩) ≠ none →
      n.length = 1 ∧
      ∀ id e, f.graph.HasTriangle id e (.ofCorners a b c) → ∀ q : Query ℝ, 0 ≤ q.blur →
        let p := (f.graph.pull f.answers e).position q
        ∃ u v w d, f.evaluateScalar ⟨id, 0⟩ q = .ok u ∧ f.evaluateScalar ⟨id, 1⟩ q = .ok v ∧
          f.evaluateScalar ⟨id, 2⟩ q = .ok w ∧ f.evaluateScalar ⟨id, 3⟩ q = .ok d ∧
          u + v + w = 1 ∧ a.scale u + b.scale v + c.scale w + n.scale d = p ∧
          (p = a → (u, v, w) = (1, 0, 0)) ∧ (p = b → (u, v, w) = (0, 1, 0)) ∧
          (p = c → (u, v, w) = (0, 0, 1)) ∧
          d = n.dot (p - a) ∧
          IsLeast {r | ∃ x : Vec ℝ, n.dot (x - a) = 0 ∧ r = (p - x).length} |d|) ∧
    ((b - a).cross (c - a) = Vec.zero →
      ∀ solver id e, f.graph.HasTriangle id e (.solved ⟨a, b, c⟩ solver) →
        ∀ i < 4, ∀ q : Query ℝ, 0 ≤ q.blur →
          f.evaluateScalar ⟨id, i⟩ q = .ok 0 ∧ f.estimateError ⟨id, i⟩ q = .ok 0 ∧
            f.evaluateGradient ⟨id, i⟩ q = .ok Vec.zero) := by
  obtain ⟨hg, hf⟩ := Graph.freeze_ofEdits h
  refine ⟨fun hframe => ?_, fun harea solver id e ht i hi q hblur => ?_⟩
  · obtain ⟨m, hm⟩ := Option.ne_none_iff_exists'.mp hframe
    have hunit := Triangle.normal_dotProduct_self (Triangle.length_ne_zero hm)
    refine ⟨by rw [Vec.length_eq, hunit, Real.sqrt_one], fun id e ht q hblur => ?_⟩
    have hlocates := Triangle.locates_value hm (f.graph.pull f.answers e) q
    refine ⟨_, _, _, _, (evaluate_triangle hg hf ht (by decide) hblur).1,
      (evaluate_triangle hg hf ht (by decide) hblur).1,
      (evaluate_triangle hg hf ht (by decide) hblur).1,
      (evaluate_triangle hg hf ht (by decide) hblur).1, hlocates.sum_eq, hlocates.point_eq,
      fun hp => ?_, fun hp => ?_, fun hp => ?_, hlocates.distance_eq hunit,
      hlocates.isLeast_distance hunit⟩
    · rw [hp] at hlocates
      exact hlocates.weights_unique hm (Triangle.locates_first _)
    · rw [hp] at hlocates
      exact hlocates.weights_unique hm (Triangle.locates_second _)
    · rw [hp] at hlocates
      exact hlocates.weights_unique hm (Triangle.locates_third _)
  · obtain ⟨hscalar, hreported, hvector⟩ := evaluate_triangle hg hf ht hi hblur
    rw [hscalar, hreported, hvector, Triangle.row_of_cross_eq_zero solver harea i,
      AffineForm.value_zero, AffineForm.error_zero, AffineForm.gradient_zero, max_self]
    exact ⟨rfl, rfl, rfl⟩

end FrozenGraph

/-- The corners of a triangle that stands upright on the first axis. -/
def upright : Vec (Vec ℝ) :=
  ⟨⟨-1, 0, 0⟩, ⟨1, 0, 0⟩, ⟨-1, 0, 1⟩⟩

theorem edges_upright :
    upright.y - upright.x = ⟨2, 0, 0⟩ ∧ upright.z - upright.x = ⟨0, 0, 1⟩ := by
  have hfirst : upright.y - upright.x = ⟨1 - -1, 0 - 0, 0 - 0⟩ := rfl
  have hsecond : upright.z - upright.x = ⟨-1 - -1, 0 - 0, 1 - 0⟩ := rfl
  rw [hfirst, hsecond]
  norm_num

theorem normal_upright : Triangle.normal upright = ⟨0, -1, 0⟩ := by
  have hlength : (⟨0, -2, 0⟩ : Vec ℝ).length = 2 := by
    rw [Vec.length_eq, Vec.dotProduct_toFun, Real.sqrt_eq_iff_mul_self_eq_of_pos (by norm_num)]
    norm_num [Vec.dot]
  rw [Triangle.normal, edges_upright.1, edges_upright.2, Vec.cross]
  norm_num [hlength, Vec.scale]

theorem frame_upright : Triangle.frame upright = ⟨⟨2, 0, 0⟩, ⟨0, 0, -1⟩, ⟨0, 1, 0⟩⟩ := by
  rw [Triangle.frame, normal_upright, edges_upright.1, edges_upright.2]
  rfl

theorem largestEntry_frame_upright :
    LinearSolver.largestEntry (⟨⟨2, 0, 0⟩, ⟨0, 0, -1⟩, ⟨0, 1, 0⟩⟩ : Mat ℝ) = 2 := by
  norm_num [LinearSolver.largestEntry, Mat.entries, Vec.toList, ExactOrder.max_eq]

theorem exists_solve_upright (b : Vec ℝ) :
    ∃ x, LinearSolver.standard.solve (Triangle.frame upright) b = some x := by
  rw [frame_upright, LinearSolver.standard, LinearSolver.solve_elimination,
    largestEntry_frame_upright, if_neg two_ne_zero, ExactArith.literal_eq]
  have hfound : ∃ x y z,
      LinearSolver.eliminate (((OfScientific.ofScientific 10 true 13 : ℚ) : ℝ) * 2) 3
        (LinearSolver.equations ⟨⟨2, 0, 0⟩, ⟨0, 0, -1⟩, ⟨0, 1, 0⟩⟩ b) = some [x, y, z] := by
    norm_num [LinearSolver.eliminate, LinearSolver.equations, LinearSolver.choosePivot,
      LinearSolver.pivotPlace, LinearSolver.lead, LinearSolver.reduce, ExactOrder.magnitudeLe_iff,
      Vec.toList]
  obtain ⟨x, y, z, hfound⟩ := hfound
  rw [hfound]
  exact ⟨_, rfl⟩

/-- The upright triangle, and one whose corners are in a line. -/
noncomputable def twoTriangles : Graph (Catalog ℝ) ℝ :=
  Graph.ofEdits "triangles" [
    .add (.mapping (.barycentric (.ofCorners upright.x upright.y upright.z))),
    .add (.mapping (.barycentric (.ofCorners Vec.zero Vec.unitX Vec.unitX)))]

theorem freeze_twoTriangles : twoTriangles.freeze = .ok ⟨twoTriangles, ⟨[⟨0⟩, ⟨1⟩], 1⟩⟩ :=
  Graph.freeze_eq_ok (by decide +kernel)

/-- The outputs of the upright triangle lead back to the position; the other triangle has none. -/
theorem FrozenGraph.weights_reconstruct_upright :
    ∃ f, twoTriangles.freeze = .ok f ∧ ∀ q : Query ℝ, 0 ≤ q.blur →
      (∃ u v w d, f.evaluateScalar ⟨⟨0⟩, 0⟩ q = .ok u ∧ f.evaluateScalar ⟨⟨0⟩, 1⟩ q = .ok v ∧
        f.evaluateScalar ⟨⟨0⟩, 2⟩ q = .ok w ∧ f.evaluateScalar ⟨⟨0⟩, 3⟩ q = .ok d ∧
        upright.x.scale u + upright.y.scale v + upright.z.scale w + (⟨0, -1, 0⟩ : Vec ℝ).scale d
          = q.footprint.position) ∧
      f.evaluateGradient ⟨⟨1⟩, 3⟩ q = .ok Vec.zero := by
  refine ⟨_, freeze_twoTriangles, fun q hblur => ⟨?_, ?_⟩⟩
  · obtain ⟨m, hm⟩ := LinearSolver.exists_invert exists_solve_upright
    obtain ⟨-, houtputs⟩ := (weights_reconstruct _ _ freeze_twoTriangles upright.x upright.y
      upright.z).1 (Option.ne_none_iff_exists'.mpr ⟨m, hm⟩)
    obtain ⟨u, v, w, d, hu, hv, hw, hd, -, hpoint, -⟩ :=
      houtputs ⟨0⟩ _ ⟨rfl, rfl⟩ q hblur
    refine ⟨u, v, w, d, hu, hv, hw, hd, ?_⟩
    rw [← normal_upright]
    exact hpoint
  · have hline : (Vec.unitX - Vec.zero : Vec ℝ).cross (Vec.unitX - Vec.zero) = Vec.zero := by
      refine Vec.toFun_injective ?_
      rw [Vec.toFun_cross, cross_self, Vec.toFun_zero]
    exact ((weights_reconstruct _ _ freeze_twoTriangles Vec.zero Vec.unitX Vec.unitX).2 hline _ ⟨1⟩ _
      ⟨rfl, rfl⟩ 3 (by decide) q hblur).2.2

end TextureGraph
