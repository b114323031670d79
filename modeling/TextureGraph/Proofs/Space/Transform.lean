import Mathlib.Tactic.IntervalCases
import TextureGraph.Catalog.Basic
import TextureGraph.Proofs.Graph.ExactEvaluation
import TextureGraph.Proofs.Graph.KindSafety
import TextureGraph.Proofs.Space.Inverse

/-!
# Inverse transforms undo transforms

`FrozenGraph.inverse_undoes_transform`: in exact arithmetic, a transform of the position and the inverse
transform with the same matrix and offset, one bound to the other, give back the position, whichever
comes first; and a transform whose matrix cannot be inverted is zero everywhere.

A map of space computes `linear * p + offset` (`Mapping.Computes`).  Two such maps undo each other when
the product of the linear parts is the identity and the second one takes the offset of the first to zero
(`Mapping.Undoes`).
-/

namespace TextureGraph

open Matrix

variable {α : Type} [ExactArith α]

/-! ### Positions and gradients by number -/

namespace Inputs

omit [ExactArith α] in
theorem toFun_position [Arith α] (inputs : Inputs α) (q : Query α) :
    (inputs.position q).toFun = fun i : Fin 3 => inputs.value i q := by
  refine funext fun i => ?_
  fin_cases i <;> rfl

/-- The gradients of the position, one in each row. -/
def jacobian (inputs : Inputs α) (q : Query α) : Matrix (Fin 3) (Fin 3) α :=
  .of fun i => (inputs.gradient i q).toFun

end Inputs

theorem Vec.toFun_combine (v : Vec α) (inputs : Inputs α) (q : Query α) :
    (v.combine (inputs.positionGradients q)).toFun = v.toFun ᵥ* inputs.jacobian q := by
  have hterms : ∀ a b c : α, a * v.x + b * v.y + c * v.z = v.x * a + v.y * b + v.z * c := by
    intro a b c
    ring
  refine funext fun j => ?_
  rw [Matrix.vecMul, dotProduct, Fin.sum_univ_three]
  fin_cases j <;> exact hterms _ _ _

/-! ### Maps of space -/

namespace Mapping

/-- The first three outputs are the coordinates of `linear * p + offset`. -/
structure Computes (t : Mapping α) (linear : Matrix (Fin 3) (Fin 3) α) (offset : Fin 3 → α) :
    Prop where
  /-- The coefficients of an output are a row of the linear part. -/
  coefficients_eq : ∀ i : Fin 3, (t.row i).coefficients.toFun = linear i
  /-- Each output is off by a component of the offset. -/
  offset_eq : ∀ i : Fin 3, (t.row i).offset = offset i

/-- What the second map makes of the image of a position under the first one is the position. -/
def Undoes (second first : Mapping α) : Prop :=
  ∃ linear offset linear' offset', first.Computes linear offset ∧ second.Computes linear' offset' ∧
    linear' * linear = 1 ∧ linear' *ᵥ offset + offset' = 0

section Computes

variable {t : Mapping α} {linear : Matrix (Fin 3) (Fin 3) α} {offset : Fin 3 → α}
  (inputs : Inputs α) (q : Query α)

theorem Computes.value_eq (h : t.Computes linear offset) :
    (fun i : Fin 3 => (t.row i).value inputs q)
      = linear *ᵥ (fun i : Fin 3 => inputs.value i q) + offset := by
  refine funext fun i => ?_
  rw [AffineForm.value, ← Vec.dotProduct_toFun, h.coefficients_eq, h.offset_eq,
    Inputs.toFun_position]
  rfl

theorem Computes.gradient_eq (h : t.Computes linear offset) :
    (.of fun i : Fin 3 => ((t.row i).gradient inputs q).toFun) = linear * inputs.jacobian q := by
  refine Matrix.ext fun i j => ?_
  rw [Matrix.mul_apply_eq_vecMul, ← h.coefficients_eq, ← Vec.toFun_combine]
  rfl

end Computes

section Undoes

variable {first second : Mapping α} {inner outer : Inputs α} {q : Query α}

theorem Undoes.value_eq (h : second.Undoes first)
    (hbound : ∀ i : Fin 3, outer.value i q = (first.row i).value inner q) (i : Fin 3) :
    (second.row i).value outer q = inner.value i q := by
  obtain ⟨linear, offset, linear', offset', hfirst, hsecond, hlinear, hoffset⟩ := h
  have houtputs : (fun i : Fin 3 => (second.row i).value outer q)
      = fun i : Fin 3 => inner.value i q :=
    calc (fun i : Fin 3 => (second.row i).value outer q)
        = linear' *ᵥ (linear *ᵥ (fun i : Fin 3 => inner.value i q) + offset) + offset' := by
          rw [hsecond.value_eq, funext hbound, hfirst.value_eq]
      _ = (linear' * linear) *ᵥ (fun i : Fin 3 => inner.value i q)
            + (linear' *ᵥ offset + offset') := by
          rw [mulVec_add, mulVec_mulVec, add_assoc]
      _ = fun i : Fin 3 => inner.value i q := by
          rw [hlinear, hoffset, one_mulVec, add_zero]
  exact congrFun houtputs i

theorem Undoes.gradient_eq (h : second.Undoes first)
    (hbound : ∀ i : Fin 3, outer.gradient i q = (first.row i).gradient inner q) (i : Fin 3) :
    (second.row i).gradient outer q = inner.gradient i q := by
  obtain ⟨linear, offset, linear', offset', hfirst, hsecond, hlinear, -⟩ := h
  have houter : outer.jacobian q = linear * inner.jacobian q := by
    rw [← hfirst.gradient_eq inner q]
    exact congrArg _ (funext fun i => congrArg _ (hbound i))
  have hrows : (.of fun i : Fin 3 => ((second.row i).gradient outer q).toFun)
      = inner.jacobian q := by
    rw [hsecond.gradient_eq, houter, ← Matrix.mul_assoc, hlinear, Matrix.one_mul]
  exact Vec.toFun_injective (congrFun hrows i)

end Undoes

end Mapping

/-! ### Transforms and their inverses -/

namespace Transform

variable {m n : Mat α}

/-- A transform computes what its rows say. -/
theorem computes_rows {t : Transform α} {m : Mat α} {d : Vec α}
    (hrows : t.rows = #v[⟨m.rows.x, d.x⟩, ⟨m.rows.y, d.y⟩, ⟨m.rows.z, d.z⟩]) :
    (Mapping.transform t).Computes m.toMatrix d.toFun := by
  have hrow : ∀ i, (Mapping.transform t).row i
      = (#v[⟨m.rows.x, d.x⟩, ⟨m.rows.y, d.y⟩, ⟨m.rows.z, d.z⟩][i]?).getD AffineForm.zero := by
    intro i
    rw [← hrows]
    rfl
  constructor <;> intro i <;> rw [hrow] <;> fin_cases i <;> rfl

theorem computes_ofMatrix (m : Mat α) (d : Vec α) :
    (Mapping.transform (ofMatrix m d)).Computes m.toMatrix d.toFun :=
  computes_rows rfl

theorem computes_inverted (hn : LinearSolver.standard.invert m = some n) (d : Vec α) :
    (Mapping.transform (ofMatrix m d).inverted).Computes n.toMatrix
      (-(n.toMatrix *ᵥ d.toFun)) := by
  have hrows : (ofMatrix m d).inverted.rows = solveRows m d true .standard := rfl
  have hoffset : (-n.mulVec d).toFun = -(n.mulVec d).toFun := by
    refine funext fun i => ?_
    fin_cases i <;> rfl
  rw [Mat.mulVec_toMatrix, ← hoffset]
  refine computes_rows ?_
  rw [hrows, solveRows, if_pos rfl, hn]
  simp only [Vector.map_mk, List.map_toArray, List.map_cons, List.map_nil]
  rfl

theorem epsilon_nonneg : (0 : α) ≤ Arith.toOfScientific.ofScientific 10 true 13 := by
  rw [ExactArith.literal_eq]
  norm_num

/-- A transform whose matrix its solver cannot invert takes everything to zero. -/
theorem row_of_invert_eq_none {solver : LinearSolver α} (hm : solver.invert m = none) (d : Vec α)
    (output : Nat) :
    (Mapping.transform ((ofMatrix m d).inverted.withSolver solver)).row output = .zero := by
  have hrows : ((ofMatrix m d).inverted.withSolver solver).rows = .replicate 3 .zero := by
    show solveRows m d true solver = _
    rw [solveRows, if_pos rfl, hm]
  show ((ofMatrix m d).inverted.withSolver solver).rows[output]?.getD .zero = .zero
  rw [hrows, Vector.getElem?_replicate]
  split <;> rfl

variable [ExactOrder α]

theorem inverted_undoes (hn : LinearSolver.standard.invert m = some n) (d : Vec α) :
    (Mapping.transform (ofMatrix m d).inverted).Undoes (.transform (ofMatrix m d)) := by
  obtain ⟨-, hleft⟩ := LinearSolver.invert_eq_some epsilon_nonneg hn
  exact ⟨_, _, _, _, computes_ofMatrix m d, computes_inverted hn d, hleft, add_neg_cancel _⟩

theorem ofMatrix_undoes (hn : LinearSolver.standard.invert m = some n) (d : Vec α) :
    (Mapping.transform (ofMatrix m d)).Undoes (.transform (ofMatrix m d).inverted) := by
  obtain ⟨hright, -⟩ := LinearSolver.invert_eq_some epsilon_nonneg hn
  refine ⟨_, _, _, _, computes_inverted hn d, computes_ofMatrix m d, hright, ?_⟩
  rw [mulVec_neg, mulVec_mulVec, hright, one_mulVec, neg_add_cancel]

end Transform

namespace AffineForm

variable (inputs : Inputs α) (q : Query α)

theorem value_zero : (zero : AffineForm α).value inputs q = 0 := by
  simp [value, zero, Vec.dot, Vec.zero]

theorem error_zero [ExactOrder α] : (zero : AffineForm α).error inputs q = 0 := by
  simp [error, zero, Vec.dot, Vec.zero, Vec.abs, Vec.map]

theorem gradient_zero : (zero : AffineForm α).gradient inputs q = Vec.zero := by
  refine Vec.toFun_injective ?_
  rw [gradient, Vec.toFun_combine, zero, Vec.toFun_zero, Matrix.zero_vecMul]

end AffineForm

/-! ### Graphs -/

/-- The graph has a transform of this number. -/
def Graph.HasTransform (g : Graph (Catalog α) α) (id : ModuleId) (e : Entry (Catalog α) α)
    (t : Transform α) : Prop :=
  g.entry? id = some e ∧ e.module = .mapping (.transform t)

namespace FrozenGraph

variable {f : FrozenGraph (Catalog α) α} {name : String} {edits : List (Edit (Catalog α) α)}
  {id id' : ModuleId} {e e' : Entry (Catalog α) α} {t t' : Transform α}

theorem answers_mapping (h : f.graph.freeze = .ok f) (he : f.graph.entry? id = some e)
    {m : Mapping α} (hm : e.module = .mapping m) :
    f.answers e = TextureModule.answers m (f.graph.pull f.answers e) := by
  rw [answers_eq h he, hm]
  rfl

theorem answers_transform (h : f.graph.freeze = .ok f) (ht : f.graph.HasTransform id e t) :
    f.answers e = TextureModule.answers (Mapping.transform t) (f.graph.pull f.answers e) :=
  answers_mapping h ht.1 ht.2

variable [ExactOrder α]

/-- The numbers that a map yields can be asked for with every blur that is not negative. -/
theorem evaluate_mapping (hg : f.graph.Consistent) (h : f.graph.freeze = .ok f)
    (he : f.graph.entry? id = some e) {m : Mapping α} (hm : e.module = .mapping m) {output : Nat}
    (houtput : m.signature.outputKind? output = some .scalar) {q : Query α} (hblur : 0 ≤ q.blur) :
    let row := m.row output
    let inputs := f.graph.pull f.answers e
    f.evaluateScalar ⟨id, output⟩ q = .ok (row.value inputs q) ∧
      f.estimateError ⟨id, output⟩ q = .ok (max (row.error inputs q) 0) ∧
      f.evaluateGradient ⟨id, output⟩ q = .ok (row.gradient inputs q) := by
  have hkind : (TextureModule.signature e.module : Signature α).outputKind? output = some .scalar := by
    rw [hm]
    exact houtput
  have hevaluate := evaluate_module (t := ⟨id, output⟩) hg h he hkind (by decide) hblur
  rw [hm] at hevaluate
  exact hevaluate

/-- The coordinates of the image can be asked for with every blur that is not negative. -/
theorem evaluate_transform (hg : f.graph.Consistent) (h : f.graph.freeze = .ok f)
    (ht : f.graph.HasTransform id e t) {output : Nat} (houtput : output < 3) {q : Query α}
    (hblur : 0 ≤ q.blur) :
    let row := (Mapping.transform t).row output
    let inputs := f.graph.pull f.answers e
    f.evaluateScalar ⟨id, output⟩ q = .ok (row.value inputs q) ∧
      f.estimateError ⟨id, output⟩ q = .ok (max (row.error inputs q) 0) ∧
      f.evaluateGradient ⟨id, output⟩ q = .ok (row.gradient inputs q) :=
  evaluate_mapping hg h ht.1 ht.2 (by interval_cases output <;> rfl) hblur

/-- A transform that is bound to one that it undoes gives what that one is given. -/
theorem evaluate_undoes (hg : f.graph.Consistent) (h : f.graph.freeze = .ok f)
    (ht : f.graph.HasTransform id e t) (ht' : f.graph.HasTransform id' e' t')
    (hbound : ∀ i < 3, e'.binding? i = some ⟨id, i⟩)
    (hundoes : (Mapping.transform t').Undoes (.transform t)) {i : Nat} (hi : i < 3) {q : Query α}
    (hblur : 0 ≤ q.blur) :
    f.evaluateScalar ⟨id', i⟩ q = .ok ((f.graph.pull f.answers e).value i q) ∧
      f.evaluateGradient ⟨id', i⟩ q = .ok ((f.graph.pull f.answers e).gradient i q) := by
  have hsource : ∀ i : Fin 3, f.graph.source? e' i = some (e, (i : Nat)) := fun i =>
    Graph.source?_eq_some_iff.mpr ⟨_, hbound i i.isLt, ht.1, rfl⟩
  have hvalue : ∀ i : Fin 3, (f.graph.pull f.answers e').value i q
      = ((Mapping.transform t).row i).value (f.graph.pull f.answers e) q := by
    intro i
    simp only [Graph.pull, hsource, answers_transform h ht]
    rfl
  have hgradient : ∀ i : Fin 3, (f.graph.pull f.answers e').gradient i q
      = ((Mapping.transform t).row i).gradient (f.graph.pull f.answers e) q := by
    intro i
    simp only [Graph.pull, hsource, answers_transform h ht]
    rfl
  obtain ⟨hscalar, -, hvector⟩ := evaluate_transform hg h ht' hi hblur
  rw [hscalar, hvector, hundoes.value_eq hvalue ⟨i, hi⟩, hundoes.gradient_eq hgradient ⟨i, hi⟩]
  exact ⟨rfl, rfl⟩

/-- **Inverse transforms undo transforms**: in exact arithmetic, whatever changes have led to a graph
without cycles, take a matrix and an offset.

* If the matrix can be inverted, the transform and its inverse undo each other: when the first three
  inputs of one of them are bound to the outputs of the other, its outputs and their gradients are what
  the other finds at its inputs, over every footprint and with every blur.
* If a solver cannot invert the matrix, the inverse that uses it has outputs, errors and gradients that
  are zero. -/
theorem inverse_undoes_transform (name : String) (edits : List (Edit (Catalog α) α))
    (h : (Graph.ofEdits name edits).freeze = .ok f) (m : Mat α) (d : Vec α) :
    (∀ n, LinearSolver.standard.invert m = some n →
      ∀ first second,
        first = .ofMatrix m d ∧ second = (Transform.ofMatrix m d).inverted ∨
          first = (Transform.ofMatrix m d).inverted ∧ second = .ofMatrix m d →
        ∀ id e id' e', f.graph.HasTransform id e first → f.graph.HasTransform id' e' second →
          (∀ i < 3, e'.binding? i = some ⟨id, i⟩) →
          ∀ i < 3, ∀ q : Query α, 0 ≤ q.blur →
            f.evaluateScalar ⟨id', i⟩ q = .ok ((f.graph.pull f.answers e).value i q) ∧
              f.evaluateGradient ⟨id', i⟩ q = .ok ((f.graph.pull f.answers e).gradient i q)) ∧
      ∀ solver : LinearSolver α, solver.invert m = none →
        ∀ id e, f.graph.HasTransform id e ((Transform.ofMatrix m d).inverted.withSolver solver) →
          ∀ i < 3, ∀ q : Query α, 0 ≤ q.blur →
            f.evaluateScalar ⟨id, i⟩ q = .ok 0 ∧ f.estimateError ⟨id, i⟩ q = .ok 0 ∧
              f.evaluateGradient ⟨id, i⟩ q = .ok Vec.zero := by
  obtain ⟨hg, hf⟩ := Graph.freeze_ofEdits h
  constructor
  · rintro n hn first second (⟨rfl, rfl⟩ | ⟨rfl, rfl⟩) id e id' e' ht ht' hbound i hi q hblur
    · exact evaluate_undoes hg hf ht ht' hbound (Transform.inverted_undoes hn d) hi hblur
    · exact evaluate_undoes hg hf ht ht' hbound (Transform.ofMatrix_undoes hn d) hi hblur
  · intro solver hsolver id e ht i hi q hblur
    obtain ⟨hscalar, hreported, hvector⟩ := evaluate_transform hg hf ht hi hblur
    rw [hscalar, hreported, hvector, Transform.row_of_invert_eq_none hsolver d i,
      AffineForm.value_zero, AffineForm.error_zero, AffineForm.gradient_zero, max_self]
    exact ⟨rfl, rfl, rfl⟩

end FrozenGraph

/-- A shear along the first axis. -/
def shearing : Mat ℝ :=
  ⟨⟨1, 1, 0⟩, ⟨0, 1, 0⟩, ⟨0, 0, 1⟩⟩

theorem largestEntry_shearing : LinearSolver.largestEntry shearing = 1 := by
  simp [LinearSolver.largestEntry, shearing, Mat.entries, Vec.toList, ExactOrder.max_eq]

theorem exists_solve_shearing (b : Vec ℝ) : ∃ x, LinearSolver.standard.solve shearing b = some x := by
  rw [LinearSolver.standard, LinearSolver.solve_elimination, largestEntry_shearing,
    if_neg one_ne_zero, ExactArith.literal_eq]
  have hfound : ∃ x y z,
      LinearSolver.eliminate (((OfScientific.ofScientific 10 true 13 : ℚ) : ℝ) * 1) 3
        (LinearSolver.equations shearing b) = some [x, y, z] := by
    norm_num [LinearSolver.eliminate, LinearSolver.equations, LinearSolver.choosePivot,
      LinearSolver.pivotPlace, LinearSolver.lead, LinearSolver.reduce, ExactOrder.magnitudeLe_iff,
      shearing, Vec.toList]
  obtain ⟨x, y, z, hfound⟩ := hfound
  rw [hfound]
  exact ⟨_, rfl⟩

theorem exists_invert_shearing : ∃ n, LinearSolver.standard.invert shearing = some n :=
  LinearSolver.exists_invert exists_solve_shearing

/-- A shear with an offset, its inverse, and its inverse for a solver that refuses everything. -/
noncomputable def shearedAndBack : Graph (Catalog ℝ) ℝ :=
  Graph.ofEdits "back" [.add (.mapping (.transform (.ofMatrix shearing ⟨1, 0, -1⟩))),
    .add (.mapping (.transform (Transform.ofMatrix shearing ⟨1, 0, -1⟩).inverted)),
    .add (.mapping (.transform
      ((Transform.ofMatrix shearing ⟨1, 0, -1⟩).inverted.withSolver .refusing))),
    .bind ⟨1⟩ 0 ⟨⟨0⟩, 0⟩, .bind ⟨1⟩ 1 ⟨⟨0⟩, 1⟩, .bind ⟨1⟩ 2 ⟨⟨0⟩, 2⟩]

theorem freeze_shearedAndBack :
    shearedAndBack.freeze = .ok ⟨shearedAndBack, ⟨[⟨0⟩, ⟨1⟩, ⟨2⟩], 2⟩⟩ :=
  Graph.freeze_eq_ok (by decide +kernel)

/-- Sheared and back, the position is what it was; the last transform is zero. -/
theorem FrozenGraph.inverse_undoes_transform_shearing :
    ∃ f, shearedAndBack.freeze = .ok f ∧ ∀ q : Query ℝ, 0 ≤ q.blur →
      f.evaluateScalar ⟨⟨1⟩, 0⟩ q = .ok q.footprint.position.x ∧
        f.evaluateScalar ⟨⟨1⟩, 1⟩ q = .ok q.footprint.position.y ∧
        f.evaluateGradient ⟨⟨1⟩, 2⟩ q = .ok Vec.unitZ ∧
        f.evaluateScalar ⟨⟨2⟩, 0⟩ q = .ok 0 := by
  refine ⟨_, freeze_shearedAndBack, fun q hblur => ?_⟩
  obtain ⟨n, hn⟩ := exists_invert_shearing
  obtain ⟨hundoes, hzero⟩ :=
    inverse_undoes_transform _ _ freeze_shearedAndBack shearing ⟨1, 0, -1⟩
  have hback := hundoes n hn _ _ (.inl ⟨rfl, rfl⟩) ⟨0⟩ _ ⟨1⟩ _ ⟨rfl, rfl⟩ ⟨rfl, rfl⟩
    (by decide +kernel)
  exact ⟨(hback 0 (by decide) q hblur).1, (hback 1 (by decide) q hblur).1,
    (hback 2 (by decide) q hblur).2, (hzero .refusing rfl ⟨2⟩ _ ⟨rfl, rfl⟩ 0 (by decide) q hblur).1⟩

end TextureGraph
