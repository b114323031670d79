import TextureGraph.Proofs.Estimate.Derivative
import TextureGraph.Proofs.Estimate.Mixing

/-!
# The gradient of an interpolation leaves out the weight

`FrozenGraph.evaluateGradient_interpolate`: in real arithmetic, the gradient that is given of an
interpolation of two numbers by a third one is the blend of their gradients.  Where the weight lies
strictly between zero and one, the derivative has one more term, the gradient of the weight times the
difference of the numbers.  So the gradient is the derivative only where the numbers are the same or the
weight stands still.
-/

namespace TextureGraph

open Filter Topology

/-- A gradient stands for the zero map only when it is zero. -/
theorem Vec.functional_eq_zero_iff {g : Vec ℝ} : g.functional = 0 ↔ g = zero := by
  refine ⟨fun h => ?_, fun h => by rw [h, functional_zero]⟩
  have happly : ∀ v, g.functional v = 0 := fun v => by rw [h, zero_apply]
  have hx := happly (1, 0, 0)
  have hy := happly (0, 1, 0)
  have hz := happly (0, 0, 1)
  simp only [functional_apply, mul_one, mul_zero, add_zero, zero_add] at hx hy hz
  calc g = ⟨g.x, g.y, g.z⟩ := rfl
    _ = zero := by rw [hx, hy, hz, zero, ExactArith.zero_eq]

section Interpolate

variable {q : Query ℝ} {p : ℝ × ℝ × ℝ} {inputs : Inputs ℝ}

/-- The gradient that is given of an interpolation is the blend of the gradients. -/
theorem functional_gradient_interpolate (inputs : Inputs ℝ) (q : Query ℝ) (output : Nat) :
    ((TextureModule.answers Shaping.interpolate inputs).gradient output q).functional
      = (1 - Shaping.fraction inputs q) • (inputs.gradient 0 q).functional
        + Shaping.fraction inputs q • (inputs.gradient 1 q).functional := by
  show (Shaping.gradient inputs q output .interpolate).functional = _
  unfold Shaping.gradient
  dsimp only
  -- An end without weight is left out, as if it were multiplied by zero.
  by_cases hone : Shaping.fraction inputs q = 1
  · simp [hone]
  · by_cases hzero : Shaping.fraction inputs q = 0
    · simp [hzero]
    · simp [hone, hzero]

/-- The derivative of an interpolation whose weight lies strictly between zero and one. -/
theorem hasFDerivAt_interpolate (h : ∀ i < 3, inputs.HasGradient q p i)
    (hpos : 0 < inputs.value 2 (q.atTriple p)) (hlt : inputs.value 2 (q.atTriple p) < 1)
    (output : Nat) :
    HasFDerivAt
      (fun v => (TextureModule.answers Shaping.interpolate inputs).value output (q.atTriple v))
      ((TextureModule.answers Shaping.interpolate inputs).gradient output (q.atTriple p)
        + (inputs.gradient 2 (q.atTriple p)).scale
            (inputs.value 1 (q.atTriple p) - inputs.value 0 (q.atTriple p))).functional p := by
  have hfirst := (h 0 (by decide)).derivative
  have hsecond := (h 1 (by decide)).derivative
  have hweight := (h 2 (by decide)).derivative
  -- Near `p` there is no error, and nothing is cut off from the weight.
  have hfraction : ∀ᶠ v in 𝓝 p,
      Shaping.fraction inputs (q.atTriple v) = inputs.value 2 (q.atTriple v) := by
    filter_upwards [(h 2 (by decide)).exact,
      hweight.continuousAt.eventually (Ioo_mem_nhds hpos hlt)] with v hexact hmem
    rw [Shaping.fraction, hexact, Mean.fraction_exact, unitClamp_of_nonneg hmem.1.le,
      min_eq_left hmem.2.le]
  have hvalue : (fun v =>
        (TextureModule.answers Shaping.interpolate inputs).value output (q.atTriple v))
      =ᶠ[𝓝 p] fun v => (1 - inputs.value 2 (q.atTriple v)) * inputs.value 0 (q.atTriple v)
        + inputs.value 2 (q.atTriple v) * inputs.value 1 (q.atTriple v) := by
    filter_upwards [hfraction] with v hv
    rw [(answers_interpolate inputs (q.atTriple v) output).1, hv]
    rfl
  refine HasFDerivAt.congr_of_eventuallyEq ?_ hvalue
  refine (((hweight.const_sub 1).mul hfirst).add (hweight.mul hsecond)).congr_fderiv ?_
  rw [Vec.functional_add, functional_gradient_interpolate, hfraction.self_of_nhds,
    Vec.functional_scale]
  module

end Interpolate

/-! ### Graphs -/

namespace FrozenGraph

variable {f : FrozenGraph (Catalog ℝ) ℝ} {q : Query ℝ} {p : ℝ × ℝ × ℝ} {id : ModuleId}
  {e : Entry (Catalog ℝ) ℝ}

/-- All modules upstream of the inputs of a module are rational, and no denominator in them is zero. -/
def ReadsRational (f : FrozenGraph (Catalog ℝ) ℝ) (id : ModuleId) (q : Query ℝ) : Prop :=
  ∀ source, f.graph.Reads id source → ∀ i, f.graph.Upstream source i →
    ∀ s, f.graph.entry? i = some s →
      s.module.IsRational ∧ s.module.HasNoPole (f.graph.pull f.answers s) q

theorem pull_hasGradient (hg : f.graph.Consistent) (h : f.graph.freeze = .ok f)
    (he : f.graph.entry? id = some e) (hrational : f.ReadsRational id (q.atTriple p)) {i : Nat}
    (hi : e.signature.inputKind? i ≠ some .color) :
    (f.graph.pull f.answers e).HasGradient q p i := by
  unfold Inputs.HasGradient Graph.pull
  dsimp only
  cases hsource : f.graph.source? e i with
  | none => exact Fallback.hasGradient _
  | some found =>
    obtain ⟨source, output⟩ := found
    obtain ⟨b, hb, hentry, -⟩ := Graph.source?_eq_some_iff.mp hsource
    obtain ⟨-, kind, hkind, inputKind, hinput, hfeeds⟩ := hg.exists_feeds he hsource
    have hnumber : inputKind ≠ .color := by
      rintro rfl
      exact hi hinput
    exact answers_hasGradient hg h hentry (hrational _ (Graph.reads_of_binding? he hb)) hkind
      (SocketKind.ne_color_of_feeds hfeeds hnumber)

/-- **The gradient of an interpolation leaves out the weight**: in real arithmetic, whatever changes have
led to a graph without cycles, take an interpolation, upstream of whose inputs all modules are rational,
and a position at which no denominator in them is zero and the weight lies strictly between zero and one.

* The gradients of the inputs are their derivatives.
* The derivative of the interpolation is the gradient that is given, and the gradient of the weight times
  the difference of the two numbers.
* So the gradient that is given is the derivative if and only if the two numbers are the same or the
  gradient of the weight is zero. -/
theorem evaluateGradient_interpolate (name : String) (edits : List (Edit (Catalog ℝ) ℝ))
    (h : (Graph.ofEdits name edits).freeze = .ok f) (he : f.graph.entry? id = some e)
    (hinterpolate : e.module = .shaping .interpolate) {p : Vec ℝ}
    (hrational : f.ReadsRational id (q.atPoint p))
    (hpos : 0 < (f.graph.pull f.answers e).value 2 (q.atPoint p))
    (hlt : (f.graph.pull f.answers e).value 2 (q.atPoint p) < 1) :
    let inputs := f.graph.pull f.answers e
    ∃ (value : Vec ℝ → ℝ) (gradient : Vec ℝ),
      (∀ v, f.evaluateScalar ⟨id, 0⟩ (q.atPoint v) = .ok (value v)) ∧
      f.evaluateGradient ⟨id, 0⟩ (q.atPoint p) = .ok gradient ∧
      (∀ i < 3, HasFDerivAt (fun v => inputs.value i (q.atPoint (.ofTriple v)))
        (inputs.gradient i (q.atPoint p)).functional (p.x, p.y, p.z)) ∧
      HasFDerivAt (fun v => value (.ofTriple v))
        (gradient + (inputs.gradient 2 (q.atPoint p)).scale
          (inputs.value 1 (q.atPoint p) - inputs.value 0 (q.atPoint p))).functional
        (p.x, p.y, p.z) ∧
      (HasFDerivAt (fun v => value (.ofTriple v)) gradient.functional (p.x, p.y, p.z) ↔
        inputs.value 0 (q.atPoint p) = inputs.value 1 (q.atPoint p) ∨
          inputs.gradient 2 (q.atPoint p) = Vec.zero) := by
  intro inputs
  obtain ⟨hg, hf⟩ := Graph.freeze_ofEdits h
  have hcoherent := hg.entries id e he
  have hkinds : ∀ i < 3, e.signature.inputKind? i = some .scalar := by
    intro i hi
    refine (hcoherent.inputKind?_eq i).symm.trans ?_
    rw [hinterpolate]
    interval_cases i <;> rfl
  have hkind : e.signature.outputKind? 0 = some .scalar := by
    refine (hcoherent.outputKind?_eq 0).symm.trans ?_
    rw [hinterpolate]
    rfl
  have hgradients : ∀ i < 3, inputs.HasGradient q (p.x, p.y, p.z) i := fun i hi =>
    pull_hasGradient (p := (p.x, p.y, p.z)) hg hf he hrational (by rw [hkinds i hi]; decide)
  have hanswers : f.answers e = TextureModule.answers Shaping.interpolate inputs := by
    rw [answers_eq hf he, hinterpolate]
    rfl
  have hderivative := hasFDerivAt_interpolate hgradients hpos hlt 0
  rw [← hanswers] at hderivative
  have hevaluate := fun v => evaluate_of_nonneg (t := ⟨id, 0⟩) (q := q.atPoint v)
    ExactArith.zero_eq.ge he hkind (by decide)
  refine ⟨fun v => (f.answers e).value 0 (q.atPoint v), (f.answers e).gradient 0 (q.atPoint p),
    fun v => (hevaluate v).1, (hevaluate p).2.2, fun i hi => (hgradients i hi).derivative,
    hderivative, ?_⟩
  have hterm : ((f.answers e).gradient 0 (q.atPoint p)).functional
        = ((f.answers e).gradient 0 (q.atPoint p) + (inputs.gradient 2 (q.atPoint p)).scale
          (inputs.value 1 (q.atPoint p) - inputs.value 0 (q.atPoint p))).functional ↔
      inputs.value 0 (q.atPoint p) = inputs.value 1 (q.atPoint p) ∨
        inputs.gradient 2 (q.atPoint p) = Vec.zero := by
    rw [Vec.functional_add, left_eq_add, Vec.functional_scale, smul_eq_zero, sub_eq_zero,
      Vec.functional_eq_zero_iff, eq_comm]
  rw [← hterm]
  exact ⟨fun hgiven => hgiven.unique hderivative, fun heq => heq ▸ hderivative⟩

/-- The interpolation from zero to one by a coordinate. -/
noncomputable def ramp : Graph (Catalog ℝ) ℝ :=
  Graph.ofEdits "ramp" [.add (.source (.number 0)), .add (.source (.number 1)),
    .add (.source (.coordinate .x)), .add (.shaping .interpolate), .bind ⟨3⟩ 0 ⟨⟨0⟩, 0⟩,
    .bind ⟨3⟩ 1 ⟨⟨1⟩, 0⟩, .bind ⟨3⟩ 2 ⟨⟨2⟩, 0⟩]

theorem freeze_ramp : ramp.freeze = .ok ⟨ramp, ⟨[⟨0⟩, ⟨1⟩, ⟨2⟩, ⟨3⟩], 2⟩⟩ :=
  Graph.freeze_eq_ok (by decide +kernel)

theorem eq_of_reads_ramp {i j : ModuleId} (h : ramp.Reads i j) :
    i = ⟨3⟩ ∧ (j = ⟨0⟩ ∨ j = ⟨1⟩ ∨ j = ⟨2⟩) := by
  have hreader : i ∈ ramp.ids := Graph.mem_ids_of_reads h
  have hids : ramp.ids = [⟨0⟩, ⟨1⟩, ⟨2⟩, ⟨3⟩] := rfl
  have hlast : ramp.dependencies ⟨3⟩ = [⟨0⟩, ⟨1⟩, ⟨2⟩] := rfl
  rw [hids] at hreader
  rw [← Graph.mem_dependencies_iff] at h
  simp only [List.mem_cons, List.not_mem_nil, or_false] at hreader
  rcases hreader with rfl | rfl | rfl | rfl
  · cases h
  · cases h
  · cases h
  · rw [hlast] at h
    simpa using h

/-- The ramp rises, and its gradient is not its derivative. -/
theorem evaluateGradient_interpolate_ramp :
    ∃ f, ramp.freeze = .ok f ∧ ∃ (value : Vec ℝ → ℝ) (gradient : Vec ℝ),
      (∀ v, f.evaluateScalar ⟨⟨3⟩, 0⟩ (acrossPlane.atPoint v) = .ok (value v)) ∧
      f.evaluateGradient ⟨⟨3⟩, 0⟩ (acrossPlane.atPoint ⟨1 / 2, 0, 0⟩) = .ok gradient ∧
      HasFDerivAt (fun v => value (.ofTriple v)) (gradient + Vec.unitX.scale 1).functional
        (1 / 2, 0, 0) := by
  let f : FrozenGraph (Catalog ℝ) ℝ := ⟨ramp, ⟨[⟨0⟩, ⟨1⟩, ⟨2⟩, ⟨3⟩], 2⟩⟩
  have hrational : f.ReadsRational ⟨3⟩ (acrossPlane.atPoint ⟨1 / 2, 0, 0⟩) := by
    intro source hreads i hupstream s hs
    obtain ⟨-, hsource⟩ := eq_of_reads_ramp hreads
    -- The inputs do not read anything.
    obtain rfl : source = i := by
      rcases hupstream.cases_head with heq | ⟨j, hnext, -⟩
      · exact heq
      · rcases hsource with rfl | rfl | rfl <;> cases (eq_of_reads_ramp hnext).1
    rcases hsource with rfl | rfl | rfl
    · cases hs
      exact ⟨.number _, trivial⟩
    · cases hs
      exact ⟨.number _, trivial⟩
    · cases hs
      exact ⟨.coordinate _, trivial⟩
  obtain ⟨value, gradient, hvalue, hgradient, -, hderivative, -⟩ :=
    evaluateGradient_interpolate _ _ freeze_ramp (show ramp.entry? ⟨3⟩ = some _ from rfl) rfl
      hrational (show (0 : ℝ) < 1 / 2 by norm_num) (show (1 / 2 : ℝ) < 1 by norm_num)
  have hterm : Vec.unitX.scale (1 - 0 : ℝ) = Vec.unitX.scale 1 := by rw [sub_zero]
  exact ⟨f, freeze_ramp, value, gradient, hvalue, hgradient, hterm ▸ hderivative⟩

/-- **The gradient of the ramp is zero, and its slope is one.** -/
theorem evaluateGradient_ramp_ne_slope :
    ∃ f, ramp.freeze = .ok f ∧ ∃ value : Vec ℝ → ℝ,
      f.evaluateScalar ⟨⟨2⟩, 0⟩ (acrossPlane.atPoint ⟨1 / 2, 0, 0⟩) = .ok (1 / 2) ∧
      (∀ v, f.evaluateScalar ⟨⟨3⟩, 0⟩ (acrossPlane.atPoint v) = .ok (value v)) ∧
      HasDerivAt (fun a => value ⟨a, 0, 0⟩) 1 (1 / 2) ∧
      f.evaluateGradient ⟨⟨3⟩, 0⟩ (acrossPlane.atPoint ⟨1 / 2, 0, 0⟩) = .ok Vec.zero := by
  let f : FrozenGraph (Catalog ℝ) ℝ := ⟨ramp, ⟨[⟨0⟩, ⟨1⟩, ⟨2⟩, ⟨3⟩], 2⟩⟩
  have hextent : (Arith.toOfScientific.ofScientific 5 true 1 : ℝ)
      * Arith.toOfScientific.ofScientific 0 true 1 + Arith.toOfScientific.ofScientific 0 true 1
        = 0 := by
    norm_num
  have hfraction : ∀ a e : ℝ, 0 < a → a < 1 → e = 0 → blend (Mean.fraction a e) 0 1 = a := by
    rintro a _ hpos hlt rfl
    rw [Mean.fraction_exact, unitClamp_of_nonneg hpos.le, min_eq_left hlt.le, blend, mul_zero,
      zero_add, mul_one]
  have hblur : ∀ v, (0 : ℝ) ≤ (acrossPlane.atPoint v).blur := fun _ => ExactArith.zero_eq.ge
  have hevaluate := fun v => evaluate_of_nonneg (f := f) (t := ⟨⟨3⟩, 0⟩) (hblur v) rfl rfl (by decide)
  have hweight := evaluate_of_nonneg (f := f) (t := ⟨⟨2⟩, 0⟩) (hblur ⟨1 / 2, 0, 0⟩) rfl rfl (by decide)
  refine ⟨f, freeze_ramp, _, hweight.1, fun v => (hevaluate v).1, ?_, (hevaluate _).2.2.trans ?_⟩
  · refine (hasDerivAt_id (1 / 2 : ℝ)).congr_of_eventuallyEq ?_
    filter_upwards [Ioo_mem_nhds (show (0 : ℝ) < 1 / 2 by norm_num)
      (show (1 / 2 : ℝ) < 1 by norm_num)] with a ha
    exact (answers_interpolate _ _ 0).1.trans (hfraction a _ ha.1 ha.2 hextent)
  · refine congrArg _ (Vec.functional_eq_zero_iff.mp
      ((functional_gradient_interpolate _ _ 0).trans ?_))
    show _ • Vec.zero.functional + _ • Vec.zero.functional = 0
    rw [Vec.functional_zero, smul_zero, smul_zero, add_zero]

end FrozenGraph

end TextureGraph
