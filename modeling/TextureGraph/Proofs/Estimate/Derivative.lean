import Mathlib.Analysis.Calculus.Deriv.Inv
import Mathlib.Analysis.Calculus.Deriv.Prod
import Mathlib.Topology.Algebra.Module.ModuleTopology
import TextureGraph.Proofs.Estimate.PiecewiseLinear

/-!
# Gradients are derivatives

`FrozenGraph.evaluateGradient_hasDerivAt`: in real arithmetic, an output that rests on constants,
coordinates, the four operations of arithmetic and affine maps only (`Catalog.IsRational`) has its
gradient as the derivative by the position, wherever no denominator is zero (`Catalog.HasNoPole`).

* `Query.HasGradient` says so of anything that is asked for at points.  It takes in that there is no
  error at the points nearby, for a quotient is computed only where the interval around its
  denominator does not reach zero.
* `Query.HasGradient.add`, `sub`, `mul` and `div` are the rules for the operations; modules and the
  nodes of expressions both come down to them (`Expr.IsRational.hasGradient`,
  `Catalog.IsRational.hasGradient`).
* Along the bindings, this carries over to the whole graph (`FrozenGraph.answers_hasGradient`).
-/

namespace TextureGraph

open Filter Topology

/-! ### Gradients as linear maps -/

namespace Vec

/-- The vector with the given components. -/
def ofTriple {α : Type} (v : α × α × α) : Vec α :=
  ⟨v.1, v.2.1, v.2.2⟩

/-- The linear map that a gradient stands for. -/
noncomputable def functional (g : Vec ℝ) : ℝ × ℝ × ℝ →L[ℝ] ℝ :=
  g.x • .fst ℝ ℝ (ℝ × ℝ) + g.y • (ContinuousLinearMap.fst ℝ ℝ ℝ).comp (.snd ℝ ℝ (ℝ × ℝ))
    + g.z • (ContinuousLinearMap.snd ℝ ℝ ℝ).comp (.snd ℝ ℝ (ℝ × ℝ))

theorem functional_apply (g : Vec ℝ) (v : ℝ × ℝ × ℝ) :
    g.functional v = g.x * v.1 + g.y * v.2.1 + g.z * v.2.2 :=
  rfl

@[simp]
theorem functional_zero : (zero : Vec ℝ).functional = 0 := by
  ext <;> simp [functional_apply, zero]

@[simp]
theorem functional_add (g h : Vec ℝ) : (g + h).functional = g.functional + h.functional := by
  refine ContinuousLinearMap.ext fun v => ?_
  show (g.x + h.x) * v.1 + (g.y + h.y) * v.2.1 + (g.z + h.z) * v.2.2
    = g.functional v + h.functional v
  simp only [functional_apply]
  ring

@[simp]
theorem functional_sub (g h : Vec ℝ) : (g - h).functional = g.functional - h.functional := by
  refine ContinuousLinearMap.ext fun v => ?_
  show (g.x - h.x) * v.1 + (g.y - h.y) * v.2.1 + (g.z - h.z) * v.2.2
    = g.functional v - h.functional v
  simp only [functional_apply]
  ring

@[simp]
theorem functional_neg (g : Vec ℝ) : (-g).functional = -g.functional := by
  refine ContinuousLinearMap.ext fun v => ?_
  show -g.x * v.1 + -g.y * v.2.1 + -g.z * v.2.2 = -(g.functional v)
  rw [functional_apply]
  ring

@[simp]
theorem functional_scale (g : Vec ℝ) (a : ℝ) : (g.scale a).functional = a • g.functional := by
  refine ContinuousLinearMap.ext fun v => ?_
  show g.x * a * v.1 + g.y * a * v.2.1 + g.z * a * v.2.2 = a * g.functional v
  rw [functional_apply]
  ring

end Vec

/-! ### Numbers with gradients -/

/-- The request for a point with the given coordinates. -/
def Query.atTriple {α : Type} [Arith α] (q : Query α) (v : α × α × α) : Query α :=
  q.atPoint (.ofTriple v)

/-- What is asked for at points has the gradient at `p` as its derivative, and has no error at the
points near `p`. -/
structure Query.HasGradient (q : Query ℝ) (p : ℝ × ℝ × ℝ) (value error : Query ℝ → ℝ)
    (gradient : Query ℝ → Vec ℝ) : Prop where
  /-- There is no error nearby. -/
  exact : ∀ᶠ v in 𝓝 p, error (q.atTriple v) = 0
  /-- The gradient is the derivative. -/
  derivative : HasFDerivAt (fun v => value (q.atTriple v)) (gradient (q.atTriple p)).functional p

namespace Query.HasGradient

variable {q : Query ℝ} {p : ℝ × ℝ × ℝ} {value value' error error' : Query ℝ → ℝ}
  {gradient gradient' : Query ℝ → Vec ℝ}

theorem constant {a : ℝ} (hvalue : ∀ v, value (q.atTriple v) = a) (herror : ∀ q, error q = 0)
    (hgradient : gradient (q.atTriple p) = Vec.zero) : q.HasGradient p value error gradient := by
  refine ⟨.of_forall fun v => herror _, ?_⟩
  simp only [hvalue, hgradient, Vec.functional_zero]
  exact hasFDerivAt_const a p

theorem add (h : q.HasGradient p value error gradient)
    (h' : q.HasGradient p value' error' gradient') :
    q.HasGradient p (fun q => value q + value' q) (fun q => error q + error' q)
      (fun q => gradient q + gradient' q) := by
  refine ⟨?_, ?_⟩
  · filter_upwards [h.exact, h'.exact] with v hv hv'
    rw [hv, hv', add_zero]
  · rw [Vec.functional_add]
    exact h.derivative.add h'.derivative

theorem sub (h : q.HasGradient p value error gradient)
    (h' : q.HasGradient p value' error' gradient') :
    q.HasGradient p (fun q => value q - value' q) (fun q => error q + error' q)
      (fun q => gradient q - gradient' q) := by
  refine ⟨(h.add h').exact, ?_⟩
  rw [Vec.functional_sub]
  exact h.derivative.sub h'.derivative

theorem neg (h : q.HasGradient p value error gradient) :
    q.HasGradient p (fun q => -value q) error (fun q => -gradient q) := by
  refine ⟨h.exact, ?_⟩
  rw [Vec.functional_neg]
  exact h.derivative.neg

theorem mul (h : q.HasGradient p value error gradient)
    (h' : q.HasGradient p value' error' gradient') :
    q.HasGradient p (fun q => value q * value' q)
      (fun q => Bound.product (value q) (error q) (value' q) (error' q))
      (fun q => (gradient' q).scale (value q) + (gradient q).scale (value' q)) := by
  refine ⟨?_, ?_⟩
  · filter_upwards [h.exact, h'.exact] with v hv hv'
    rw [hv, hv', Bound.product, mul_zero, mul_zero, ExactArith.abs_real, abs_zero, add_zero]
  · rw [Vec.functional_add, Vec.functional_scale, Vec.functional_scale]
    exact h.derivative.mul h'.derivative

/-- A multiple of a number. -/
theorem const_mul (c : ℝ) (h : q.HasGradient p value error gradient) :
    q.HasGradient p (fun q => c * value q) (fun q => Arith.abs c * error q)
      (fun q => (gradient q).scale c) := by
  refine ⟨?_, ?_⟩
  · filter_upwards [h.exact] with v hv
    rw [hv, mul_zero]
  · rw [Vec.functional_scale]
    exact h.derivative.const_mul c

theorem add_const (c : ℝ) (h : q.HasGradient p value error gradient) :
    q.HasGradient p (fun q => value q + c) error gradient :=
  ⟨h.exact, h.derivative.add_const c⟩

/-- Nearby, the interval around a number that is not zero does not reach zero. -/
theorem reachesZero_eq_false (h : q.HasGradient p value error gradient)
    (hne : value (q.atTriple p) ≠ 0) :
    ∀ᶠ v in 𝓝 p, Bound.reachesZero (value (q.atTriple v)) (error (q.atTriple v)) = false := by
  filter_upwards [h.derivative.continuousAt.eventually_ne hne, h.exact] with v hv he
  have hbeq : (value (q.atTriple v) == Arith.toOfScientific.ofScientific 0 true 1) = false := by
    rw [ExactArith.zero_eq]
    exact decide_eq_false hv
  have hle : ¬ Arith.abs (value (q.atTriple v)) ≤ error (q.atTriple v) := by
    rw [he, ExactArith.abs_real]
    exact (abs_pos.mpr hv).not_ge
  rw [Bound.reachesZero, hbeq, decide_eq_false hle, Bool.or_self]

/-- A quotient, computed where the interval around the denominator does not reach zero. -/
theorem div (h : q.HasGradient p value error gradient)
    (h' : q.HasGradient p value' error' gradient') (hne : value' (q.atTriple p) ≠ 0)
    {quotient bound : Query ℝ → ℝ} {slope : Query ℝ → Vec ℝ}
    (hquotient : ∀ q, Bound.reachesZero (value' q) (error' q) = false →
      quotient q = value q / value' q)
    (hbound : ∀ q, Bound.reachesZero (value' q) (error' q) = false →
      bound q = Bound.ratio (value q) (error q) (value' q) (error' q))
    (hslope : ∀ q, Bound.reachesZero (value' q) (error' q) = false →
      slope q = ((gradient q).scale (value' q) - (gradient' q).scale (value q)).scale
        (1 / (value' q * value' q))) :
    q.HasGradient p quotient bound slope := by
  have hnear := h'.reachesZero_eq_false hne
  refine ⟨?_, ?_⟩
  · filter_upwards [hnear, h.exact, h'.exact] with v hv he he'
    rw [hbound _ hv, he, he', Bound.ratio, mul_zero, zero_div, zero_div, ExactArith.abs_real,
      abs_zero, add_zero]
  -- Nearby, the quotient is a product with the inverse.
  have hproduct : (fun v => quotient (q.atTriple v))
      =ᶠ[𝓝 p] fun v => value (q.atTriple v) * (value' (q.atTriple v))⁻¹ := by
    filter_upwards [hnear] with v hv
    rw [hquotient _ hv, div_eq_mul_inv]
  have hinv : HasFDerivAt (fun v => (value' (q.atTriple v))⁻¹)
      (-(value' (q.atTriple p) ^ 2)⁻¹ • (gradient' (q.atTriple p)).functional) p :=
    (hasDerivAt_inv hne).comp_hasFDerivAt p h'.derivative
  refine ((h.derivative.mul hinv).congr_of_eventuallyEq hproduct).congr_fderiv ?_
  rw [hslope _ hnear.self_of_nhds, Vec.functional_scale, Vec.functional_sub, Vec.functional_scale,
    Vec.functional_scale]
  refine ContinuousLinearMap.ext fun v => ?_
  simp only [add_apply, smul_apply, sub_apply, smul_eq_mul]
  field_simp
  ring

end Query.HasGradient

section Gradients

variable {q : Query ℝ} {p : ℝ × ℝ × ℝ}

/-! ### Coordinates and constants -/

/-- A coordinate grows along its axis. -/
theorem Axis.hasGradient (axis : Axis) :
    q.HasGradient p axis.value axis.error fun _ => axis.gradient := by
  refine ⟨.of_forall fun v => axis.error_atPoint q _, ?_⟩
  have hfunctional : ∀ {g : Vec ℝ} {l : ℝ × ℝ × ℝ →L[ℝ] ℝ}, (∀ v, g.functional v = l v) →
      HasFDerivAt l g.functional p := by
    intro g l hl
    rw [ContinuousLinearMap.ext hl]
    exact l.hasFDerivAt
  cases axis with
  | x =>
    exact hfunctional (l := .fst ℝ ℝ (ℝ × ℝ)) fun v => by
      simp [Vec.functional_apply, gradient, Vec.unitX]
  | y =>
    exact hfunctional (l := (ContinuousLinearMap.fst ℝ ℝ ℝ).comp (.snd ℝ ℝ (ℝ × ℝ))) fun v => by
      simp [Vec.functional_apply, gradient, Vec.unitY]
  | z =>
    exact hfunctional (l := (ContinuousLinearMap.snd ℝ ℝ ℝ).comp (.snd ℝ ℝ (ℝ × ℝ))) fun v => by
      simp [Vec.functional_apply, gradient, Vec.unitZ]
  | time =>
    rw [gradient, Vec.functional_zero]
    exact hasFDerivAt_const q.footprint.time p

theorem Fallback.hasGradient (f : Fallback ℝ) :
    q.HasGradient p f.value f.error fun _ => f.gradient := by
  cases f with
  | coordinate axis => exact axis.hasGradient
  | scalar a | boolean b | color c =>
    exact .constant (fun _ => rfl) (fun _ => ExactArith.zero_eq) rfl

/-! ### Modules -/

/-- An input has a gradient. -/
def Inputs.HasGradient (inputs : Inputs ℝ) (q : Query ℝ) (p : ℝ × ℝ × ℝ) (i : Nat) : Prop :=
  q.HasGradient p (inputs.value i) (inputs.error i) (inputs.gradient i)

/-- An output has a gradient. -/
def Answers.HasGradient (answers : Answers ℝ) (q : Query ℝ) (p : ℝ × ℝ × ℝ) (output : Nat) : Prop :=
  q.HasGradient p (answers.value output) (answers.error output) (answers.gradient output)

variable {inputs : Inputs ℝ}

/-- The product rule, unless a factor is not bound and the product is zero. -/
theorem Operator.hasGradient_product (h : inputs.HasGradient q p 0) (h' : inputs.HasGradient q p 1)
    (output : Nat) : (TextureModule.answers Operator.product inputs).HasGradient q p output := by
  show q.HasGradient p (fun q => Operator.value inputs q .product)
    (fun q => Operator.error inputs q .product) (fun q => Operator.gradient inputs q .product)
  unfold Operator.value Operator.error Operator.gradient
  by_cases hbound : Operator.bothBound inputs = true
  · simp only [if_pos hbound]
    exact h.mul h'
  · simp only [if_neg hbound]
    exact .constant (fun _ => rfl) (fun _ => ExactArith.zero_eq) rfl

/-- The quotient rule, where the denominator is not zero. -/
theorem Operator.hasGradient_ratio (h : inputs.HasGradient q p 0) (h' : inputs.HasGradient q p 1)
    (hne : inputs.value 1 (q.atTriple p) ≠ 0) (output : Nat) :
    (TextureModule.answers Operator.ratio inputs).HasGradient q p output := by
  have hdivisor : ∀ q, Bound.reachesZero (inputs.value 1 q) (inputs.error 1 q) = false →
      Operator.divisor? inputs q = some (inputs.value 1 q) := by
    intro q hq
    rw [Operator.divisor?, hq]
    rfl
  refine h.div h' hne (fun q hq => ?_) (fun q hq => ?_) fun q hq => ?_
  · show Operator.value inputs q .ratio = _
    rw [Operator.value, hdivisor q hq]
  · show Operator.error inputs q .ratio = _
    rw [Operator.error, hdivisor q hq]
  · show Operator.gradient inputs q .ratio = _
    rw [Operator.gradient, hdivisor q hq, ← ExactArith.one_eq]

/-- The chain rule for an affine form. -/
theorem AffineForm.hasGradient (h : ∀ i < 3, inputs.HasGradient q p i) (f : AffineForm ℝ) :
    q.HasGradient p (f.value inputs) (f.error inputs) (f.gradient inputs) :=
  ((((h 0 (by omega)).const_mul f.coefficients.x).add
    ((h 1 (by omega)).const_mul f.coefficients.y)).add
      ((h 2 (by omega)).const_mul f.coefficients.z)).add_const f.offset

theorem Mapping.hasGradient (h : ∀ i < 3, inputs.HasGradient q p i) (m : Mapping ℝ) (output : Nat) :
    (TextureModule.answers m inputs).HasGradient q p output :=
  (m.row output).hasGradient h

/-! ### Expressions -/

/-- Expressions with the four operations of arithmetic and the change of the sign only. -/
inductive Expr.IsRational : Expr ℝ → Prop where
  /-- A number. -/
  | number (a : ℝ) : IsRational (.number a)
  /-- A coordinate. -/
  | coordinate (axis : Axis) : IsRational (.coordinate axis)
  /-- An input. -/
  | input (i : Fin 3) : IsRational (.input i)
  /-- The negative. -/
  | negate {x : Expr ℝ} (hx : IsRational x) : IsRational (.unary .negate x)
  /-- A sum. -/
  | add {l r : Expr ℝ} (hl : IsRational l) (hr : IsRational r) : IsRational (.binary .add l r)
  /-- A difference. -/
  | subtract {l r : Expr ℝ} (hl : IsRational l) (hr : IsRational r) :
    IsRational (.binary .subtract l r)
  /-- A product. -/
  | multiply {l r : Expr ℝ} (hl : IsRational l) (hr : IsRational r) :
    IsRational (.binary .multiply l r)
  /-- A quotient. -/
  | divide {l r : Expr ℝ} (hl : IsRational l) (hr : IsRational r) : IsRational (.binary .divide l r)

/-- No denominator in an expression is zero. -/
def Expr.HasNoPole (inputs : Inputs ℝ) (q : Query ℝ) : Expr ℝ → Prop
  | .number _ | .coordinate _ | .input _ => True
  | .unary _ x => x.HasNoPole inputs q
  | .binary op l r => l.HasNoPole inputs q ∧ r.HasNoPole inputs q ∧
      (op = .divide → (r.estimate inputs q).value ≠ 0)

/-- **Step**, node by node: an expression has a gradient when its inputs have gradients and no
denominator is zero. -/
theorem Expr.IsRational.hasGradient {x : Expr ℝ} (hx : x.IsRational)
    (h : ∀ i < 3, inputs.HasGradient q p i) (hpole : x.HasNoPole inputs (q.atTriple p)) :
    q.HasGradient p (fun q => (x.estimate inputs q).value) (fun q => (x.estimate inputs q).error)
      (fun q => (x.estimate inputs q).gradient) := by
  induction hx with
  | number a => exact .constant (fun _ => rfl) (fun _ => ExactArith.zero_eq) rfl
  | coordinate axis => exact axis.hasGradient
  | input i => exact h i i.isLt
  | negate hx ih => exact (ih hpole).neg
  | add hl hr ihl ihr => exact (ihl hpole.1).add (ihr hpole.2.1)
  | subtract hl hr ihl ihr => exact (ihl hpole.1).sub (ihr hpole.2.1)
  | multiply hl hr ihl ihr =>
    -- The node adds up the two parts of the product rule in the other order.
    have hproduct := (ihl hpole.1).mul (ihr hpole.2.1)
    refine ⟨hproduct.exact, hproduct.derivative.congr_fderiv ?_⟩
    rw [Vec.functional_add, add_comm, ← Vec.functional_add]
    rfl
  | @divide l r hl hr ihl ihr =>
    let a (q : Query ℝ) := l.estimate inputs q
    let b (q : Query ℝ) := r.estimate inputs q
    -- Elsewhere the node gives the estimate for a pole, which is not a quotient.
    have hdivide : ∀ q, Bound.reachesZero (b q).value (b q).error = false →
        (Expr.binary .divide l r).estimate inputs q
          = ⟨(a q).value / (b q).value,
            Bound.ratio (a q).value (a q).error (b q).value (b q).error,
            ((a q).gradient.scale (b q).value - (b q).gradient.scale (a q).value).scale
              (1 / ((b q).value * (b q).value))⟩ := by
      intro q hq
      rw [← ExactArith.one_eq]
      exact if_neg (by rw [hq]; exact Bool.false_ne_true)
    exact (ihl hpole.1).div (ihr hpole.2.1) (hpole.2.2 rfl)
      (fun q hq => congrArg Estimate.value (hdivide q hq))
      (fun q hq => congrArg Estimate.error (hdivide q hq))
      fun q hq => congrArg Estimate.gradient (hdivide q hq)

/-! ### Modules of the catalog -/

namespace Catalog

/-- Modules that compute rational functions of the position. -/
inductive IsRational : Catalog ℝ → Prop where
  /-- A number. -/
  | number (a : ℝ) : IsRational (.source (.number a))
  /-- A value supplied with the sample. -/
  | parameter (i : Nat) (a : ℝ) : IsRational (.source (.parameter i a))
  /-- A coordinate. -/
  | coordinate (axis : Axis) : IsRational (.source (.coordinate axis))
  /-- A named result that carries numbers. -/
  | channel (name : String) (a : ℝ) : IsRational (.channel (.scalar name a))
  /-- A number and a color passed on. -/
  | tap : IsRational (.shaping .tap)
  /-- The sum of two numbers. -/
  | sum : IsRational (.operator .sum)
  /-- The difference of two numbers. -/
  | difference : IsRational (.operator .difference)
  /-- The product of two numbers. -/
  | product : IsRational (.operator .product)
  /-- The quotient of two numbers. -/
  | ratio : IsRational (.operator .ratio)
  /-- An affine map of the position. -/
  | mapping (m : Mapping ℝ) : IsRational (.mapping m)
  /-- An expression with the operations of arithmetic. -/
  | expression {x : Expression ℝ} (hx : x.root.IsRational) : IsRational (.expression x)

/-- No denominator in a module is zero. -/
def HasNoPole (inputs : Inputs ℝ) (q : Query ℝ) : Catalog ℝ → Prop
  | .operator .ratio => inputs.value 1 q ≠ 0
  | .expression x => x.root.HasNoPole inputs q
  | _ => True

/-- **Step**: the outputs of a module that carry numbers have gradients when its inputs that carry
numbers have gradients and no denominator is zero. -/
theorem IsRational.hasGradient {m : Catalog ℝ} (hm : m.IsRational)
    (h : ∀ i, m.signature.inputKind? i ≠ some .color → inputs.HasGradient q p i)
    (hpole : m.HasNoPole inputs (q.atTriple p)) {output : Nat} {kind : SocketKind}
    (houtput : m.signature.outputKind? output = some kind) (hkind : kind ≠ .color) :
    (TextureModule.answers m inputs).HasGradient q p output := by
  have hscalar : ∀ i, m.signature.inputKind? i = some .scalar → inputs.HasGradient q p i := by
    intro i hi
    exact h i (by rw [hi]; decide)
  cases hm with
  | number a => exact .constant (fun _ => rfl) (fun _ => ExactArith.zero_eq) rfl
  | parameter i a =>
    let supplied : ℝ := q.footprint.parameters.getD i a
    exact .constant (a := supplied) (fun _ => rfl) (fun _ => ExactArith.zero_eq) rfl
  | coordinate axis => exact axis.hasGradient
  | channel name a => exact hscalar 0 rfl
  | tap =>
    -- Only the first output carries numbers.
    match output, houtput with
    | 0, _ => exact hscalar 0 rfl
    | 1, houtput => exact absurd (Option.some.inj houtput).symm hkind
  | sum => exact (hscalar 0 rfl).add (hscalar 1 rfl)
  | difference => exact (hscalar 0 rfl).sub (hscalar 1 rfl)
  | product => exact Operator.hasGradient_product (hscalar 0 rfl) (hscalar 1 rfl) output
  | ratio => exact Operator.hasGradient_ratio (hscalar 0 rfl) (hscalar 1 rfl) hpole output
  | mapping m =>
    exact m.hasGradient (fun i hi => hscalar i (m.inputKind?_signature i hi)) output
  | @expression x hx =>
    exact hx.hasGradient (fun i hi => hscalar i (x.inputKind?_signature i hi)) hpole

end Catalog

end Gradients

/-! ### Graphs -/

section Graphs

variable {f : FrozenGraph (Catalog ℝ) ℝ} {q : Query ℝ} {p : ℝ × ℝ × ℝ}

namespace FrozenGraph

/-- **Run**: the outputs of a module that carry numbers have gradients when all modules upstream are
rational and no denominator in them is zero. -/
theorem answers_hasGradient {g : Graph (Catalog ℝ) ℝ} (hg : g.Consistent) (h : g.freeze = .ok f)
    {id : ModuleId} {e : Entry (Catalog ℝ) ℝ} (he : f.graph.entry? id = some e)
    (hcone : ∀ i, f.graph.Upstream id i → ∀ s, f.graph.entry? i = some s →
      s.module.IsRational ∧ s.module.HasNoPole (f.graph.pull f.answers s) (q.atTriple p))
    {output : Nat} {kind : SocketKind} (houtput : e.signature.outputKind? output = some kind)
    (hkind : kind ≠ .color) : (f.answers e).HasGradient q p output := by
  refine answers_induction hg h (P := q.HasGradient p) (fun b => b.hasGradient)
    (fun i hi s hs hinputs output kind houtput hkind => ?_) he houtput hkind
  obtain ⟨hrational, hpole⟩ := hcone i hi s hs
  exact hrational.hasGradient hinputs hpole houtput hkind

/-- **Gradients are derivatives**: in real arithmetic, whatever changes have led to a graph without
cycles, take an output that carries numbers, upstream of which all modules are rational, and a
position at which no denominator in them is zero.  The output can be asked for at every position,
without extent and blur, and the gradient that is given at this one is the derivative there of the
number that is given: its components are the partial derivatives along the axes. -/
theorem evaluateGradient_hasDerivAt (name : String) (edits : List (Edit (Catalog ℝ) ℝ))
    (h : (Graph.ofEdits name edits).freeze = .ok f) {t : Target} {e : Entry (Catalog ℝ) ℝ}
    {kind : SocketKind} (he : f.graph.entry? t.module = some e)
    (hkind : e.signature.outputKind? t.output = some kind) (hnumber : kind ≠ .color) {p : Vec ℝ}
    (hcone : ∀ i, f.graph.Upstream t.module i → ∀ s, f.graph.entry? i = some s →
      s.module.IsRational ∧ s.module.HasNoPole (f.graph.pull f.answers s) (q.atPoint p)) :
    ∃ (value : Vec ℝ → ℝ) (gradient : Vec ℝ),
      (∀ v, f.evaluateScalar t (q.atPoint v) = .ok (value v)) ∧
      f.evaluateGradient t (q.atPoint p) = .ok gradient ∧
      HasFDerivAt (fun v => value (.ofTriple v)) gradient.functional (p.x, p.y, p.z) ∧
      HasDerivAt (fun a => value ⟨a, p.y, p.z⟩) gradient.x p.x ∧
      HasDerivAt (fun a => value ⟨p.x, a, p.z⟩) gradient.y p.y ∧
      HasDerivAt (fun a => value ⟨p.x, p.y, a⟩) gradient.z p.z := by
  have hconsistent := Graph.consistent_ofEdits name edits
  have htarget : ∀ v, f.target t (q.atPoint v).blur = .ok (e, kind) := fun v =>
    target_of_nonneg ExactArith.zero_eq.ge he hkind
  have hgradient : (f.answers e).HasGradient q (p.x, p.y, p.z) t.output :=
    answers_hasGradient (p := (p.x, p.y, p.z)) hconsistent h he hcone hkind hnumber
  let value (v : Vec ℝ) : ℝ := (f.answers e).value t.output (q.atPoint v)
  let gradient : Vec ℝ := (f.answers e).gradient t.output (q.atPoint p)
  have hderivative :
      HasFDerivAt (fun v => value (.ofTriple v)) gradient.functional (p.x, p.y, p.z) :=
    hgradient.derivative
  -- Along a line, the derivative is the gradient taken in the direction of the line.
  have hline : ∀ {line : ℝ → ℝ × ℝ × ℝ} {direction : ℝ × ℝ × ℝ} {a c : ℝ},
      HasDerivAt line direction a → line a = (p.x, p.y, p.z) → gradient.functional direction = c →
      HasDerivAt (fun b => value (.ofTriple (line b))) c a := by
    intro line direction a c hl ha hc
    rw [← hc]
    exact (ha ▸ hderivative).comp_hasDerivAt a hl
  refine ⟨value, gradient, fun v => ?_, ?_, hderivative, ?_, ?_, ?_⟩
  · rw [evaluateScalar, htarget]
    exact if_neg hnumber
  · rw [evaluateGradient, htarget]
    exact if_neg hnumber
  · refine hline ((hasDerivAt_id p.x).prodMk (hasDerivAt_const p.x (p.y, p.z))) rfl ?_
    simp [Vec.functional_apply]
  · refine hline ((hasDerivAt_const p.y p.x).prodMk
      ((hasDerivAt_id p.y).prodMk (hasDerivAt_const p.y p.z))) rfl ?_
    simp [Vec.functional_apply]
  · refine hline ((hasDerivAt_const p.z p.x).prodMk
      ((hasDerivAt_const p.z p.y).prodMk (hasDerivAt_id p.z))) rfl ?_
    simp [Vec.functional_apply]

end FrozenGraph

/-- The ratio of two coordinates. -/
noncomputable def coordinateRatio : Graph (Catalog ℝ) ℝ :=
  Graph.ofEdits "ratio" [.add (.source (.coordinate .x)), .add (.source (.coordinate .y)),
    .add (.operator .ratio), .bind ⟨2⟩ 0 ⟨⟨0⟩, 0⟩, .bind ⟨2⟩ 1 ⟨⟨1⟩, 0⟩]

theorem freeze_coordinateRatio :
    coordinateRatio.freeze = .ok ⟨coordinateRatio, ⟨[⟨0⟩, ⟨1⟩, ⟨2⟩], 2⟩⟩ :=
  Graph.freeze_eq_ok (by decide +kernel)

/-- The ratio has a gradient where the second coordinate is not zero. -/
theorem FrozenGraph.evaluateGradient_hasDerivAt_coordinateRatio :
    ∃ f, coordinateRatio.freeze = .ok f ∧
      ∃ (value : Vec ℝ → ℝ) (gradient : Vec ℝ),
        (∀ v, f.evaluateScalar ⟨⟨2⟩, 0⟩ (acrossPlane.atPoint v) = .ok (value v)) ∧
        f.evaluateGradient ⟨⟨2⟩, 0⟩ (acrossPlane.atPoint ⟨3, 2, 0⟩) = .ok gradient ∧
        HasDerivAt (fun a => value ⟨3, a, 0⟩) gradient.y 2 := by
  let f : FrozenGraph (Catalog ℝ) ℝ := ⟨coordinateRatio, ⟨[⟨0⟩, ⟨1⟩, ⟨2⟩], 2⟩⟩
  have hcone : ∀ i, coordinateRatio.Upstream ⟨2⟩ i → ∀ s, coordinateRatio.entry? i = some s →
      s.module.IsRational ∧
        s.module.HasNoPole (coordinateRatio.pull f.answers s) (acrossPlane.atPoint ⟨3, 2, 0⟩) := by
    intro i _ s hs
    have hmem : i ∈ coordinateRatio.ids := Graph.mem_ids_of_lookup hs
    have hids : coordinateRatio.ids = [⟨0⟩, ⟨1⟩, ⟨2⟩] := rfl
    rw [hids] at hmem
    simp only [List.mem_cons, List.not_mem_nil, or_false] at hmem
    rcases hmem with rfl | rfl | rfl
    · cases hs
      exact ⟨.coordinate _, trivial⟩
    · cases hs
      exact ⟨.coordinate _, trivial⟩
    · cases hs
      exact ⟨.ratio, show (2 : ℝ) ≠ 0 from two_ne_zero⟩
  obtain ⟨value, gradient, hvalue, hgradient, -, -, hy, -⟩ :=
    FrozenGraph.evaluateGradient_hasDerivAt _ _ freeze_coordinateRatio (t := ⟨⟨2⟩, 0⟩) rfl rfl
      (by decide) hcone
  exact ⟨_, freeze_coordinateRatio, value, gradient, hvalue, hgradient, hy⟩

end Graphs

end TextureGraph
