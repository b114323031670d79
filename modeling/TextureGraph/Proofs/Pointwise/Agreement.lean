import TextureGraph.Proofs.Estimate.PiecewiseLinear
import TextureGraph.Proofs.Pattern.LatticeSearch
import TextureGraph.Proofs.Pointwise.Evaluator

/-!
# Without a footprint, evaluations are exact

`FrozenGraph.evaluation_atPoint`: in real arithmetic, without a footprint and without blur, an output
that rests on plain modules only has no error, and its mean is what the evaluator at points yields.  The
nearest feature points are those of the cells around a position; they are nearest in the whole lattice
wherever no other one is nearer, but not everywhere (`FrozenGraph.evaluation_ne_atPoint_betweenQuery`).

* `Inputs.AgreesAt` and `Answers.AgreesAt` take both together: a mean is the value itself only where
  the errors of the inputs are zero, and these errors are zero only at points.
* Each plain module passes this on from its inputs to its outputs (`Catalog.IsPlain.agreesAt`).
* Along the bindings, it carries over to the whole graph (`FrozenGraph.answers_agreesAt`).
-/

namespace TextureGraph

/-! ### Means without errors -/

/-- No bound cuts anything off where there is no error. -/
theorem min_exact {cap : ℝ} (hcap : 0 ≤ cap) : Arith.min 0 cap = 0 := by
  rw [ExactArith.min_real, min_eq_left hcap]

theorem Bound.periodic_exact (slope : ℝ) : Bound.periodic slope 0 = 0 := by
  have hcap : (0 : ℝ) ≤ Bound.periodicCap := by
    unfold Bound.periodicCap
    rw [ExactArith.half_eq]
    exact one_half_pos.le
  unfold Bound.periodic
  rw [ExactArith.abs_real, mul_zero, abs_zero, min_exact hcap]

namespace Mean

variable (x : ℝ)

theorem abs_exact : Mean.abs x 0 = |x| :=
  if_neg (abs_nonneg x).not_gt

theorem exp_exact : Mean.exp x 0 = Real.exp x :=
  if_pos (decide_eq_true ExactArith.zero_eq.symm)

theorem sin_exact : Mean.sin x 0 = Real.sin x :=
  if_pos (decide_eq_true ExactArith.zero_eq.symm)

theorem cos_exact : Mean.cos x 0 = Real.cos x :=
  if_pos (decide_eq_true ExactArith.zero_eq.symm)

theorem fraction_exact : Mean.fraction x 0 = unitClamp x := by
  unfold Mean.fraction unitClamp
  rw [ExactArith.zero_eq, ExactArith.one_eq, add_zero, sub_zero]
  by_cases hlow : x ≤ 0
  · rw [if_pos hlow, min_eq_right (hlow.trans zero_le_one), max_eq_left hlow]
  · rw [if_neg hlow]
    by_cases hhigh : 1 ≤ x
    · rw [if_pos hhigh, min_eq_left hhigh, max_eq_right zero_le_one]
    · -- Between zero and one, nothing is cut off.
      have hinside : (decide (x < 0) || decide (1 < x)) = false := by
        simp [le_of_not_ge hlow, le_of_not_ge hhigh]
      rw [if_neg hhigh, hinside, min_eq_right (le_of_not_ge hhigh),
        max_eq_right (le_of_not_ge hlow)]
      rfl

end Mean

theorem unitClamp_eq (x : ℝ) : Arith.clamp 0 1 x = unitClamp x := by
  unfold Arith.clamp unitClamp
  by_cases hlow : x < 0
  · rw [if_pos hlow, min_eq_right (hlow.le.trans zero_le_one), max_eq_left hlow.le]
  · rw [if_neg hlow]
    by_cases hhigh : 1 < x
    · rw [if_pos hhigh, min_eq_left hhigh.le, max_eq_right zero_le_one]
    · rw [if_neg hhigh, min_eq_right (not_lt.mp hhigh), max_eq_right (not_lt.mp hlow)]

/-! ### Blends -/

/-- An end that has no weight need not be read. -/
theorem blend_skipping (f a b : ℝ) :
    (1.0 - f) * (if f == 1.0 then 0.0 else a) + f * (if f == 0.0 then 0.0 else b) = blend f a b := by
  unfold blend
  rw [ExactArith.one_eq, ExactArith.zero_eq]
  by_cases hone : f = 1
  · subst hone
    simp
  · by_cases hzero : f = 0
    · subst hzero
      simp
    · simp [hone, hzero]

namespace Color

variable (f : ℝ) (c d : Color ℝ)

theorem lerp_eq : c.lerp d f = Color.blend f c d := by
  have hchannel : ∀ a b : ℝ, a * (1 - f) + b * f = TextureGraph.blend f a b := by
    intro a b
    unfold TextureGraph.blend
    ring
  unfold lerp
  rw [ExactArith.one_eq]
  show (⟨c.red * (1 - f) + d.red * f, c.green * (1 - f) + d.green * f,
    c.blue * (1 - f) + d.blue * f⟩ : Color ℝ) = _
  rw [hchannel, hchannel, hchannel]
  rfl

/-- A blend in which one color has all the weight is this color. -/
theorem blend_choosing :
    (if f == 0 then c else if f == 1 then d else Color.blend f c d) = Color.blend f c d := by
  by_cases hzero : f = 0
  · subst hzero
    simp [Color.blend, TextureGraph.blend]
  · by_cases hone : f = 1
    · subst hone
      simp [Color.blend, TextureGraph.blend]
    · simp [hzero, hone]

end Color

/-! ### Agreement -/

/-- The inputs have no errors at the point, and are found there as given. -/
structure Inputs.AgreesAt (inputs : Inputs ℝ) (q : Query ℝ) (point : PointInputs) : Prop where
  /-- The same inputs are bound. -/
  isBound_eq : ∀ i, inputs.isBound i = point.isBound i
  /-- The inputs as numbers. -/
  value_eq : ∀ i, inputs.value i q = point.number i
  /-- The inputs as colors. -/
  color_eq : ∀ i, inputs.color i q = point.color i
  /-- There are no errors. -/
  exact : ∀ i, inputs.error i q = 0

/-- The outputs have no errors at the point, and are there as given. -/
structure Answers.AgreesAt (answers : Answers ℝ) (q : Query ℝ) (point : PointOutputs) : Prop where
  /-- The outputs as numbers. -/
  value_eq : ∀ output, answers.value output q = point.number output
  /-- The outputs as colors. -/
  color_eq : ∀ output, answers.color output q = point.color output
  /-- There are no errors. -/
  exact : ∀ output, answers.error output q = 0

/-- The request is for a point. -/
structure Query.IsPoint (q : Query ℝ) : Prop where
  /-- There is no footprint. -/
  size_eq : q.footprint.size = ⟨0, 0, 0⟩
  /-- There is no blur. -/
  blur_eq : q.blur = 0

/-! ### Coordinates and constants -/

section Points

variable {q : Query ℝ} {inputs : Inputs ℝ} {point : PointInputs}

/-- Numbers agree as colors, too. -/
theorem Answers.agreesAt_ofNumbers {answers : Answers ℝ} {number : Nat → ℝ}
    (hvalue : ∀ output, answers.value output q = number output)
    (hcolor : ∀ output, answers.color output q = Color.gray (answers.value output q))
    (hexact : ∀ output, answers.error output q = 0) :
    answers.AgreesAt q (.ofNumbers number) where
  value_eq := hvalue
  color_eq output := by rw [hcolor, hvalue]; rfl
  exact := hexact

theorem Axis.value_eq_atPoint (axis : Axis) : axis.value q = axis.atPoint q.footprint := by
  cases axis <;> rfl

theorem Axis.error_eq_zero (hq : q.IsPoint) (axis : Axis) : axis.error q = 0 := by
  cases axis with
  | time => exact ExactArith.zero_eq
  | x | y | z => simp only [Axis.error, hq.size_eq, hq.blur_eq, mul_zero, add_zero]

theorem Fallback.value_eq_atPoint (b : Fallback ℝ) : b.value q = b.atPoint q.footprint := by
  cases b with
  | scalar a | color c => rfl
  | boolean b => cases b <;> simp [Fallback.value, Fallback.atPoint, Arith.ofBool]
  | coordinate axis => exact axis.value_eq_atPoint

theorem Fallback.toColor_eq_atPoint (b : Fallback ℝ) :
    b.toColor q = b.colorAtPoint q.footprint := by
  cases b with
  | color c => rfl
  | scalar a => rfl
  | boolean b | coordinate axis => exact congrArg Color.gray (Fallback.value_eq_atPoint _)

theorem Fallback.error_eq_zero (hq : q.IsPoint) (b : Fallback ℝ) : b.error q = 0 := by
  cases b with
  | coordinate axis => exact axis.error_eq_zero hq
  | scalar a | boolean b | color c => exact ExactArith.zero_eq

/-! ### Modules -/

theorem Source.agreesAt (hq : q.IsPoint) (m : Source ℝ) (inputs : Inputs ℝ) :
    (TextureModule.answers m inputs).AgreesAt q (m.atPoint q.footprint) := by
  cases m with
  | color c => exact ⟨fun _ => rfl, fun _ => rfl, fun _ => ExactArith.zero_eq⟩
  | coordinate axis =>
    exact Answers.agreesAt_ofNumbers (fun _ => axis.value_eq_atPoint) (fun _ => rfl)
      fun _ => axis.error_eq_zero hq
  | number a | parameter i a =>
    exact Answers.agreesAt_ofNumbers (fun _ => rfl) (fun _ => rfl) fun _ => ExactArith.zero_eq

theorem Channel.agreesAt (h : inputs.AgreesAt q point) (m : Channel ℝ) :
    (TextureModule.answers m inputs).AgreesAt q (m.atPoint point) :=
  ⟨fun _ => h.value_eq 0, fun _ => h.color_eq 0, fun _ => h.exact 0⟩

theorem Operator.agreesAt (h : inputs.AgreesAt q point) {op : Operator}
    (hop : op ≠ .ratio ∧ op ≠ .power) :
    (TextureModule.answers op inputs).AgreesAt q (.ofNumbers fun _ => op.atPoint point) := by
  refine Answers.agreesAt_ofNumbers (fun _ => ?_) (fun _ => rfl) fun _ => ?_
  · show op.value inputs q = op.atPoint point
    cases op with
    | sum | difference => simp only [Operator.value, Operator.atPoint, h.value_eq]
    | product =>
      simp only [Operator.value, Operator.atPoint, Operator.bothBound, h.isBound_eq, h.value_eq,
        ExactArith.zero_eq]
    | min => simp only [Operator.value, Operator.atPoint, h.value_eq, ExactArith.min_real]
    | max => simp only [Operator.value, Operator.atPoint, h.value_eq, ExactArith.max_real]
    | ratio => exact absurd rfl hop.1
    | power => exact absurd rfl hop.2
  · show op.error inputs q = 0
    cases op with
    | sum | difference => simp only [Operator.error, h.exact, add_zero]
    | product =>
      simp only [Operator.error, h.exact, Bound.product, mul_zero, ExactArith.abs_real, abs_zero,
        add_zero, ExactArith.zero_eq, ite_self]
    | min | max => exact h.exact _
    | ratio => exact absurd rfl hop.1
    | power => exact absurd rfl hop.2

theorem Shaping.agreesAt (h : inputs.AgreesAt q point) {m : Shaping} (hm : m ≠ .blur) :
    (TextureModule.answers m inputs).AgreesAt q (m.atPoint point) := by
  cases m with
  | abs =>
    refine Answers.agreesAt_ofNumbers (fun _ => ?_) (fun _ => rfl) fun _ => h.exact 0
    show Mean.abs _ _ = _
    rw [h.exact, Mean.abs_exact, h.value_eq]
  | exp =>
    refine Answers.agreesAt_ofNumbers (fun _ => ?_) (fun _ => rfl) fun _ => ?_
    · show Mean.exp _ _ = _
      rw [h.exact, Mean.exp_exact, h.value_eq]
    · show inputs.error 0 q * _ = 0
      rw [h.exact, zero_mul]
  | sine =>
    refine Answers.agreesAt_ofNumbers (fun _ => ?_) (fun _ => rfl) fun _ => ?_
    · show Mean.sin _ _ = _
      rw [h.exact, Mean.sin_exact, h.value_eq]
    · show Bound.periodic _ _ = 0
      rw [h.exact, Bound.periodic_exact]
  | cosine =>
    refine Answers.agreesAt_ofNumbers (fun _ => ?_) (fun _ => rfl) fun _ => ?_
    · show Mean.cos _ _ = _
      rw [h.exact, Mean.cos_exact, h.value_eq]
    · show Bound.periodic _ _ = 0
      rw [h.exact, Bound.periodic_exact]
  | interpolate =>
    refine Answers.agreesAt_ofNumbers (fun _ => ?_) (fun _ => rfl) fun _ => ?_
    · show Shaping.value inputs q 0 .interpolate = _
      simp only [Shaping.value, Shaping.fraction, h.exact, h.value_eq, Mean.fraction_exact]
      exact blend_skipping _ _ _
    · show Shaping.error inputs q 0 .interpolate = _
      simp only [Shaping.error, h.exact, mul_zero, add_zero]
  | tap =>
    refine ⟨fun output => ?_, fun output => ?_, fun output => ?_⟩
    · show (if output = 1 then (inputs.color 1 q).brightness else inputs.value 0 q) = _
      rw [h.color_eq, h.value_eq]
      rfl
    · show (if output = 0 then Color.gray (inputs.value 0 q) else inputs.color 1 q) = _
      rw [h.color_eq, h.value_eq]
      rfl
    · show (if output = 0 then inputs.error 0 q else inputs.error 1 q) = 0
      rw [h.exact, h.exact, ite_self]
  | blur => exact absurd rfl hm

theorem Composition.hueSpread_exact : Arith.min (0 : ℝ) Composition.maxHueSpread = 0 := by
  refine min_exact ?_
  unfold Composition.maxHueSpread
  rw [ExactArith.literal_eq]
  norm_num

/-- A hue without an error is not averaged. -/
theorem Composition.hsvColor_exact (h : inputs.AgreesAt q point) :
    Composition.hsvColor inputs q
      = Composition.ofTurns (point.number 0) (unitClamp (point.number 1)) (point.number 2) := by
  unfold Composition.hsvColor Composition.saturation
  rw [h.exact, mul_zero, Composition.hueSpread_exact, h.value_eq, h.value_eq, h.value_eq,
    ExactArith.zero_eq, ExactArith.one_eq, unitClamp_eq]
  exact if_pos (decide_eq_true rfl)

theorem Composition.color_eq_atPoint (h : inputs.AgreesAt q point) (m : Composition)
    (output : Nat) : m.color inputs q output = (m.atPoint point).color output := by
  cases m with
  | sum | difference | product =>
    simp only [Composition.color, h.color_eq]
    rfl
  | scale =>
    simp only [Composition.color, h.color_eq, h.value_eq]
    rfl
  | blend =>
    show _ = Color.blend (unitClamp (point.number 2)) (point.color 0) (point.color 1)
    simp only [Composition.color, Composition.fraction, h.color_eq, h.value_eq, h.exact,
      Mean.fraction_exact, ExactArith.zero_eq, ExactArith.one_eq, Color.lerp_eq]
    exact Color.blend_choosing _ _ _
  | darker =>
    simp only [Composition.color, Composition.darkerInput, h.color_eq]
    exact apply_ite Prod.snd _ _ _
  | lighter =>
    simp only [Composition.color, Composition.lighterInput, h.color_eq]
    exact apply_ite Prod.snd _ _ _
  | ofHsv => exact Composition.hsvColor_exact h
  | ofRgb | toHsv =>
    simp only [Composition.color, Composition.channels, h.value_eq]
    rfl

theorem Composition.error_eq_zero (h : inputs.AgreesAt q point) (m : Composition) :
    m.error inputs q = 0 := by
  cases m with
  | sum | difference | product | scale => simp only [Composition.error, h.exact, mul_zero, add_zero]
  | blend =>
    have hcap : Arith.min (0 : ℝ) 1 = 0 := min_exact zero_le_one
    simp only [Composition.error, h.exact, ExactArith.one_eq, hcap, mul_zero, add_zero]
  | darker | lighter => exact h.exact _
  | ofHsv =>
    simp only [Composition.error, h.exact, Composition.hueSpread_exact, mul_zero, add_zero]
  | ofRgb | toHsv =>
    simp only [Composition.error, Composition.channelError_eq, h.exact, max_self]

theorem Composition.agreesAt (h : inputs.AgreesAt q point) (m : Composition) :
    (TextureModule.answers m inputs).AgreesAt q (m.atPoint point) := by
  refine ⟨fun output => ?_, m.color_eq_atPoint h, fun _ => m.error_eq_zero h⟩
  show m.value inputs q output = _
  cases m with
  | toHsv =>
    simp only [Composition.value, Composition.channels, h.value_eq]
    rfl
  | _ => exact ExactArith.zero_eq

theorem Inputs.AgreesAt.position_eq (h : inputs.AgreesAt q point) :
    inputs.position q = point.position := by
  unfold Inputs.position PointInputs.position
  rw [h.value_eq, h.value_eq, h.value_eq]

theorem Inputs.AgreesAt.positionError_eq (h : inputs.AgreesAt q point) :
    inputs.positionError q = ⟨0, 0, 0⟩ := by
  unfold Inputs.positionError
  rw [h.exact, h.exact, h.exact]

theorem Metric.spread_exact (metric : Metric) : metric.spread (⟨0, 0, 0⟩ : Vec ℝ) = 0 := by
  have habs : (⟨0, 0, 0⟩ : Vec ℝ).abs = ⟨0, 0, 0⟩ := by
    simp only [Vec.abs, Vec.map, ExactArith.abs_real, abs_zero]
  unfold Metric.spread
  rw [habs]
  cases metric with
  | euclidean =>
    show Real.sqrt (0 * 0 + 0 * 0 + 0 * 0) = 0
    simp
  | cityBlock => simp
  | chessBoard => simp only [Vec.maxComponent, ExactArith.max_real, max_self]

theorem Texture.nearest_exact (h : inputs.AgreesAt q point) (metric : Metric) :
    Texture.nearest metric inputs q = Pattern.searchAround metric point.position := by
  unfold Texture.nearest
  rw [h.position_eq, Pattern.nearestTwo_eq_searchAround]
  simp only [Pattern.orFar, Option.getD_some]

/-- Without an error, the nearest cell is not mixed with the next one. -/
theorem Texture.cells_exact (h : inputs.AgreesAt q point) (metric : Metric) (output : Nat) :
    Texture.cellsValue metric output inputs q
        = (Texture.cells metric).atPoint point Pattern.searchAround output ∧
      Texture.cellsError metric output inputs q = 0 := by
  have hgap : ¬ (Pattern.searchAround metric point.position).2.distance
      - (Pattern.searchAround metric point.position).1.distance < 0 :=
    (sub_nonneg.mpr (Pattern.nearest_distance_le metric point.position)).not_gt
  unfold Texture.cellsValue Texture.cellsError
  rw [Texture.nearest_exact h, h.positionError_eq, Metric.spread_exact]
  refine ⟨?_, ?_⟩
  · match output with
    | 0 => exact if_neg hgap
    | 1 | 2 => rfl
    | n + 3 => exact ExactArith.zero_eq
  · by_cases houtput : output = Texture.cellOutput
    · rw [if_pos houtput]
      exact (if_neg hgap).trans ExactArith.zero_eq
    · rw [if_neg houtput]

theorem Texture.agreesAt (h : inputs.AgreesAt q point) {m : Texture ℝ}
    (hm : ∀ o spacing fractionOnly, m ≠ .wood o spacing fractionOnly) :
    (TextureModule.answers m inputs).AgreesAt q
      (.ofNumbers (m.atPoint point Pattern.searchAround)) := by
  refine Answers.agreesAt_ofNumbers (fun output => ?_) (fun _ => rfl) fun output => ?_
  · show m.value output inputs q = m.atPoint point Pattern.searchAround output
    cases m with
    | noise o =>
      simp only [Texture.value, Texture.atPoint, Octaves.estimate, h.value_eq, h.position_eq,
        h.positionError_eq, Pattern.fractal_atPoint, ExactArith.half_eq, Nat.cast_ofNat]
    | turbulence o =>
      simp only [Texture.value, Texture.atPoint, Octaves.estimate, h.value_eq, h.position_eq,
        h.positionError_eq, Pattern.fractal_atPoint, ExactArith.one_eq, one_mul]
    | cells metric => exact (Texture.cells_exact h metric output).1
    | wood o spacing fractionOnly => exact absurd rfl (hm o spacing fractionOnly)
  · show m.error output inputs q = 0
    cases m with
    | noise o | turbulence o =>
      simp only [Texture.error, Octaves.estimate, h.positionError_eq, Pattern.fractal_atPoint]
    | cells metric => exact (Texture.cells_exact h metric output).2
    | wood o spacing fractionOnly => exact absurd rfl (hm o spacing fractionOnly)

theorem Mapping.agreesAt (h : inputs.AgreesAt q point) (m : Mapping ℝ) :
    (TextureModule.answers m inputs).AgreesAt q (.ofNumbers (m.atPoint point)) := by
  refine Answers.agreesAt_ofNumbers (fun output => ?_) (fun _ => rfl) fun output => ?_
  · show (m.row output).value inputs q = _
    rw [AffineForm.value, h.position_eq]
    rfl
  · show (m.row output).error inputs q = 0
    rw [AffineForm.error, h.positionError_eq]
    simp only [Vec.dot, mul_zero, add_zero]

/-- **Step**: a plain module has no errors at a point, and yields what its formula says, when its
inputs have no errors there. -/
theorem Catalog.IsPlain.agreesAt {m : Catalog ℝ} (hm : m.IsPlain) (hq : q.IsPoint)
    (h : inputs.AgreesAt q point) :
    (TextureModule.answers m inputs).AgreesAt q
      (m.atPoint point q.footprint Pattern.searchAround) := by
  cases m with
  | source m => exact m.agreesAt hq inputs
  | channel m => exact m.agreesAt h
  | operator op =>
    refine Operator.agreesAt h ⟨?_, ?_⟩ <;>
      rintro rfl <;>
      exact hm
  | shaping m =>
    refine Shaping.agreesAt h ?_
    rintro rfl
    exact hm
  | composition m => exact m.agreesAt h
  | texture m =>
    refine Texture.agreesAt h ?_
    rintro o spacing fractionOnly rfl
    exact hm
  | mapping m => exact m.agreesAt h
  | expression m | matching m => exact hm.elim

/-! ### Graphs -/

/-- The inputs of a module agree when the outputs of the modules bound to it do. -/
theorem Graph.pull_agreesAt {g : Graph (Catalog ℝ) ℝ} (hq : q.IsPoint)
    {answers : Entry (Catalog ℝ) ℝ → Answers ℝ} {outputs : Entry (Catalog ℝ) ℝ → PointOutputs}
    {e : Entry (Catalog ℝ) ℝ} (h : ∀ input source output,
      g.source? e input = some (source, output) → (answers source).AgreesAt q (outputs source)) :
    (g.pull answers e).AgreesAt q (g.pullAtPoint q.footprint outputs e) := by
  refine ⟨fun i => rfl, fun i => ?_, fun i => ?_, fun i => ?_⟩ <;>
    unfold Graph.pull <;>
    dsimp only [Graph.pullAtPoint]
  · cases hs : g.source? e i with
    | none => exact Fallback.value_eq_atPoint _
    | some s => exact (h i s.1 s.2 hs).value_eq s.2
  · cases hs : g.source? e i with
    | none => exact Fallback.toColor_eq_atPoint _
    | some s =>
      obtain ⟨hvalue, hcolor, -⟩ := h i s.1 s.2 hs
      simp only [hvalue, hcolor]
  · cases hs : g.source? e i with
    | none => exact Fallback.error_eq_zero hq _
    | some s => exact (h i s.1 s.2 hs).exact s.2

/-- **Run**: the modules of a graph have no errors at a point, and yield there what the evaluator at
points says, when all modules upstream are plain. -/
theorem FrozenGraph.answers_agreesAt {f : FrozenGraph (Catalog ℝ) ℝ} {g : Graph (Catalog ℝ) ℝ}
    (h : g.freeze = .ok f) (hq : q.IsPoint) {id : ModuleId} {e : Entry (Catalog ℝ) ℝ}
    (he : f.graph.entry? id = some e)
    (hplain : ∀ i, f.graph.Upstream id i → ∀ s, f.graph.entry? i = some s → s.module.IsPlain) :
    (f.answers e).AgreesAt q (f.atPoint q.footprint Pattern.searchAround e) := by
  refine induction_reads h
    (P := fun id e => (∀ i, f.graph.Upstream id i → ∀ s, f.graph.entry? i = some s →
      s.module.IsPlain) → (f.answers e).AgreesAt q (f.atPoint q.footprint Pattern.searchAround e))
    (fun id e he ih hplain => ?_) he hplain
  rw [answers_eq h he, atPoint_eq q.footprint _ h he]
  refine (hplain id .refl e he).agreesAt hq (Graph.pull_agreesAt hq ?_)
  intro input source output hsource
  obtain ⟨b, hb, hentry, -⟩ := Graph.source?_eq_some_iff.mp hsource
  have hreads : f.graph.Reads id b.source := Graph.reads_of_binding? he hb
  exact ih b.source source hreads hentry fun i hi => hplain i (hi.head hreads)

/-! ### The nearest feature points of the whole lattice -/

/-- All `cells` upstream find nearest feature points of the lattice, as they always do by the largest
coordinate. -/
def FrozenGraph.ReadsNearest (f : FrozenGraph (Catalog ℝ) ℝ) (id : ModuleId) (q : Query ℝ) : Prop :=
  ∀ i, f.graph.Upstream id i → ∀ s, f.graph.entry? i = some s →
    ∀ m, s.module = .texture (.cells m) → m = .chessBoard ∨
      let position := (f.graph.pull f.answers s).position q
      Pattern.IsNearestPair m position (Pattern.searchAround m position)

/-- Only `cells` search, and only at the position that they are given. -/
theorem Catalog.atPoint_congr {search search' : Pattern.Search} {m : Catalog ℝ}
    (h : ∀ metric, m = .texture (.cells metric) →
      search metric point.position = search' metric point.position) (p : Footprint ℝ) :
    m.atPoint point p search = m.atPoint point p search' := by
  cases m with
  | texture m =>
    refine congrArg PointOutputs.ofNumbers (funext fun output => ?_)
    cases m with
    | cells metric =>
      dsimp only [Texture.atPoint]
      rw [h metric rfl]
    | _ => rfl
  | _ => rfl

/-- **Run**: the whole lattice need not be searched where all `cells` upstream find nearest feature points
of it. -/
theorem FrozenGraph.atPoint_latticeSearch {f : FrozenGraph (Catalog ℝ) ℝ}
    {g : Graph (Catalog ℝ) ℝ} (h : g.freeze = .ok f) (hq : q.IsPoint) {id : ModuleId}
    {e : Entry (Catalog ℝ) ℝ} (he : f.graph.entry? id = some e)
    (hplain : ∀ i, f.graph.Upstream id i → ∀ s, f.graph.entry? i = some s → s.module.IsPlain)
    (hnearest : f.ReadsNearest id q) :
    f.atPoint q.footprint Pattern.searchAround e
      = f.atPoint q.footprint Pattern.latticeSearch e := by
  refine induction_reads h
    (P := fun id e => (∀ i, f.graph.Upstream id i → ∀ s, f.graph.entry? i = some s →
      s.module.IsPlain) → f.ReadsNearest id q →
        f.atPoint q.footprint Pattern.searchAround e
          = f.atPoint q.footprint Pattern.latticeSearch e)
    (fun id e he ih hplain hnearest => ?_) he hplain hnearest
  have hreads : ∀ input source output, f.graph.source? e input = some (source, output) →
      ∃ i, f.graph.Reads id i ∧ f.graph.entry? i = some source := by
    intro input source output hsource
    obtain ⟨b, hb, hentry, -⟩ := Graph.source?_eq_some_iff.mp hsource
    exact ⟨b.source, Graph.reads_of_binding? he hb, hentry⟩
  have hinputs : (f.graph.pull f.answers e).AgreesAt q
      (f.graph.pullAtPoint q.footprint (f.atPoint q.footprint Pattern.searchAround) e) := by
    refine Graph.pull_agreesAt hq fun input source output hsource => ?_
    obtain ⟨i, hi, hentry⟩ := hreads input source output hsource
    exact answers_agreesAt h hq hentry fun i' hi' => hplain i' (hi'.head hi)
  have hsources := Graph.pullAtPoint_congr q.footprint fun input source output hsource => by
    obtain ⟨i, hi, hentry⟩ := hreads input source output hsource
    exact ih i source hi hentry (fun i' hi' => hplain i' (hi'.head hi))
      fun i' hi' => hnearest i' (hi'.head hi)
  rw [atPoint_eq q.footprint _ h he, atPoint_eq q.footprint _ h he, ← hsources]
  refine Catalog.atPoint_congr (fun metric hcells => ?_) _
  rw [← hinputs.position_eq]
  exact (Pattern.latticeSearch_eq_searchAround (hnearest id .refl e he metric hcells)).symm

/-! ### Evaluations -/

/-- What is found for an output, as a number and as a color. -/
def FrozenGraph.EvaluatesTo (f : FrozenGraph (Catalog ℝ) ℝ) (t : Target) (kind : SocketKind)
    (q : Query ℝ) (point : PointOutputs) : Prop :=
  (kind ≠ .color →
    f.evaluateScalar t q = .ok (point.number t.output) ∧
    f.evaluateColor t q = .ok (Color.gray (point.number t.output))) ∧
  (kind = .color → f.evaluateColor t q = .ok (point.color t.output))

theorem Answers.AgreesAt.evaluatesTo {f : FrozenGraph (Catalog ℝ) ℝ} {t : Target}
    {e : Entry (Catalog ℝ) ℝ} {kind : SocketKind} {point : PointOutputs}
    (h : (f.answers e).AgreesAt q point) (htarget : f.target t q.blur = .ok (e, kind)) :
    f.EvaluatesTo t kind q point := by
  refine ⟨fun hnumber => ⟨?_, ?_⟩, fun hcolored => ?_⟩
  · rw [FrozenGraph.evaluateScalar, htarget, ← h.value_eq]
    exact if_neg hnumber
  · rw [FrozenGraph.evaluateColor, htarget, ← h.value_eq]
    exact if_neg hnumber
  · rw [FrozenGraph.evaluateColor, htarget, ← h.color_eq]
    exact if_pos hcolored

/-- **Without a footprint, evaluations are exact**: in real arithmetic, in a graph without cycles, an
output upstream of which all modules are plain can be asked for at every point, without extent and
blur.

* Its error is zero.
* As a number and as a color, it is what the evaluator at points yields with the nearest feature points of
  the cells around each position.
* It is what the evaluator yields with nearest feature points of the whole lattice, if those around are
  nearest in the lattice wherever `cells` upstream search for them. -/
theorem FrozenGraph.evaluation_atPoint {f : FrozenGraph (Catalog ℝ) ℝ} {g : Graph (Catalog ℝ) ℝ}
    (h : g.freeze = .ok f) (hsize : q.footprint.size = ⟨0, 0, 0⟩) (hblur : q.blur = 0)
    {t : Target} {e : Entry (Catalog ℝ) ℝ} {kind : SocketKind}
    (he : f.graph.entry? t.module = some e)
    (hkind : e.signature.outputKind? t.output = some kind)
    (hplain : ∀ i, f.graph.Upstream t.module i → ∀ s, f.graph.entry? i = some s →
      s.module.IsPlain) :
    f.estimateError t q = .ok 0 ∧
      f.EvaluatesTo t kind q (f.atPoint q.footprint Pattern.searchAround e) ∧
      (f.ReadsNearest t.module q → ∃ search : Pattern.Search, search.FindsNearest ∧
        f.EvaluatesTo t kind q (f.atPoint q.footprint search e)) := by
  have hq : q.IsPoint := ⟨hsize, hblur⟩
  have htarget : f.target t q.blur = .ok (e, kind) := target_of_nonneg hblur.ge he hkind
  have hagrees := answers_agreesAt h hq he hplain
  refine ⟨?_, hagrees.evaluatesTo htarget, fun hnearest => ?_⟩
  · rw [estimateError, htarget]
    show Except.ok (reportedError _) = _
    rw [hagrees.exact, reportedError_eq, max_self]
  · rw [atPoint_latticeSearch h hq he hplain hnearest] at hagrees
    exact ⟨Pattern.latticeSearch, Pattern.latticeSearch_findsNearest, hagrees.evaluatesTo htarget⟩

theorem FrozenGraph.evaluation_atPoint_distanceFromPlane :
    ∃ f, distanceFromPlane.freeze = .ok f ∧
      f.estimateError ⟨⟨1⟩, 0⟩ ⟨⟨⟨-3, 4, 5⟩, ⟨0, 0, 0⟩, 0, []⟩, 0⟩ = .ok 0 ∧
      f.evaluateScalar ⟨⟨1⟩, 0⟩ ⟨⟨⟨-3, 4, 5⟩, ⟨0, 0, 0⟩, 0, []⟩, 0⟩ = .ok 3 := by
  have hplain : ∀ i, distanceFromPlane.Upstream ⟨1⟩ i → ∀ s, distanceFromPlane.entry? i = some s →
      s.module.IsPlain := by
    intro i _ s hs
    have hmem : i ∈ distanceFromPlane.ids := Graph.mem_ids_of_lookup hs
    have hids : distanceFromPlane.ids = [⟨0⟩, ⟨1⟩] := rfl
    rw [hids] at hmem
    simp only [List.mem_cons, List.not_mem_nil, or_false] at hmem
    rcases hmem with rfl | rfl <;>
      cases hs <;>
      exact trivial
  obtain ⟨herror, ⟨hnumber, -⟩, -⟩ := evaluation_atPoint (q := ⟨⟨⟨-3, 4, 5⟩, ⟨0, 0, 0⟩, 0, []⟩, 0⟩)
    (t := ⟨⟨1⟩, 0⟩) freeze_distanceFromPlane rfl rfl rfl rfl hplain
  refine ⟨_, freeze_distanceFromPlane, herror, (hnumber (by decide)).1.trans ?_⟩
  show Except.ok |(-3 : ℝ)| = Except.ok 3
  rw [abs_neg, abs_of_pos three_pos]

/-- **Nearer feature points are missed**: a `cells` module of its own, with distances along the straight
line, is not found to be what any search for nearest feature points of the lattice says. -/
theorem FrozenGraph.evaluation_ne_atPoint_betweenQuery :
    ∃ f e, (onlyCells .euclidean).freeze = .ok f ∧ f.graph.entry? ⟨0⟩ = some e ∧
      betweenQuery.footprint.size = ⟨0, 0, 0⟩ ∧ betweenQuery.blur = 0 ∧
      e.signature.outputKind? Texture.firstDistanceOutput = some .scalar ∧
      (∀ i, f.graph.Upstream ⟨0⟩ i → ∀ s, f.graph.entry? i = some s → s.module.IsPlain) ∧
      ¬ ∃ search : Pattern.Search, search.FindsNearest ∧
        f.EvaluatesTo ⟨⟨0⟩, Texture.firstDistanceOutput⟩ .scalar betweenQuery
          (f.atPoint betweenQuery.footprint search e) := by
  let g := onlyCells .euclidean
  have hfreeze := freeze_onlyCells .euclidean
  obtain ⟨hg, hf⟩ := Graph.freeze_ofEdits hfreeze
  have hplain : ∀ i, g.Upstream ⟨0⟩ i → ∀ s, g.entry? i = some s → s.module.IsPlain := by
    intro i _ s hs
    have hmem : i ∈ g.ids := Graph.mem_ids_of_lookup hs
    have hids : g.ids = [⟨0⟩] := rfl
    rw [hids, List.mem_singleton] at hmem
    subst hmem
    cases hs
    exact trivial
  have hsize : betweenQuery.footprint.size = ⟨0, 0, 0⟩ := by
    rw [betweenQuery, Vec.zero, ExactArith.zero_eq]
  have hentry : g.entry? ⟨0⟩ = some (.ofModule (.texture (.cells .euclidean))) := rfl
  refine ⟨_, _, hfreeze, hentry, hsize, rfl, rfl, hplain, ?_⟩
  rintro ⟨search, hfinds, hyields, -⟩
  obtain ⟨d, hd, hleast⟩ :=
    @evaluate_firstDistance _ ⟨0⟩ _ .euclidean betweenQuery hg hf ⟨rfl, rfl⟩ le_rfl
  obtain ⟨cell, haround, hcell⟩ := hleast.1
  have hne : Metric.euclidean ≠ .chessBoard := by decide
  have hlt := Pattern.distance_lt_of_isAround hne haround
  have hscalar := hd.symm.trans (hyields (by decide)).1
  rw [atPoint_eq _ search hf hentry] at hscalar
  obtain ⟨c, c', -, hsearch, hfirst, -⟩ := hfinds .euclidean betweenQuery.footprint.position
  have hle := hfirst ⟨-28, -11, 7⟩
  have hd : d = (search .euclidean betweenQuery.footprint.position).1.distance := Except.ok.inj hscalar
  rw [hsearch] at hd
  exact absurd (hcell.symm.trans hd) (hle.trans_lt hlt).ne'

end Points

end TextureGraph
