import TextureGraph.Proofs.Number.Exact
import TextureGraph.Proofs.Graph.Upstream

/-!
# Errors of piecewise linear graphs are bounds

`FrozenGraph.estimateError_bounds`: in real arithmetic, an output that rests on constants,
coordinates, sums, differences, absolute values and affine maps only (`Catalog.IsPiecewiseLinear`)
is nowhere in the blurred footprint farther from its mean than its error.

* `Query.Bounds` says so of anything that is asked for at a point and over a footprint; it is asked
  of an output both as a number and as a color.
* Each module bounds its outputs when its inputs are bounded (`Catalog.IsPiecewiseLinear.bounded`).
  The one that is not affine is the absolute value: `abs_abs_sub_mean_le` compares it with its mean
  over an interval.
* Along the bindings, this carries over to the whole graph (`FrozenGraph.answers_bounded`).
-/

namespace TextureGraph

/-! ### Points of a footprint -/

/-- A request for the point `v`, at the same time and with the same values of the surface. -/
def Query.atPoint {α : Type} [Arith α] (q : Query α) (v : Vec α) : Query α :=
  ⟨{ q.footprint with position := v, size := Vec.zero }, 0.0⟩

/-- Along each axis, the point `v` is off the middle of the footprint by at most half the size of
the footprint and the blur. -/
structure Query.Covers (q : Query ℝ) (v : Vec ℝ) : Prop where
  /-- Along the first axis. -/
  x : |v.x - q.footprint.position.x| ≤ q.footprint.size.x / 2 + q.blur
  /-- Along the second axis. -/
  y : |v.y - q.footprint.position.y| ≤ q.footprint.size.y / 2 + q.blur
  /-- Along the third axis. -/
  z : |v.z - q.footprint.position.z| ≤ q.footprint.size.z / 2 + q.blur

/-- No channel differs by more than `e`. -/
structure Color.Near (c d : Color ℝ) (e : ℝ) : Prop where
  /-- The red channels. -/
  red : |c.red - d.red| ≤ e
  /-- The green channels. -/
  green : |c.green - d.green| ≤ e
  /-- The blue channels. -/
  blue : |c.blue - d.blue| ≤ e

/-- What is found at the point `v` is off what is found over the footprint by at most the error;
there is no error at a point. -/
structure Query.Bounds (q : Query ℝ) (v : Vec ℝ) (value : Query ℝ → ℝ) (color : Query ℝ → Color ℝ)
    (error : Query ℝ → ℝ) : Prop where
  /-- As a number. -/
  value_le : |value (q.atPoint v) - value q| ≤ error q
  /-- As a color, channel by channel. -/
  color_near : (color (q.atPoint v)).Near (color q) (error q)
  /-- A point has no extent. -/
  exact : error (q.atPoint v) = 0

/-! ### Arithmetic of bounds -/

theorem abs_add_sub_add_le {a b c d e f : ℝ} (h : |c - a| ≤ e) (h' : |d - b| ≤ f) :
    |c + d - (a + b)| ≤ e + f := by
  have hsplit : c + d - (a + b) = (c - a) + (d - b) := by ring
  rw [hsplit]
  exact (abs_add_le _ _).trans (add_le_add h h')

theorem abs_sub_sub_sub_le {a b c d e f : ℝ} (h : |c - a| ≤ e) (h' : |d - b| ≤ f) :
    |c - d - (a - b)| ≤ e + f := by
  have hsplit : c - d - (a - b) = (c - a) - (d - b) := by ring
  rw [hsplit]
  exact (abs_sub _ _).trans (add_le_add h h')

theorem abs_mul_sub_mul_le {a c e : ℝ} (k : ℝ) (h : |c - a| ≤ e) : |k * c - k * a| ≤ |k| * e := by
  rw [← mul_sub, abs_mul]
  exact mul_le_mul_of_nonneg_left h (abs_nonneg k)

/-- The absolute value of `y` is off the mean of the absolute value over `[x - e, x + e]` by at most
`e`, where `y` lies in the interval. -/
theorem abs_abs_sub_mean_le {x y e : ℝ} (h : |y - x| ≤ e) : |(|y|) - Mean.abs x e| ≤ e := by
  unfold Mean.abs
  rw [ExactArith.abs_real, ExactArith.two_eq]
  split
  case isFalse => exact (abs_abs_sub_abs_le y x).trans h
  case isTrue hx =>
    have he : 0 < e := (abs_nonneg x).trans_lt hx
    have hy : |y| ≤ |x| + e := by
      have htriangle : |y| ≤ |x| + |y - x| := by
        have hsplit : y = x + (y - x) := by ring
        calc |y| = |x + (y - x)| := by rw [← hsplit]
          _ ≤ |x| + |y - x| := abs_add_le _ _
      linarith
    -- The mean is at least `e / 2` and at most `e`; it is `|x|` at both ends of `|x| ≤ e`.
    have hsquare : x * x = |x| * |x| := (abs_mul_abs_self x).symm
    have hlo : 0 ≤ (e - |x|) * (e - |x|) := mul_self_nonneg _
    have hupper : (x * x + e * e) / (2 * e) ≤ e := by
      rw [div_le_iff₀ (by linarith), hsquare]
      nlinarith [abs_nonneg x]
    have hlower : |x| ≤ (x * x + e * e) / (2 * e) := by
      rw [le_div_iff₀ (by linarith), hsquare]
      linarith
    rw [abs_le]
    constructor
    · linarith [abs_nonneg y]
    · linarith

namespace Color

variable {c c' d d' : Color ℝ} {a b e e' : ℝ}

theorem near_refl (c : Color ℝ) : c.Near c 0 := by
  constructor <;> rw [sub_self, abs_zero]

theorem near_gray (h : |a - b| ≤ e) : (gray a).Near (gray b) e :=
  ⟨h, h, h⟩

theorem Near.add (h : c.Near d e) (h' : c'.Near d' e') : (c + c').Near (d + d') (e + e') :=
  ⟨abs_add_sub_add_le h.red h'.red, abs_add_sub_add_le h.green h'.green,
    abs_add_sub_add_le h.blue h'.blue⟩

theorem Near.sub (h : c.Near d e) (h' : c'.Near d' e') : (c - c').Near (d - d') (e + e') :=
  ⟨abs_sub_sub_sub_le h.red h'.red, abs_sub_sub_sub_le h.green h'.green,
    abs_sub_sub_sub_le h.blue h'.blue⟩

theorem Near.nonneg (h : c.Near d e) : 0 ≤ e :=
  (abs_nonneg _).trans h.red

theorem Near.mono (h : c.Near d e) (hle : e ≤ e') : c.Near d e' :=
  ⟨h.red.trans hle, h.green.trans hle, h.blue.trans hle⟩

/-- The mean of the channels moves by no more than the channels do. -/
theorem Near.brightness (h : c.Near d e) : |c.brightness - d.brightness| ≤ e := by
  have hsum : |c.red + c.green + c.blue - (d.red + d.green + d.blue)| ≤ e + e + e :=
    abs_add_sub_add_le (abs_add_sub_add_le h.red h.green) h.blue
  unfold Color.brightness
  rw [ExactArith.three_eq, ← sub_div, abs_div, abs_of_pos (by norm_num : (0 : ℝ) < 3),
    div_le_iff₀ (by norm_num)]
  linarith

end Color

/-! ### Coordinates and constants -/

section Bounds

variable {q : Query ℝ} {v : Vec ℝ}

/-- Numbers are bounded as colors when they are bounded as numbers. -/
theorem Query.bounds_gray {value error : Query ℝ → ℝ}
    (hvalue : |value (q.atPoint v) - value q| ≤ error q) (hexact : error (q.atPoint v) = 0) :
    q.Bounds v value (fun q => Color.gray (value q)) error :=
  ⟨hvalue, Color.near_gray hvalue, hexact⟩

/-- What is the same at the point as over the footprint has no error. -/
theorem Query.bounds_of_eq {value error : Query ℝ → ℝ} {color : Query ℝ → Color ℝ}
    (hvalue : value (q.atPoint v) = value q) (hcolor : color (q.atPoint v) = color q)
    (herror : ∀ q, error q = 0) : q.Bounds v value color error := by
  refine ⟨?_, ?_, herror _⟩
  · rw [hvalue, sub_self, abs_zero, herror]
  · rw [hcolor, herror]
    exact Color.near_refl _

theorem Axis.abs_value_sub_le (h : q.Covers v) (axis : Axis) :
    |axis.value (q.atPoint v) - axis.value q| ≤ axis.error q := by
  have hhalf : ∀ size : ℝ, Arith.toOfScientific.ofScientific 5 true 1 * size = size / 2 := by
    intro size
    rw [ExactArith.half_eq]
    ring
  cases axis with
  | x => exact h.x.trans_eq (congrArg (· + q.blur) (hhalf _).symm)
  | y => exact h.y.trans_eq (congrArg (· + q.blur) (hhalf _).symm)
  | z => exact h.z.trans_eq (congrArg (· + q.blur) (hhalf _).symm)
  | time =>
    unfold Axis.value Axis.error Query.atPoint
    rw [sub_self, abs_zero, ExactArith.zero_eq]

theorem Axis.error_atPoint (q : Query ℝ) (v : Vec ℝ) (axis : Axis) :
    axis.error (q.atPoint v) = 0 := by
  cases axis <;> simp [Axis.error, Query.atPoint, Vec.zero]

theorem Axis.bounds (h : q.Covers v) (axis : Axis) :
    q.Bounds v axis.value (fun q => Color.gray (axis.value q)) axis.error :=
  Query.bounds_gray (axis.abs_value_sub_le h) (axis.error_atPoint q v)

theorem Fallback.bounds (h : q.Covers v) (f : Fallback ℝ) :
    q.Bounds v f.value f.toColor f.error := by
  cases f with
  | coordinate axis => exact axis.bounds h
  | scalar a | boolean b | color c =>
    exact Query.bounds_of_eq rfl rfl fun _ => ExactArith.zero_eq

/-! ### Modules -/

/-- Every input is bounded. -/
def Inputs.Bounded (inputs : Inputs ℝ) (q : Query ℝ) (v : Vec ℝ) : Prop :=
  ∀ i, q.Bounds v (inputs.value i) (inputs.color i) (inputs.error i)

/-- An output is bounded. -/
def Answers.Bounded (answers : Answers ℝ) (q : Query ℝ) (v : Vec ℝ) (output : Nat) : Prop :=
  q.Bounds v (answers.value output) (answers.color output) (answers.error output)

theorem Source.bounded (h : q.Covers v) (m : Source ℝ) (inputs : Inputs ℝ) (output : Nat) :
    (TextureModule.answers m inputs).Bounded q v output := by
  cases m with
  | coordinate axis => exact axis.bounds h
  | number a | color c | parameter i a =>
    exact Query.bounds_of_eq rfl rfl fun _ => ExactArith.zero_eq

variable {inputs : Inputs ℝ}

theorem Channel.bounded (h : inputs.Bounded q v) (m : Channel ℝ) (output : Nat) :
    (TextureModule.answers m inputs).Bounded q v output :=
  h 0

theorem Inputs.Bounded.error_add (h : inputs.Bounded q v) (i j : Nat) :
    inputs.error i (q.atPoint v) + inputs.error j (q.atPoint v) = 0 := by
  rw [(h i).exact, (h j).exact, add_zero]

theorem Operator.bounded_sum (h : inputs.Bounded q v) (output : Nat) :
    (TextureModule.answers Operator.sum inputs).Bounded q v output :=
  Query.bounds_gray (abs_add_sub_add_le (h 0).value_le (h 1).value_le) (h.error_add 0 1)

theorem Operator.bounded_difference (h : inputs.Bounded q v) (output : Nat) :
    (TextureModule.answers Operator.difference inputs).Bounded q v output :=
  Query.bounds_gray (abs_sub_sub_sub_le (h 0).value_le (h 1).value_le) (h.error_add 0 1)

theorem Shaping.bounded_abs (h : inputs.Bounded q v) (output : Nat) :
    (TextureModule.answers Shaping.abs inputs).Bounded q v output := by
  refine Query.bounds_gray ?_ (h 0).exact
  have hpoint : Mean.abs (inputs.value 0 (q.atPoint v)) (inputs.error 0 (q.atPoint v))
      = |inputs.value 0 (q.atPoint v)| := by
    rw [(h 0).exact]
    exact if_neg (abs_nonneg _).not_gt
  change |Mean.abs _ _ - Mean.abs _ _| ≤ _
  rw [hpoint]
  exact abs_abs_sub_mean_le (h 0).value_le

theorem Shaping.bounded_tap (h : inputs.Bounded q v) {output : Nat} (houtput : output < 2) :
    (TextureModule.answers Shaping.tap inputs).Bounded q v output := by
  obtain rfl | rfl : output = 0 ∨ output = 1 := by omega
  · exact Query.bounds_gray (h 0).value_le (h 0).exact
  · exact ⟨(h 1).color_near.brightness, (h 1).color_near, (h 1).exact⟩

/-- An affine form changes by no more than the weighted changes of the coordinates. -/
theorem AffineForm.abs_value_sub_le (h : inputs.Bounded q v) (f : AffineForm ℝ) :
    |f.value inputs (q.atPoint v) - f.value inputs q| ≤ f.error inputs q := by
  have hdot : |f.coefficients.dot (inputs.position (q.atPoint v))
      - f.coefficients.dot (inputs.position q)| ≤ f.error inputs q :=
    abs_add_sub_add_le
      (abs_add_sub_add_le (abs_mul_sub_mul_le _ (h 0).value_le)
        (abs_mul_sub_mul_le _ (h 1).value_le))
      (abs_mul_sub_mul_le _ (h 2).value_le)
  unfold AffineForm.value
  rwa [add_sub_add_right_eq_sub]

theorem AffineForm.error_atPoint (h : inputs.Bounded q v) (f : AffineForm ℝ) :
    f.error inputs (q.atPoint v) = 0 := by
  have herror : inputs.positionError (q.atPoint v) = ⟨0, 0, 0⟩ := by
    rw [Inputs.positionError, (h 0).exact, (h 1).exact, (h 2).exact]
  rw [AffineForm.error, herror]
  simp only [Vec.dot, mul_zero, add_zero]

theorem Mapping.bounded (h : inputs.Bounded q v) (m : Mapping ℝ) (output : Nat) :
    (TextureModule.answers m inputs).Bounded q v output :=
  Query.bounds_gray ((m.row output).abs_value_sub_le h) ((m.row output).error_atPoint h)

/-- As a number, a color is zero everywhere. -/
theorem Query.bounds_of_color {error : Query ℝ → ℝ} {color : Query ℝ → Color ℝ} {a : ℝ}
    (hcolor : (color (q.atPoint v)).Near (color q) (error q)) (hexact : error (q.atPoint v) = 0) :
    q.Bounds v (fun _ => a) color error := by
  refine ⟨?_, hcolor, hexact⟩
  rw [sub_self, abs_zero]
  exact hcolor.nonneg

theorem Composition.bounded_sum (h : inputs.Bounded q v) (output : Nat) :
    (TextureModule.answers Composition.sum inputs).Bounded q v output :=
  Query.bounds_of_color ((h 0).color_near.add (h 1).color_near) (h.error_add 0 1)

theorem Composition.bounded_difference (h : inputs.Bounded q v) (output : Nat) :
    (TextureModule.answers Composition.difference inputs).Bounded q v output :=
  Query.bounds_of_color ((h 0).color_near.sub (h 1).color_near) (h.error_add 0 1)

theorem Composition.channelError_eq (inputs : Inputs ℝ) (q : Query ℝ) :
    Composition.channelError inputs q
      = max (max (max 0 (inputs.error 0 q)) (inputs.error 1 q)) (inputs.error 2 q) := by
  simp only [Composition.channelError, List.foldl_cons, List.foldl_nil, ExactArith.max_real,
    ExactArith.zero_eq]

theorem Composition.bounded_ofRgb (h : inputs.Bounded q v) (output : Nat) :
    (TextureModule.answers Composition.ofRgb inputs).Bounded q v output := by
  change q.Bounds v _ (Composition.channels inputs) (Composition.channelError inputs)
  refine Query.bounds_of_color ⟨?_, ?_, ?_⟩ ?_
  · rw [Composition.channelError_eq]
    exact (h 0).value_le.trans ((le_max_right _ _).trans ((le_max_left _ _).trans (le_max_left _ _)))
  · rw [Composition.channelError_eq]
    exact (h 1).value_le.trans ((le_max_right _ _).trans (le_max_left _ _))
  · rw [Composition.channelError_eq]
    exact (h 2).value_le.trans (le_max_right _ _)
  · rw [Composition.channelError_eq, (h 0).exact, (h 1).exact, (h 2).exact, max_self, max_self,
      max_self]

/-- Modules whose outputs are made of constants, coordinates, sums, differences, absolute values and
affine maps. -/
inductive Catalog.IsPiecewiseLinear : Catalog ℝ → Prop where
  /-- A constant or a value supplied with the sample. -/
  | source (m : Source ℝ) : IsPiecewiseLinear (.source m)
  /-- A named result. -/
  | channel (m : Channel ℝ) : IsPiecewiseLinear (.channel m)
  /-- The sum of two numbers. -/
  | sum : IsPiecewiseLinear (.operator .sum)
  /-- The difference of two numbers. -/
  | difference : IsPiecewiseLinear (.operator .difference)
  /-- The absolute value. -/
  | abs : IsPiecewiseLinear (.shaping .abs)
  /-- A number and a color passed on. -/
  | tap : IsPiecewiseLinear (.shaping .tap)
  /-- An affine map of the position. -/
  | mapping (m : Mapping ℝ) : IsPiecewiseLinear (.mapping m)
  /-- The sum of two colors. -/
  | colorSum : IsPiecewiseLinear (.composition .sum)
  /-- The difference of two colors. -/
  | colorDifference : IsPiecewiseLinear (.composition .difference)
  /-- The color with given channels. -/
  | ofRgb : IsPiecewiseLinear (.composition .ofRgb)

/-- **Step**: a module bounds its outputs when its inputs are bounded. -/
theorem Catalog.IsPiecewiseLinear.bounded {m : Catalog ℝ} (hm : m.IsPiecewiseLinear)
    (hv : q.Covers v) (h : inputs.Bounded q v) {output : Nat} {kind : SocketKind}
    (houtput : m.signature.outputKind? output = some kind) :
    (TextureModule.answers m inputs).Bounded q v output := by
  cases hm with
  | source m => exact m.bounded hv inputs output
  | channel m => exact m.bounded h output
  | sum => exact Operator.bounded_sum h output
  | difference => exact Operator.bounded_difference h output
  | abs => exact Shaping.bounded_abs h output
  | tap =>
    -- The two outputs of a tap read different inputs, and there is no third output.
    obtain ⟨socket, hsocket, -⟩ := Option.map_eq_some_iff.mp houtput
    obtain ⟨hlt, -⟩ := List.getElem?_eq_some_iff.mp hsocket
    exact Shaping.bounded_tap h hlt
  | mapping m => exact m.bounded h output
  | colorSum => exact Composition.bounded_sum h output
  | colorDifference => exact Composition.bounded_difference h output
  | ofRgb => exact Composition.bounded_ofRgb h output

end Bounds

/-! ### Graphs -/

section Graphs

variable {f : FrozenGraph (Catalog ℝ) ℝ} {q : Query ℝ} {v : Vec ℝ}

/-- An input is bounded when the output bound to it is. -/
theorem Graph.pull_bounded {g : Graph (Catalog ℝ) ℝ} (hv : q.Covers v)
    {answers : Entry (Catalog ℝ) ℝ → Answers ℝ} {e : Entry (Catalog ℝ) ℝ}
    (h : ∀ input source output, g.source? e input = some (source, output) →
      (answers source).Bounded q v output) :
    (g.pull answers e).Bounded q v := by
  intro i
  unfold Graph.pull
  dsimp only
  cases hs : g.source? e i with
  | none => exact Fallback.bounds hv _
  | some s =>
    obtain ⟨source, output⟩ := s
    have hsource : (answers source).Bounded q v output := h i source output hs
    dsimp only
    split
    · exact hsource
    · exact Query.bounds_gray hsource.value_le hsource.exact

/-- **Run**: the outputs of a module are bounded when all modules upstream are piecewise linear. -/
theorem FrozenGraph.answers_bounded {g : Graph (Catalog ℝ) ℝ} (hg : g.Consistent)
    (h : g.freeze = .ok f) (hv : q.Covers v) {id : ModuleId} {e : Entry (Catalog ℝ) ℝ}
    (he : f.graph.entry? id = some e)
    (hcone : ∀ i, f.graph.Upstream id i → ∀ s, f.graph.entry? i = some s →
      s.module.IsPiecewiseLinear)
    {output : Nat} {kind : SocketKind} (houtput : e.signature.outputKind? output = some kind) :
    (f.answers e).Bounded q v output := by
  have hf : f.graph.Consistent := (Graph.freeze_ok h).1 ▸ hg
  refine FrozenGraph.induction_reads h
    (P := fun id e => (∀ i, f.graph.Upstream id i → ∀ s, f.graph.entry? i = some s →
      s.module.IsPiecewiseLinear) → ∀ output kind, e.signature.outputKind? output = some kind →
      (f.answers e).Bounded q v output) (fun id e he ih hcone output kind houtput => ?_) he hcone
      output kind houtput
  rw [FrozenGraph.answers_eq h he]
  refine (hcone id .refl e he).bounded hv (Graph.pull_bounded hv ?_)
    (((hf.entries id e he).outputKind?_eq output).trans houtput)
  intro input source sourceOutput hsource
  obtain ⟨b, hb, hentry, -⟩ := Graph.source?_eq_some_iff.mp hsource
  obtain ⟨-, sourceKind, hkind, -⟩ := hf.exists_feeds he hsource
  have hreads : f.graph.Reads id b.source := Graph.reads_of_binding? he hb
  exact ih b.source source hreads hentry (fun i hi => hcone i (hi.head hreads)) sourceOutput
    sourceKind hkind

/-- In real arithmetic, an output that is there can be asked for with any blur that is not
negative. -/
theorem FrozenGraph.target_of_nonneg {t : Target} {blur : ℝ} (hblur : 0 ≤ blur)
    {e : Entry (Catalog ℝ) ℝ} {kind : SocketKind} (he : f.graph.entry? t.module = some e)
    (hkind : e.signature.outputKind? t.output = some kind) :
    f.target t blur = .ok (e, kind) := by
  refine FrozenGraph.target_eq_ok ?_ he hkind
  have hfinite : Arith.isFinite blur = true := rfl
  rw [hfinite, ExactArith.zero_eq, decide_eq_false hblur.not_gt]
  exact Bool.false_ne_true

theorem FrozenGraph.reportedError_eq (error : ℝ) :
    FrozenGraph.reportedError error = max error 0 := by
  have hreported : FrozenGraph.reportedError error = Arith.max error _ := if_pos rfl
  rw [hreported, ExactArith.max_real, ExactArith.zero_eq]

theorem FrozenGraph.le_reportedError (error : ℝ) : error ≤ FrozenGraph.reportedError error := by
  rw [FrozenGraph.reportedError_eq]
  exact le_max_left _ _

/-- **Errors of piecewise linear graphs are bounds**: whatever changes have led to a graph without
cycles, an output upstream of which all modules are piecewise linear is nowhere in the blurred
footprint farther from its mean than the error that is reported, be it asked for as a number or, channel
by channel, as a color. -/
theorem FrozenGraph.estimateError_bounds (name : String) (edits : List (Edit (Catalog ℝ) ℝ))
    (h : (Graph.ofEdits name edits).freeze = .ok f) {t : Target} {e : Entry (Catalog ℝ) ℝ}
    {kind : SocketKind} (he : f.graph.entry? t.module = some e)
    (hkind : e.signature.outputKind? t.output = some kind)
    (hcone : ∀ i, f.graph.Upstream t.module i → ∀ s, f.graph.entry? i = some s →
      s.module.IsPiecewiseLinear)
    (hblur : 0 ≤ q.blur) (hv : q.Covers v) :
    ∃ error, f.estimateError t q = .ok error ∧
      (kind ≠ .color → ∃ mean value, f.evaluateScalar t q = .ok mean ∧
        f.evaluateScalar t (q.atPoint v) = .ok value ∧ |value - mean| ≤ error) ∧
      ∃ mean value, f.evaluateColor t q = .ok mean ∧
        f.evaluateColor t (q.atPoint v) = .ok value ∧ value.Near mean error := by
  have htarget : f.target t q.blur = .ok (e, kind) := target_of_nonneg hblur he hkind
  have hpoint : f.target t (q.atPoint v).blur = .ok (e, kind) :=
    target_of_nonneg ExactArith.zero_eq.ge he hkind
  have hbounds : q.Bounds v _ _ _ :=
    answers_bounded (Graph.consistent_ofEdits name edits) h hv he hcone hkind
  have hreported := le_reportedError ((f.answers e).error t.output q)
  have hvalue := hbounds.value_le.trans hreported
  have hcolor := hbounds.color_near.mono hreported
  refine ⟨reportedError ((f.answers e).error t.output q), ?_, fun hnumber => ⟨_, _, ?_, ?_, hvalue⟩,
    ?_⟩
  · rw [estimateError, htarget]
    rfl
  · rw [evaluateScalar, htarget]
    exact if_neg hnumber
  · rw [evaluateScalar, hpoint]
    exact if_neg hnumber
  · unfold evaluateColor
    rw [htarget, hpoint]
    by_cases hkindColor : kind = .color
    · exact ⟨_, _, if_pos hkindColor, if_pos hkindColor, hcolor⟩
    · exact ⟨_, _, if_neg hkindColor, if_neg hkindColor, Color.near_gray hvalue⟩

/-- The distance from a plane. -/
noncomputable def distanceFromPlane : Graph (Catalog ℝ) ℝ :=
  Graph.ofEdits "distance" [.add (.source (.coordinate .x)), .add (.shaping .abs),
    .bind ⟨1⟩ 0 ⟨⟨0⟩, 0⟩]

/-- A box across the plane. -/
noncomputable def acrossPlane : Query ℝ :=
  ⟨⟨⟨0, 0, 0⟩, ⟨1, 1, 1⟩, 0, []⟩, 1 / 2⟩

theorem freeze_distanceFromPlane :
    distanceFromPlane.freeze = .ok ⟨distanceFromPlane, ⟨[⟨0⟩, ⟨1⟩], 2⟩⟩ :=
  Graph.freeze_eq_ok (by decide +kernel)

theorem FrozenGraph.estimateError_bounds_distanceFromPlane :
    ∃ f error mean value, distanceFromPlane.freeze = .ok f ∧
      f.estimateError ⟨⟨1⟩, 0⟩ acrossPlane = .ok error ∧
      f.evaluateScalar ⟨⟨1⟩, 0⟩ acrossPlane = .ok mean ∧
      f.evaluateScalar ⟨⟨1⟩, 0⟩ (acrossPlane.atPoint ⟨1, 0, 0⟩) = .ok value ∧
      |value - mean| ≤ error := by
  have hcone : ∀ i, distanceFromPlane.Upstream ⟨1⟩ i → ∀ s, distanceFromPlane.entry? i = some s →
      s.module.IsPiecewiseLinear := by
    intro i _ s hs
    have hmem : i ∈ distanceFromPlane.ids := Graph.mem_ids_of_lookup hs
    have hids : distanceFromPlane.ids = [⟨0⟩, ⟨1⟩] := rfl
    rw [hids] at hmem
    simp only [List.mem_cons, List.not_mem_nil, or_false] at hmem
    rcases hmem with rfl | rfl
    · cases hs
      exact .source _
    · cases hs
      exact .abs
  have hcovers : acrossPlane.Covers ⟨1, 0, 0⟩ := by
    constructor <;> norm_num [acrossPlane]
  have hblur : 0 ≤ acrossPlane.blur := by
    norm_num [acrossPlane]
  obtain ⟨error, herror, hscalar, -⟩ := FrozenGraph.estimateError_bounds _ _
    freeze_distanceFromPlane (t := ⟨⟨1⟩, 0⟩) rfl rfl hcone hblur hcovers
  obtain ⟨mean, value, hmean, hvalue, hle⟩ := hscalar (by decide)
  exact ⟨_, error, mean, value, freeze_distanceFromPlane, herror, hmean, hvalue, hle⟩

end Graphs

end TextureGraph
