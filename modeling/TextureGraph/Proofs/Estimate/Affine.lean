import TextureGraph.Proofs.Estimate.PiecewiseLinear

/-!
# Affine graphs have errors that shrink with the footprint

In real arithmetic, an output that rests on constants, coordinates, sums, differences and affine maps
only (`Catalog.IsAffine`) is an affine function of the middle of the footprint, and its error is a
linear function of the extent of the footprint (`FrozenGraph.answers_isAffine`).  So the error is the
same all over space, and half as large over half the extent.
-/

namespace TextureGraph

/-! ### Inner products -/

namespace Vec

variable (u v w : Vec ℝ) (a : ℝ)

theorem dot_add_left : (u + v).dot w = u.dot w + v.dot w := by
  show (u.x + v.x) * w.x + (u.y + v.y) * w.y + (u.z + v.z) * w.z = _
  unfold dot
  ring

theorem dot_add_right : u.dot (v + w) = u.dot v + u.dot w := by
  show u.x * (v.x + w.x) + u.y * (v.y + w.y) + u.z * (v.z + w.z) = _
  unfold dot
  ring

theorem dot_scale_left : (u.scale a).dot v = a * u.dot v := by
  unfold dot scale
  ring

theorem dot_scale_right : u.dot (v.scale a) = a * u.dot v := by
  unfold dot scale
  ring

end Vec

/-! ### Affine functions of the footprint -/

/-- The same request for another box, without blur. -/
def Query.overBox {α : Type} [Arith α] (q : Query α) (middle size : Vec α) : Query α :=
  ⟨{ q.footprint with position := middle, size }, 0.0⟩

/-- What is asked for is an affine function of the middle of the box with the given slope, and its
error a linear function of the extent of the box with the given weights. -/
structure Query.FollowsBox (q : Query ℝ) (value error : Query ℝ → ℝ) (slope weights : Vec ℝ)
    (offset : ℝ) : Prop where
  /-- The extent makes no difference to the value. -/
  value_eq : ∀ middle size, value (q.overBox middle size) = slope.dot middle + offset
  /-- The middle makes no difference to the error. -/
  error_eq : ∀ middle size, error (q.overBox middle size) = weights.dot size

/-- What is asked for is some affine function of the middle of the box, and its error some linear
function of the extent. -/
def Query.IsAffine (q : Query ℝ) (value error : Query ℝ → ℝ) : Prop :=
  ∃ slope weights offset, q.FollowsBox value error slope weights offset

namespace Query.IsAffine

variable {q : Query ℝ} {value value' error error' : Query ℝ → ℝ}

theorem constant {a : ℝ} (hvalue : ∀ middle size, value (q.overBox middle size) = a)
    (herror : ∀ q, error q = 0) : q.IsAffine value error := by
  refine ⟨⟨0, 0, 0⟩, ⟨0, 0, 0⟩, a, fun middle size => ?_, fun middle size => ?_⟩
  · rw [hvalue]
    simp only [Vec.dot]
    ring
  · rw [herror]
    simp only [Vec.dot]
    ring

theorem add (h : q.IsAffine value error) (h' : q.IsAffine value' error') :
    q.IsAffine (fun q => value q + value' q) fun q => error q + error' q := by
  obtain ⟨slope, weights, offset, hvalue, herror⟩ := h
  obtain ⟨slope', weights', offset', hvalue', herror'⟩ := h'
  refine ⟨slope + slope', weights + weights', offset + offset', fun middle size => ?_,
    fun middle size => ?_⟩
  · show value _ + value' _ = (slope + slope').dot middle + (offset + offset')
    rw [hvalue, hvalue', Vec.dot_add_left]
    ring
  · show error _ + error' _ = (weights + weights').dot size
    rw [herror, herror', Vec.dot_add_left]

/-- A multiple of a number. -/
theorem const_mul (c : ℝ) (h : q.IsAffine value error) :
    q.IsAffine (fun q => c * value q) fun q => Arith.abs c * error q := by
  obtain ⟨slope, weights, offset, hvalue, herror⟩ := h
  refine ⟨slope.scale c, weights.scale |c|, c * offset, fun middle size => ?_,
    fun middle size => ?_⟩
  · show c * value _ = _
    rw [hvalue, Vec.dot_scale_left]
    ring
  · show |c| * error _ = _
    rw [herror, Vec.dot_scale_left]

theorem add_const (c : ℝ) (h : q.IsAffine value error) :
    q.IsAffine (fun q => value q + c) error := by
  obtain ⟨slope, weights, offset, hvalue, herror⟩ := h
  refine ⟨slope, weights, offset + c, fun middle size => ?_, herror⟩
  show value _ + c = _
  rw [hvalue, add_assoc]

/-- Differences have the errors of sums. -/
theorem sub (h : q.IsAffine value error) (h' : q.IsAffine value' error') :
    q.IsAffine (fun q => value q - value' q) fun q => error q + error' q := by
  have hnegative := h'.const_mul (-1)
  simp only [ExactArith.abs_real, abs_neg, abs_one, one_mul, neg_one_mul] at hnegative
  simpa only [sub_eq_add_neg] using h.add hnegative

end Query.IsAffine

/-! ### Coordinates and constants -/

section Affine

variable {q : Query ℝ}

theorem Axis.isAffine (axis : Axis) : q.IsAffine axis.value axis.error := by
  -- Half the extent counts, along the axis alone.
  cases axis with
  | x =>
    refine ⟨⟨1, 0, 0⟩, ⟨1 / 2, 0, 0⟩, 0, fun middle size => ?_, fun middle size => ?_⟩ <;>
      simp [Axis.value, Axis.error, Query.overBox, Vec.dot]
  | y =>
    refine ⟨⟨0, 1, 0⟩, ⟨0, 1 / 2, 0⟩, 0, fun middle size => ?_, fun middle size => ?_⟩ <;>
      simp [Axis.value, Axis.error, Query.overBox, Vec.dot]
  | z =>
    refine ⟨⟨0, 0, 1⟩, ⟨0, 0, 1 / 2⟩, 0, fun middle size => ?_, fun middle size => ?_⟩ <;>
      simp [Axis.value, Axis.error, Query.overBox, Vec.dot]
  | time => exact .constant (fun _ _ => rfl) fun _ => ExactArith.zero_eq

theorem Fallback.isAffine (b : Fallback ℝ) : q.IsAffine b.value b.error := by
  cases b with
  | coordinate axis => exact axis.isAffine
  | scalar a | boolean b | color c => exact .constant (fun _ _ => rfl) fun _ => ExactArith.zero_eq

/-! ### Modules -/

variable {inputs : Inputs ℝ}

/-- An input is affine. -/
def Inputs.IsAffine (inputs : Inputs ℝ) (q : Query ℝ) (i : Nat) : Prop :=
  q.IsAffine (inputs.value i) (inputs.error i)

/-- An output is affine. -/
def Answers.IsAffine (answers : Answers ℝ) (q : Query ℝ) (output : Nat) : Prop :=
  q.IsAffine (answers.value output) (answers.error output)

/-- An affine form of affine functions is affine. -/
theorem AffineForm.isAffine (h : ∀ i < 3, inputs.IsAffine q i) (f : AffineForm ℝ) :
    q.IsAffine (f.value inputs) (f.error inputs) :=
  ((((h 0 (by omega)).const_mul f.coefficients.x).add
    ((h 1 (by omega)).const_mul f.coefficients.y)).add
      ((h 2 (by omega)).const_mul f.coefficients.z)).add_const f.offset

namespace Catalog

/-- Modules that compute affine functions of the position. -/
inductive IsAffine : Catalog ℝ → Prop where
  /-- A number. -/
  | number (a : ℝ) : IsAffine (.source (.number a))
  /-- A value supplied with the sample. -/
  | parameter (i : Nat) (a : ℝ) : IsAffine (.source (.parameter i a))
  /-- A coordinate. -/
  | coordinate (axis : Axis) : IsAffine (.source (.coordinate axis))
  /-- A named result that carries numbers. -/
  | channel (name : String) (a : ℝ) : IsAffine (.channel (.scalar name a))
  /-- A number and a color passed on. -/
  | tap : IsAffine (.shaping .tap)
  /-- The sum of two numbers. -/
  | sum : IsAffine (.operator .sum)
  /-- The difference of two numbers. -/
  | difference : IsAffine (.operator .difference)
  /-- An affine map of the position. -/
  | mapping (m : Mapping ℝ) : IsAffine (.mapping m)

/-- **Step**: the outputs of a module that carry numbers are affine when its inputs that carry
numbers are. -/
theorem IsAffine.isAffine {m : Catalog ℝ} (hm : m.IsAffine)
    (h : ∀ i, m.signature.inputKind? i ≠ some .color → inputs.IsAffine q i)
    {output : Nat} {kind : SocketKind} (houtput : m.signature.outputKind? output = some kind)
    (hkind : kind ≠ .color) : (TextureModule.answers m inputs).IsAffine q output := by
  have hscalar : ∀ i, m.signature.inputKind? i = some .scalar → inputs.IsAffine q i := by
    intro i hi
    exact h i (by rw [hi]; decide)
  cases hm with
  | number a => exact .constant (fun _ _ => rfl) fun _ => ExactArith.zero_eq
  | parameter i a =>
    let supplied : ℝ := q.footprint.parameters.getD i a
    exact .constant (a := supplied) (fun _ _ => rfl) fun _ => ExactArith.zero_eq
  | coordinate axis => exact axis.isAffine
  | channel name a => exact hscalar 0 rfl
  | tap =>
    -- Only the first output carries numbers.
    match output, houtput with
    | 0, _ => exact hscalar 0 rfl
    | 1, houtput => exact absurd (Option.some.inj houtput).symm hkind
  | sum => exact (hscalar 0 rfl).add (hscalar 1 rfl)
  | difference => exact (hscalar 0 rfl).sub (hscalar 1 rfl)
  | mapping m =>
    exact (m.row output).isAffine fun i hi => hscalar i (m.inputKind?_signature i hi)

end Catalog

/-! ### Graphs -/

/-- **Run**: the outputs of a module that carry numbers are affine when all modules upstream are. -/
theorem FrozenGraph.answers_isAffine {f : FrozenGraph (Catalog ℝ) ℝ} {g : Graph (Catalog ℝ) ℝ}
    (hg : g.Consistent) (h : g.freeze = .ok f) {id : ModuleId} {e : Entry (Catalog ℝ) ℝ}
    (he : f.graph.entry? id = some e)
    (hcone : ∀ i, f.graph.Upstream id i → ∀ s, f.graph.entry? i = some s → s.module.IsAffine)
    {output : Nat} {kind : SocketKind} (houtput : e.signature.outputKind? output = some kind)
    (hkind : kind ≠ .color) : (f.answers e).IsAffine q output := by
  refine answers_induction hg h (P := fun value error _ => q.IsAffine value error)
    (fun b => b.isAffine) (fun i hi s hs hinputs output kind houtput hkind => ?_) he houtput hkind
  exact (hcone i hi s hs).isAffine hinputs houtput hkind

end Affine

end TextureGraph
