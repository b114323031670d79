import Mathlib.Data.Real.Basic
import TextureGraph.Catalog.Basic
import TextureGraph.Proofs.Graph.Evaluation
import TextureGraph.Proofs.Pointwise.Pattern

/-!
# The evaluator at points

Without a footprint and without blur there is nothing to average: every module of the catalog that
has a formula of its own (`Catalog.IsPlain`) applies it to the numbers and colors that it finds at its
inputs (`Catalog.atPoint`), and a graph is evaluated module by module (`FrozenGraph.atPoint`).  There
are no errors here, and no gradients.  How the nearest feature points are found is left to a search.  As in
all statements about the real numbers, the lattice of patterns has no border (`ExactArith`).

Left out are the blur, tests for equality, which answer for a tolerance, quotients, powers, wood and
expressions, which have places where they have no value.
-/

namespace TextureGraph

/-- What a module finds at its inputs. -/
structure PointInputs where
  /-- Whether another module is bound to an input. -/
  isBound : Nat → Bool
  /-- An input as a number. -/
  number : Nat → ℝ
  /-- An input as a color. -/
  color : Nat → Color ℝ

/-- What a module yields. -/
structure PointOutputs where
  /-- An output as a number. -/
  number : Nat → ℝ
  /-- An output as a color. -/
  color : Nat → Color ℝ

namespace PointOutputs

/-- Numbers are grays. -/
def ofNumbers (number : Nat → ℝ) : PointOutputs where
  number := number
  color i := Color.gray (number i)

/-- As a number, a color is zero. -/
def ofColor (color : Color ℝ) : PointOutputs where
  number _ := 0
  color _ := color

end PointOutputs

/-! ### Formulas -/

/-- A number moved into the interval from zero to one. -/
noncomputable def unitClamp (a : ℝ) : ℝ :=
  max 0 (min 1 a)

/-- The linear blend of two numbers. -/
def blend (fraction a b : ℝ) : ℝ :=
  (1 - fraction) * a + fraction * b

/-- The linear blend of two colors, channel by channel. -/
def Color.blend (fraction : ℝ) (a b : Color ℝ) : Color ℝ where
  red := TextureGraph.blend fraction a.red b.red
  green := TextureGraph.blend fraction a.green b.green
  blue := TextureGraph.blend fraction a.blue b.blue

/-- The first three inputs as a position. -/
def PointInputs.position (inputs : PointInputs) : Vec ℝ :=
  ⟨inputs.number 0, inputs.number 1, inputs.number 2⟩

variable (inputs : PointInputs) (p : Footprint ℝ)

/-- A coordinate of the point. -/
def Axis.atPoint : Axis → ℝ
  | .x => p.position.x
  | .y => p.position.y
  | .z => p.position.z
  | .time => p.time

/-- What an input yields while nothing is bound to it. -/
noncomputable def Fallback.atPoint : Fallback ℝ → ℝ
  | .scalar a => a
  | .boolean b => if b then 1 else 0
  | .color c => c.brightness
  | .coordinate axis => axis.atPoint p

/-- A fallback as a color. -/
noncomputable def Fallback.colorAtPoint : Fallback ℝ → Color ℝ
  | .color c => c
  | b => Color.gray (b.atPoint p)

noncomputable def Source.atPoint : Source ℝ → PointOutputs
  | .number a => .ofNumbers fun _ => a
  | .color c => ⟨fun _ => c.brightness, fun _ => c⟩
  | .parameter i a => .ofNumbers fun _ => p.parameters.getD i a
  | .coordinate axis => .ofNumbers fun _ => axis.atPoint p

def Channel.atPoint (_ : Channel ℝ) : PointOutputs :=
  ⟨fun _ => inputs.number 0, fun _ => inputs.color 0⟩

/-- The four operations without a pole; a product is zero unless both factors are bound. -/
noncomputable def Operator.atPoint : Operator → ℝ
  | .sum => inputs.number 0 + inputs.number 1
  | .difference => inputs.number 0 - inputs.number 1
  | .product =>
    if inputs.isBound 0 && inputs.isBound 1 then inputs.number 0 * inputs.number 1 else 0
  | .min => inputs.number 0 ⊓ inputs.number 1
  | .max => inputs.number 0 ⊔ inputs.number 1
  | .ratio | .power => 0

/-- A tap passes on a number and a color. -/
noncomputable def Shaping.atPoint : Shaping → PointOutputs
  | .abs => .ofNumbers fun _ => |inputs.number 0|
  | .exp => .ofNumbers fun _ => Real.exp (inputs.number 0)
  | .sine => .ofNumbers fun _ => Real.sin (inputs.number 0)
  | .cosine => .ofNumbers fun _ => Real.cos (inputs.number 0)
  | .interpolate =>
    .ofNumbers fun _ => blend (unitClamp (inputs.number 2)) (inputs.number 0) (inputs.number 1)
  | .tap =>
    ⟨fun output => if output = 1 then (inputs.color 1).brightness else inputs.number 0,
      fun output => if output = 0 then Color.gray (inputs.number 0) else inputs.color 1⟩
  | .blur => .ofNumbers fun _ => 0

noncomputable def Composition.atPoint : Composition → PointOutputs
  | .sum => .ofColor (inputs.color 0 + inputs.color 1)
  | .difference => .ofColor (inputs.color 0 - inputs.color 1)
  | .product => .ofColor (inputs.color 0 * inputs.color 1)
  | .scale => .ofColor ((inputs.color 0).scale (inputs.number 1))
  | .blend => .ofColor (Color.blend (unitClamp (inputs.number 2)) (inputs.color 0) (inputs.color 1))
  | .darker =>
    .ofColor <|
      if (inputs.color 1).brightness < (inputs.color 0).brightness then inputs.color 1
      else inputs.color 0
  | .lighter =>
    .ofColor <|
      if (inputs.color 0).brightness < (inputs.color 1).brightness then inputs.color 1
      else inputs.color 0
  | .ofHsv => .ofColor (ofTurns (inputs.number 0) (unitClamp (inputs.number 1)) (inputs.number 2))
  | .ofRgb => .ofColor ⟨inputs.number 0, inputs.number 1, inputs.number 2⟩
  | .toHsv =>
    .ofNumbers <| hsvCoordinate ⟨inputs.number 0, inputs.number 1, inputs.number 2⟩

/-- Noise around one half, turbulence, and the value and distances of the nearest feature points. -/
noncomputable def Texture.atPoint (search : Pattern.Search) : Texture ℝ → Nat → ℝ
  | .noise o, _ =>
    1 / (2 : Nat) + Pattern.octaveSum .signed o.count (1 / (2 : Nat) * o.amplitude)
      (inputs.number 3) inputs.position
  | .turbulence o, _ =>
    Pattern.octaveSum .absolute o.count o.amplitude (inputs.number 3) inputs.position
  | .cells metric, output =>
    match output with
    | 0 => (search metric inputs.position).1.value
    | 1 => (search metric inputs.position).1.distance
    | 2 => (search metric inputs.position).2.distance
    | _ => 0
  | .wood .., _ => 0

/-- The affine form of the output. -/
noncomputable def Mapping.atPoint (m : Mapping ℝ) (output : Nat) : ℝ :=
  (m.row output).coefficients.x * inputs.number 0 + (m.row output).coefficients.y * inputs.number 1
    + (m.row output).coefficients.z * inputs.number 2 + (m.row output).offset

namespace Catalog

/-- Modules with a formula of their own. -/
def IsPlain : Catalog ℝ → Prop
  | .operator .ratio | .operator .power | .shaping .blur | .expression _ | .matching _
  | .texture (.wood ..) => False
  | _ => True

/-- The formula of a module; the modules that are left out yield zero. -/
noncomputable def atPoint (search : Pattern.Search) : Catalog ℝ → PointOutputs
  | .source m => m.atPoint p
  | .channel m => m.atPoint inputs
  | .operator m => .ofNumbers fun _ => m.atPoint inputs
  | .shaping m => m.atPoint inputs
  | .composition m => m.atPoint inputs
  | .texture m => .ofNumbers (m.atPoint inputs search)
  | .mapping m => .ofNumbers (m.atPoint inputs)
  | .expression _ | .matching _ => .ofNumbers fun _ => 0

end Catalog

/-! ### Graphs -/

namespace Graph

/-- What a module finds at its inputs, where `outputs` gives what the modules bound to it yield. -/
noncomputable def pullAtPoint (g : Graph (Catalog ℝ) ℝ)
    (outputs : Entry (Catalog ℝ) ℝ → PointOutputs) (e : Entry (Catalog ℝ) ℝ) : PointInputs where
  isBound i := (g.source? e i).isSome
  number i :=
    match g.source? e i with
    | some (source, output) => (outputs source).number output
    | none => (e.signature.fallback i).atPoint p
  color i :=
    match g.source? e i with
    | some (source, output) =>
      if source.signature.outputKind? output == some .color then (outputs source).color output
      else Color.gray ((outputs source).number output)
    | none => (e.signature.fallback i).colorAtPoint p

/-- What a module yields, when no chain of modules upstream is longer than `levels`. -/
noncomputable def atPoint (search : Pattern.Search) (g : Graph (Catalog ℝ) ℝ) :
    Nat → Entry (Catalog ℝ) ℝ → PointOutputs
  | 0, _ => .ofNumbers fun _ => 0
  | levels + 1, e => e.module.atPoint (g.pullAtPoint p (g.atPoint search levels) e) p search

end Graph

/-- What a module of the graph yields at a point. -/
noncomputable def FrozenGraph.atPoint (f : FrozenGraph (Catalog ℝ) ℝ) (search : Pattern.Search)
    (e : Entry (Catalog ℝ) ℝ) : PointOutputs :=
  f.graph.atPoint p search f.schedule.depth e

namespace Graph

variable {g : Graph (Catalog ℝ) ℝ}

theorem pullAtPoint_congr {outputs outputs' : Entry (Catalog ℝ) ℝ → PointOutputs}
    {e : Entry (Catalog ℝ) ℝ} (h : ∀ input source output,
      g.source? e input = some (source, output) → outputs source = outputs' source) :
    g.pullAtPoint p outputs e = g.pullAtPoint p outputs' e := by
  unfold pullAtPoint
  congr 1 <;> funext i
  all_goals
    cases hs : g.source? e i with
    | none => rfl
    | some s => simp only [h i s.1 s.2 hs]

end Graph

/-- A module of the graph applies its formula to what the modules bound to it yield. -/
theorem FrozenGraph.atPoint_eq (search : Pattern.Search) {f : FrozenGraph (Catalog ℝ) ℝ}
    {g : Graph (Catalog ℝ) ℝ} (h : g.freeze = .ok f) {id : ModuleId} {e : Entry (Catalog ℝ) ℝ}
    (he : f.graph.entry? id = some e) :
    f.atPoint p search e
      = e.module.atPoint (f.graph.pullAtPoint p (f.atPoint p search) e) p search := by
  obtain ⟨rfl, hschedule⟩ := Graph.freeze_ok h
  obtain ⟨rank, hr⟩ := Graph.exists_ranking hschedule
  have hbound : rank id ≤ f.schedule.depth := hr.le id (Graph.mem_ids_of_lookup he)
  -- One level more than the longest chain needs makes no difference.
  show f.graph.atPoint p search f.schedule.depth e = f.graph.atPoint p search (f.schedule.depth + 1) e
  refine hr.within_eq (fun n n' e hsources => ?_) he hbound (Nat.le_succ_of_le hbound)
  rw [Graph.atPoint, Graph.atPoint, Graph.pullAtPoint_congr p hsources]

end TextureGraph
