import TextureGraph.Catalog.Basic
import TextureGraph.Module.InPlace

/-!
# Parameters of the catalog changed in place

The definitions below change a parameter of a module of the catalog in place, value by value.  A pattern
first offers a parameter to its octaves, and a map brings its rows up to date in the end.
-/

namespace TextureGraph

open InPlace

variable {α : Type} [Arith α]

/-- Changes a source. -/
def Source.assign (name : String) (v : ParameterValue α) : InPlace (Source α) α Unit := do
  match ← get, name with
  | .number _, "value" =>
    let a ← read (v.asNumber name)
    set (Source.number a)
  | .color _, "color" =>
    let c ← read (v.asColor name)
    set (Source.color c)
  | .parameter _ a, "index" =>
    let i ← read (v.asInteger name 0 maxParameterIndex)
    set (Source.parameter i.toNat a)
  | .parameter i _, "default" =>
    let a ← read (v.asNumber name)
    set (Source.parameter i a)
  | .coordinate axis, "axis" =>
    let i ← read (v.asChoice name Axis.all.length)
    set (Source.coordinate (α := α) (Axis.all.getD i axis))
  | _, _ => throw (.unknown name)

/-- Changes a channel. -/
def Channel.assign (name : String) (v : ParameterValue α) : InPlace (Channel α) α Unit := do
  match name with
  | "kind" =>
    let kind ← read (v.asChoice name kinds.length)
    match kind, (← get).unbound with
    | 0, .color d => modify fun c => { c with unbound := .scalar d.brightness }
    | 1, .scalar a => modify fun c => { c with unbound := .color (Color.gray a) }
    | _, _ => return
  | "default" =>
    match (← get).unbound with
    | .scalar _ =>
      let a ← read (v.asNumber name)
      modify fun c => { c with unbound := .scalar a }
    | .color _ =>
      let d ← read (v.asColor name)
      modify fun c => { c with unbound := .color d }
  | _ => throw (.unknown name)

/-- Changes an expression. -/
def Expression.assign (name : String) (v : ParameterValue α) : InPlace (Expression α) α Unit := do
  if name = "expression" then
    let source ← read (v.asText name)
    let e : Expression α ← read ((parse source).mapError (.invalid name))
    set e
  else throw (.unknown name)

/-- Changes a test. -/
def Matching.assign (name : String) (v : ParameterValue α) : InPlace (Matching α) α Unit := do
  match ← get, name with
  | .numbers _, "tolerance" =>
    let tolerance ← read (v.asPositive name)
    set (Matching.numbers tolerance)
  | _, _ => throw (.unknown name)

/-- Changes octaves if they have a parameter of this name, and tells whether they have one. -/
def Octaves.assign (name : String) (v : ParameterValue α) : InPlace (Octaves α) α Bool := do
  match name with
  | "octaves" =>
    let count ← read (v.asInteger name 1 maxCount)
    modify fun o => { o with count := count.toNat }
    return true
  | "amplitude" =>
    let amplitude ← read (v.asNumber name)
    modify fun o => { o with amplitude }
    return true
  | _ => return false

/-- Changes a pattern. -/
def Texture.assign (name : String) (v : ParameterValue α) : InPlace (Texture α) α Unit := do
  match ← get with
  | .noise o =>
    let known ← onPart .noise o (Octaves.assign name v)
    if known then return else throw (.unknown name)
  | .turbulence o =>
    let known ← onPart .turbulence o (Octaves.assign name v)
    if known then return else throw (.unknown name)
  | .wood o spacing fractionOnly =>
    let known ← onPart (.wood · spacing fractionOnly) o (Octaves.assign name v)
    if known then return
    else
      match name with
      | "spacing" =>
        let spacing ← read (v.asPositive name)
        set (Texture.wood o spacing fractionOnly)
      | "fraction_only" =>
        let fractionOnly ← read (v.asToggle name)
        set (Texture.wood o spacing fractionOnly)
      | _ => throw (.unknown name)
  | .cells _ =>
    match name with
    | "metric" =>
      let i ← read (v.asChoice name Metric.all.length)
      set (Texture.cells (α := α) (.ofIndex i))
    | _ => throw (.unknown name)

/-- Brings the rows up to date. -/
def Transform.solve (t : Transform α) : Transform α :=
  { t with rows := solveRows t.matrix t.offset t.inverse t.solver }

/-- Changes a transform. -/
def Transform.assign (name : String) (v : ParameterValue α) : InPlace (Transform α) α Unit := do
  if name = "inverse" then
    let inverse ← read (v.asToggle name)
    modify fun t => { t with inverse }
  else
    match entryNames.idxOf? name, offsetNames.idxOf? name with
    | some i, _ =>
      let a ← read (v.asNumber name)
      modify fun t => { t with matrix := t.matrix.setEntry (i / 3) (i % 3) a }
    | none, some i =>
      let a ← read (v.asNumber name)
      modify fun t => { t with offset := t.offset.setComponent i a }
    | none, none => throw (.unknown name)
  modify solve

/-- Writes the row of an output.  The weight of the first corner is what the others leave of one. -/
def Triangle.writeRow (t : Triangle α) (output : Fin 4) (coefficients : Vec α) : Triangle α :=
  let constant := if output.val = 0 then 1.0 else 0.0
  let form : AffineForm α := ⟨coefficients, constant - coefficients.dot t.corners.x⟩
  { t with rows := t.rows.set output.val form output.isLt }

/-- Brings the rows up to date.  They are cleared first, and stay so for a triangle without an area or
with a frame that cannot be inverted; otherwise they are written one after another. -/
def Triangle.solve (t : Triangle α) : Triangle α :=
  let cleared := { t with rows := .replicate 4 .zero }
  let first := t.corners.y - t.corners.x
  let second := t.corners.z - t.corners.x
  let normal := first.cross second
  let length := normal.length
  if length == 0.0 || !Arith.isFinite length then cleared
  else
    match t.solver.invert (.ofColumns first second (normal.scale (1.0 / length))) with
    | none => cleared
    | some m =>
      let coefficients := #v[-(m.rows.x + m.rows.y), m.rows.x, m.rows.y, m.rows.z]
      (List.finRange 4).foldl (fun t output => t.writeRow output (coefficients.get output)) cleared

/-- Changes a triangle. -/
def Triangle.assign (name : String) (v : ParameterValue α) : InPlace (Triangle α) α Unit := do
  match coordinateNames.idxOf? name with
  | none => throw (.unknown name)
  | some i =>
    let a ← read (v.asNumber name)
    let corner := ((← get).corners.component (i / 3)).setComponent (i % 3) a
    modify fun t => { t with corners := t.corners.setComponent (i / 3) corner }
    modify solve

/-- Changes a map. -/
def Mapping.assign (name : String) (v : ParameterValue α) : InPlace (Mapping α) α Unit := do
  match ← get with
  | .transform t => onPart .transform t (Transform.assign name v)
  | .barycentric t => onPart .barycentric t (Triangle.assign name v)

/-- Changes a parameter of a module. -/
def Catalog.assign (name : String) (v : ParameterValue α) : InPlace (Catalog α) α Unit := do
  match ← get with
  | .source m => onPart .source m (Source.assign name v)
  | .channel m => onPart .channel m (Channel.assign name v)
  | .expression m => onPart .expression m (Expression.assign name v)
  | .matching m => onPart .matching m (Matching.assign name v)
  | .texture m => onPart .texture m (Texture.assign name v)
  | .mapping m => onPart .mapping m (Mapping.assign name v)
  -- these have no parameters
  | .operator _ | .shaping _ | .composition _ => throw (.unknown name)

end TextureGraph
