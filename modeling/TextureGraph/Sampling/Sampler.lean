import TextureGraph.Graph.Evaluation
import TextureGraph.Sampling.Patch
import TextureGraph.Sampling.Settings.Basic

/-!
# Adaptive sampling

A cell is split into quadrants while it is not as deep as the settings ask for, or while the graph's
error over its footprint exceeds the tolerance and it may be split further.  Every other cell
becomes a leaf with the value of the output over its footprint.

The counts of the work are idealized as natural numbers.  A cell is split at most sixteen times, so that the
counts of one cell fit 64 bits.  What is logged is left out.
-/

namespace TextureGraph

/-- Why nothing was sampled. -/
inductive SamplerError (α : Type) where
  /-- The settings cannot be used. -/
  | settings (error : SettingsError α)
  /-- The output cannot be evaluated. -/
  | evaluation (error : EvaluationError α)
  /-- The output carries colors. -/
  | colorTarget (target : Target)
  /-- The image has no pixels. -/
  | emptyRaster (width height : Nat)
deriving Repr

/-- The text shown for an error. -/
def SamplerError.message : SamplerError Float → String
  | .settings error => error.message
  | .evaluation error => error.message
  | .colorTarget t =>
    "Output " ++ toString t.output ++ " of module " ++ t.module.label
      ++ " is a color; sample a scalar output"
  | .emptyRaster width height =>
    "Raster size " ++ toString width ++ "x" ++ toString height ++ " is empty"

/-- A cell that is not split further. -/
structure Leaf (α : Type) where
  /-- The cell. -/
  cell : Cell α
  /-- The mean of the output over the cell. -/
  value : α
  /-- How far the output may vary within the cell. -/
  error : α
deriving Repr

/-- How much work was done. -/
structure Work where
  /-- How often the graph was asked for a value or an error. -/
  evaluations : Nat := 0
  /-- The number of leaves. -/
  leaves : Nat := 0
  /-- The number of cells that were split. -/
  refined : Nat := 0
  /-- The depth of the deepest leaf. -/
  deepest : Nat := 0
deriving DecidableEq, Repr

/-- The work of two parts together. -/
def Work.add (a b : Work) : Work where
  evaluations := a.evaluations + b.evaluations
  leaves := a.leaves + b.leaves
  refined := a.refined + b.refined
  deepest := max a.deepest b.deepest

instance : Add Work := ⟨Work.add⟩

/-- What sampling a cell yields. -/
structure Sampling (α : Type) where
  /-- The leaves, in the order of their visits. -/
  leaves : List (Leaf α) := []
  /-- The work it took. -/
  work : Work := {}
deriving Repr

/-- What sampling two cells yields. -/
def Sampling.append {α : Type} (a b : Sampling α) : Sampling α where
  leaves := a.leaves ++ b.leaves
  work := a.work + b.work

/-- An output of a graph that is sampled over a patch. -/
structure Sampler (M α : Type) where
  /-- The graph. -/
  graph : FrozenGraph M α
  /-- The output. -/
  target : Target
  /-- The patch. -/
  patch : Patch α
  /-- How finely it is sampled. -/
  settings : Settings α

namespace Sampler

variable {M α : Type} [Arith α]

/-- A sampler, if the settings can be used and the output carries numbers. -/
def create (graph : FrozenGraph M α) (target : Target) (patch : Patch α) (settings : Settings α) :
    Except (SamplerError α) (Sampler M α) := do
  settings.validate.mapError .settings
  match graph.graph.signature? target.module with
  | none => .error (.evaluation (.moduleNotFound target.module))
  | some signature =>
    match signature.outputKind? target.output with
    | none =>
      .error (.evaluation
        (.outputOutOfRange target.module target.output signature.outputs.length))
    | some kind =>
      if kind = .color then .error (.colorTarget target)
      else return { graph, target, patch, settings }

variable [TextureModule M α]

/-- The request for the mean over a cell. -/
def query (s : Sampler M α) (c : Cell α) : Query α :=
  ⟨s.patch.footprint c, s.settings.baseBlur⟩

/-- The error over a cell, which is not asked for while the cell has to be split anyway. -/
def cellError (s : Sampler M α) (c : Cell α) : Except (EvaluationError α) (Option α) :=
  if c.depth < s.settings.minDepth then .ok none
  else (s.graph.estimateError s.target (s.query c)).map some

/-- Whether a cell with the given error is split. -/
def splits (s : Sampler M α) (c : Cell α) : Option α → Bool
  | none => true
  | some error => s.settings.errorTolerance < error && c.depth < s.settings.maxDepth

/-- The leaf that a cell becomes. -/
def leaf (s : Sampler M α) (c : Cell α) (error : Option α) :
    Except (EvaluationError α) (Sampling α) := do
  let value ← s.graph.evaluateScalar s.target (s.query c)
  return {
    leaves := [{ cell := c, value, error := error.getD 0.0 }]
    work :=
      { evaluations := if error.isSome then 2 else 1, leaves := 1, refined := 0
        deepest := c.depth } }

/-- The leaves of a cell that may be split at most `levels` times. -/
def refine (s : Sampler M α) : Nat → Cell α → Except (EvaluationError α) (Sampling α)
  | 0, c => do s.leaf c (← s.cellError c)
  | levels + 1, c => do
    let error ← s.cellError c
    if s.splits c error then
      let own : Sampling α :=
        { work := { evaluations := if error.isSome then 1 else 0, refined := 1 } }
      c.split.foldlM (fun sum quadrant => return sum.append (← s.refine levels quadrant)) own
    else s.leaf c error

/-- How often a cell may be split. -/
def levels (s : Sampler M α) (c : Cell α) : Nat :=
  max s.settings.minDepth s.settings.maxDepth - c.depth

/-- The leaves of a cell. -/
def sample (s : Sampler M α) (c : Cell α) : Except (SamplerError α) (Sampling α) :=
  (s.refine (s.levels c) c).mapError .evaluation

/-- The mean of leaves, weighted by their areas in relation to the whole area.  Without an area it
is the value of the first leaf. -/
def mean (area : α) (leaves : List (Leaf α)) : α :=
  if area == 0.0 then (leaves.head?.map Leaf.value).getD 0.0
  else Arith.sum (leaves.map fun leaf => leaf.value * leaf.cell.area) / area

/-- The mean of the output over a cell, and the work it took. -/
def average (s : Sampler M α) (c : Cell α) : Except (SamplerError α) (α × Work) := do
  let sampling ← s.sample c
  return (mean c.area sampling.leaves, sampling.work)

end Sampler

end TextureGraph
