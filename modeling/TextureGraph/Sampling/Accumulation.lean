import TextureGraph.Sampling.Raster

/-!
# Running totals

Whoever samples several cells can keep one running total of the leaves and of the work, and add to
it cell by cell.  `Raster.renderRows` does so: every row of an image has a total of its own, so that
rows can be given to different workers, and the totals of the rows are added up in the end.
-/

namespace TextureGraph

variable {M α : Type}

namespace Work

/-- The work after the graph was asked once more. -/
def asked (w : Work) : Work :=
  { w with evaluations := w.evaluations + 1 }

/-- The work after one more cell was split. -/
def split (w : Work) : Work :=
  { w with refined := w.refined + 1 }

/-- The work after one more leaf was found at some depth. -/
def found (w : Work) (depth : Nat) : Work :=
  { w with leaves := w.leaves + 1, deepest := max w.deepest depth }

end Work

namespace Sampling

/-- The total after the error over a cell was looked up; without an error, the graph was not
asked. -/
def afterError (total : Sampling α) (error : Option α) : Sampling α :=
  if error.isSome then { total with work := total.work.asked } else total

/-- The total after one more cell was split. -/
def afterSplit (total : Sampling α) : Sampling α :=
  { total with work := total.work.split }

/-- The total after the graph was asked for the value of one more leaf. -/
def afterLeaf (total : Sampling α) (leaf : Leaf α) : Sampling α where
  leaves := total.leaves ++ [leaf]
  work := total.work.asked.found leaf.cell.depth

end Sampling

namespace Sampler

variable [Arith α] [TextureModule M α]

/-- Adds the leaf that a cell becomes to the total. -/
def leafOnto (s : Sampler M α) (c : Cell α) (error : Option α) (total : Sampling α) :
    Except (EvaluationError α) (Sampling α) := do
  let value ← s.graph.evaluateScalar s.target (s.query c)
  return total.afterLeaf { cell := c, value, error := error.getD 0.0 }

/-- Adds the leaves of a cell that may be split at most `levels` times to the total. -/
def refineOnto (s : Sampler M α) :
    Nat → Cell α → Sampling α → Except (EvaluationError α) (Sampling α)
  | 0, c, total => do
    let error ← s.cellError c
    s.leafOnto c error (total.afterError error)
  | levels + 1, c, total => do
    let error ← s.cellError c
    if s.splits c error then
      c.split.foldlM (fun total quadrant => s.refineOnto levels quadrant total)
        (total.afterError error).afterSplit
    else s.leafOnto c error (total.afterError error)

/-- Adds the leaves of a cell to the total. -/
def sampleOnto (s : Sampler M α) (c : Cell α) (total : Sampling α) :
    Except (SamplerError α) (Sampling α) :=
  (s.refineOnto (s.levels c) c total).mapError .evaluation

/-- The mean of the output over a cell; the work is added to a running total. -/
def averageOnto (s : Sampler M α) (c : Cell α) : StateT Work (Except (SamplerError α)) α :=
  fun work => do
    let sampling ← s.sampleOnto c { work }
    return (mean c.area sampling.leaves, sampling.work)

end Sampler

namespace Raster

variable [Arith α]

/-- The image of an output over a patch, row by row, each row with a running total of its own. -/
def renderRows [TextureModule M α] (graph : FrozenGraph M α) (target : Target) (patch : Patch α)
    (settings : Settings α) (width height : Nat) : Except (SamplerError α) (Raster α) := do
  if width = 0 ∨ height = 0 then .error (.emptyRaster width height)
  else
    let sampler ← Sampler.create graph target patch settings
    let rows ← (List.range height).mapM fun y =>
      ((List.range width).mapM fun x => sampler.averageOnto (pixelCell width height x y)).run {}
    return {
      width, height
      pixels := rows.flatMap (·.1)
      work := (rows.map (·.2)).foldl (· + ·) {} }

end Raster

end TextureGraph
