import TextureGraph.Sampling.Raster

/-!
# Builds with checks

A build may check what it computes, and it stops where a check fails: there is no answer then, and no error
is returned either.  One of the checks is that the error that a module gives is not negative; others concern
the sums of whole numbers that are taken inside a module.  A build without checks never stops, and is what
`Sampler.sample`, `Sampler.average` and `Raster.render` describe.
-/

namespace TextureGraph

variable {M α : Type}

/-- The requests at which a build stops. -/
structure Checks (M α : Type) where
  /-- Whether it stops when it is asked for the mean of an output. -/
  value : FrozenGraph M α → Target → Query α → Bool
  /-- Whether it stops when it is asked for the error of an output. -/
  error : FrozenGraph M α → Target → Query α → Bool

namespace Checks

/-- Nothing is checked. -/
def off : Checks M α where
  value _ _ _ := false
  error _ _ _ := false

/-- The error that a module gives has to be zero or more, or undefined. -/
def errors [Arith α] [TextureModule M α] : Checks M α where
  value _ _ _ := false
  error f t q :=
    match f.graph.entry? t.module with
    | none => false
    | some e =>
      let error := (f.answers e).error t.output q
      !decide (0.0 ≤ error) && error == error

end Checks

/-- How a call ends without an answer. -/
inductive Halt (ε : Type) where
  /-- An error is returned. -/
  | returned (error : ε)
  /-- A check has failed. -/
  | stopped
deriving Repr

/-- The end with another error. -/
def Halt.map {ε ε' : Type} (f : ε → ε') : Halt ε → Halt ε'
  | .returned error => .returned (f error)
  | .stopped => .stopped

/-- The answer to a request, unless the build stops before it is given. -/
def guarded {ε β : Type} (stops : Bool) (answer : Except ε β) : Except (Halt ε) β := do
  let answer ← answer.mapError .returned
  if stops then .error .stopped else return answer

namespace Sampler

variable [Arith α] [TextureModule M α] (s : Sampler M α) (checks : Checks M α)

/-- The error over a cell, which is not asked for while the cell has to be split anyway. -/
def cellErrorChecked (c : Cell α) : Except (Halt (EvaluationError α)) (Option α) :=
  if c.depth < s.settings.minDepth then .ok none
  else guarded (checks.error s.graph s.target (s.query c)) (s.cellError c)

/-- The leaf that a cell becomes. -/
def leafChecked (c : Cell α) (error : Option α) :
    Except (Halt (EvaluationError α)) (Sampling α) :=
  guarded (checks.value s.graph s.target (s.query c)) (s.leaf c error)

/-- The leaves of a cell that may be split at most `levels` times. -/
def refineChecked : Nat → Cell α → Except (Halt (EvaluationError α)) (Sampling α)
  | 0, c => do s.leafChecked checks c (← s.cellErrorChecked checks c)
  | levels + 1, c => do
    let error ← s.cellErrorChecked checks c
    if s.splits c error then
      let own : Sampling α :=
        { work := { evaluations := if error.isSome then 1 else 0, refined := 1 } }
      c.split.foldlM (fun sum quadrant => return sum.append (← refineChecked levels quadrant)) own
    else s.leafChecked checks c error

/-- The leaves of a cell. -/
def sampleChecked (c : Cell α) : Except (Halt (SamplerError α)) (Sampling α) :=
  (s.refineChecked checks (s.levels c) c).mapError (Halt.map .evaluation)

end Sampler

end TextureGraph
