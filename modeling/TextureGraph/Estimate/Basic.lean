import TextureGraph.Estimate.Mean
import TextureGraph.Estimate.Power
import TextureGraph.Sample.Footprint

/-!
# Estimates

An estimate holds what is known of a number over a footprint: its mean value, an error that bounds
how far it strays from that, and its gradient in space.
-/

namespace TextureGraph

/-- The value, error and gradient of a number over a footprint. -/
structure Estimate (α : Type) where
  /-- The mean over the footprint. -/
  value : α
  /-- How far the number may be from the value within the footprint. -/
  error : α
  /-- The gradient with respect to the position. -/
  gradient : Vec α
deriving Repr

namespace Estimate

variable {α : Type} [Arith α]

/-- A number that is the same everywhere. -/
def constant (a : α) : Estimate α :=
  ⟨a, 0.0, Vec.zero⟩

/-- What is reported next to a pole. -/
def pole : Estimate α :=
  ⟨0.0, Bound.poleError, Vec.zero⟩

/-- A coordinate of the sample. -/
def coordinate (axis : Axis) (q : Query α) : Estimate α :=
  ⟨axis.value q, axis.error q, axis.gradient⟩

end Estimate

end TextureGraph
