import TextureGraph.Space.Vec

/-!
# What is sampled

A renderer asks for the texture at a position, over a small box around it.  The box is the sample's
footprint; a blur radius widens it further.  An `Axis` names one of the four coordinates of a sample
and knows how far that coordinate varies across the footprint.
-/

namespace TextureGraph

/-- A place at which the texture is sampled. -/
structure Footprint (α : Type) where
  /-- The middle of the sampled box. -/
  position : Vec α
  /-- The extent of the box along each axis. -/
  size : Vec α
  /-- The animation time. -/
  time : α
  /-- Values that the surface supplies for this place. -/
  parameters : List α := []
deriving Repr

/-- The largest extent of the box. -/
def Footprint.maxSize {α : Type} [Arith α] (p : Footprint α) : α :=
  p.size.abs.maxComponent

/-- A request for one evaluation: a footprint and the radius to blur it with. -/
structure Query (α : Type) where
  /-- Where to sample. -/
  footprint : Footprint α
  /-- The blur radius. -/
  blur : α
deriving Repr

/-- One of the coordinates of a sample. -/
inductive Axis where
  /-- The first coordinate of the position. -/
  | x
  /-- The second coordinate of the position. -/
  | y
  /-- The third coordinate of the position. -/
  | z
  /-- The animation time. -/
  | time
deriving DecidableEq, Repr, BEq

namespace Axis

/-- All axes, in the order of their numbers. -/
def all : List Axis :=
  [.x, .y, .z, .time]

/-- The number of an axis in `all`. -/
def index : Axis → Nat
  | .x => 0
  | .y => 1
  | .z => 2
  | .time => 3

/-- The name shown for an axis. -/
def label : Axis → String
  | .x => "X"
  | .y => "Y"
  | .z => "Z"
  | .time => "Time"

variable {α : Type} [Arith α]

/-- The coordinate at the middle of the footprint. -/
def value (axis : Axis) (q : Query α) : α :=
  match axis with
  | .x => q.footprint.position.x
  | .y => q.footprint.position.y
  | .z => q.footprint.position.z
  | .time => q.footprint.time

/-- How far the coordinate is from its middle value anywhere in the blurred footprint. -/
def error (axis : Axis) (q : Query α) : α :=
  match axis with
  | .x => 0.5 * q.footprint.size.x + q.blur
  | .y => 0.5 * q.footprint.size.y + q.blur
  | .z => 0.5 * q.footprint.size.z + q.blur
  | .time => 0.0

/-- The direction in space along which the coordinate grows. -/
def gradient : Axis → Vec α
  | .x => Vec.unitX
  | .y => Vec.unitY
  | .z => Vec.unitZ
  | .time => Vec.zero

end Axis

end TextureGraph
