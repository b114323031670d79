import TextureGraph.Sample.Footprint

/-!
# Patches and cells

A patch is a parallelogram in space, on which a point is given by two coordinates `s` and `t`, each
from zero to one.  A cell is a rectangle of these coordinates; it can be split into quadrants.
-/

namespace TextureGraph

/-- A rectangle on a patch. -/
structure Cell (α : Type) where
  /-- The lower end in the first direction. -/
  s : α
  /-- The lower end in the second direction. -/
  t : α
  /-- The extent in the first direction. -/
  ds : α
  /-- The extent in the second direction. -/
  dt : α
  /-- How often a cell was split to get this one. -/
  depth : Nat := 0
deriving Repr

namespace Cell

variable {α : Type} [Arith α]

/-- The coordinates of the middle. -/
def center (c : Cell α) : α × α :=
  (c.s + 0.5 * c.ds, c.t + 0.5 * c.dt)

/-- The area in patch coordinates. -/
def area (c : Cell α) : α :=
  c.ds * c.dt

/-- One of the quadrants; `i` and `j` are zero for the lower and one for the upper half. -/
def quadrant (c : Cell α) (i j : Nat) : Cell α :=
  let ds := 0.5 * c.ds
  let dt := 0.5 * c.dt
  { s := c.s + Arith.ofInt i * ds
    t := c.t + Arith.ofInt j * dt
    ds, dt
    depth := c.depth + 1 }

/-- The quadrants, row by row. -/
def split (c : Cell α) : List (Cell α) :=
  [c.quadrant 0 0, c.quadrant 1 0, c.quadrant 0 1, c.quadrant 1 1]

end Cell

/-- A parallelogram in space. -/
structure Patch (α : Type) where
  /-- The position of the point with coordinates zero. -/
  origin : Vec α
  /-- The way from there as the first coordinate goes to one. -/
  uAxis : Vec α
  /-- The way from there as the second coordinate goes to one. -/
  vAxis : Vec α
  /-- The animation time of every sample. -/
  time : α
deriving Repr

namespace Patch

variable {α : Type} [Arith α]

/-- The unit square in the plane of the first two axes. -/
def standard : Patch α :=
  ⟨Vec.zero, Vec.unitX, Vec.unitY, 0.0⟩

/-- The position of the point with the given coordinates. -/
def position (p : Patch α) (s t : α) : Vec α :=
  p.origin + p.uAxis.scale s + p.vAxis.scale t

/-- The middle of a cell, with the box around the cell as footprint. -/
def footprint (p : Patch α) (c : Cell α) : Footprint α :=
  let (s, t) := c.center
  { position := p.position s t
    size := p.uAxis.abs.scale c.ds + p.vAxis.abs.scale c.dt
    time := p.time }

end Patch

end TextureGraph
