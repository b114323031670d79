import TextureGraph.Pattern.Hash
import TextureGraph.Space.Vec

/-!
# Gradient noise

Each lattice point carries the slope of a linear function that vanishes there.  Within a cell of the
lattice the noise is a smooth blend of the linear functions of the eight corners; it is zero at
every lattice point.

The upper corners of a cell are one step from its lower ones.  Coordinates of corners are only hashed, and the
hash takes them modulo `2^64`, so that it makes no difference whether a sum of integers wraps around.
-/

namespace TextureGraph.Pattern

variable {α : Type} [Arith α]

/-- The directions of the twelve edges of a cube, by number. -/
def edgeDirection : Nat → Vec α
  | 0 => ⟨1.0, 1.0, 0.0⟩
  | 1 => ⟨-1.0, 1.0, 0.0⟩
  | 2 => ⟨1.0, -1.0, 0.0⟩
  | 3 => ⟨-1.0, -1.0, 0.0⟩
  | 4 => ⟨1.0, 0.0, 1.0⟩
  | 5 => ⟨-1.0, 0.0, 1.0⟩
  | 6 => ⟨1.0, 0.0, -1.0⟩
  | 7 => ⟨-1.0, 0.0, -1.0⟩
  | 8 => ⟨0.0, 1.0, 1.0⟩
  | 9 => ⟨0.0, -1.0, 1.0⟩
  | 10 => ⟨0.0, 1.0, -1.0⟩
  | _ => ⟨0.0, -1.0, -1.0⟩

/-- The slope that a lattice point carries. -/
def latticeSlope (x y z : Int) : Vec α :=
  edgeDirection (latticeHash x y z % 12).toNat

/-- The weight of the upper end of a unit interval at `t`: zero at the lower end, one at the upper,
with vanishing first and second derivatives at both. -/
def fade (t : α) : α :=
  t * t * t * (t * (t * 6.0 - 15.0) + 10.0)

/-- The derivative of `fade`. -/
def fadeSlope (t : α) : α :=
  30.0 * t * t * (t * (t - 2.0) + 1.0)

/-- The corners of a cell, the first coordinate changing fastest; `true` is the upper end. -/
def corners : List (Vec Bool) :=
  [⟨false, false, false⟩, ⟨true, false, false⟩, ⟨false, true, false⟩, ⟨true, true, false⟩,
    ⟨false, false, true⟩, ⟨true, false, true⟩, ⟨false, true, true⟩, ⟨true, true, true⟩]

/-- The weight of one end of an interval at a place with the given fade. -/
def endWeight (upper : Bool) (faded : α) : α :=
  if upper then faded else 1.0 - faded

/-- The derivative of `endWeight`. -/
def endSlope (upper : Bool) (slope : α) : α :=
  if upper then slope else -slope

/-- What one corner of the cell `base` adds to the noise, and to its gradient, at the place `local'`
within the cell. -/
def cornerTerm (base : Vec Int) (local' : Vec α) (corner : Vec Bool) : α × Vec α :=
  let g : Vec α :=
    latticeSlope (base.x + corner.x.toNat) (base.y + corner.y.toNat) (base.z + corner.z.toNat)
  let d := local' - corner.map Arith.ofBool
  let along := g.x * d.x + g.y * d.y + g.z * d.z
  let weight := Vec.zipWith endWeight corner (local'.map fade)
  let slope := Vec.zipWith endSlope corner (local'.map fadeSlope)
  let w := weight.x * weight.y * weight.z
  (w * along,
    { x := slope.x * weight.y * weight.z * along + w * g.x
      y := weight.x * slope.y * weight.z * along + w * g.y
      z := weight.x * weight.y * slope.z * along + w * g.z })

/-- The noise at a position, and its gradient there. -/
def gradientNoise (p : Vec α) : α × Vec α :=
  let cell := p.map Arith.floor
  let base := cell.map Arith.floorInt
  corners.foldl
    (fun (value, gradient) corner =>
      let (v, g) := cornerTerm base (p - cell) corner
      (value + v, gradient + g))
    (0.0, Vec.zero)

end TextureGraph.Pattern
