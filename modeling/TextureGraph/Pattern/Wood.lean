import TextureGraph.Pattern.Fractal

/-!
# Rings of wood

Rings around the third axis at a fixed distance, bent by turbulence.  The pattern counts the rings
from the axis; as a sawtooth it ramps from zero to one within each ring.
-/

namespace TextureGraph.Pattern

variable {α : Type} [Arith α]

/-- The error reported on the axis, where the rings have no direction. -/
def axisError : α := 1.0e6

/-- The sawtooth of a quantity, averaged over its error.  A footprint as wide as a ring has the mean
of a whole ring; one that crosses from a ring into the next has a damped gradient. -/
def sawtooth (rings : Estimate α) : Estimate α :=
  let error := rings.error
  if error == 0.0 then { rings with value := rings.value - Arith.floor rings.value }
  else if 0.5 ≤ error then { rings with value := 0.5, error := 0.5 }
  else
    let lo := rings.value - error
    let hi := rings.value + error
    let first := lo - Arith.floor lo
    let last := hi - Arith.floor hi
    if first < last then { rings with value := 0.5 * (last + first) }
    else
      { value :=
          (0.5 * last * last + 0.5 * (1.0 + first) * (1.0 - first)) / (1.0 - first + last)
        error := 0.5
        gradient := rings.gradient.scale ((last - first) / (2.0 * error)) }

/-- The number of rings between the axis and `p`, which is known up to `size`, and has the gradients
`columns` in space.  The turbulence is added to it. -/
def rings (spacing : α) (turbulence : Estimate α) (p size : Vec α) (columns : Vec (Vec α)) :
    Option (Estimate α) :=
  let scale := 1.0 / spacing
  let radius := Arith.hypot p.x p.y
  if radius == 0.0 then none
  else
    let slope := (⟨p.x / radius * scale, p.y / radius * scale, 0.0⟩ : Vec α) + turbulence.gradient
    some
      { value := radius * scale + turbulence.value
        error := spread size slope
        gradient := slope.combine columns }

/-- The pattern at `p`: the rings, or their sawtooth. -/
def wood (spacing : α) (fractionOnly : Bool) (turbulence : Estimate α) (p size : Vec α)
    (columns : Vec (Vec α)) : Estimate α :=
  match rings spacing turbulence p size columns with
  | none => ⟨turbulence.value, axisError, Vec.zero⟩
  | some rings => if fractionOnly then sawtooth rings else rings

end TextureGraph.Pattern
