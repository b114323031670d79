import TextureGraph.Color.Basic

/-!
# Hue, saturation and value

The hue runs once around the circle of colors; here it is measured in degrees, in the modules of the
catalog in turns.
-/

namespace TextureGraph

/-- A color given by its hue in degrees, its saturation and its value. -/
structure Hsv (α : Type) where
  /-- The hue, in degrees. -/
  hue : α
  /-- The saturation. -/
  saturation : α
  /-- The value, the largest of the three channels. -/
  value : α
deriving Repr

namespace Hsv

variable {α : Type} [Arith α]

/-- The color with the given coordinates.  The circle of hues is divided into six sectors; within
each, one channel is largest, one smallest, and the third moves between them. -/
def toColor (c : Hsv α) : Color α :=
  if c.saturation ≤ 0.0 then Color.gray c.value
  else
    let hue := Arith.remNonneg c.hue 360.0 / 60.0
    let sector := Arith.floor hue
    let f := hue - sector
    let p := c.value * (1.0 - c.saturation)
    let q := c.value * (1.0 - c.saturation * f)
    let t := c.value * (1.0 - c.saturation * (1.0 - f))
    match (Arith.floorInt sector).toNat with
    | 0 => ⟨c.value, t, p⟩
    | 1 => ⟨q, c.value, p⟩
    | 2 => ⟨p, c.value, t⟩
    | 3 => ⟨p, q, c.value⟩
    | 4 => ⟨t, p, c.value⟩
    | _ => ⟨c.value, p, q⟩

/-- The coordinates of a color.  A gray has hue zero, black also saturation zero. -/
def ofColor (c : Color α) : Hsv α :=
  let largest := Arith.max (Arith.max c.red c.green) c.blue
  let smallest := Arith.min (Arith.min c.red c.green) c.blue
  let spread := largest - smallest
  let hue : α :=
    if spread == 0.0 then 0.0
    else if c.red == largest then 60.0 * (c.green - c.blue) / spread
    else if c.green == largest then 60.0 * (c.blue - c.red) / spread + 120.0
    else 60.0 * (c.red - c.green) / spread + 240.0
  { hue := if hue < 0.0 then hue + 360.0 else hue
    saturation := if largest == 0.0 then 0.0 else spread / largest
    value := largest }

end Hsv

end TextureGraph
