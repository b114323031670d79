import TextureGraph.Number.Arith

/-!
# Colors

A color has three channels, which are not confined to the interval from zero to one.
-/

namespace TextureGraph

/-- A color given by its red, green and blue channels. -/
structure Color (α : Type) where
  /-- The red channel. -/
  red : α
  /-- The green channel. -/
  green : α
  /-- The blue channel. -/
  blue : α
deriving BEq, Repr

namespace Color

variable {α : Type}

/-- All channels equal. -/
@[inline] def gray (a : α) : Color α :=
  ⟨a, a, a⟩

/-- The same function applied to every channel. -/
@[inline] def map {β : Type} (f : α → β) (c : Color α) : Color β :=
  ⟨f c.red, f c.green, f c.blue⟩

/-- The channels in order. -/
def channels (c : Color α) : List α :=
  [c.red, c.green, c.blue]

variable [Arith α]

/-- All channels zero. -/
@[inline] def black : Color α :=
  gray 0.0

/-- All channels one. -/
@[inline] def white : Color α :=
  gray 1.0

@[inline] instance : Add (Color α) :=
  ⟨fun c d => ⟨c.red + d.red, c.green + d.green, c.blue + d.blue⟩⟩

@[inline] instance : Sub (Color α) :=
  ⟨fun c d => ⟨c.red - d.red, c.green - d.green, c.blue - d.blue⟩⟩

/-- The product is taken channel by channel. -/
@[inline] instance : Mul (Color α) :=
  ⟨fun c d => ⟨c.red * d.red, c.green * d.green, c.blue * d.blue⟩⟩

/-- Every channel multiplied by a number. -/
@[inline] def scale (c : Color α) (a : α) : Color α :=
  ⟨c.red * a, c.green * a, c.blue * a⟩

/-- The blend of two colors: `fraction` zero gives the first and one the second. -/
@[inline] def lerp (c d : Color α) (fraction : α) : Color α :=
  c.scale (1.0 - fraction) + d.scale fraction

/-- The mean of the channels. -/
@[inline] def brightness (c : Color α) : α :=
  (c.red + c.green + c.blue) / 3.0

/-- The largest magnitude among the channels. -/
@[inline] def maxAbsChannel (c : Color α) : α :=
  Arith.max (Arith.max (Arith.abs c.red) (Arith.abs c.green)) (Arith.abs c.blue)

/-- Whether no channel differs by more than the tolerance; an undefined difference is one. -/
def isClose (tolerance : α) (c d : Color α) : Bool :=
  (c.channels.zip d.channels).all fun (a, b) => Arith.abs (a - b) ≤ tolerance

end Color

end TextureGraph
