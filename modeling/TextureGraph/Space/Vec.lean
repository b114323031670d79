import TextureGraph.Number.Arith

/-!
# Vectors in space

Positions, footprint extents and gradients are all of type `Vec`.
-/

namespace TextureGraph

/-- A vector with three components. -/
structure Vec (α : Type) where
  /-- The component along the first axis. -/
  x : α
  /-- The component along the second axis. -/
  y : α
  /-- The component along the third axis. -/
  z : α
deriving BEq, Repr

namespace Vec

variable {α : Type}

/-- The same function applied to every component. -/
@[inline] def map {β : Type} (f : α → β) (v : Vec α) : Vec β :=
  ⟨f v.x, f v.y, f v.z⟩

/-- A function of two numbers applied component by component. -/
@[inline] def zipWith {β γ : Type} (f : α → β → γ) (v : Vec α) (w : Vec β) : Vec γ :=
  ⟨f v.x w.x, f v.y w.y, f v.z w.z⟩

/-- The component with a given number: `0` is `x`, `1` is `y`, every other number `z`. -/
def component (v : Vec α) : Nat → α
  | 0 => v.x
  | 1 => v.y
  | _ => v.z

/-- The vector with one component replaced. -/
def setComponent (v : Vec α) (i : Nat) (a : α) : Vec α :=
  match i with
  | 0 => { v with x := a }
  | 1 => { v with y := a }
  | _ => { v with z := a }

/-- The components in order. -/
def toList (v : Vec α) : List α :=
  [v.x, v.y, v.z]

variable [Arith α]

/-- All components equal. -/
@[inline] def splat (a : α) : Vec α :=
  ⟨a, a, a⟩

/-- The zero vector. -/
@[inline] def zero : Vec α :=
  ⟨0.0, 0.0, 0.0⟩

/-- The unit vector along the first axis. -/
@[inline] def unitX : Vec α :=
  ⟨1.0, 0.0, 0.0⟩

/-- The unit vector along the second axis. -/
@[inline] def unitY : Vec α :=
  ⟨0.0, 1.0, 0.0⟩

/-- The unit vector along the third axis. -/
@[inline] def unitZ : Vec α :=
  ⟨0.0, 0.0, 1.0⟩

@[inline] instance : Add (Vec α) := ⟨fun v w => ⟨v.x + w.x, v.y + w.y, v.z + w.z⟩⟩

@[inline] instance : Sub (Vec α) := ⟨fun v w => ⟨v.x - w.x, v.y - w.y, v.z - w.z⟩⟩

@[inline] instance : Neg (Vec α) := ⟨fun v => ⟨-v.x, -v.y, -v.z⟩⟩

/-- The vector multiplied by a number. -/
@[inline] def scale (v : Vec α) (a : α) : Vec α :=
  ⟨v.x * a, v.y * a, v.z * a⟩

/-- The inner product. -/
@[inline] def dot (v w : Vec α) : α :=
  v.x * w.x + v.y * w.y + v.z * w.z

/-- The cross product. -/
@[inline] def cross (v w : Vec α) : Vec α :=
  ⟨v.y * w.z - v.z * w.y, v.z * w.x - v.x * w.z, v.x * w.y - v.y * w.x⟩

/-- The Euclidean length. -/
@[inline] def length (v : Vec α) : α :=
  Arith.sqrt (v.dot v)

/-- The absolute values of the components. -/
@[inline] def abs (v : Vec α) : Vec α :=
  v.map Arith.abs

/-- The largest component. -/
@[inline] def maxComponent (v : Vec α) : α :=
  Arith.max (Arith.max v.x v.y) v.z

/-- The vector, or zero where its length is not a finite number. -/
@[inline] def finiteOrZero (v : Vec α) : Vec α :=
  if Arith.isFinite v.length then v else zero

/-- The linear combination of three vectors with the components of `v` as coefficients.  When the
vectors are the gradients of three quantities, this turns a gradient with respect to those
quantities into one with respect to the position. -/
@[inline] def combine (v : Vec α) (columns : Vec (Vec α)) : Vec α :=
  columns.x.scale v.x + columns.y.scale v.y + columns.z.scale v.z

end Vec

end TextureGraph
