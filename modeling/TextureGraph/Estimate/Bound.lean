import TextureGraph.Number.Arith

/-!
# Error bounds

How far the result of an operation may be from its value when the operands vary within their errors,
to first order.  Operations with a pole report `poleError` where the pole lies within reach.
-/

namespace TextureGraph.Bound

variable {α : Type} [Arith α]

/-- The error reported next to a pole, and for errors without a finite bound. -/
def poleError : α := 1.0e6

/-- First-order error of `a * b`. -/
def product (a ea b eb : α) : α :=
  Arith.abs (a * eb) + Arith.abs (b * ea)

/-- Whether the interval around `b` reaches zero. -/
def reachesZero (b eb : α) : Bool :=
  b == 0.0 || Arith.abs b ≤ eb

/-- First-order error of `a / b`. -/
def ratio (a ea b eb : α) : α :=
  Arith.abs (ea / b) + Arith.abs (a * eb / (b * b))

/-- The largest error reported by the periodic functions. -/
def periodicCap : α := 0.5

/-- Error of a periodic function with a given slope. -/
def periodic (slope e : α) : α :=
  Arith.min (Arith.abs (slope * e)) periodicCap

end TextureGraph.Bound
