import TextureGraph.Estimate.Bound

/-!
# Powers

A negative base keeps its sign under a fractional exponent: `-8` raised to `1/3` is `-2`.
-/

namespace TextureGraph.Power

variable {α : Type} [Arith α]

/-- `x` raised to `e`; the power of a negative base with a fractional exponent is negative. -/
def apply (x e : α) : α :=
  if x < 0.0 && !Arith.isWhole e then -Arith.pow (-x) e else Arith.pow x e

/-- The derivative with respect to the base. -/
def baseSlope (x e : α) : α :=
  if Arith.isWhole e then e * Arith.pow x (e - 1.0) else e * Arith.pow (Arith.abs x) (e - 1.0)

/-- The derivative with respect to the exponent; zero where the base is. -/
def exponentSlope (x e : α) : α :=
  if x == 0.0 then 0.0 else apply x e * Arith.ln (Arith.abs x)

/-- Whether a negative exponent meets a base whose interval reaches zero. -/
def hasPole (x ex e : α) : Bool :=
  e < 0.0 && Bound.reachesZero x ex

/-- First-order error; `Bound.poleError` where that is not a finite number. -/
def error (x ex e ee : α) : α :=
  let error := Arith.abs (baseSlope x e * ex) + Arith.abs (exponentSlope x e * ee)
  if Arith.isFinite error then error else Bound.poleError

end TextureGraph.Power
