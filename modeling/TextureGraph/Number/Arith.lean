/-!
# Number systems the evaluator computes in

`Arith α` collects the operations that values, error bounds and gradients are made of.  Every
definition of this library that computes with numbers is written once over `Arith`, in a fixed order
of operations, so that running it on `Float` gives binary floating point and reading it over an
exact number system gives the formula it stands for.

The derived operations (`Arith.max`, `Arith.clamp`, `Arith.wholePart`, …) fix the treatment of
undefined values once: an operand that is not a number gives way to the other one in `max` and
`min`, and passes through `clamp`.
-/

namespace TextureGraph

/-- The operations on numbers used by the evaluator.

`<`, `≤` and `==` are the comparisons of the number system itself; in floating point they are all
false on a value that is not a number. -/
class Arith (α : Type) extends Add α, Sub α, Mul α, Div α, Neg α, OfScientific α, BEq α, LT α,
    LE α where
  /-- Order tests are decidable. -/
  decLt : ∀ a b : α, Decidable (a < b)
  /-- Order tests are decidable. -/
  decLe : ∀ a b : α, Decidable (a ≤ b)
  /-- Absolute value. -/
  abs : α → α
  /-- Square root. -/
  sqrt : α → α
  /-- Largest whole number at or below the argument. -/
  floor : α → α
  /-- The exponential function. -/
  exp : α → α
  /-- The natural logarithm. -/
  ln : α → α
  /-- Sine of an angle in radians. -/
  sin : α → α
  /-- Cosine of an angle in radians. -/
  cos : α → α
  /-- `pow x e` is `x` raised to `e`. -/
  pow : α → α → α
  /-- `atan2 y x` is the angle of the point `(x, y)`, in `[-π, π]`. -/
  atan2 : α → α → α
  /-- Length of the vector `(x, y)`, without an intermediate overflow. -/
  hypot : α → α → α
  /-- Remainder of a truncated division; it has the sign of the dividend. -/
  rem : α → α → α
  /-- `1` or `-1` by the sign of the argument; zero counts as positive unless it carries a sign. -/
  signum : α → α
  /-- Neither infinite nor undefined. -/
  isFinite : α → Bool
  /-- `floor` as an integer that the number system counts with; undefined values go to zero.  With
  binary floating point, these are the signed integers of 64 bits, and the nearest one is taken; an exact
  number system counts with all integers. -/
  floorInt : α → Int
  /-- What a sum of integers comes to in the number system.  With binary floating point, a sum beyond the
  signed integers of 64 bits wraps around; an exact number system counts with all integers. -/
  wrapInt : Int → Int
  /-- The number nearest to an integer. -/
  ofInt : Int → α
  /-- Whether the magnitude of the first argument comes no later than that of the second in the
  total order that puts undefined values last. -/
  magnitudeLe : α → α → Bool
  /-- Half the circumference of the unit circle. -/
  pi : α
  /-- The base of the natural logarithm. -/
  euler : α
  /-- The value reported for a quantity that has no upper limit. -/
  infinity : α

namespace Arith

variable {α : Type} [Arith α]

instance (a b : α) : Decidable (a < b) := decLt a b

instance (a b : α) : Decidable (a ≤ b) := decLe a b

/-- The larger of two numbers; an undefined operand gives way to the other. -/
@[inline] def max (a b : α) : α :=
  if a == a then (if a < b then b else a) else b

/-- The smaller of two numbers; an undefined operand gives way to the other. -/
@[inline] def min (a b : α) : α :=
  if a == a then (if b < a then b else a) else b

/-- `a` moved into the interval from `lo` to `hi`. -/
@[inline] def clamp (lo hi a : α) : α :=
  if a < lo then lo else if hi < a then hi else a

/-- `a` without its fractional digits. -/
@[inline] def wholePart (a : α) : α :=
  if a < 0.0 then -floor (-a) else floor a

/-- Whether `a` has no fractional digits; infinite and undefined values do not qualify. -/
@[inline] def isWhole (a : α) : Bool :=
  a - wholePart a == 0.0

/-- Remainder of a division that rounds toward the side that keeps the remainder from being
negative. -/
@[inline] def remNonneg (a b : α) : α :=
  let r := rem a b
  if r < 0.0 then r + abs b else r

/-- The sum of numbers, from the first one on.  It starts from negative zero, to which every number
adds up to itself, even a zero with a sign. -/
def sum (as : List α) : α :=
  as.foldl (· + ·) (-0.0)

/-- One for true, zero for false. -/
@[inline] def ofBool (b : Bool) : α :=
  if b then 1.0 else 0.0

end Arith

end TextureGraph
