import TextureGraph.Sample.Footprint

/-!
# Expression trees
-/

namespace TextureGraph

/-- Functions of one number. -/
inductive UnaryOp where
  /-- The number with its sign changed. -/
  | negate
  /-- The absolute value. -/
  | abs
  /-- The exponential function. -/
  | exp
  /-- The sine. -/
  | sin
  /-- The cosine. -/
  | cos
  /-- The square root. -/
  | sqrt
  /-- The natural logarithm. -/
  | log
deriving DecidableEq, Repr

/-- Operators and functions of two numbers. -/
inductive BinaryOp where
  /-- The sum. -/
  | add
  /-- The difference. -/
  | subtract
  /-- The product. -/
  | multiply
  /-- The quotient. -/
  | divide
  /-- The remainder that has the sign of the divisor. -/
  | modulo
  /-- The power. -/
  | power
  /-- The smaller number. -/
  | min
  /-- The larger number. -/
  | max
  /-- The angle of the point with the given coordinates. -/
  | angle
deriving DecidableEq, Repr

/-- An expression over the coordinates of a sample and three inputs. -/
inductive Expr (α : Type) where
  /-- A number. -/
  | number (value : α)
  /-- A coordinate of the sample. -/
  | coordinate (axis : Axis)
  /-- One of the inputs. -/
  | input (index : Fin 3)
  /-- A function of one number applied to an expression. -/
  | unary (op : UnaryOp) (operand : Expr α)
  /-- A function of two numbers applied to expressions. -/
  | binary (op : BinaryOp) (left right : Expr α)
deriving Repr

end TextureGraph
