import TextureGraph.Expression.Parser
import TextureGraph.Module.Basic

/-!
# Evaluation of expressions

The value, the error and the gradient of an expression are computed together, node by node, by the
same rules for blur and error that the modules of the catalog follow.
-/

namespace TextureGraph

variable {α : Type} [Arith α]

namespace UnaryOp

/-- The estimate of a function of a number from the estimate of the number. -/
def apply (op : UnaryOp) (a : Estimate α) : Estimate α :=
  let x := a.value
  let e := a.error
  let g := a.gradient
  match op with
  | .negate => ⟨-x, e, -g⟩
  | .abs => ⟨Mean.abs x e, e, g.scale (Mean.absSlope x e)⟩
  | .exp =>
    let value := Mean.exp x e
    ⟨value, e * value, g.scale (Arith.exp x)⟩
  | .sin => ⟨Mean.sin x e, Bound.periodic (Arith.cos x) e, g.scale (Arith.cos x)⟩
  | .cos => ⟨Mean.cos x e, Bound.periodic (Arith.sin x) e, g.scale (-Arith.sin x)⟩
  | .sqrt =>
    -- the slope is steepest at the lower end of the interval
    { value := Mean.sqrt x e
      error :=
        if 0.0 < x - e then e / (2.0 * Arith.sqrt (x - e)) else Arith.sqrt (Arith.max (x + e) 0.0)
      gradient := if 0.0 < x then g.scale (0.5 / Arith.sqrt x) else Vec.zero }
  | .log =>
    if x - e ≤ 0.0 then .pole
    else ⟨Mean.ln x e, e / (x - e), g.scale (1.0 / x)⟩

end UnaryOp

namespace BinaryOp

/-- The estimate of the remainder of `a` by `d`, which is `b` away from zero.  Where the quotient
passes a whole number within its error, the sawtooth is averaged. -/
def moduloBy (a b : Estimate α) : Estimate α :=
  let d := b.value
  let quotient := a.value / d
  let spread := a.error / Arith.abs d
  let lo := quotient - spread
  let hi := quotient + spread
  if Arith.floor lo == Arith.floor hi then
    let whole := Arith.floor quotient
    { value := d * (quotient - whole)
      error := a.error + Arith.abs whole * b.error
      gradient := a.gradient - b.gradient.scale whole }
  else
    { value := d * (Mean.sawtoothIntegral hi - Mean.sawtoothIntegral lo) / (hi - lo)
      error := Arith.abs d
      gradient := Vec.zero }

/-- The estimate of the angle of the point `(a, b)`.  It is any angle at all when the origin lies
within the errors. -/
def angleOf (a b : Estimate α) : Estimate α :=
  let x := a.value
  let y := b.value
  let square := x * x + y * y
  let value := Arith.atan2 y x
  if square == 0.0 || Arith.sqrt square ≤ a.error + b.error then ⟨value, Arith.pi, Vec.zero⟩
  else
    { value
      error := (Arith.abs y * a.error + Arith.abs x * b.error) / square
      gradient := (b.gradient.scale x - a.gradient.scale y).scale (1.0 / square) }

/-- The estimate of a function of two numbers from the estimates of the numbers. -/
def apply (op : BinaryOp) (a b : Estimate α) : Estimate α :=
  match op with
  | .add => ⟨a.value + b.value, a.error + b.error, a.gradient + b.gradient⟩
  | .subtract => ⟨a.value - b.value, a.error + b.error, a.gradient - b.gradient⟩
  | .multiply =>
    { value := a.value * b.value
      error := Bound.product a.value a.error b.value b.error
      gradient := a.gradient.scale b.value + b.gradient.scale a.value }
  | .divide =>
    let d := b.value
    if Bound.reachesZero d b.error then .pole
    else
      { value := a.value / d
        error := Bound.ratio a.value a.error d b.error
        gradient :=
          (a.gradient.scale d - b.gradient.scale a.value).scale (1.0 / (d * d)) }
  | .modulo => if Bound.reachesZero b.value b.error then .pole else moduloBy a b
  | .power =>
    if Power.hasPole a.value a.error b.value then .pole
    else
      { value := Power.apply a.value b.value
        error := Power.error a.value a.error b.value b.error
        gradient :=
          (a.gradient.scale (Power.baseSlope a.value b.value)
            + b.gradient.scale (Power.exponentSlope a.value b.value)).finiteOrZero }
  | .min => if b.value < a.value then b else a
  | .max => if a.value < b.value then b else a
  | .angle => angleOf a b

end BinaryOp

/-- The estimate of an expression over given inputs and a sample. -/
def Expr.estimate (inputs : Inputs α) (q : Query α) : Expr α → Estimate α
  | .number a => .constant a
  | .coordinate axis => .coordinate axis q
  | .input i => inputs.estimate i q
  | .unary op e => op.apply (e.estimate inputs q)
  | .binary op l r => op.apply (l.estimate inputs q) (r.estimate inputs q)

/-- An expression together with the text it was read from. -/
structure Expression (α : Type) where
  /-- The text. -/
  source : String
  /-- The tree. -/
  root : Expr α

namespace Expression

/-- Reads an expression. -/
def parse (source : String) : Except ExpressionError (Expression α) := do
  return { source, root := ← Expr.parse source }

/-- The first coordinate. -/
def standard : Expression α where
  source := "x"
  root := .coordinate .x

end Expression

end TextureGraph
