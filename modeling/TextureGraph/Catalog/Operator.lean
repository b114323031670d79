import TextureGraph.Module.Basic

/-!
# Arithmetic on two numbers

Every operand is taken at the blur of the request, and the operation is applied to the means.
Errors combine to first order.
-/

namespace TextureGraph

/-- Operations on two numbers. -/
inductive Operator where
  /-- The sum. -/
  | sum
  /-- The difference. -/
  | difference
  /-- The product; zero unless both factors are bound. -/
  | product
  /-- The quotient; zero next to a pole. -/
  | ratio
  /-- The power; zero next to a pole. -/
  | power
  /-- The smaller operand. -/
  | min
  /-- The larger operand. -/
  | max
deriving DecidableEq, Repr

namespace Operator

section Sockets

variable {α : Type} [Arith α]

/-- The signature of an operation, with the names and fallbacks of its operands. -/
private def binary (typeId name : String) (a b : String × α) : Signature α :=
  .ofSockets typeId name .operators [.scalar a.1 a.2, .scalar b.1 b.2] [.output name .scalar]

/-- The sockets of an operation. -/
def signature : Operator → Signature α
  | .sum => binary "sum" "Sum" ("Value 1", 0.0) ("Value 2", 0.0)
  | .difference => binary "difference" "Difference" ("Value 1", 0.0) ("Value 2", 0.0)
  | .product => binary "product" "Product" ("Value 1", 0.0) ("Value 2", 0.0)
  | .ratio => binary "ratio" "Ratio" ("Value 1", 0.0) ("Value 2", 1.0)
  | .power => binary "power" "Power" ("Base", 0.0) ("Exponent", 1.0)
  | .min => binary "min" "Min" ("Value 1", 0.0) ("Value 2", 0.0)
  | .max => binary "max" "Max" ("Value 1", 0.0) ("Value 2", 0.0)

end Sockets

variable {α : Type} [Arith α] (inputs : Inputs α) (q : Query α)

/-- Whether both operands are bound. -/
def bothBound : Bool :=
  inputs.isBound 0 && inputs.isBound 1

/-- The divisor, unless its interval reaches zero. -/
def divisor? : Option α :=
  let b := inputs.value 1 q
  if Bound.reachesZero b (inputs.error 1 q) then none else some b

/-- The base and the exponent of a power, unless it has a pole within reach. -/
def baseAndExponent? : Option (α × α) :=
  let x := inputs.value 0 q
  let e := inputs.value 1 q
  if Power.hasPole x (inputs.error 0 q) e then none else some (x, e)

/-- The operand that `min` follows; the first one when they are equal. -/
def smallerInput : Nat :=
  if inputs.value 1 q < inputs.value 0 q then 1 else 0

/-- The operand that `max` follows; the first one when they are equal. -/
def largerInput : Nat :=
  if inputs.value 0 q < inputs.value 1 q then 1 else 0

/-- The result of an operation. -/
def value : Operator → α
  | .sum => inputs.value 0 q + inputs.value 1 q
  | .difference => inputs.value 0 q - inputs.value 1 q
  | .product => if bothBound inputs then inputs.value 0 q * inputs.value 1 q else 0.0
  | .ratio =>
    match divisor? inputs q with
    | some b => inputs.value 0 q / b
    | none => 0.0
  | .power =>
    match baseAndExponent? inputs q with
    | some (x, e) => Power.apply x e
    | none => 0.0
  | .min => Arith.min (inputs.value 0 q) (inputs.value 1 q)
  | .max => Arith.max (inputs.value 0 q) (inputs.value 1 q)

/-- The error of an operation. -/
def error : Operator → α
  | .sum | .difference => inputs.error 0 q + inputs.error 1 q
  | .product =>
    if bothBound inputs then
      Bound.product (inputs.value 0 q) (inputs.error 0 q) (inputs.value 1 q) (inputs.error 1 q)
    else 0.0
  | .ratio =>
    match divisor? inputs q with
    | some b => Bound.ratio (inputs.value 0 q) (inputs.error 0 q) b (inputs.error 1 q)
    | none => Bound.poleError
  | .power =>
    match baseAndExponent? inputs q with
    | some (x, e) => Power.error x (inputs.error 0 q) e (inputs.error 1 q)
    | none => Bound.poleError
  | .min => inputs.error (smallerInput inputs q) q
  | .max => inputs.error (largerInput inputs q) q

/-- The gradient of an operation. -/
def gradient : Operator → Vec α
  | .sum => inputs.gradient 0 q + inputs.gradient 1 q
  | .difference => inputs.gradient 0 q - inputs.gradient 1 q
  | .product =>
    if bothBound inputs then
      let a := inputs.value 0 q
      let b := inputs.value 1 q
      (inputs.gradient 1 q).scale a + (inputs.gradient 0 q).scale b
    else Vec.zero
  | .ratio =>
    match divisor? inputs q with
    | some b =>
      let a := inputs.value 0 q
      ((inputs.gradient 0 q).scale b - (inputs.gradient 1 q).scale a).scale (1.0 / (b * b))
    | none => Vec.zero
  | .power =>
    match baseAndExponent? inputs q with
    | some (x, e) =>
      ((inputs.gradient 0 q).scale (Power.baseSlope x e)
        + (inputs.gradient 1 q).scale (Power.exponentSlope x e)).finiteOrZero
    | none => Vec.zero
  | .min => inputs.gradient (smallerInput inputs q) q
  | .max => inputs.gradient (largerInput inputs q) q

instance : TextureModule Operator α :=
  .ofNumbers signature (fun _ => []) TextureModule.refuseParameter
    (fun op _ inputs q => op.value inputs q) (fun op _ inputs q => op.error inputs q)
    (fun op _ inputs q => op.gradient inputs q)

end Operator

end TextureGraph
