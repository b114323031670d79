import TextureGraph.Module.Basic

/-!
# Functions of one number, interpolation and blur

A function of a blurred number is averaged over the interval around it (`Mean`), so that it yields
the mean of the function and not the function of the mean.

A tap logs what it reads under a label of its own.  Label and log are left out: nothing that a graph
yields depends on them.
-/

namespace TextureGraph

/-- Modules that reshape, mix, blur or pass on what they read. -/
inductive Shaping where
  /-- The absolute value. -/
  | abs
  /-- The exponential function. -/
  | exp
  /-- The sine. -/
  | sine
  /-- The cosine. -/
  | cosine
  /-- A mix of two numbers. -/
  | interpolate
  /-- A number read with more blur. -/
  | blur
  /-- A number and a color passed on unchanged. -/
  | tap
deriving DecidableEq, Repr

namespace Shaping

section Sockets

variable {α : Type} [Arith α]

/-- The signature of a function of one number. -/
private def unary (typeId name output : String) : Signature α :=
  .ofSockets typeId name .functions [.scalar "Value" 0.0] [.output output .scalar]

/-- The sockets of a module. -/
def signature : Shaping → Signature α
  | .abs => unary "abs" "Abs" "Abs"
  | .exp => unary "exp" "Exp" "Exp"
  | .sine => unary "sine" "Sin" "Sine"
  | .cosine => unary "cosine" "Cos" "Cosine"
  | .interpolate =>
    .ofSockets "interpolate" "Interpolate" .functions
      [.scalar "Value 1" 0.0, .scalar "Value 2" 1.0, .scalar "Fraction" 0.0]
      [.output "Interpolate" .scalar]
  | .blur =>
    .ofSockets "blur" "Blur" .functions [.scalar "Blur" 0.05, .scalar "Input" 0.0]
      [.output "Output" .scalar]
  | .tap =>
    .ofSockets "debug" "Debug" .functions [.scalar "Input" 0.0, .color "Color Input" Color.black]
      [.output "Output" .scalar, .output "Color Output" .color]

end Sockets

variable {α : Type} [Arith α] (inputs : Inputs α) (q : Query α)

/-- The mean weight of the second of two mixed values; the third input is the weight. -/
def fraction : α :=
  Mean.fraction (inputs.value 2 q) (inputs.error 2 q)

/-- The request with the blur that the first input adds. -/
def widened : Query α :=
  { q with blur := q.blur + Arith.max (inputs.value 0 q) 0.0 }

/-- The number that a module yields.  An end of a mix that has no weight is not read. -/
def value (output : Nat) : Shaping → α
  | .abs => Mean.abs (inputs.value 0 q) (inputs.error 0 q)
  | .exp => Mean.exp (inputs.value 0 q) (inputs.error 0 q)
  | .sine => Mean.sin (inputs.value 0 q) (inputs.error 0 q)
  | .cosine => Mean.cos (inputs.value 0 q) (inputs.error 0 q)
  | .interpolate =>
    let f := fraction inputs q
    let a := if f == 1.0 then 0.0 else inputs.value 0 q
    let b := if f == 0.0 then 0.0 else inputs.value 1 q
    (1.0 - f) * a + f * b
  | .blur => inputs.value 1 (widened inputs q)
  | .tap => if output = 1 then (inputs.color 1 q).brightness else inputs.value 0 q

/-- The error of a module. -/
def error (output : Nat) : Shaping → α
  | .abs => inputs.error 0 q
  | .exp => inputs.error 0 q * Mean.exp (inputs.value 0 q) (inputs.error 0 q)
  | .sine => Bound.periodic (Arith.cos (inputs.value 0 q)) (inputs.error 0 q)
  | .cosine => Bound.periodic (Arith.sin (inputs.value 0 q)) (inputs.error 0 q)
  | .interpolate =>
    let f := fraction inputs q
    (1.0 - f) * inputs.error 0 q + f * inputs.error 1 q
  | .blur => inputs.error 1 (widened inputs q)
  | .tap => if output = 0 then inputs.error 0 q else inputs.error 1 q

/-- The gradient of a module. -/
def gradient (output : Nat) : Shaping → Vec α
  | .abs => (inputs.gradient 0 q).scale (Mean.absSlope (inputs.value 0 q) (inputs.error 0 q))
  | .exp => (inputs.gradient 0 q).scale (Arith.exp (inputs.value 0 q))
  | .sine => (inputs.gradient 0 q).scale (Arith.cos (inputs.value 0 q))
  | .cosine => (inputs.gradient 0 q).scale (-Arith.sin (inputs.value 0 q))
  | .interpolate =>
    let f := fraction inputs q
    let first :=
      if f == 1.0 then Vec.zero else Vec.zero + (inputs.gradient 0 q).scale (1.0 - f)
    if f == 0.0 then first else first + (inputs.gradient 1 q).scale f
  | .blur => inputs.gradient 1 (widened inputs q)
  | .tap => if output = 0 then inputs.gradient 0 q else Vec.zero

instance : TextureModule Shaping α where
  signature := signature
  parameters _ := []
  setParameter := TextureModule.refuseParameter
  averageValue m output inputs q := m.value inputs q output
  colorValue m output inputs q :=
    match m with
    | .tap => if output = 0 then Color.gray (inputs.value 0 q) else inputs.color 1 q
    | _ => Color.gray (m.value inputs q output)
  valueError m output inputs q := m.error inputs q output
  valueGradient m output inputs q := m.gradient inputs q output

end Shaping

end TextureGraph
