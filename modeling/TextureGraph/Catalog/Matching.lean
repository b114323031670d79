import TextureGraph.Module.Basic

/-!
# Tests for equality

A comparison is a decision, so its error is the tolerance it compares with and not a function of the
blur.
-/

namespace TextureGraph

/-- Modules that test for equality. -/
inductive Matching (α : Type) where
  /-- Selects between two values by whether pairs of inputs are equal. -/
  | select
  /-- Whether two bound numbers are closer than a tolerance. -/
  | numbers (tolerance : α)
  /-- Whether two colors are equal. -/
  | colors

namespace Matching

/-- The pairs of inputs that `select` compares. -/
inductive Pair where
  /-- The pair of colors. -/
  | color
  /-- One of the four pairs of numbers. -/
  | scalar (index : Fin 4)
deriving DecidableEq, Repr

namespace Pair

/-- All pairs, in the order in which they are compared. -/
def all : List Pair :=
  [.color, .scalar 0, .scalar 1, .scalar 2, .scalar 3]

/-- The first input of a pair.  A pair takes part in the comparison when this input is bound. -/
def first : Pair → Nat
  | .color => 2
  | .scalar i => 3 + i

/-- The second input of a pair. -/
def second : Pair → Nat
  | .color => 7
  | .scalar i => 8 + i

end Pair

/-- The input that `select` passes on when the pairs are not equal. -/
def falseInput : Nat := 0

/-- The input that `select` passes on when the pairs are equal. -/
def trueInput : Nat := 1

section Sockets

variable {α : Type} [Arith α]

/-- The tolerance of the tests. -/
def standardTolerance : α := 1.0e-12

/-- The sockets of a test. -/
def signature : Matching α → Signature α
  | .select =>
    .ofSockets "equality" "Equality" .comparison
      ([.scalar "False" 0.0, .scalar "True" 1.0, .color "Color 1" Color.white]
        ++ ["1", "2", "3", "4"].map (fun i => .scalar ("Scalar 1:" ++ i) 1.0)
        ++ [.color "Color 2" Color.black]
        ++ ["1", "2", "3", "4"].map (fun i => .scalar ("Scalar 2:" ++ i) 0.0))
      [.output "True/False" .boolean]
  | .numbers _ =>
    .ofSockets "number_equality" "Number Equality" .comparison
      [.scalar "Value 1" 0.0, .scalar "Value 2" 0.0] [.output "Equal" .boolean]
  | .colors =>
    .ofSockets "color_equality" "Color Equality" .comparison
      [.color "Color 1" Color.white, .color "Color 2" Color.black] [.output "Equal" .boolean]

/-- The parameters of a test. -/
def parameters : Matching α → List (Parameter α)
  | .numbers tolerance => [.positive "tolerance" tolerance]
  | _ => []

/-- A test with a parameter changed. -/
def setParameter (m : Matching α) (name : String) (v : ParameterValue α) :
    Except (ParameterError α) (Matching α) :=
  match m, name with
  | .numbers _, "tolerance" => return .numbers (← v.asPositive name)
  | _, _ => .error (.unknown name)

end Sockets

variable {α : Type} [Arith α] (inputs : Inputs α) (q : Query α)

/-- Whether the two inputs of a pair are equal within the tolerance. -/
def Pair.isEqual : Pair → Bool
  | .color => (inputs.color 2 q).isClose standardTolerance (inputs.color 7 q)
  | .scalar i =>
    Arith.abs (inputs.value (3 + i) q - inputs.value (8 + i) q) ≤ (standardTolerance : α)

/-- The decision of `select`, as a rule: some pair takes part, and every pair that does is equal.  Comparing
pair by pair up to the first unequal one decides the same (`Matching.run_pairsInquiry`). -/
def allEqual : Bool :=
  let taking := Pair.all.filter fun p => inputs.isBound p.first
  !taking.isEmpty && taking.all (Pair.isEqual inputs q)

/-- The input that `select` passes on. -/
def selected : Nat :=
  if allEqual inputs q then trueInput else falseInput

/-- The result of a test: one or zero, or the input that is selected. -/
def value : Matching α → α
  | .select => inputs.value (selected inputs q) q
  | .numbers tolerance =>
    if inputs.isBound 0 && inputs.isBound 1 then
      Arith.ofBool (Arith.abs (inputs.value 0 q - inputs.value 1 q) < tolerance)
    else 0.0
  | .colors => Arith.ofBool ((inputs.color 0 q).isClose standardTolerance (inputs.color 1 q))

/-- The error of a test, which is its tolerance. -/
def error : Matching α → α
  | .numbers tolerance => tolerance
  | _ => standardTolerance

/-- The gradient of a test: that of the input that is selected. -/
def gradient : Matching α → Vec α
  | .select => inputs.gradient (selected inputs q) q
  | _ => Vec.zero

instance : TextureModule (Matching α) α :=
  .ofNumbers signature parameters setParameter (fun m _ inputs q => m.value inputs q)
    (fun m _ _ _ => m.error) (fun m _ inputs q => m.gradient inputs q)

end Matching

end TextureGraph
