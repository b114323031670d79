import TextureGraph.Graph.Basic

/-!
# Errors of graphs
-/

namespace TextureGraph

/-- Why a graph was not changed, or not accepted. -/
inductive GraphError (α : Type) where
  /-- The module is not in the graph. -/
  | moduleNotFound (module : ModuleId)
  /-- The module has no such input. -/
  | inputOutOfRange (module : ModuleId) (input count : Nat)
  /-- The module has no such output. -/
  | outputOutOfRange (module : ModuleId) (output count : Nat)
  /-- An output of one kind cannot feed an input of the other. -/
  | kindMismatch (output input : SocketKind)
  /-- The input has a binding, which stays in place. -/
  | alreadyBound (module : ModuleId) (input : Nat) (existing : Binding)
  /-- Modules that read each other in a circle; the first one is repeated at the end. -/
  | cycle (chain : List ModuleId)
  /-- The module refused the value of a parameter. -/
  | parameter (error : ParameterError α)
deriving Repr

/-- The text shown for an error. -/
def GraphError.message : GraphError Float → String
  | .moduleNotFound module => "Module not found: " ++ module.label
  | .inputOutOfRange module input count =>
    "Module " ++ module.label ++ " has " ++ toString count ++ " inputs, input "
      ++ toString input ++ " requested"
  | .outputOutOfRange module output count =>
    "Module " ++ module.label ++ " has " ++ toString count ++ " outputs, output "
      ++ toString output ++ " requested"
  | .kindMismatch output input =>
    "Cannot bind a " ++ output.label ++ " output to a " ++ input.label ++ " input"
  | .alreadyBound module input _ =>
    "Input " ++ toString input ++ " of module " ++ module.label ++ " is already bound"
  | .cycle chain => "Cycle detected: " ++ " -> ".intercalate (chain.map ModuleId.label)
  | .parameter error => error.message

/-- Why an output was not evaluated. -/
inductive EvaluationError (α : Type) where
  /-- The module is not in the graph. -/
  | moduleNotFound (module : ModuleId)
  /-- The module has no such output. -/
  | outputOutOfRange (module : ModuleId) (output count : Nat)
  /-- A number was asked of an output that carries colors. -/
  | notScalar (module : ModuleId) (output : Nat)
  /-- The blur is negative or not a finite number. -/
  | invalidBlur (blur : α)
deriving Repr

/-- The text shown for an error. -/
def EvaluationError.message : EvaluationError Float → String
  | .moduleNotFound module => "Module not found: " ++ module.label
  | .outputOutOfRange module output count =>
    "Module " ++ module.label ++ " has " ++ toString count ++ " outputs, output "
      ++ toString output ++ " requested"
  | .notScalar module output =>
    "Output " ++ toString output ++ " of module " ++ module.label ++ " is a color"
  | .invalidBlur blur => "Invalid blur radius: " ++ Decimal.text blur

end TextureGraph
