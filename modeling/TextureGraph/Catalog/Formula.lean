import TextureGraph.Expression.Basic

/-!
# Expressions as modules
-/

namespace TextureGraph.Expression

variable {α : Type} [Arith α]

/-- The sockets of an expression: three inputs and the result. -/
def signature (_ : Expression α) : Signature α :=
  .ofSockets "expression" "Expression" .functions
    [.scalar "Value 1" 0.0, .scalar "Value 2" 0.0, .scalar "Value 3" 0.0]
    [.output "Result" .scalar]

/-- The text of an expression is its parameter. -/
def parameters (e : Expression α) : List (Parameter α) :=
  [.text "expression" e.source]

/-- The expression read from another text. -/
def setParameter (_ : Expression α) (name : String) (v : ParameterValue α) :
    Except (ParameterError α) (Expression α) := do
  if name = "expression" then
    (parse (← v.asText name)).mapError (.invalid name)
  else .error (.unknown name)

instance : TextureModule (Expression α) α :=
  .ofNumbers signature parameters setParameter
    (fun e _ inputs q => (e.root.estimate inputs q).value)
    (fun e _ inputs q => (e.root.estimate inputs q).error)
    (fun e _ inputs q => (e.root.estimate inputs q).gradient)

end TextureGraph.Expression
