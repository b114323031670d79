import TextureGraph.Estimate.Basic
import TextureGraph.Module.Parameter
import TextureGraph.Socket.Signature

/-!
# Modules

A module computes numbers and colors from its inputs and the sample being evaluated.  It sees its
inputs only through `Inputs`, which yields what the modules bound to them compute, or the fallbacks
of the inputs left unbound.

`TextureModule M α` says that `M` is a type of modules over the number system `α`.
-/

namespace TextureGraph

/-- The inputs of a module, as it sees them during an evaluation. -/
structure Inputs (α : Type) where
  /-- The number of inputs. -/
  count : Nat
  /-- Whether another module is bound to an input. -/
  isBound : Nat → Bool
  /-- An input as a number. -/
  value : Nat → Query α → α
  /-- An input as a color. -/
  color : Nat → Query α → Color α
  /-- How far an input varies across the footprint. -/
  error : Nat → Query α → α
  /-- The gradient of an input in space. -/
  gradient : Nat → Query α → Vec α

namespace Inputs

variable {α : Type} [Arith α]

/-- Whether the module has no inputs. -/
def isEmpty (inputs : Inputs α) : Bool :=
  inputs.count == 0

/-- Whether an input is true, that is, not zero. -/
def truth (inputs : Inputs α) (i : Nat) (q : Query α) : Bool :=
  !(inputs.value i q == 0.0)

/-- The first three inputs as a position. -/
def position (inputs : Inputs α) (q : Query α) : Vec α :=
  ⟨inputs.value 0 q, inputs.value 1 q, inputs.value 2 q⟩

/-- The errors of the first three inputs. -/
def positionError (inputs : Inputs α) (q : Query α) : Vec α :=
  ⟨inputs.error 0 q, inputs.error 1 q, inputs.error 2 q⟩

/-- The gradients of the first three inputs. -/
def positionGradients (inputs : Inputs α) (q : Query α) : Vec (Vec α) :=
  ⟨inputs.gradient 0 q, inputs.gradient 1 q, inputs.gradient 2 q⟩

/-- The value, error and gradient of an input. -/
def estimate (inputs : Inputs α) (i : Nat) (q : Query α) : Estimate α :=
  ⟨inputs.value i q, inputs.error i q, inputs.gradient i q⟩

/-- Inputs of which none is bound. -/
def unbound (s : Signature α) : Inputs α where
  count := s.inputs.length
  isBound _ := false
  value i q := (s.fallback i).value q
  color i q := (s.fallback i).toColor q
  error i q := (s.fallback i).error q
  gradient i _ := (s.fallback i).gradient

end Inputs

/-- Types of modules.

The operations give an answer for every output number and every sample. -/
class TextureModule (M : Type) (α : Type) where
  /-- The sockets and names of a module. -/
  signature : M → Signature α
  /-- The parameters with their present values. -/
  parameters : M → List (Parameter α)
  /-- The module that an accepted change of a parameter leads to, or why the change is refused. -/
  setParameter : M → String → ParameterValue α → Except (ParameterError α) M
  /-- The mean of an output over the blurred footprint. -/
  averageValue : M → Nat → Inputs α → Query α → α
  /-- The mean of an output as a color. -/
  colorValue : M → Nat → Inputs α → Query α → Color α
  /-- How far an output may vary across the blurred footprint. -/
  valueError : M → Nat → Inputs α → Query α → α
  /-- The gradient of an output in space. -/
  valueGradient : M → Nat → Inputs α → Query α → Vec α

namespace TextureModule

variable {M α : Type}

/-- Refuses to change any parameter, as modules without parameters do. -/
def refuseParameter (_ : M) (name : String) (_ : ParameterValue α) :
    Except (ParameterError α) M :=
  .error (.unknown name)

/-- Modules whose outputs are numbers: as colors they are gray. -/
@[reducible] def ofNumbers (signature : M → Signature α) (parameters : M → List (Parameter α))
    (setParameter : M → String → ParameterValue α → Except (ParameterError α) M)
    (averageValue valueError : M → Nat → Inputs α → Query α → α)
    (valueGradient : M → Nat → Inputs α → Query α → Vec α) : TextureModule M α where
  signature := signature
  parameters := parameters
  setParameter := setParameter
  averageValue := averageValue
  colorValue m output inputs q := Color.gray (averageValue m output inputs q)
  valueError := valueError
  valueGradient := valueGradient

/-- Modules without parameters whose outputs are zero everywhere. -/
@[reducible] def inert [Arith α] (signature : M → Signature α) : TextureModule M α :=
  ofNumbers signature (fun _ => []) refuseParameter (fun _ _ _ _ => 0.0) (fun _ _ _ _ => 0.0)
    (fun _ _ _ _ => Vec.zero)

end TextureModule

end TextureGraph
