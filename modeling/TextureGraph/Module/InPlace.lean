import TextureGraph.Module.Basic

/-!
# Parameters changed in place

`TextureModule.setParameter` gives the module that an accepted change of a parameter leads to.  A change
in place works on the module that it is handed, value by value: what has been written when a value is
refused stays written (`InPlace`).

`InPlaceModule M α` says how the parameters of the modules of a type are changed.  What a refused change
leaves of a module need not be what the module was; where it is, the changes are atomic (`AtomicModule`).
-/

namespace TextureGraph

/-- A computation that changes an object in place, and may stop at a value that it refuses.  The object
then stays as it is at this point. -/
abbrev InPlace (σ α : Type) := ExceptT (ParameterError α) (StateM σ)

namespace InPlace

variable {σ τ α β : Type}

/-- Hands on what has been read of a value, or stops where it was refused. -/
def read (value : Except (ParameterError α) β) : InPlace σ α β :=
  fun m => (value, m)

/-- Changes a part in place, of which `whole` makes the object. -/
def onPart (whole : τ → σ) (part : τ) (change : InPlace τ α β) : InPlace σ α β :=
  fun _ => (change part).map id whole

/-- What an accepted change makes of an object. -/
def accepted (change : InPlace σ α β) (m : σ) : Except (ParameterError α) σ :=
  match change m with
  | (.ok _, changed) => .ok changed
  | (.error e, _) => .error e

end InPlace

/-- Types of modules whose parameters are changed in place. -/
class InPlaceModule (M α : Type) [TextureModule M α] where
  /-- Changes a parameter of a module. -/
  assign : String → ParameterValue α → InPlace M α Unit
  /-- `setParameter` gives what an accepted change makes of the module. -/
  setParameter_eq : ∀ (m : M) (name : String) (v : ParameterValue α),
    TextureModule.setParameter m name v = (assign name v).accepted m

/-- Types of modules of which a refused change leaves everything as it was. -/
class AtomicModule (M α : Type) [TextureModule M α] [InPlaceModule M α] : Prop where
  /-- What is left is the module itself. -/
  kept : ∀ {m left : M} {name : String} {v : ParameterValue α} {e : ParameterError α},
    (InPlaceModule.assign name v : InPlace M α Unit) m = (.error e, left) → left = m

end TextureGraph
