import TextureGraph.Color.Basic
import TextureGraph.Expression.Error

/-!
# Parameters

A module is configured through named parameters.  A `ParameterValue` is what a caller hands over;
each module reads it in the form it needs (`ParameterValue.number`, `ParameterValue.choice`, …) and
refuses it otherwise.
-/

namespace TextureGraph

/-- The value of a parameter. -/
inductive ParameterValue (α : Type) where
  /-- A number. -/
  | number (value : α)
  /-- A whole number. -/
  | integer (value : Int)
  /-- A switch. -/
  | toggle (value : Bool)
  /-- The number of an option. -/
  | choice (index : Nat)
  /-- A color. -/
  | color (value : Color α)
  /-- A text. -/
  | text (value : String)
deriving Repr

/-- The values that a parameter takes. -/
inductive ParameterRange (α : Type) where
  /-- Numbers between optional limits. -/
  | number (min max : Option α)
  /-- Whole numbers between limits. -/
  | integer (min max : Int)
  /-- On or off. -/
  | toggle
  /-- One of some options. -/
  | choice (options : List String)
  /-- Colors. -/
  | color
  /-- Any text. -/
  | text
deriving Repr

/-- The forms in which a parameter is read. -/
inductive ParameterForm where
  /-- As a number. -/
  | number
  /-- As a whole number. -/
  | integer
  /-- As a switch. -/
  | toggle
  /-- As the number of an option. -/
  | choice
  /-- As a color. -/
  | color
  /-- As a text. -/
  | text
deriving DecidableEq, Repr

/-- The word for a form in messages. -/
def ParameterForm.label : ParameterForm → String
  | .number => "number"
  | .integer => "integer"
  | .toggle => "toggle"
  | .choice => "choice"
  | .color => "color"
  | .text => "text"

/-- A number that lies outside the range of a parameter. -/
inductive Rejected (α : Type) where
  /-- A number. -/
  | number (value : α)
  /-- A whole number. -/
  | integer (value : Int)
deriving Repr

/-- Why the value of a parameter was refused. -/
inductive ParameterError (α : Type) where
  /-- The module has no parameter of this name. -/
  | unknown (name : String)
  /-- The value has another form than the parameter. -/
  | wrongType (name : String) (expected : ParameterForm)
  /-- The value lies outside the range of the parameter. -/
  | outOfRange (name : String) (value : Rejected α)
  /-- The text is not an expression. -/
  | invalid (name : String) (reason : ExpressionError)
deriving Repr

/-- The digits of a refused number. -/
def Rejected.text : Rejected Float → String
  | .number a => Decimal.text a
  | .integer n => toString n

/-- The text shown for an error. -/
def ParameterError.message : ParameterError Float → String
  | .unknown name => "Unknown parameter: " ++ name
  | .wrongType name expected => "Parameter " ++ name ++ " expects a " ++ expected.label ++ " value"
  | .outOfRange name value =>
    "Value " ++ value.text ++ " is out of range for parameter " ++ name
  | .invalid name reason => "Invalid value for parameter " ++ name ++ ": " ++ reason.message

namespace ParameterValue

variable {α : Type} [Arith α]

/-- A finite number; whole numbers count as numbers. -/
def asNumber (name : String) : ParameterValue α → Except (ParameterError α) α
  | .number a => if Arith.isFinite a then .ok a else .error (.outOfRange name (.number a))
  | .integer n => .ok (Arith.ofInt n)
  | _ => .error (.wrongType name .number)

/-- A finite number above zero. -/
def asPositive (name : String) (v : ParameterValue α) : Except (ParameterError α) α := do
  let a ← v.asNumber name
  if 0.0 < a then .ok a else .error (.outOfRange name (.number a))

/-- A whole number between limits.  A number without fractional digits counts as one. -/
def asInteger (name : String) (min max : Int) (v : ParameterValue α) :
    Except (ParameterError α) Int := do
  let n ← match v with
    | .integer n => Except.ok n
    | .number a =>
      if Arith.isWhole a then .ok (Arith.floorInt a) else .error (.wrongType name .integer)
    | _ => .error (.wrongType name .integer)
  if min ≤ n ∧ n ≤ max then .ok n else .error (.outOfRange name (.integer n))

/-- A switch. -/
def asToggle (name : String) : ParameterValue α → Except (ParameterError α) Bool
  | .toggle b => .ok b
  | _ => .error (.wrongType name .toggle)

/-- The number of one of `count` options. -/
def asChoice (name : String) (count : Nat) : ParameterValue α → Except (ParameterError α) Nat
  | .choice i => if i < count then .ok i else .error (.outOfRange name (.integer i))
  | _ => .error (.wrongType name .choice)

/-- A color. -/
def asColor (name : String) : ParameterValue α → Except (ParameterError α) (Color α)
  | .color c => .ok c
  | _ => .error (.wrongType name .color)

/-- A text. -/
def asText (name : String) : ParameterValue α → Except (ParameterError α) String
  | .text s => .ok s
  | _ => .error (.wrongType name .text)

end ParameterValue

/-- A parameter of a module with its present value. -/
structure Parameter (α : Type) where
  /-- The name by which it is set. -/
  name : String
  /-- The values it takes. -/
  range : ParameterRange α
  /-- Its present value. -/
  value : ParameterValue α
deriving Repr

namespace Parameter

variable {α : Type} [Arith α]

/-- A number without limits. -/
def number (name : String) (value : α) : Parameter α :=
  ⟨name, .number none none, .number value⟩

/-- A number above zero. -/
def positive (name : String) (value : α) : Parameter α :=
  ⟨name, .number (some 0.0) none, .number value⟩

/-- A whole number between limits. -/
def integer (name : String) (value min max : Int) : Parameter α :=
  ⟨name, .integer min max, .integer value⟩

/-- A switch. -/
def toggle (name : String) (value : Bool) : Parameter α :=
  ⟨name, .toggle, .toggle value⟩

/-- One of some options. -/
def choice (name : String) (options : List String) (index : Nat) : Parameter α :=
  ⟨name, .choice options, .choice index⟩

/-- A color. -/
def color (name : String) (value : Color α) : Parameter α :=
  ⟨name, .color, .color value⟩

/-- A text. -/
def text (name value : String) : Parameter α :=
  ⟨name, .text, .text value⟩

end Parameter

end TextureGraph
