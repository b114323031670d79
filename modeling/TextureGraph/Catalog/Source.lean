import TextureGraph.Module.Basic

/-!
# Constants and values supplied with the sample

Modules without inputs: a number, a color, one of the values that the surface supplies, or a
coordinate of the sample.
-/

namespace TextureGraph

/-- Modules without inputs. -/
inductive Source (α : Type) where
  /-- A number. -/
  | number (value : α)
  /-- A color. -/
  | color (value : Color α)
  /-- The value that the surface supplies under a number, or a default where it supplies none. -/
  | parameter (index : Nat) (default : α)
  /-- A coordinate of the sample. -/
  | coordinate (axis : Axis)

namespace Source

variable {α : Type} [Arith α]

/-- The largest number under which a surface supplies values. -/
def maxParameterIndex : Int := 63

/-- The sockets of a source. -/
def signature : Source α → Signature α
  | .number _ => .ofSockets "number" "Number" .values [] [.output "Value" .scalar]
  | .color _ => .ofSockets "color" "Color" .values [] [.output "Color" .color]
  | .parameter _ _ => .ofSockets "parameter" "Parameter" .values [] [.output "Value" .scalar]
  | .coordinate axis =>
    .ofSockets "coordinate" axis.label .coordinates [] [.output axis.label .scalar]

/-- How the number of a supplied value is shown: in 64 bits with a sign.  Numbers below `2^63` are
shown as they are; no surface supplies values under larger ones. -/
def shownIndex (index : Nat) : Int :=
  Int.bmod index UInt64.size

/-- The parameters of a source. -/
def parameters : Source α → List (Parameter α)
  | .number a => [.number "value" a]
  | .color c => [.color "color" c]
  | .parameter i a =>
    [.integer "index" (shownIndex i) 0 maxParameterIndex, .number "default" a]
  | .coordinate axis => [.choice "axis" (Axis.all.map Axis.label) axis.index]

/-- A source with a parameter changed. -/
def setParameter (m : Source α) (name : String) (v : ParameterValue α) :
    Except (ParameterError α) (Source α) :=
  match m, name with
  | .number _, "value" => return .number (← v.asNumber name)
  | .color _, "color" => return .color (← v.asColor name)
  | .parameter _ a, "index" =>
    return .parameter (← v.asInteger name 0 maxParameterIndex).toNat a
  | .parameter i _, "default" => return .parameter i (← v.asNumber name)
  | .coordinate axis, "axis" =>
    return .coordinate (Axis.all.getD (← v.asChoice name Axis.all.length) axis)
  | _, _ => .error (.unknown name)

/-- The number that a source yields; for a color, its brightness. -/
def value (m : Source α) (q : Query α) : α :=
  match m with
  | .number a => a
  | .color c => c.brightness
  | .parameter i a => q.footprint.parameters.getD i a
  | .coordinate axis => axis.value q

instance : TextureModule (Source α) α where
  signature := signature
  parameters := parameters
  setParameter := setParameter
  averageValue m _ _ q := m.value q
  colorValue m _ _ q :=
    match m with
    | .color c => c
    | _ => Color.gray (m.value q)
  valueError m _ _ q :=
    match m with
    | .coordinate axis => axis.error q
    | _ => 0.0
  valueGradient m _ _ _ :=
    match m with
    | .coordinate axis => axis.gradient
    | _ => Vec.zero

end Source

end TextureGraph
