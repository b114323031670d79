import TextureGraph.Module.Basic
import TextureGraph.Pattern.Cells
import TextureGraph.Pattern.Wood

/-!
# Patterns as modules

Noise, turbulence, wood and cells.  Each reads a position from its first three inputs, so the error
of the position tells how fine a detail is still resolved.
-/

namespace TextureGraph

/-- How many octaves a fractal has, and the amplitude of the first. -/
structure Octaves (α : Type) where
  /-- The number of octaves. -/
  count : Nat
  /-- The amplitude of the first octave. -/
  amplitude : α
deriving Repr

/-- Modules that yield a pattern. -/
inductive Texture (α : Type) where
  /-- Noise around one half. -/
  | noise (octaves : Octaves α)
  /-- Absolute values of noise. -/
  | turbulence (octaves : Octaves α)
  /-- Rings at a given distance, bent by turbulence; with `fractionOnly` as a sawtooth. -/
  | wood (octaves : Octaves α) (spacing : α) (fractionOnly : Bool)
  /-- The values and distances of cells around feature points. -/
  | cells (metric : Metric)

namespace Octaves

variable {α : Type} [Arith α]

/-- The largest number of octaves. -/
def maxCount : Int := 16

/-- The parameters of a fractal. -/
def parameters (o : Octaves α) : List (Parameter α) :=
  [.integer "octaves" o.count 1 maxCount, .number "amplitude" o.amplitude]

/-- A fractal with a parameter changed. -/
def setParameter (o : Octaves α) (name : String) (v : ParameterValue α) :
    Except (ParameterError α) (Octaves α) :=
  match name with
  | "octaves" => return { o with count := (← v.asInteger name 1 maxCount).toNat }
  | "amplitude" => return { o with amplitude := ← v.asNumber name }
  | _ => .error (.unknown name)

/-- The octaves at the position that the first three inputs give; the fourth input is the
persistence. -/
def estimate (o : Octaves α) (mode : Pattern.Mode) (share : α) (inputs : Inputs α) (q : Query α) :
    Estimate α :=
  Pattern.fractal mode o.count (share * o.amplitude) (inputs.value 3 q) (inputs.position q)
    (inputs.positionError q)

end Octaves

namespace Texture

variable {α : Type} [Arith α]

/-- The sockets of a fractal. -/
private def fractalSignature (typeId name output : String) : Signature α :=
  .ofSockets typeId name .noise (Socket.position ++ [.scalar "Noise" 0.5]) [.output output .scalar]

/-- The sockets of a pattern. -/
def signature : Texture α → Signature α
  | .noise _ => fractalSignature "noise" "Noise" "Noise"
  | .turbulence _ => fractalSignature "turbulence" "Turbulence" "Turbulence"
  | .wood .. => fractalSignature "wood" "Wood" "Value"
  | .cells _ =>
    .ofSockets "cells" "Cells" .noise Socket.position
      [.output "Cell" .scalar, .output "Distance 1" .scalar, .output "Distance 2" .scalar]

/-- The parameters of a pattern. -/
def parameters : Texture α → List (Parameter α)
  | .noise o | .turbulence o => o.parameters
  | .wood o spacing fractionOnly =>
    o.parameters ++ [.positive "spacing" spacing, .toggle "fraction_only" fractionOnly]
  | .cells metric => [.choice "metric" (Metric.all.map Metric.label) metric.index]

/-- A pattern with a parameter changed. -/
def setParameter (m : Texture α) (name : String) (v : ParameterValue α) :
    Except (ParameterError α) (Texture α) :=
  match m, name with
  | .noise o, _ => return .noise (← o.setParameter name v)
  | .turbulence o, _ => return .turbulence (← o.setParameter name v)
  | .wood o _ fractionOnly, "spacing" => return .wood o (← v.asPositive name) fractionOnly
  | .wood o spacing _, "fraction_only" => return .wood o spacing (← v.asToggle name)
  | .wood o spacing fractionOnly, _ =>
    return .wood (← o.setParameter name v) spacing fractionOnly
  | .cells _, "metric" => return .cells (.ofIndex (← v.asChoice name Metric.all.length))
  | .cells _, _ => .error (.unknown name)

/-- The output with the value of the nearest cell. -/
def cellOutput : Nat := 0

/-- The output with the distance of the nearest feature point. -/
def firstDistanceOutput : Nat := 1

/-- The output with the distance of the second nearest feature point. -/
def secondDistanceOutput : Nat := 2

/-- The two nearest feature points around the position that the inputs give. -/
def nearest (metric : Metric) (inputs : Inputs α) (q : Query α) :
    Pattern.Feature α × Pattern.Feature α :=
  let (first, second) := Pattern.nearestTwo metric (inputs.position q)
  (Pattern.orFar first, Pattern.orFar second)

/-- The number that an output of `cells` yields. -/
def cellsValue (metric : Metric) (output : Nat) (inputs : Inputs α) (q : Query α) : α :=
  let (first, second) := nearest metric inputs q
  match output with
  | 0 => Pattern.cellValue first second (metric.spread (inputs.positionError q))
  | 1 => first.distance
  | 2 => second.distance
  | _ => 0.0

/-- The error of an output of `cells`. -/
def cellsError (metric : Metric) (output : Nat) (inputs : Inputs α) (q : Query α) : α :=
  let error := metric.spread (inputs.positionError q)
  if output = cellOutput then
    let (first, second) := nearest metric inputs q
    Pattern.cellError first second error
  else error

/-- The gradient of an output of `cells`. -/
def cellsGradient (metric : Metric) (output : Nat) (inputs : Inputs α) (q : Query α) : Vec α :=
  let (first, second) := nearest metric inputs q
  match output with
  | 1 => first.gradient.combine (inputs.positionGradients q)
  | 2 => second.gradient.combine (inputs.positionGradients q)
  | _ => Vec.zero

/-- What is known of wood at the position that the inputs give. -/
def woodEstimate (o : Octaves α) (spacing : α) (fractionOnly : Bool) (inputs : Inputs α)
    (q : Query α) : Estimate α :=
  Pattern.wood spacing fractionOnly (o.estimate .absolute 0.5 inputs q) (inputs.position q)
    (inputs.positionError q) (inputs.positionGradients q)

/-- The value of a pattern. -/
def value (output : Nat) (inputs : Inputs α) (q : Query α) : Texture α → α
  | .noise o => 0.5 + (o.estimate .signed 0.5 inputs q).value
  | .turbulence o => (o.estimate .absolute 1.0 inputs q).value
  | .wood o spacing fractionOnly => (woodEstimate o spacing fractionOnly inputs q).value
  | .cells metric => cellsValue metric output inputs q

/-- The error of a pattern. -/
def error (output : Nat) (inputs : Inputs α) (q : Query α) : Texture α → α
  | .noise o => (o.estimate .signed 0.5 inputs q).error
  | .turbulence o => (o.estimate .absolute 1.0 inputs q).error
  | .wood o spacing fractionOnly => (woodEstimate o spacing fractionOnly inputs q).error
  | .cells metric => cellsError metric output inputs q

/-- The gradient of a pattern. -/
def gradient (output : Nat) (inputs : Inputs α) (q : Query α) : Texture α → Vec α
  | .noise o => (o.estimate .signed 0.5 inputs q).gradient.combine (inputs.positionGradients q)
  | .turbulence o =>
    (o.estimate .absolute 1.0 inputs q).gradient.combine (inputs.positionGradients q)
  | .wood o spacing fractionOnly => (woodEstimate o spacing fractionOnly inputs q).gradient
  | .cells metric => cellsGradient metric output inputs q

instance : TextureModule (Texture α) α :=
  .ofNumbers signature parameters setParameter (fun m output inputs q => m.value output inputs q)
    (fun m output inputs q => m.error output inputs q)
    (fun m output inputs q => m.gradient output inputs q)

end Texture

end TextureGraph
