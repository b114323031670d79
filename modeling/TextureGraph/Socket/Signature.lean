import TextureGraph.Socket.Basic

/-!
# Signatures

The signature of a module lists its sockets and names its type.
-/

namespace TextureGraph

/-- The groups in which module types are presented. -/
inductive Category where
  /-- Constants and values supplied with the sample. -/
  | values
  /-- Coordinates of the sample. -/
  | coordinates
  /-- Arithmetic on numbers. -/
  | operators
  /-- Functions of one number, interpolation, blur. -/
  | functions
  /-- Tests for equality. -/
  | comparison
  /-- Composition of colors. -/
  | color
  /-- Patterns. -/
  | noise
  /-- Changes of the position. -/
  | geometry
  /-- What the renderer reads. -/
  | output
deriving DecidableEq, Repr, BEq

/-- The heading of a group. -/
def Category.label : Category → String
  | .values => "Values"
  | .coordinates => "Coordinates"
  | .operators => "Operators"
  | .functions => "Functions"
  | .comparison => "Comparison"
  | .color => "Color Functions"
  | .noise => "Patterns"
  | .geometry => "Geometry"
  | .output => "Output"

/-- The sockets and names of a module. -/
structure Signature (α : Type) where
  /-- The name of the module's type in the registry. -/
  typeId : String
  /-- The name shown for the module. -/
  name : String
  /-- The group it belongs to. -/
  category : Category
  /-- The inputs, in the order of their numbers. -/
  inputs : List (Socket α)
  /-- The outputs, in the order of their numbers. -/
  outputs : List (Socket α)
deriving BEq, Repr

namespace Signature

variable {α : Type}

/-- All sockets, the inputs first. -/
def sockets (s : Signature α) : List (Socket α) :=
  s.inputs ++ s.outputs

/-- The kind of an input, if there is such an input. -/
def inputKind? (s : Signature α) (input : Nat) : Option SocketKind :=
  s.inputs[input]?.map Socket.kind

/-- The kind of an output, if there is such an output. -/
def outputKind? (s : Signature α) (output : Nat) : Option SocketKind :=
  s.outputs[output]?.map Socket.kind

/-- What an input yields while nothing is bound to it; zero for an input that does not exist. -/
def fallback [Arith α] (s : Signature α) (input : Nat) : Fallback α :=
  (s.inputs[input]?.map Socket.fallback).getD (.scalar 0.0)

/-- A signature whose sockets are numbered in the given order. -/
def ofSockets [Arith α] (typeId name : String) (category : Category)
    (inputs outputs : List (Socket α)) : Signature α :=
  { typeId, name, category, inputs := Socket.number inputs, outputs := Socket.number outputs }

end Signature

end TextureGraph
