import TextureGraph.Color.Basic
import TextureGraph.Number.Decimal
import TextureGraph.Sample.Footprint

/-!
# Sockets

Values enter and leave a module through sockets.  A socket has a kind, and an input socket a
fallback that it yields while nothing is bound to it.
-/

namespace TextureGraph

/-- The kind of value that flows through a socket. -/
inductive SocketKind where
  /-- A number. -/
  | scalar
  /-- A color. -/
  | color
  /-- A truth value, one for true and zero for false. -/
  | boolean
deriving DecidableEq, Repr, BEq

namespace SocketKind

/-- The name of a kind in messages. -/
def label : SocketKind → String
  | .scalar => "scalar"
  | .color => "color"
  | .boolean => "boolean"

/-- Whether an output of kind `output` may be bound to an input of kind `input`.  Numbers and truth
values stand for each other and widen to grays; a color stands only for a color. -/
def feeds (output input : SocketKind) : Bool :=
  match output with
  | .color => input == .color
  | .scalar | .boolean => true

end SocketKind

/-- What an input yields while nothing is bound to it. -/
inductive Fallback (α : Type) where
  /-- A number. -/
  | scalar (value : α)
  /-- A truth value. -/
  | boolean (value : Bool)
  /-- A color. -/
  | color (value : Color α)
  /-- A coordinate of the sample being evaluated. -/
  | coordinate (axis : Axis)
deriving BEq, Repr

namespace Fallback

section Generic

variable {α : Type}

/-- Whether a fallback gives values of a kind. -/
def fits (f : Fallback α) (kind : SocketKind) : Bool :=
  match f with
  | .color _ => kind == .color
  | _ => kind != .color

variable [Arith α]

/-- Zero, false or black. -/
def zero : SocketKind → Fallback α
  | .scalar => .scalar 0.0
  | .boolean => .boolean false
  | .color => .color Color.black

/-- The fallback as a number; a color gives its brightness. -/
def value (f : Fallback α) (q : Query α) : α :=
  match f with
  | .scalar a => a
  | .boolean b => Arith.ofBool b
  | .color c => c.brightness
  | .coordinate axis => axis.value q

/-- The fallback as a color; numbers give grays. -/
def toColor (f : Fallback α) (q : Query α) : Color α :=
  match f with
  | .color c => c
  | _ => Color.gray (f.value q)

/-- How far the fallback varies across the footprint. -/
def error (f : Fallback α) (q : Query α) : α :=
  match f with
  | .coordinate axis => axis.error q
  | _ => 0.0

/-- The gradient of the fallback in space. -/
def gradient (f : Fallback α) : Vec α :=
  match f with
  | .coordinate axis => axis.gradient
  | _ => Vec.zero

end Generic

/-- The fallback in parentheses; black and white by name. -/
def label : Fallback Float → String
  | .scalar a => "(" ++ Decimal.text a ++ ")"
  | .boolean b => if b then "(true)" else "(false)"
  | .color c =>
    if c == Color.black then "(black)"
    else if c == Color.white then "(white)"
    else "(" ++ ", ".intercalate (c.channels.map Decimal.text) ++ ")"
  | .coordinate axis => "(" ++ axis.label ++ ")"

end Fallback

/-- Whether values enter or leave the module through a socket. -/
inductive Direction where
  /-- Values enter. -/
  | input
  /-- Values leave. -/
  | output
deriving DecidableEq, Repr, BEq

/-- A socket of a module. -/
structure Socket (α : Type) where
  /-- The place in the module's list of inputs or of outputs. -/
  index : Nat := 0
  /-- The name shown for the socket. -/
  name : String
  /-- Whether values enter or leave. -/
  direction : Direction
  /-- The kind of values. -/
  kind : SocketKind
  /-- What an input yields while nothing is bound to it; zero for an output. -/
  fallback : Fallback α
deriving BEq, Repr

namespace Socket

section Generic

variable {α : Type} [Arith α]

/-- An input with the zero fallback of its kind. -/
def input (name : String) (kind : SocketKind) : Socket α :=
  { name, direction := .input, kind, fallback := .zero kind }

/-- An output. -/
def output (name : String) (kind : SocketKind) : Socket α :=
  { name, direction := .output, kind, fallback := .zero kind }

/-- A number input with a constant fallback. -/
def scalar (name : String) (value : α) : Socket α :=
  { (input name .scalar : Socket α) with fallback := .scalar value }

/-- A color input with a constant fallback. -/
def color (name : String) (value : Color α) : Socket α :=
  { (input name .color : Socket α) with fallback := .color value }

/-- A number input that falls back to a coordinate of the sample. -/
def coordinate (axis : Axis) : Socket α :=
  { (input axis.label .scalar : Socket α) with fallback := .coordinate axis }

/-- Inputs for the three coordinates of a position. -/
def position : List (Socket α) :=
  [coordinate .x, coordinate .y, coordinate .z]

/-- Sockets numbered by their place. -/
def number (sockets : List (Socket α)) : List (Socket α) :=
  sockets.mapIdx fun i p => { p with index := i }

end Generic

/-- The name of the socket; for an input, followed by its fallback. -/
def description (p : Socket Float) : String :=
  match p.direction with
  | .input => p.name ++ " " ++ p.fallback.label
  | .output => p.name

end Socket

end TextureGraph
