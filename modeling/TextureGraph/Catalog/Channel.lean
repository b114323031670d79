import TextureGraph.Module.Basic

/-!
# Channels

A channel is a named result of the graph, such as the diffuse color of a surface.  It passes its
single input on.
-/

namespace TextureGraph

/-- What a channel yields while nothing is bound to it; this also fixes the kind of the channel. -/
inductive ChannelValue (α : Type) where
  /-- The channel carries numbers. -/
  | scalar (value : α)
  /-- The channel carries colors. -/
  | color (value : Color α)

/-- A named result of the graph. -/
structure Channel (α : Type) where
  /-- The name of the channel. -/
  name : String
  /-- What it yields while nothing is bound to it. -/
  unbound : ChannelValue α

namespace ChannelValue

variable {α : Type}

/-- The kind of values of a channel. -/
def kind : ChannelValue α → SocketKind
  | .scalar _ => .scalar
  | .color _ => .color

/-- The fallback of a channel's input. -/
def fallback : ChannelValue α → Fallback α
  | .scalar a => .scalar a
  | .color c => .color c

end ChannelValue

namespace Channel

variable {α : Type} [Arith α]

/-- A channel of numbers. -/
def scalar (name : String) (value : α) : Channel α :=
  ⟨name, .scalar value⟩

/-- A channel of colors. -/
def color (name : String) (value : Color α) : Channel α :=
  ⟨name, .color value⟩

/-- The channel of a graph with a single result. -/
def standard : Channel α :=
  scalar "Output" 0.0

/-- The channels of a surface's texture. -/
def texture : List (Channel α) :=
  [color "Diffuse" Color.white, color "Specular" Color.white, color "Transparent" Color.white,
    color "Emissive" Color.black]
  ++ ["Transparency", "Specularity", "Shininess", "Roughness", "Cloudiness", "BumpHeight",
    "Displacement"].map (scalar · 0.0)

/-- The kinds of channels, as options of the parameter that selects one. -/
def kinds : List String :=
  ["Number", "Color"]

/-- The sockets of a channel. -/
def signature (c : Channel α) : Signature α :=
  .ofSockets "output" c.name .output
    [{ (.input "Value" c.unbound.kind : Socket α) with fallback := c.unbound.fallback }]
    [.output "Result" c.unbound.kind]

/-- The parameters of a channel. -/
def parameters (c : Channel α) : List (Parameter α) :=
  match c.unbound with
  | .scalar a => [.choice "kind" kinds 0, .number "default" a]
  | .color d => [.choice "kind" kinds 1, .color "default" d]

/-- A channel with a parameter changed.  When the kind changes, a number turns into a gray and a
color into its brightness. -/
def setParameter (c : Channel α) (name : String) (v : ParameterValue α) :
    Except (ParameterError α) (Channel α) :=
  match name with
  | "kind" => do
    match ← v.asChoice name kinds.length, c.unbound with
    | 0, .color d => return { c with unbound := .scalar d.brightness }
    | 1, .scalar a => return { c with unbound := .color (Color.gray a) }
    | _, _ => return c
  | "default" =>
    match c.unbound with
    | .scalar _ => return { c with unbound := .scalar (← v.asNumber name) }
    | .color _ => return { c with unbound := .color (← v.asColor name) }
  | _ => .error (.unknown name)

instance : TextureModule (Channel α) α where
  signature := signature
  parameters := parameters
  setParameter := setParameter
  averageValue _ _ inputs q := inputs.value 0 q
  colorValue _ _ inputs q := inputs.color 0 q
  valueError _ _ inputs q := inputs.error 0 q
  valueGradient _ _ inputs q := inputs.gradient 0 q

end Channel

end TextureGraph
