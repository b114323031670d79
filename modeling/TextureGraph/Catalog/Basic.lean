import TextureGraph.Catalog.Channel
import TextureGraph.Catalog.Composition
import TextureGraph.Catalog.Formula
import TextureGraph.Catalog.Mapping
import TextureGraph.Catalog.Matching
import TextureGraph.Catalog.Operator
import TextureGraph.Catalog.Shaping
import TextureGraph.Catalog.Source
import TextureGraph.Catalog.Texture

/-!
# The catalog of modules

`Catalog α` is the type of all modules that the library offers, and `Catalog.registry` lists one of
each type in its initial configuration.
-/

namespace TextureGraph

/-- The modules of the catalog. -/
inductive Catalog (α : Type) where
  /-- A constant or a value supplied with the sample. -/
  | source (m : Source α)
  /-- A named result. -/
  | channel (m : Channel α)
  /-- Arithmetic on two numbers. -/
  | operator (m : Operator)
  /-- A function of one number, a mix, a blur. -/
  | shaping (m : Shaping)
  /-- An expression. -/
  | expression (m : Expression α)
  /-- A test for equality. -/
  | matching (m : Matching α)
  /-- A composition of colors. -/
  | composition (m : Composition)
  /-- A pattern. -/
  | texture (m : Texture α)
  /-- A map of the position. -/
  | mapping (m : Mapping α)

namespace Catalog

variable {α : Type} [Arith α]

/-- The sockets and names of a module. -/
def signature : Catalog α → Signature α
  | .source m => TextureModule.signature m
  | .channel m => TextureModule.signature m
  | .operator m => TextureModule.signature m
  | .shaping m => TextureModule.signature m
  | .expression m => TextureModule.signature m
  | .matching m => TextureModule.signature m
  | .composition m => TextureModule.signature m
  | .texture m => TextureModule.signature m
  | .mapping m => TextureModule.signature m

/-- The parameters of a module. -/
def parameters : Catalog α → List (Parameter α)
  | .source m => TextureModule.parameters m
  | .channel m => TextureModule.parameters m
  | .operator m => TextureModule.parameters m
  | .shaping m => TextureModule.parameters m
  | .expression m => TextureModule.parameters m
  | .matching m => TextureModule.parameters m
  | .composition m => TextureModule.parameters m
  | .texture m => TextureModule.parameters m
  | .mapping m => TextureModule.parameters m

/-- A module with a parameter changed. -/
def setParameter (m : Catalog α) (name : String) (v : ParameterValue α) :
    Except (ParameterError α) (Catalog α) :=
  match m with
  | .source m => return .source (← TextureModule.setParameter m name v)
  | .channel m => return .channel (← TextureModule.setParameter m name v)
  | .operator m => return .operator (← TextureModule.setParameter m name v)
  | .shaping m => return .shaping (← TextureModule.setParameter m name v)
  | .expression m => return .expression (← TextureModule.setParameter m name v)
  | .matching m => return .matching (← TextureModule.setParameter m name v)
  | .composition m => return .composition (← TextureModule.setParameter m name v)
  | .texture m => return .texture (← TextureModule.setParameter m name v)
  | .mapping m => return .mapping (← TextureModule.setParameter m name v)

/-- The mean of an output. -/
def averageValue (m : Catalog α) (output : Nat) (inputs : Inputs α) (q : Query α) : α :=
  match m with
  | .source m => TextureModule.averageValue m output inputs q
  | .channel m => TextureModule.averageValue m output inputs q
  | .operator m => TextureModule.averageValue m output inputs q
  | .shaping m => TextureModule.averageValue m output inputs q
  | .expression m => TextureModule.averageValue m output inputs q
  | .matching m => TextureModule.averageValue m output inputs q
  | .composition m => TextureModule.averageValue m output inputs q
  | .texture m => TextureModule.averageValue m output inputs q
  | .mapping m => TextureModule.averageValue m output inputs q

/-- The mean of an output as a color. -/
def colorValue (m : Catalog α) (output : Nat) (inputs : Inputs α) (q : Query α) : Color α :=
  match m with
  | .source m => TextureModule.colorValue m output inputs q
  | .channel m => TextureModule.colorValue m output inputs q
  | .operator m => TextureModule.colorValue m output inputs q
  | .shaping m => TextureModule.colorValue m output inputs q
  | .expression m => TextureModule.colorValue m output inputs q
  | .matching m => TextureModule.colorValue m output inputs q
  | .composition m => TextureModule.colorValue m output inputs q
  | .texture m => TextureModule.colorValue m output inputs q
  | .mapping m => TextureModule.colorValue m output inputs q

/-- The error of an output. -/
def valueError (m : Catalog α) (output : Nat) (inputs : Inputs α) (q : Query α) : α :=
  match m with
  | .source m => TextureModule.valueError m output inputs q
  | .channel m => TextureModule.valueError m output inputs q
  | .operator m => TextureModule.valueError m output inputs q
  | .shaping m => TextureModule.valueError m output inputs q
  | .expression m => TextureModule.valueError m output inputs q
  | .matching m => TextureModule.valueError m output inputs q
  | .composition m => TextureModule.valueError m output inputs q
  | .texture m => TextureModule.valueError m output inputs q
  | .mapping m => TextureModule.valueError m output inputs q

/-- The gradient of an output. -/
def valueGradient (m : Catalog α) (output : Nat) (inputs : Inputs α) (q : Query α) : Vec α :=
  match m with
  | .source m => TextureModule.valueGradient m output inputs q
  | .channel m => TextureModule.valueGradient m output inputs q
  | .operator m => TextureModule.valueGradient m output inputs q
  | .shaping m => TextureModule.valueGradient m output inputs q
  | .expression m => TextureModule.valueGradient m output inputs q
  | .matching m => TextureModule.valueGradient m output inputs q
  | .composition m => TextureModule.valueGradient m output inputs q
  | .texture m => TextureModule.valueGradient m output inputs q
  | .mapping m => TextureModule.valueGradient m output inputs q

instance : TextureModule (Catalog α) α where
  signature := signature
  parameters := parameters
  setParameter := setParameter
  averageValue := averageValue
  colorValue := colorValue
  valueError := valueError
  valueGradient := valueGradient

/-! ### The registry -/

/-- One module of each type in its initial configuration, in the order of presentation. -/
def registry : List (Catalog α) :=
  [ .source (.number 0.0), .source (.color Color.white), .source (.parameter 0 0.0),
    .source (.coordinate .x), .channel .standard,
    .operator .sum, .operator .difference, .operator .product, .operator .ratio,
    .operator .power, .operator .min, .operator .max,
    .shaping .abs, .shaping .exp, .shaping .sine, .shaping .cosine, .shaping .interpolate,
    .shaping .blur, .shaping .tap, .expression .standard,
    .matching .select, .matching (.numbers Matching.standardTolerance), .matching .colors,
    .composition .sum, .composition .difference, .composition .product, .composition .scale,
    .composition .blend, .composition .darker, .composition .lighter, .composition .ofHsv,
    .composition .ofRgb, .composition .toHsv,
    .texture (.noise ⟨1, 1.0⟩), .texture (.turbulence ⟨1, 1.0⟩),
    .texture (.wood ⟨2, 1.0⟩ 0.25 true), .texture (.cells .euclidean),
    .mapping (.transform .standard), .mapping (.barycentric .standard) ]

/-- The module of a type in its initial configuration. -/
def ofType? (typeId : String) : Option (Catalog α) :=
  registry.find? fun m => m.signature.typeId == typeId

/-- The modules of a group. -/
def inCategory (category : Category) : List (Catalog α) :=
  registry.filter fun m => m.signature.category == category

end Catalog

end TextureGraph
