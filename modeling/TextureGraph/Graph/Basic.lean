import TextureGraph.Module.Basic

/-!
# Graphs of modules

A graph holds modules in the order in which they were added.  Each input of a module is bound to at
most one output of a module; the binding is kept with the module that reads.

The names of modules are idealized: random identifiers, of which no two are assumed to be the same, are
numbers that each graph gives in turn.  What is logged about a graph is left out.
-/

namespace TextureGraph

/-- The name of a module within a graph.  Modules are numbered as they are added, and a number is
never given twice. -/
structure ModuleId where
  /-- The number. -/
  number : Nat
deriving DecidableEq, Repr, BEq, ReflBEq, LawfulBEq

/-- A module in messages. -/
def ModuleId.label (id : ModuleId) : String :=
  "m" ++ toString id.number

/-- What an input is bound to. -/
structure Binding where
  /-- The module that is read. -/
  source : ModuleId
  /-- The number of the output that is read. -/
  output : Nat
deriving DecidableEq, Repr

/-- An edge of a graph: an input of one module reads an output of another. -/
structure Link where
  /-- The end that is read. -/
  binding : Binding
  /-- The module that reads. -/
  reader : ModuleId
  /-- The number of the input that reads. -/
  input : Nat
deriving DecidableEq, Repr

/-- Whether a module is at one of the ends. -/
def Link.involves (l : Link) (id : ModuleId) : Bool :=
  l.binding.source == id || l.reader == id

/-- A module in a graph, with its sockets as the graph knows them and the bindings of its inputs. -/
structure Entry (M α : Type) where
  /-- The module. -/
  module : M
  /-- The sockets that the graph goes by. -/
  signature : Signature α
  /-- The binding of each input. -/
  bindings : List (Option Binding)

namespace Entry

variable {M α : Type}

/-- A module without any bindings. -/
def ofModule [TextureModule M α] (m : M) : Entry M α :=
  let signature := TextureModule.signature m
  { module := m, signature, bindings := List.replicate signature.inputs.length none }

/-- The binding of an input, if it has one. -/
def binding? (e : Entry M α) (input : Nat) : Option Binding :=
  e.bindings[input]?.join

/-- The modules that are read, in the order of the inputs. -/
def sources (e : Entry M α) : List ModuleId :=
  e.bindings.filterMap fun b => b.map Binding.source

/-- The edges that end at a module. -/
def links (id : ModuleId) (e : Entry M α) : List Link :=
  (e.bindings.mapIdx fun input b => b.map fun b => ⟨b, id, input⟩).filterMap fun l => l

end Entry

/-- A graph of modules. -/
structure Graph (M α : Type) where
  /-- The name of the graph. -/
  name : String
  /-- The modules, in the order in which they were added. -/
  entries : List (ModuleId × Entry M α) := []
  /-- The number of the next module. -/
  next : Nat := 0

namespace Graph

variable {M α : Type}

/-- The name of a graph that was given none. -/
def standardName : String :=
  "Untitled"

/-- A graph without modules. -/
def empty (name : String := standardName) : Graph M α :=
  { name }

/-- A module with its sockets and bindings. -/
def entry? (g : Graph M α) (id : ModuleId) : Option (Entry M α) :=
  g.entries.lookup id

/-- Whether a module is in the graph. -/
def contains (g : Graph M α) (id : ModuleId) : Bool :=
  (g.entry? id).isSome

/-- The modules in the order in which they were added. -/
def ids (g : Graph M α) : List ModuleId :=
  g.entries.map (·.1)

/-- The number of modules. -/
def size (g : Graph M α) : Nat :=
  g.entries.length

/-- The sockets of a module. -/
def signature? (g : Graph M α) (id : ModuleId) : Option (Signature α) :=
  (g.entry? id).map Entry.signature

/-- The kind of the output that a binding reads, if there is such an output. -/
def outputKind? (g : Graph M α) (b : Binding) : Option SocketKind := do
  (← g.signature? b.source).outputKind? b.output

/-- The binding of an input, if it has one. -/
def binding? (g : Graph M α) (id : ModuleId) (input : Nat) : Option Binding := do
  (← g.entry? id).binding? input

/-- The edges of the graph, by the order of the modules that read and of their inputs. -/
def links (g : Graph M α) : List Link :=
  g.entries.flatMap fun (id, e) => e.links id

/-- The edges at a module. -/
def linksFor (g : Graph M α) (id : ModuleId) : List Link :=
  g.links.filter (·.involves id)

/-- The modules that a module reads, in the order of its inputs. -/
def dependencies (g : Graph M α) (id : ModuleId) : List ModuleId :=
  ((g.entry? id).map Entry.sources).getD []

end Graph

end TextureGraph
