import TextureGraph.Graph.Error

/-!
# Changes to graphs

Each operation yields the graph that an accepted change leads to, or says why the change is turned down.
What a change that is turned down leaves of a graph is said of the calls in place
(`Graph.bindInPlace` and its like), which these operations agree with where the changes of the modules are
made as a whole or not at all.
-/

namespace TextureGraph.Graph

variable {M α : Type}

/-- The graph with one entry replaced. -/
def replaceEntry (g : Graph M α) (id : ModuleId) (e : Entry M α) : Graph M α :=
  { g with entries := g.entries.map fun (i, old) => (i, if i == id then e else old) }

/-- The graph with the bindings of every module changed. -/
def mapBindings (g : Graph M α) (f : Entry M α → List (Option Binding)) : Graph M α :=
  { g with entries := g.entries.map fun (i, e) => (i, { e with bindings := f e }) }

/-- Adds a module. -/
def add [TextureModule M α] (g : Graph M α) (m : M) : ModuleId × Graph M α :=
  let id : ModuleId := ⟨g.next⟩
  (id, { g with entries := g.entries ++ [(id, .ofModule m)], next := g.next + 1 })

/-- Takes a module out, with every binding that reads it. -/
def remove (g : Graph M α) (id : ModuleId) : Option (M × Graph M α) := do
  let e ← g.entry? id
  let rest : Graph M α := { g with entries := g.entries.filter (·.1 != id) }
  return (e.module, rest.mapBindings fun e =>
    e.bindings.map fun b => b.filter fun b => b.source != id)

/-- Whether a binding fits an input of a module: there is such an output, and its kind feeds the
input. -/
def fits (g : Graph M α) (e : Entry M α) (input : Nat) (b : Binding) : Bool :=
  match g.outputKind? b, e.signature.inputKind? input with
  | some output, some input => output.feeds input
  | _, _ => false

/-- Takes out the bindings that do not fit. -/
def dropStale (g : Graph M α) : Graph M α :=
  g.mapBindings fun e => e.bindings.mapIdx fun input b => b.filter (g.fits e input)

/-- Changes a parameter of a module.  When this changes the sockets of the module, the bindings that
no longer fit are taken out. -/
def setParameter [Arith α] [TextureModule M α] (g : Graph M α) (id : ModuleId) (name : String)
    (v : ParameterValue α) : Except (GraphError α) (Graph M α) := do
  match g.entry? id with
  | none => .error (.moduleNotFound id)
  | some e =>
    let m ← (TextureModule.setParameter e.module name v).mapError .parameter
    let signature := TextureModule.signature m
    if signature == e.signature then return g.replaceEntry id { e with module := m }
    else
      let count := signature.inputs.length
      let bindings := e.bindings.take count ++ List.replicate (count - e.bindings.length) none
      return (g.replaceEntry id { module := m, signature, bindings }).dropStale

/-- Binds an input to an output. -/
def bind (g : Graph M α) (id : ModuleId) (input : Nat) (b : Binding) :
    Except (GraphError α) (Graph M α) :=
  match g.entry? b.source with
  | none => .error (.moduleNotFound b.source)
  | some source =>
    match source.signature.outputKind? b.output with
    | none => .error (.outputOutOfRange b.source b.output source.signature.outputs.length)
    | some outputKind =>
      match g.entry? id with
      | none => .error (.moduleNotFound id)
      | some e =>
        match e.signature.inputKind? input with
        | none => .error (.inputOutOfRange id input e.signature.inputs.length)
        | some inputKind =>
          if outputKind.feeds inputKind then
            match e.binding? input with
            | some existing => .error (.alreadyBound id input existing)
            | none =>
              .ok (g.replaceEntry id { e with bindings := e.bindings.set input (some b) })
          else .error (.kindMismatch outputKind inputKind)

/-- Takes away the binding of an input, and yields it. -/
def unbind (g : Graph M α) (id : ModuleId) (input : Nat) :
    Except (GraphError α) (Option Binding × Graph M α) :=
  match g.entry? id with
  | none => .error (.moduleNotFound id)
  | some e =>
    if input < e.bindings.length then
      .ok (e.binding? input, g.replaceEntry id { e with bindings := e.bindings.set input none })
    else .error (.inputOutOfRange id input e.bindings.length)

end TextureGraph.Graph
