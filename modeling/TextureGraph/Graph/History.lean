import TextureGraph.Graph.Edit

/-!
# Histories of graphs

The graphs that a caller can have in hand: an empty graph, changed again and again.
-/

namespace TextureGraph

/-- A change that a caller may ask for. -/
inductive Edit (M α : Type) where
  /-- Add a module. -/
  | add (module : M)
  /-- Take a module out. -/
  | remove (module : ModuleId)
  /-- Change a parameter of a module. -/
  | setParameter (module : ModuleId) (name : String) (value : ParameterValue α)
  /-- Bind an input of a module. -/
  | bind (module : ModuleId) (input : Nat) (binding : Binding)
  /-- Take away the binding of an input. -/
  | unbind (module : ModuleId) (input : Nat)

namespace Graph

variable {M α : Type} [Arith α] [TextureModule M α]

/-- The graph after a change.  A change that is refused leaves the graph as it is, as the call in place
does where the changes of the modules are made as a whole or not at all. -/
def edit (g : Graph M α) : Edit M α → Graph M α
  | .add m => (g.add m).2
  | .remove id =>
    match g.remove id with
    | some (_, changed) => changed
    | none => g
  | .setParameter id name v =>
    match g.setParameter id name v with
    | .ok changed => changed
    | .error _ => g
  | .bind id input b =>
    match g.bind id input b with
    | .ok changed => changed
    | .error _ => g
  | .unbind id input =>
    match g.unbind id input with
    | .ok (_, changed) => changed
    | .error _ => g

/-- The graph of a given name after some changes, one after another. -/
def ofEdits (name : String) (edits : List (Edit M α)) : Graph M α :=
  edits.foldl edit (empty name)

end Graph

end TextureGraph
