import TextureGraph.Graph.History
import TextureGraph.Module.InPlace

/-!
# Graphs changed in place

`Graph.bind` and its like give the graph that an accepted change leads to.  The calls below work on the
graph that they are handed, step by step: what has been written when a call is turned down stays written.
In particular, a module that refuses the value of a parameter is in the graph as its own call has left
it, and the graph goes by the sockets that it knew before.
-/

namespace TextureGraph

/-- A call on a graph, which changes it in place and may be turned down on the way.  The graph then stays
as it is at this point. -/
abbrev GraphCall (M α : Type) := ExceptT (GraphError α) (StateM (Graph M α))

variable {M α β : Type}

namespace GraphCall

/-- Goes on with what is there, or is turned down. -/
def demand (found : Option β) (refusal : GraphError α) : GraphCall M α β :=
  match found with
  | some x => return x
  | none => throw refusal

/-- Finds a module. -/
def find (id : ModuleId) : GraphCall M α (Entry M α) := do
  let g ← get
  demand (g.entry? id) (.moduleNotFound id)

/-- Writes the slot of an input. -/
def writeSlot (id : ModuleId) (e : Entry M α) (input : Nat) (slot : Option Binding) :
    GraphCall M α Unit :=
  modify fun g => g.replaceEntry id { e with bindings := e.bindings.set input slot }

/-- Changes a module in place, and hands it on unless the change is refused.  The module is written back
either way. -/
def onModule (id : ModuleId) (e : Entry M α) (change : InPlace M α Unit) : GraphCall M α M := fun g =>
  let (answer, m) := change e.module
  ((answer.map fun _ => m).mapError .parameter, g.replaceEntry id { e with module := m })

end GraphCall

open GraphCall

namespace Graph

/-- Adds a module. -/
def addInPlace [TextureModule M α] (m : M) : GraphCall M α ModuleId := do
  let id : ModuleId := ⟨(← get).next⟩
  modify fun g => { g with next := g.next + 1 }
  modify fun g => { g with entries := g.entries ++ [(id, .ofModule m)] }
  return id

/-- Takes a module out, if it is there, and then every binding that reads it. -/
def removeInPlace (id : ModuleId) : GraphCall M α (Option M) := do
  let g ← get
  match g.entry? id with
  | none => return none
  | some e =>
    modify fun g => { g with entries := g.entries.filter (·.1 != id) }
    modify fun g => g.mapBindings fun e => e.bindings.map fun b => b.filter fun b => b.source != id
    return some e.module

/-- Changes a parameter of a module.  Unless this is refused, the graph goes by the sockets that the
module has then: it gets a slot for each of its inputs, and the bindings that no longer fit are taken
out of all modules. -/
def setParameterInPlace [Arith α] [TextureModule M α] [InPlaceModule M α] (id : ModuleId)
    (name : String) (v : ParameterValue α) : GraphCall M α Unit := do
  let e ← find id
  let m ← onModule id e (InPlaceModule.assign name v)
  let signature := TextureModule.signature m
  if signature == e.signature then return
  let count := signature.inputs.length
  let bindings := e.bindings.take count ++ List.replicate (count - e.bindings.length) none
  modify fun g => g.replaceEntry id { e with module := m, bindings }
  modify fun g => g.replaceEntry id { module := m, signature, bindings }
  modify dropStale

/-- Binds an input to an output. -/
def bindInPlace (id : ModuleId) (input : Nat) (b : Binding) : GraphCall M α Unit := do
  let source ← find b.source
  let outputKind ← demand (source.signature.outputKind? b.output)
    (.outputOutOfRange b.source b.output source.signature.outputs.length)
  let e ← find id
  let inputKind ← demand (e.signature.inputKind? input)
    (.inputOutOfRange id input e.signature.inputs.length)
  if outputKind.feeds inputKind then
    match e.binding? input with
    | some existing => throw (.alreadyBound id input existing)
    | none => writeSlot id e input (some b)
  else throw (.kindMismatch outputKind inputKind)

/-- Takes away the binding of an input, and yields it. -/
def unbindInPlace (id : ModuleId) (input : Nat) : GraphCall M α (Option Binding) := do
  let e ← find id
  if input < e.bindings.length then
    writeSlot id e input none
    return e.binding? input
  else throw (.inputOutOfRange id input e.bindings.length)

end Graph

variable [Arith α] [TextureModule M α] [InPlaceModule M α]

/-- The call that makes a change. -/
def Edit.call : Edit M α → GraphCall M α Unit
  | .add m => do let _ ← Graph.addInPlace m
  | .remove id => do let _ ← Graph.removeInPlace id
  | .setParameter id name v => Graph.setParameterInPlace id name v
  | .bind id input b => Graph.bindInPlace id input b
  | .unbind id input => do let _ ← Graph.unbindInPlace id input

/-- What calls leave of the empty graph of a given name, one after another, be they accepted or turned
down. -/
def Graph.afterCalls (name : String) (edits : List (Edit M α)) : Graph M α :=
  edits.foldl (fun g change => (change.call g).2) (empty name)

end TextureGraph
