import TextureGraph.Catalog.InPlace

/-!
# Histories of maps

The maps that a caller can have in hand: a map that has just been made, changed again and again.  Every
call changes the map in place; after one that is refused, the caller goes on with what it has left.
-/

namespace TextureGraph

/-- What calls leave of an object, one after another, be they accepted or refused. -/
def InPlace.after {κ σ α : Type} (run : κ → InPlace σ α Unit) (m : σ) (calls : List κ) : σ :=
  calls.foldl (fun m call => (run call m).2) m

variable {α : Type} [Arith α]

/-! ### Transforms -/

namespace Transform

/-- What a caller may do to a transform. -/
inductive Call (α : Type) where
  /-- Have the inverse map applied. -/
  | invert
  /-- Have the matrix inverted in another way. -/
  | useSolver (solver : LinearSolver α)
  /-- Change a parameter. -/
  | setParameter (name : String) (value : ParameterValue α)

/-- Changes a transform as a call says. -/
def Call.run : Call α → InPlace (Transform α) α Unit
  | .invert => do
    modify fun t => { t with inverse := true }
    modify solve
  | .useSolver solver => do
    modify fun t => { t with solver }
    modify solve
  | .setParameter name v => assign name v

/-- The transform `matrix * p + offset` after some calls. -/
def ofCalls (matrix : Mat α) (offset : Vec α) (calls : List (Call α)) : Transform α :=
  InPlace.after Call.run (ofMatrix matrix offset) calls

end Transform

/-! ### Triangles -/

namespace Triangle

/-- What a caller may do to a triangle. -/
inductive Call (α : Type) where
  /-- Have the frame inverted in another way. -/
  | useSolver (solver : LinearSolver α)
  /-- Change a parameter. -/
  | setParameter (name : String) (value : ParameterValue α)

/-- Changes a triangle as a call says. -/
def Call.run : Call α → InPlace (Triangle α) α Unit
  | .useSolver solver => do
    modify fun t => { t with solver }
    modify solve
  | .setParameter name v => assign name v

/-- The triangle with the given corners after some calls. -/
def ofCalls (a b c : Vec α) (calls : List (Call α)) : Triangle α :=
  InPlace.after Call.run (ofCorners a b c) calls

end Triangle

/-! ### Maps -/

/-- The maps that a caller can have in hand. -/
inductive Mapping.IsMade : Mapping α → Prop where
  | transform (matrix : Mat α) (offset : Vec α) (calls : List (Transform.Call α)) :
    IsMade (.transform (.ofCalls matrix offset calls))
  | barycentric (a b c : Vec α) (calls : List (Triangle.Call α)) :
    IsMade (.barycentric (.ofCalls a b c calls))

end TextureGraph
