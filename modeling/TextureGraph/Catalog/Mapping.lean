import TextureGraph.Module.Basic
import TextureGraph.Space.LinearSystem

/-!
# Affine maps of the position

Each output is an affine function of the position that the first three inputs give, so its error and
gradient follow from its coefficients.  The coefficients are found by solving linear systems when a
module is configured, and kept in it.
-/

namespace TextureGraph

/-- An affine function of a position. -/
structure AffineForm (α : Type) where
  /-- The coefficients of the coordinates. -/
  coefficients : Vec α
  /-- The value at the origin. -/
  offset : α
deriving Repr

namespace AffineForm

variable {α : Type} [Arith α]

/-- The function that is zero everywhere. -/
def zero : AffineForm α :=
  ⟨Vec.zero, 0.0⟩

/-- The value at the position that the inputs give. -/
def value (f : AffineForm α) (inputs : Inputs α) (q : Query α) : α :=
  f.coefficients.dot (inputs.position q) + f.offset

/-- The largest change of the function within the errors of the position. -/
def error (f : AffineForm α) (inputs : Inputs α) (q : Query α) : α :=
  f.coefficients.abs.dot (inputs.positionError q)

/-- The gradient of the function in space. -/
def gradient (f : AffineForm α) (inputs : Inputs α) (q : Query α) : Vec α :=
  f.coefficients.combine (inputs.positionGradients q)

end AffineForm

/-! ### Transforms -/

/-- An affine transform `matrix * p + offset` of the position, or its inverse. -/
structure Transform (α : Type) where
  /-- The linear part. -/
  matrix : Mat α
  /-- The offset. -/
  offset : Vec α
  /-- Whether the inverse map is applied. -/
  inverse : Bool
  /-- How the matrix is inverted. -/
  solver : LinearSolver α
  /-- The coordinates of the image, one form each. -/
  rows : Vector (AffineForm α) 3

namespace Transform

variable {α : Type} [Arith α]

/-- The coordinates of the image of a position.  The inverse of a singular matrix takes everything
to the origin. -/
def solveRows (matrix : Mat α) (offset : Vec α) (inverse : Bool) (solver : LinearSolver α) :
    Vector (AffineForm α) 3 :=
  if inverse then
    match solver.invert matrix with
    | some m => #v[m.rows.x, m.rows.y, m.rows.z].map fun row => ⟨row, -(row.dot offset)⟩
    | none => .replicate 3 .zero
  else #v[⟨matrix.rows.x, offset.x⟩, ⟨matrix.rows.y, offset.y⟩, ⟨matrix.rows.z, offset.z⟩]

/-- A transform with its rows. -/
def solved (matrix : Mat α) (offset : Vec α) (inverse : Bool) (solver : LinearSolver α) :
    Transform α :=
  { matrix, offset, inverse, solver, rows := solveRows matrix offset inverse solver }

/-- The transform `matrix * p + offset`. -/
def ofMatrix (matrix : Mat α) (offset : Vec α) : Transform α :=
  solved matrix offset false .standard

/-- The inverse of the map with the same matrix and offset. -/
def inverted (t : Transform α) : Transform α :=
  solved t.matrix t.offset true t.solver

/-- The transform with another way of inverting its matrix. -/
def withSolver (t : Transform α) (solver : LinearSolver α) : Transform α :=
  solved t.matrix t.offset t.inverse solver

/-- The transform that changes nothing. -/
def standard : Transform α :=
  ofMatrix .identity Vec.zero

/-- The names of the entries of the matrix, row by row. -/
def entryNames : List String :=
  ["m11", "m12", "m13", "m21", "m22", "m23", "m31", "m32", "m33"]

/-- The names of the components of the offset. -/
def offsetNames : List String :=
  ["dx", "dy", "dz"]

/-- The parameters of a transform. -/
def parameters (t : Transform α) : List (Parameter α) :=
  List.zipWith .number entryNames t.matrix.entries
    ++ List.zipWith .number offsetNames t.offset.toList
    ++ [.toggle "inverse" t.inverse]

/-- A transform with a parameter changed. -/
def setParameter (t : Transform α) (name : String) (v : ParameterValue α) :
    Except (ParameterError α) (Transform α) :=
  if name = "inverse" then return solved t.matrix t.offset (← v.asToggle name) t.solver
  else
    match entryNames.idxOf? name, offsetNames.idxOf? name with
    | some i, _ =>
      return solved (t.matrix.setEntry (i / 3) (i % 3) (← v.asNumber name)) t.offset t.inverse
        t.solver
    | none, some i =>
      return solved t.matrix (t.offset.setComponent i (← v.asNumber name)) t.inverse t.solver
    | none, none => .error (.unknown name)

end Transform

/-! ### Triangles -/

/-- The weights of a position with respect to the corners of a triangle, and its distance from the
triangle's plane. -/
structure Triangle (α : Type) where
  /-- The corners. -/
  corners : Vec (Vec α)
  /-- How the frame of the triangle is inverted. -/
  solver : LinearSolver α
  /-- The weights of the three corners and the distance, one form each. -/
  rows : Vector (AffineForm α) 4

namespace Triangle

variable {α : Type} [Arith α]

/-- The weights of the corners and the distance from the plane.  They are zero for a triangle
without an area.  The distance is positive on the side to which the edges turn counterclockwise. -/
def solveRows (corners : Vec (Vec α)) (solver : LinearSolver α) : Vector (AffineForm α) 4 :=
  let a := corners.x
  let first := corners.y - a
  let second := corners.z - a
  let normal := first.cross second
  let length := normal.length
  if length == 0.0 || !Arith.isFinite length then .replicate 4 .zero
  else
    match solver.invert (.ofColumns first second (normal.scale (1.0 / length))) with
    | none => .replicate 4 .zero
    | some m =>
      let form (constant : α) (row : Vec α) : AffineForm α := ⟨row, constant - row.dot a⟩
      #v[form 1.0 (-(m.rows.x + m.rows.y)), form 0.0 m.rows.x, form 0.0 m.rows.y,
        form 0.0 m.rows.z]

/-- A triangle with its rows. -/
def solved (corners : Vec (Vec α)) (solver : LinearSolver α) : Triangle α :=
  { corners, solver, rows := solveRows corners solver }

/-- The triangle with the given corners. -/
def ofCorners (a b c : Vec α) : Triangle α :=
  solved ⟨a, b, c⟩ .standard

/-- The triangle with another way of inverting its frame. -/
def withSolver (t : Triangle α) (solver : LinearSolver α) : Triangle α :=
  solved t.corners solver

/-- The triangle between the origin and the ends of the first two axes. -/
def standard : Triangle α :=
  ofCorners Vec.zero Vec.unitX Vec.unitY

/-- The names of the coordinates of the corners, corner by corner. -/
def coordinateNames : List String :=
  ["ax", "ay", "az", "bx", "by", "bz", "cx", "cy", "cz"]

/-- The parameters of a triangle. -/
def parameters (t : Triangle α) : List (Parameter α) :=
  List.zipWith .number coordinateNames (t.corners.toList.flatMap Vec.toList)

/-- A triangle with a parameter changed. -/
def setParameter (t : Triangle α) (name : String) (v : ParameterValue α) :
    Except (ParameterError α) (Triangle α) :=
  match coordinateNames.idxOf? name with
  | none => .error (.unknown name)
  | some i => do
    let corner := (t.corners.component (i / 3)).setComponent (i % 3) (← v.asNumber name)
    return solved (t.corners.setComponent (i / 3) corner) t.solver

end Triangle

/-! ### The modules -/

/-- Modules that map the position. -/
inductive Mapping (α : Type) where
  /-- An affine transform. -/
  | transform (t : Transform α)
  /-- The position relative to a triangle. -/
  | barycentric (t : Triangle α)

namespace Mapping

variable {α : Type} [Arith α]

/-- The affine form of an output; zero for an output that does not exist. -/
def row (m : Mapping α) (output : Nat) : AffineForm α :=
  match m with
  | .transform t => t.rows[output]?.getD .zero
  | .barycentric t => t.rows[output]?.getD .zero

/-- The sockets of a map. -/
def signature : Mapping α → Signature α
  | .transform _ =>
    .ofSockets "transform" "Transform" .geometry Socket.position
      [.output "X" .scalar, .output "Y" .scalar, .output "Z" .scalar]
  | .barycentric _ =>
    .ofSockets "barycentric" "Barycentric" .geometry Socket.position
      [.output "U" .scalar, .output "V" .scalar, .output "W" .scalar, .output "Distance" .scalar]

/-- The parameters of a map. -/
def parameters : Mapping α → List (Parameter α)
  | .transform t => t.parameters
  | .barycentric t => t.parameters

/-- A map with a parameter changed. -/
def setParameter (m : Mapping α) (name : String) (v : ParameterValue α) :
    Except (ParameterError α) (Mapping α) :=
  match m with
  | .transform t => return .transform (← t.setParameter name v)
  | .barycentric t => return .barycentric (← t.setParameter name v)

instance : TextureModule (Mapping α) α :=
  .ofNumbers signature parameters setParameter
    (fun m output inputs q => (m.row output).value inputs q)
    (fun m output inputs q => (m.row output).error inputs q)
    (fun m output inputs q => (m.row output).gradient inputs q)

end Mapping

end TextureGraph
