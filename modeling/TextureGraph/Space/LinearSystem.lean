import TextureGraph.Space.Mat

/-!
# Systems of linear equations

`LinearSolver.solve` finds the `x` with `m * x = b` by Gaussian elimination with partial pivoting,
or reports that there is no single one.  `eliminate` works for any number of unknowns: it takes the
equation with the largest leading coefficient, removes the first unknown from the others, solves
those, and substitutes back.
-/

namespace TextureGraph

/-- One equation: the coefficients of the unknowns and the constant on the other side. -/
structure Equation (α : Type) where
  /-- One coefficient for each unknown. -/
  coefficients : List α
  /-- The value that the weighted unknowns add up to. -/
  constant : α

/-- How a linear system is solved. -/
inductive LinearSolver (α : Type) where
  /-- Gaussian elimination.  Pivots up to `epsilon` times the largest entry count as zero. -/
  | elimination (epsilon : α)
  /-- A way that the caller supplies: what it finds for a matrix and a right side, if anything. -/
  | custom (find : Mat α → Vec α → Option (Vec α))

namespace LinearSolver

variable {α : Type} [Arith α]

/-- Elimination with the usual threshold. -/
def standard : LinearSolver α :=
  .elimination 1.0e-12

/-- Takes every system for a singular one. -/
def refusing : LinearSolver α :=
  .custom fun _ _ => none

/-- The text shown for a system without a single solution. -/
def singularText : String :=
  "Linear system is singular"

/-- The leading coefficient of an equation. -/
def lead (e : Equation α) : α :=
  e.coefficients.headD 0.0

/-- The place among `rest` of the last equation with the largest leading coefficient, when it is
at least as large as that of `best`; `place` is the answer so far and `i` the next place. -/
def pivotPlace (best : Equation α) (place : Option Nat) (i : Nat) :
    List (Equation α) → Option Nat
  | [] => place
  | e :: rest =>
    if Arith.magnitudeLe (lead best) (lead e) then pivotPlace e (some i) (i + 1) rest
    else pivotPlace best place (i + 1) rest

/-- The pivot equation and the others: the first equation moves into the place that the pivot
leaves. -/
def choosePivot (first : Equation α) (rest : List (Equation α)) :
    Equation α × List (Equation α) :=
  match pivotPlace first none 0 rest with
  | none => (first, rest)
  | some i => (rest.getD i first, rest.set i first)

/-- `e` without its first unknown, which the equation `pivot` expresses by the others. -/
def reduce (pivot e : Equation α) : Equation α :=
  let factor := lead e / lead pivot
  { coefficients :=
      List.zipWith (fun c p => c - factor * p) e.coefficients.tail pivot.coefficients.tail
    constant := e.constant - factor * pivot.constant }

/-- The first unknown of an equation whose other unknowns are known. -/
def substitute (e : Equation α) (known : List α) : α :=
  (e.constant - Arith.sum (List.zipWith (· * ·) e.coefficients.tail known)) / lead e

/-- The values of `n` unknowns, or nothing when a pivot does not exceed the threshold. -/
def eliminate (threshold : α) : Nat → List (Equation α) → Option (List α)
  | 0, _ => some []
  | _ + 1, [] => none
  | n + 1, first :: rest =>
    let (pivot, others) := choosePivot first rest
    if Arith.abs (lead pivot) ≤ threshold then none
    else
      (eliminate threshold n (others.map (reduce pivot))).map fun known =>
        substitute pivot known :: known

/-- The equations `m * x = b`. -/
def equations (m : Mat α) (b : Vec α) : List (Equation α) :=
  List.zipWith (fun row constant => ⟨row.toList, constant⟩) m.rows.toList b.toList

/-- The largest magnitude among the entries of a matrix. -/
def largestEntry (m : Mat α) : α :=
  m.entries.foldl (fun largest a => Arith.max largest (Arith.abs a)) 0.0

/-- The `x` with `m * x = b`, unless the solver finds the system singular. -/
def solve (solver : LinearSolver α) (m : Mat α) (b : Vec α) : Option (Vec α) :=
  match solver with
  | .custom find => find m b
  | .elimination epsilon =>
    let largest := largestEntry m
    if largest == 0.0 || !Arith.isFinite largest then none
    else
      match eliminate (epsilon * largest) 3 (equations m b) with
      | some [x, y, z] => some ⟨x, y, z⟩
      | _ => none

/-- The inverse of a matrix, solved column by column. -/
def invert (solver : LinearSolver α) (m : Mat α) : Option (Mat α) := do
  let a ← solver.solve m Vec.unitX
  let b ← solver.solve m Vec.unitY
  let c ← solver.solve m Vec.unitZ
  return .ofColumns a b c

end LinearSolver

end TextureGraph
