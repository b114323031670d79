import TextureGraph.Pattern.Hash
import TextureGraph.Space.Vec

/-!
# Cells around feature points

Every cell of the integer lattice holds one feature point at a random place, and a random value.
`nearestTwo` finds the two feature points nearest to a position among those of the cell it lies in
and of the 26 cells around it.
-/

namespace TextureGraph

/-- How distances are measured. -/
inductive Metric where
  /-- Along the straight line. -/
  | euclidean
  /-- The sum of the distances along the axes. -/
  | cityBlock
  /-- The largest of the distances along the axes. -/
  | chessBoard
deriving DecidableEq, Repr

namespace Metric

/-- All metrics, in the order of their numbers. -/
def all : List Metric :=
  [.euclidean, .cityBlock, .chessBoard]

/-- The name of a metric. -/
def label : Metric → String
  | .euclidean => "Euclidean"
  | .cityBlock => "City Block"
  | .chessBoard => "Chess Board"

/-- The number of a metric in `all`. -/
def index : Metric → Nat
  | .euclidean => 0
  | .cityBlock => 1
  | .chessBoard => 2

/-- The metric with a given number. -/
def ofIndex (i : Nat) : Metric :=
  all.getD i .euclidean

variable {α : Type} [Arith α]

/-- `1`, `-1` or zero by the sign of a number; an undefined number has none. -/
def sign (a : α) : α :=
  if 0.0 < a then 1.0 else if a < 0.0 then -1.0 else 0.0

/-- The length of a vector and its gradient. -/
def measure (m : Metric) (d : Vec α) : α × Vec α :=
  match m with
  | .euclidean =>
    let length := d.length
    if length == 0.0 then (0.0, Vec.zero) else (length, d.scale (1.0 / length))
  | .cityBlock => (Arith.abs d.x + Arith.abs d.y + Arith.abs d.z, d.map sign)
  | .chessBoard =>
    let a := d.abs
    if a.y ≤ a.x && a.z ≤ a.x then (a.x, ⟨sign d.x, 0.0, 0.0⟩)
    else if a.z ≤ a.y then (a.y, ⟨0.0, sign d.y, 0.0⟩)
    else (a.z, ⟨0.0, 0.0, sign d.z⟩)

/-- How much a distance changes at most when each coordinate of the position moves by up to its
error. -/
def spread (m : Metric) (error : Vec α) : α :=
  let e := error.abs
  match m with
  | .euclidean => e.length
  | .cityBlock => e.x + e.y + e.z
  | .chessBoard => e.maxComponent

end Metric

namespace Pattern

variable {α : Type} [Arith α]

/-- A feature point as seen from a position. -/
structure Feature (α : Type) where
  /-- Its distance. -/
  distance : α
  /-- The gradient of the distance. -/
  gradient : Vec α
  /-- The random value of its cell. -/
  value : α
deriving Repr

/-- The feature point of a lattice cell, and the random value of the cell. -/
def featurePoint (cell : Vec Int) : Vec α × α :=
  let x := word cell.x
  let y := word cell.y
  let z := word cell.z
  let hash := hashWords x y z
  let jitter : Vec α :=
    ⟨unitRandom hash, unitRandom (hashWords x y hash), unitRandom (hashWords x hash z)⟩
  (cell.map Arith.ofInt + jitter, unitRandom (hashWords hash y z))

/-- The feature point of a lattice cell as seen from `p`. -/
def featureOf (metric : Metric) (p : Vec α) (cell : Vec Int) : Feature α :=
  let (point, value) := featurePoint cell
  let (distance, gradient) := metric.measure (p - point)
  { distance, gradient, value }

/-- The steps from a cell to itself and its neighbours, the first coordinate changing fastest. -/
def neighbourSteps : List (Vec Int) :=
  [-1, 0, 1].flatMap fun dz => [-1, 0, 1].flatMap fun dy => [-1, 0, 1].map fun dx => ⟨dx, dy, dz⟩

/-- Whether a feature is nearer than the best one so far.  Without one so far, any definite distance
will do. -/
def isNearer (f : Feature α) : Option (Feature α) → Bool
  | none => Arith.isFinite f.distance
  | some best => f.distance < best.distance

/-- The two nearest features after one more has been seen.  Of equally near ones the earlier stays
in front. -/
def insertNearest (best : Option (Feature α) × Option (Feature α)) (f : Feature α) :
    Option (Feature α) × Option (Feature α) :=
  if isNearer f best.1 then (some f, best.1)
  else if isNearer f best.2 then (best.1, some f)
  else best

/-- The cell at a step from another one.  Coordinates wrap around where the number system counts with
bounded integers. -/
def stepFrom (α : Type) [Arith α] (base step : Vec Int) : Vec Int :=
  (Vec.zipWith (· + ·) base step).map (Arith.wrapInt α)

/-- A sum of integers, unless the number system cannot hold it. -/
def sum? (α : Type) [Arith α] (a b : Int) : Option Int :=
  let n := a + b
  if Arith.wrapInt α n = n then some n else none

/-- The cell at a step from another one, unless a coordinate would wrap around. -/
def stepFrom? (α : Type) [Arith α] (base step : Vec Int) : Option (Vec Int) := do
  let x ← sum? α base.x step.x
  let y ← sum? α base.y step.y
  let z ← sum? α base.z step.z
  return ⟨x, y, z⟩

/-- The feature points of the cell around `p` and of its neighbours, in the order of
`neighbourSteps`. -/
def nearbyFeatures (metric : Metric) (p : Vec α) : List (Feature α) :=
  let base := p.map Arith.floorInt
  neighbourSteps.map fun step => featureOf metric p (stepFrom α base step)

/-- The two nearest feature points around `p`; none where no distance is definite. -/
def nearestTwo (metric : Metric) (p : Vec α) : Option (Feature α) × Option (Feature α) :=
  (nearbyFeatures metric p).foldl insertNearest (none, none)

/-- The search of `nearestTwo` where sums of integers are checked: it is given up at a cell with a coordinate
that the number system cannot hold. -/
def nearestTwo? (metric : Metric) (p : Vec α) : Option (Option (Feature α) × Option (Feature α)) :=
  let base := p.map Arith.floorInt
  neighbourSteps.foldlM (fun best step => do
    let cell ← stepFrom? α base step
    return insertNearest best (featureOf metric p cell)) (none, none)

/-- A feature, or a place infinitely far away when there is none. -/
def orFar (f : Option (Feature α)) : Feature α :=
  f.getD ⟨Arith.infinity, Vec.zero, 0.0⟩

/-- The value of the nearest cell.  Where the border to the next one lies within the error, the
values of both cells are mixed. -/
def cellValue (first second : Feature α) (error : α) : α :=
  let gap := second.distance - first.distance
  if gap < error then
    let weight := 0.5 + 0.5 * gap / error
    weight * first.value + (1.0 - weight) * second.value
  else first.value

/-- The error of `cellValue`: none away from the border, half the difference of the values near
it. -/
def cellError (first second : Feature α) (error : α) : α :=
  if second.distance - first.distance < error then
    0.5 * Arith.abs (first.value - second.value)
  else 0.0

end Pattern

end TextureGraph
