import TextureGraph.Proofs.Pattern.CellDistance
import TextureGraph.Proofs.Graph.ExactEvaluation
import TextureGraph.Proofs.Graph.KindSafety
import TextureGraph.Catalog.Basic

/-!
# How near the nearest feature point is

`FrozenGraph.firstDistance_bounds`: in real arithmetic, the first distance of a `cells` module is that of
the nearest feature point around the cell of the position.  All other feature points of the lattice are
farther than one by the distance to the border of the cell, or more.  So the first distance is that of the
nearest feature point of the whole lattice if it is no larger, as it always is for the largest coordinate.
For the other metrics a feature point two cells away may be nearer
(`FrozenGraph.firstDistance_not_nearest`).

The integers that the real numbers count with have no bounds (`ExactArith`), so all of this holds at every
distance from the origin.
-/

namespace TextureGraph

namespace Pattern

/-! ### Feature points stay in their cells -/

theorem unitRandom_eq (hash : UInt64) : (unitRandom hash : ℝ) = (hash >>> 11).toNat / 2 ^ 53 := by
  rw [unitRandom, ExactArith.ofInt_eq, ExactArith.one_eq, ExactArith.literal_eq, Int.cast_natCast,
    mul_one_div]
  norm_num

theorem unitRandom_mem (hash : UInt64) : (unitRandom hash : ℝ) ∈ Set.Ico 0 1 := by
  have hlt : (hash >>> 11).toNat < 2 ^ 53 := by
    have hword := hash.toNat_lt
    rw [UInt64.toNat_shiftRight, show (11 : UInt64).toNat % 64 = 11 from rfl,
      Nat.shiftRight_eq_div_pow]
    omega
  rw [unitRandom_eq]
  refine ⟨by positivity, (div_lt_one (by positivity)).mpr ?_⟩
  exact_mod_cast hlt

/-- The random words that place the feature point of a cell, one for each axis. -/
def jitterWords (cell : Vec Int) : Vec UInt64 :=
  let x := word cell.x
  let y := word cell.y
  let z := word cell.z
  let hash := hashWords x y z
  ⟨hash, hashWords x y hash, hashWords x hash z⟩

theorem featurePoint_toFun (cell : Vec Int) (i : Fin 3) :
    (featurePoint cell : Vec ℝ × ℝ).1.toFun i
      = cell.toFun i + unitRandom ((jitterWords cell).toFun i) := by
  fin_cases i <;> rfl

/-- A feature point lies in its cell. -/
theorem featurePoint_mem (cell : Vec Int) (i : Fin 3) :
    (featurePoint cell : Vec ℝ × ℝ).1.toFun i ∈ Set.Ico (cell.toFun i : ℝ) (cell.toFun i + 1) := by
  obtain ⟨hnonneg, hlt⟩ := unitRandom_mem ((jitterWords cell).toFun i)
  rw [featurePoint_toFun]
  exact ⟨by linarith, by linarith⟩

/-! ### Cells around a position -/

/-- The cell of a position or one of its neighbours. -/
def IsAround (p : Vec ℝ) (cell : Vec Int) : Prop :=
  ∀ i, |cell.toFun i - ⌊p.toFun i⌋| ≤ 1

theorem isAround_self (p : Vec ℝ) : IsAround p (p.map Int.floor) := by
  intro i
  rw [Vec.toFun_map, sub_self, abs_zero]
  exact zero_le_one

/-- The distance of a position from the border of its cell. -/
noncomputable def border (p : Vec ℝ) : ℝ :=
  let edge (a : ℝ) := min (Int.fract a) (1 - Int.fract a)
  min (min (edge p.x) (edge p.y)) (edge p.z)

theorem border_nonneg (p : Vec ℝ) : 0 ≤ border p := by
  have hedge : ∀ a : ℝ, 0 ≤ min (Int.fract a) (1 - Int.fract a) := fun a =>
    le_min (Int.fract_nonneg a) (sub_nonneg.mpr (Int.fract_lt_one a).le)
  exact le_min (le_min (hedge _) (hedge _)) (hedge _)

theorem border_le (p : Vec ℝ) (i : Fin 3) :
    border p ≤ min (Int.fract (p.toFun i)) (1 - Int.fract (p.toFun i)) := by
  fin_cases i
  · exact (min_le_left _ _).trans (min_le_left _ _)
  · exact (min_le_left _ _).trans (min_le_right _ _)
  · exact min_le_right _ _

theorem mem_neighbourSteps {step : Vec Int} :
    step ∈ neighbourSteps ↔ ∀ i, |step.toFun i| ≤ 1 := by
  have hunit : ∀ n : Int, n ∈ [-1, 0, 1] ↔ |n| ≤ 1 := by
    intro n
    simp only [List.mem_cons, List.not_mem_nil, or_false, abs_le]
    omega
  have hcomponents : (∀ i, |step.toFun i| ≤ 1) ↔ |step.z| ≤ 1 ∧ |step.y| ≤ 1 ∧ |step.x| ≤ 1 := by
    constructor
    · exact fun h => ⟨h 2, h 1, h 0⟩
    · rintro ⟨hz, hy, hx⟩ i
      fin_cases i
      · exact hx
      · exact hy
      · exact hz
  obtain ⟨x, y, z⟩ := step
  rw [hcomponents]
  simp only [neighbourSteps, List.mem_flatMap, List.mem_map, hunit, Vec.mk.injEq]
  constructor
  · rintro ⟨z, hz, y, hy, x, hx, rfl, rfl, rfl⟩
    exact ⟨hz, hy, hx⟩
  · rintro ⟨hz, hy, hx⟩
    exact ⟨z, hz, y, hy, x, hx, rfl, rfl, rfl⟩

variable (m : Metric) {p : Vec ℝ} {cell : Vec Int}

/-- The cells around a position are a step away from its own. -/
theorem isAround_iff :
    IsAround p cell ↔
      ∃ step ∈ neighbourSteps, stepFrom ℝ (p.map Arith.floorInt) step = cell := by
  have hbase : ∀ i, (p.map Arith.floorInt).toFun i = ⌊p.toFun i⌋ := Vec.toFun_map _ _
  -- over the real numbers no coordinate wraps around
  have hstepFrom : ∀ step, stepFrom ℝ (p.map Arith.floorInt) step
      = Vec.zipWith (· + ·) (p.map Arith.floorInt) step := fun _ => rfl
  simp only [hstepFrom]
  constructor
  · intro h
    refine ⟨Vec.zipWith (· - ·) cell (p.map Arith.floorInt), mem_neighbourSteps.mpr fun i => ?_,
      Vec.toFun_injective (funext fun i => ?_)⟩
    · rw [Vec.toFun_zipWith, hbase]
      exact h i
    · rw [Vec.toFun_zipWith, Vec.toFun_zipWith, add_sub_cancel]
  · rintro ⟨step, hstep, rfl⟩ i
    rw [Vec.toFun_zipWith, hbase, add_sub_cancel_left]
    exact mem_neighbourSteps.mp hstep i

/-- The features that are looked at are those of the cells around the position. -/
theorem mem_nearbyFeatures {f : Feature ℝ} :
    f ∈ nearbyFeatures m p ↔ ∃ cell, IsAround p cell ∧ f = featureOf m p cell := by
  rw [nearbyFeatures, List.mem_map]
  constructor
  · rintro ⟨step, hstep, rfl⟩
    exact ⟨_, isAround_iff.mpr ⟨step, hstep, rfl⟩, rfl⟩
  · rintro ⟨cell, haround, rfl⟩
    obtain ⟨step, hstep, rfl⟩ := isAround_iff.mp haround
    exact ⟨step, hstep, rfl⟩

/-- **Feature points of other cells are farther than one.** -/
theorem one_add_border_le (h : ¬ IsAround p cell) :
    1 + border p ≤ (featureOf m p cell).distance := by
  rw [IsAround] at h
  push Not at h
  obtain ⟨i, hi⟩ := h
  obtain ⟨hlow, hhigh⟩ := featurePoint_mem cell i
  obtain ⟨hfract, hfract'⟩ := le_min_iff.mp (border_le p i)
  have hfloor := Int.floor_add_fract (p.toFun i)
  rw [distance_featureOf]
  refine le_trans ?_ (m.abs_le_spread _ i)
  rw [Vec.toFun_sub, Pi.sub_apply]
  -- The cell is two away along this axis, and its feature point is on the far side of its nearer face.
  rcases lt_abs.mp hi with habove | hbelow
  · have htwo : (⌊p.toFun i⌋ : ℝ) + 2 ≤ cell.toFun i := by
      exact_mod_cast (by omega : ⌊p.toFun i⌋ + 2 ≤ cell.toFun i)
    exact le_abs.mpr (.inr (by linarith))
  · have htwo : (cell.toFun i : ℝ) + 2 ≤ ⌊p.toFun i⌋ := by
      exact_mod_cast (by omega : cell.toFun i + 2 ≤ ⌊p.toFun i⌋)
    exact le_abs.mpr (.inl (by linarith))

/-- The feature point of the cell of the position is within the length of the diagonal. -/
theorem distance_le_diagonal (p : Vec ℝ) :
    (featureOf m p (p.map Int.floor)).distance ≤ m.spread ⟨1, 1, 1⟩ := by
  rw [distance_featureOf]
  refine m.spread_mono fun i => ?_
  have hone : (⟨1, 1, 1⟩ : Vec ℝ).toFun i = 1 := by
    fin_cases i <;> rfl
  obtain ⟨hlow, hhigh⟩ := featurePoint_mem (p.map Int.floor) i
  rw [Vec.toFun_map] at hlow hhigh
  rw [Vec.toFun_sub, Pi.sub_apply, hone, abs_one, abs_le]
  have hfloor := Int.floor_le (p.toFun i)
  have hceil := Int.lt_floor_add_one (p.toFun i)
  exact ⟨by linarith, by linarith⟩

/-! ### The nearest feature point -/

/-- The distances of the feature points of some cells. -/
def distances (m : Metric) (p : Vec ℝ) (cells : Set (Vec Int)) : Set ℝ :=
  {d | ∃ cell ∈ cells, d = (featureOf m p cell).distance}

variable {m} {d : ℝ}

/-- **The search finds the nearest feature point** of the cells around the position. -/
theorem Ranked.isLeast_distance {first : Feature ℝ} {second : Option (Feature ℝ)}
    (h : Ranked Feature.distance (nearbyFeatures m p) (some first, second)) :
    IsLeast (distances m p {cell | IsAround p cell}) first.distance := by
  constructor
  · obtain ⟨cell, haround, hfirst⟩ := (mem_nearbyFeatures m).mp h.first_mem
    exact ⟨cell, haround, congrArg _ hfirst⟩
  · rintro d ⟨cell, haround, rfl⟩
    exact h.first_le _ ((mem_nearbyFeatures m).mpr ⟨cell, haround, rfl⟩)

theorem min_le_distance (h : IsLeast (distances m p {cell | IsAround p cell}) d) (cell : Vec Int) :
    min d (1 + border p) ≤ (featureOf m p cell).distance := by
  by_cases haround : IsAround p cell
  · exact (min_le_left _ _).trans (h.2 ⟨cell, haround, rfl⟩)
  · exact (min_le_right _ _).trans (one_add_border_le m haround)

theorem le_diagonal (h : IsLeast (distances m p {cell | IsAround p cell}) d) :
    d ≤ m.spread ⟨1, 1, 1⟩ :=
  (h.2 ⟨_, isAround_self p, rfl⟩).trans (distance_le_diagonal m p)

/-- What is nearest around the position is nearest in the lattice, if it is no farther than the others can
be. -/
theorem isLeast_lattice (h : IsLeast (distances m p {cell | IsAround p cell}) d)
    (hd : d ≤ 1 + border p) : IsLeast (distances m p Set.univ) d := by
  constructor
  · obtain ⟨cell, -, hcell⟩ := h.1
    exact ⟨cell, Set.mem_univ _, hcell⟩
  · rintro d' ⟨cell, -, rfl⟩
    exact (min_eq_left hd).symm.trans_le (min_le_distance h cell)

/-- By the largest coordinate, the cell of the position holds a feature point that is nearer than those of
other cells can be. -/
theorem le_of_chessBoard (h : IsLeast (distances .chessBoard p {cell | IsAround p cell}) d) :
    d ≤ 1 + border p := by
  have hone : Metric.chessBoard.spread (⟨1, 1, 1⟩ : Vec ℝ) = 1 := by
    rw [Metric.chessBoard_spread, abs_one, max_self, max_self]
  exact ((le_diagonal h).trans_eq hone).trans (le_add_of_nonneg_right (border_nonneg p))

end Pattern

/-! ### Graphs -/

/-- The graph has cells of this number. -/
def Graph.HasCells {α : Type} [Arith α] (g : Graph (Catalog α) α) (id : ModuleId)
    (e : Entry (Catalog α) α) (m : Metric) : Prop :=
  g.entry? id = some e ∧ e.module = .texture (.cells m)

namespace FrozenGraph

open Pattern

variable {f : FrozenGraph (Catalog ℝ) ℝ} {id : ModuleId} {e : Entry (Catalog ℝ) ℝ} {m : Metric}
  {q : Query ℝ}

theorem evaluate_firstDistance (hg : f.graph.Consistent) (h : f.graph.freeze = .ok f)
    (hcells : f.graph.HasCells id e m) (hblur : 0 ≤ q.blur) :
    let p := (f.graph.pull f.answers e).position q
    ∃ d, f.evaluateScalar ⟨id, Texture.firstDistanceOutput⟩ q = .ok d ∧
      IsLeast (distances m p {cell | IsAround p cell}) d := by
  have hkind : (TextureModule.signature e.module : Signature ℝ).outputKind?
      Texture.firstDistanceOutput = some .scalar := by
    rw [hcells.2]
    rfl
  obtain ⟨first, second, hbest, hranked⟩ :=
    nearestTwo_ranked m ((f.graph.pull f.answers e).position q)
  have hvalue : Texture.cellsValue m Texture.firstDistanceOutput (f.graph.pull f.answers e) q
      = first.distance := by
    rw [Texture.cellsValue, Texture.nearest, hbest]
    rfl
  have hscalar := (evaluate_module (t := ⟨id, Texture.firstDistanceOutput⟩) hg h hcells.1 hkind
    (by decide) hblur).1
  rw [hcells.2] at hscalar
  exact ⟨first.distance, hscalar.trans (congrArg _ hvalue), hranked.isLeast_distance⟩

/-- **How near the nearest feature point is**: in real arithmetic, whatever changes have led to a graph
without cycles, the first distance of a `cells` module is found at every position and with every blur.

* It is that of the nearest feature point of the cell of the position and its neighbours, and no larger
  than the length of a cell's diagonal.
* Every feature point of the lattice is at least as far as this, or farther than one by the distance of the
  position from the border of its cell.
* So it is the distance of the nearest feature point of the lattice if it is no larger, and in any case if
  distances are measured by the largest coordinate. -/
theorem firstDistance_bounds (name : String) (edits : List (Edit (Catalog ℝ) ℝ))
    (h : (Graph.ofEdits name edits).freeze = .ok f) (hcells : f.graph.HasCells id e m)
    (hblur : 0 ≤ q.blur) :
    let p := (f.graph.pull f.answers e).position q
    ∃ d, f.evaluateScalar ⟨id, Texture.firstDistanceOutput⟩ q = .ok d ∧
      IsLeast (distances m p {cell | IsAround p cell}) d ∧ d ≤ m.spread ⟨1, 1, 1⟩ ∧
      (∀ cell, min d (1 + border p) ≤ (featureOf m p cell).distance) ∧
      (d ≤ 1 + border p ∨ m = .chessBoard → IsLeast (distances m p Set.univ) d) := by
  obtain ⟨hg, hf⟩ := Graph.freeze_ofEdits h
  obtain ⟨d, hd, hleast⟩ := evaluate_firstDistance hg hf hcells hblur
  refine ⟨d, hd, hleast, le_diagonal hleast, min_le_distance hleast, ?_⟩
  rintro (hnear | rfl)
  · exact isLeast_lattice hleast hnear
  · exact isLeast_lattice hleast (le_of_chessBoard hleast)

end FrozenGraph

/-- A `cells` module of its own. -/
noncomputable def onlyCells (m : Metric) : Graph (Catalog ℝ) ℝ :=
  Graph.ofEdits "cells" [.add (.texture (.cells m))]

theorem freeze_onlyCells (m : Metric) :
    (onlyCells m).freeze = .ok ⟨onlyCells m, ⟨[⟨0⟩], 1⟩⟩ := by
  cases m <;> exact Graph.freeze_eq_ok (by decide +kernel)

theorem FrozenGraph.firstDistance_bounds_largestCoordinate :
    ∃ f d, (onlyCells .chessBoard).freeze = .ok f ∧
      f.evaluateScalar ⟨⟨0⟩, Texture.firstDistanceOutput⟩ ⟨⟨Vec.zero, Vec.zero, 0, []⟩, 0⟩ = .ok d ∧
      IsLeast (Pattern.distances .chessBoard Vec.zero Set.univ) d := by
  obtain ⟨d, hd, -, -, -, hleast⟩ := @firstDistance_bounds _ ⟨0⟩ _ .chessBoard
    ⟨⟨Vec.zero, Vec.zero, 0, []⟩, 0⟩ "cells" _ (freeze_onlyCells .chessBoard) ⟨rfl, rfl⟩ le_rfl
  exact ⟨_, d, freeze_onlyCells .chessBoard, hd, hleast (.inr rfl)⟩

/-! ### A feature point two cells away -/

namespace Pattern

/-- The place of the feature point of a cell, in units of `2⁻⁵³`. -/
def featureUnits (cell : Vec Int) : Vec Int :=
  Vec.zipWith (fun n (hash : UInt64) => n * (2 : Int) ^ 53 + (hash >>> 11).toNat) cell (jitterWords cell)

theorem featurePoint_units (cell : Vec Int) (i : Fin 3) :
    (featurePoint cell : Vec ℝ × ℝ).1.toFun i = (featureUnits cell).toFun i / 2 ^ 53 := by
  rw [featurePoint_toFun, unitRandom_eq, featureUnits, Vec.toFun_zipWith, Int.cast_add, Int.cast_mul,
    Int.cast_pow, Int.cast_ofNat, Int.cast_natCast, add_div, mul_div_cancel_right₀ _ (by positivity)]

/-- The way from the feature point of a cell to a place, in units of `2⁻⁵³`. -/
def unitsFrom (cell place : Vec Int) : Vec Int :=
  Vec.zipWith (· - ·) place (featureUnits cell)

/-- A vector that is given in units of `2⁻⁵³`. -/
noncomputable def ofUnits (u : Vec Int) : Vec ℝ :=
  u.map fun n : Int => (n : ℝ) / (2 ^ 53 : ℕ)

theorem ofUnits_eq (u : Vec Int) :
    ofUnits u = ⟨u.x / 2 ^ 53, u.y / 2 ^ 53, u.z / 2 ^ 53⟩ := by
  rw [ofUnits, Vec.map, Nat.cast_pow, Nat.cast_ofNat]

theorem distance_ofUnits (m : Metric) (place cell : Vec Int) :
    (featureOf m (ofUnits place) cell).distance = m.spread (ofUnits (unitsFrom cell place)) := by
  rw [distance_featureOf]
  refine congrArg _ (Vec.toFun_injective (funext fun i => ?_))
  rw [Vec.toFun_sub, Pi.sub_apply, featurePoint_units, ofUnits, ofUnits, unitsFrom, Vec.toFun_map,
    Vec.toFun_map, Vec.toFun_zipWith]
  push_cast
  ring

/-- Vectors are compared by their squares and by their sums. -/
theorem spread_ofUnits_lt {m : Metric} (hm : m ≠ .chessBoard) {u v : Vec Int}
    (hsum : u.x.natAbs + u.y.natAbs + u.z.natAbs < v.x.natAbs + v.y.natAbs + v.z.natAbs)
    (hsquare : u.x * u.x + u.y * u.y + u.z * u.z < v.x * v.x + v.y * v.y + v.z * v.z) :
    m.spread (ofUnits u) < m.spread (ofUnits v) := by
  cases m with
  | euclidean =>
    -- Lengths along the straight line compare like their squares, and these are whole numbers of units.
    have hlength : ∀ w : Vec Int, Metric.euclidean.spread (ofUnits w)
        = √(((w.x * w.x + w.y * w.y + w.z * w.z : Int) : ℝ) / (2 ^ 53 * 2 ^ 53)) := by
      intro w
      rw [ofUnits_eq]
      show √(|(w.x : ℝ) / 2 ^ 53| * |(w.x : ℝ) / 2 ^ 53| + |(w.y : ℝ) / 2 ^ 53| * |(w.y : ℝ) / 2 ^ 53|
        + |(w.z : ℝ) / 2 ^ 53| * |(w.z : ℝ) / 2 ^ 53|) = _
      rw [abs_mul_abs_self, abs_mul_abs_self, abs_mul_abs_self]
      push_cast
      congr 1
      ring
    rw [hlength, hlength]
    refine Real.sqrt_lt_sqrt ?_ ?_
    · refine div_nonneg (Int.cast_nonneg ?_) (by positivity)
      exact add_nonneg (add_nonneg (mul_self_nonneg _) (mul_self_nonneg _)) (mul_self_nonneg _)
    · gcongr
  | cityBlock =>
    have hlength : ∀ w : Vec Int, Metric.cityBlock.spread (ofUnits w)
        = ((w.x.natAbs + w.y.natAbs + w.z.natAbs : Nat) : ℝ) / 2 ^ 53 := by
      intro w
      rw [ofUnits_eq]
      show |(w.x : ℝ) / 2 ^ 53| + |(w.y : ℝ) / 2 ^ 53| + |(w.z : ℝ) / 2 ^ 53| = _
      rw [abs_div, abs_div, abs_div, abs_of_pos (by positivity : (0 : ℝ) < 2 ^ 53)]
      push_cast [Nat.cast_natAbs]
      ring
    rw [hlength, hlength]
    gcongr
  | chessBoard => exact absurd rfl hm

/-- A place in the cell `(-26, -11, 8)`. -/
def betweenFeatures : Vec Int :=
  ⟨-26 * 2 ^ 53, -43 * 2 ^ 51, 8 * 2 ^ 53⟩

/-- The feature point of the cell `(-28, -11, 7)` is nearer than those around. -/
theorem unitsFrom_lt : ∀ step ∈ neighbourSteps,
    let u := unitsFrom ⟨-28, -11, 7⟩ betweenFeatures
    let v := unitsFrom (Vec.zipWith (· + ·) ⟨-26, -11, 8⟩ step) betweenFeatures
    u.x.natAbs + u.y.natAbs + u.z.natAbs < v.x.natAbs + v.y.natAbs + v.z.natAbs ∧
      u.x * u.x + u.y * u.y + u.z * u.z < v.x * v.x + v.y * v.y + v.z * v.z := by
  decide +kernel

theorem map_floorInt_betweenFeatures :
    (ofUnits betweenFeatures).map Arith.floorInt = ⟨-26, -11, 8⟩ := by
  have hfloor : ∀ n k : Int, (k : ℝ) ≤ n / 2 ^ 53 → (n : ℝ) / 2 ^ 53 < k + 1 →
      Arith.floorInt ((n : ℝ) / 2 ^ 53) = k := fun n k hlow hhigh =>
    Int.floor_eq_iff.mpr ⟨hlow, hhigh⟩
  rw [ofUnits_eq, betweenFeatures, Vec.map, Vec.mk.injEq]
  refine ⟨hfloor _ _ ?_ ?_, hfloor _ _ ?_ ?_, hfloor _ _ ?_ ?_⟩ <;> norm_num

/-- **A feature point two cells away is nearer** than those around, unless distances are measured by the
largest coordinate. -/
theorem distance_lt_of_isAround {m : Metric} (hm : m ≠ .chessBoard) {cell : Vec Int}
    (h : IsAround (ofUnits betweenFeatures) cell) :
    (featureOf m (ofUnits betweenFeatures) ⟨-28, -11, 7⟩).distance
      < (featureOf m (ofUnits betweenFeatures) cell).distance := by
  obtain ⟨step, hstep, rfl⟩ := isAround_iff.mp h
  obtain ⟨hsum, hsquare⟩ := unitsFrom_lt step hstep
  rw [map_floorInt_betweenFeatures, distance_ofUnits, distance_ofUnits]
  exact spread_ofUnits_lt hm hsum hsquare

end Pattern

/-- The point `(-26, -10.75, 8)`. -/
noncomputable def betweenQuery : Query ℝ :=
  ⟨⟨Pattern.ofUnits Pattern.betweenFeatures, Vec.zero, 0, []⟩, 0⟩

/-- **The first distance is not that of the nearest feature point** of the lattice, for distances along the
straight line and for sums along the axes. -/
theorem FrozenGraph.firstDistance_not_nearest :
    betweenQuery.footprint.position = ⟨-26, -43 / 4, 8⟩ ∧
    ∀ m ∈ [Metric.euclidean, Metric.cityBlock], ∃ f d, (onlyCells m).freeze = .ok f ∧
      f.evaluateScalar ⟨⟨0⟩, Texture.firstDistanceOutput⟩ betweenQuery = .ok d ∧
      (Pattern.featureOf m betweenQuery.footprint.position ⟨-28, -11, 7⟩).distance < d := by
  have hposition : betweenQuery.footprint.position = ⟨-26, -43 / 4, 8⟩ := by
    rw [betweenQuery, Pattern.ofUnits_eq, Pattern.betweenFeatures, Vec.mk.injEq]
    norm_num
  refine ⟨hposition, fun m hm => ?_⟩
  have hne : m ≠ .chessBoard := by
    rintro rfl
    revert hm
    decide
  obtain ⟨hg, hf⟩ := Graph.freeze_ofEdits (freeze_onlyCells m)
  obtain ⟨d, hd, hleast⟩ :=
    @evaluate_firstDistance _ ⟨0⟩ _ m betweenQuery hg hf ⟨rfl, rfl⟩ le_rfl
  obtain ⟨cell, haround, rfl⟩ := hleast.1
  exact ⟨_, _, freeze_onlyCells m, hd, Pattern.distance_lt_of_isAround hne haround⟩

end TextureGraph
