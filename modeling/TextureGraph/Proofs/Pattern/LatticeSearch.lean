import Mathlib.Data.Int.Interval
import Mathlib.Data.Pi.Interval
import Mathlib.Order.Interval.Set.Infinite
import TextureGraph.Proofs.Pattern.Lattice
import TextureGraph.Proofs.Pattern.NearestTwo
import TextureGraph.Proofs.Pointwise.Pattern

/-!
# The nearest feature points of the whole lattice

In real arithmetic, two nearest feature points can be found at every position: only finitely many are within
any given distance (`exists_isNearestPair`).  Those that are found around the cell of the position are nearest
in the lattice if no other one is nearer than the second of them (`Covers`), as is always so for the largest
coordinate (`covers_chessBoard`).

The lattice is infinite, for the integers that the real numbers count with have no bounds (`ExactArith`).
-/

namespace TextureGraph.Pattern

variable (m : Metric) (p : Vec ℝ)

/-- A nearest feature point of the lattice, and a nearest one of those of all other cells. -/
def IsNearestPair (pair : Feature ℝ × Feature ℝ) : Prop :=
  ∃ c c', c ≠ c' ∧ pair = (featureOf m p c, featureOf m p c') ∧
    (∀ cell, (featureOf m p c).distance ≤ (featureOf m p cell).distance) ∧
    ∀ cell ≠ c, (featureOf m p c').distance ≤ (featureOf m p cell).distance

/-- Whether a search finds nearest feature points of the lattice at every position. -/
def Search.FindsNearest (search : Search) : Prop :=
  ∀ m p, IsNearestPair m p (search m p)

/-! ### They exist -/

/-- Only finitely many feature points are within a distance. -/
theorem finite_distance_le (r : ℝ) : {cell | (featureOf m p cell).distance ≤ r}.Finite := by
  let low (i : Fin 3) : ℤ := ⌊p.toFun i - r - 1⌋
  let high (i : Fin 3) : ℤ := ⌈p.toFun i + r⌉
  refine ((Set.finite_Icc low high).preimage Vec.toFun_injective.injOn).subset fun cell hcell => ?_
  have hbetween : ∀ i, low i ≤ cell.toFun i ∧ cell.toFun i ≤ high i := by
    intro i
    have hdistance : m.spread (p - (featurePoint cell).1) ≤ r := by
      rw [← distance_featureOf]
      exact hcell
    have haxis := (m.abs_le_spread _ i).trans hdistance
    rw [Vec.toFun_sub, Pi.sub_apply, abs_le] at haxis
    obtain ⟨hlow, hhigh⟩ := featurePoint_mem cell i
    constructor
    · have hle : p.toFun i - r - 1 ≤ cell.toFun i := by linarith
      exact_mod_cast (Int.floor_le _).trans hle
    · have hle : (cell.toFun i : ℝ) ≤ p.toFun i + r := by linarith
      exact_mod_cast hle.trans (Int.le_ceil _)
  exact ⟨fun i => (hbetween i).1, fun i => (hbetween i).2⟩

theorem exists_nearest {cells : Set (Vec Int)} (h : cells.Nonempty) :
    ∃ c ∈ cells, ∀ cell ∈ cells, (featureOf m p c).distance ≤ (featureOf m p cell).distance := by
  obtain ⟨start, hstart⟩ := h
  let near : Set (Vec Int) :=
    {cell | (featureOf m p cell).distance ≤ (featureOf m p start).distance} ∩ cells
  have hself : start ∈ near := ⟨le_refl (featureOf m p start).distance, hstart⟩
  have hfinite : near.Finite := (finite_distance_le m p _).inter_of_left cells
  obtain ⟨c, hc, hleast⟩ := Set.exists_min_image near (fun cell => (featureOf m p cell).distance)
    hfinite ⟨start, hself⟩
  refine ⟨c, hc.2, fun cell hcell => ?_⟩
  -- What is not near is farther than the start.
  rcases le_total (featureOf m p cell).distance (featureOf m p start).distance with hnear | hfar
  · exact hleast cell ⟨hnear, hcell⟩
  · exact (hleast start hself).trans hfar

theorem exists_isNearestPair : ∃ pair, IsNearestPair m p pair := by
  have hall : (Set.univ : Set (Vec Int)).Nonempty := ⟨⟨0, 0, 0⟩, trivial⟩
  obtain ⟨c, -, hfirst⟩ := exists_nearest m p hall
  have hothers : {cell | cell ≠ c}.Nonempty := by
    refine ⟨⟨c.x + 1, c.y, c.z⟩, fun h => ?_⟩
    have hx : c.x + 1 = c.x := congrArg Vec.x h
    omega
  obtain ⟨c', hne, hsecond⟩ := exists_nearest m p hothers
  exact ⟨_, c, c', Ne.symm hne, rfl, fun cell => hfirst cell trivial, hsecond⟩

/-! ### Those around the position -/

theorem cellStep_injective : Function.Injective cellStep := by
  intro k l h
  rw [cellStep, cellStep, Vec.mk.injEq] at h
  omega

/-- Over the real numbers, steps from a cell are told apart by where they lead. -/
theorem stepFrom_injective (base : Vec Int) : Function.Injective (stepFrom ℝ base) := by
  intro step step' h
  obtain ⟨x, y, z⟩ := step
  obtain ⟨x', y', z'⟩ := step'
  have hsum : Vec.zipWith (· + ·) base ⟨x, y, z⟩ = Vec.zipWith (· + ·) base ⟨x', y', z'⟩ := h
  simpa only [Vec.zipWith, Vec.mk.injEq, add_right_inj] using hsum

/-- What is found around a position comes from two cells there, and is nearest among all of these. -/
theorem exists_cells_searchAround :
    ∃ c c', c ≠ c' ∧ searchAround m p = (featureOf m p c, featureOf m p c') ∧
      (∀ cell, IsAround p cell → (featureOf m p c).distance ≤ (featureOf m p cell).distance) ∧
      ∀ cell, IsAround p cell → cell ≠ c →
        (featureOf m p c').distance ≤ (featureOf m p cell).distance := by
  obtain ⟨first, second, hbest, hranked⟩ := nearestTwo_ranked m p
  rw [nearbyFeatures_eq_ofFn] at hranked
  obtain ⟨i, j, hne, rfl, rfl, hfirst, -, hsecond⟩ := hranked.exists_index
  rw [nearestTwo_eq_searchAround, Prod.mk.injEq, Option.some.injEq, Option.some.injEq] at hbest
  let at' (k : Fin 27) : Vec Int := stepFrom ℝ (p.map Arith.floorInt) (cellStep k)
  have haround : ∀ cell, IsAround p cell → ∃ k, at' k = cell := by
    intro cell hcell
    obtain ⟨step, hstep, hat⟩ := isAround_iff.mp hcell
    rw [neighbourSteps_eq_ofFn] at hstep
    obtain ⟨k, rfl⟩ := List.mem_ofFn.mp hstep
    exact ⟨k, hat⟩
  refine ⟨at' i, at' j, fun h => hne (cellStep_injective (stepFrom_injective _ h)),
    Prod.ext hbest.1 hbest.2, ?_, ?_⟩
  · intro cell hcell
    obtain ⟨k, rfl⟩ := haround cell hcell
    exact hfirst k
  · intro cell hcell hother
    obtain ⟨k, rfl⟩ := haround cell hcell
    exact hsecond k fun h => hother (congrArg at' h)

/-- No feature point of another cell is nearer than the second one that is found around the position. -/
def Covers : Prop :=
  ∀ cell, ¬ IsAround p cell → (searchAround m p).2.distance ≤ (featureOf m p cell).distance

variable {m p}

/-- What is found around a position is nearest in the lattice, if no other feature point is nearer. -/
theorem Covers.isNearestPair (h : Covers m p) : IsNearestPair m p (searchAround m p) := by
  obtain ⟨c, c', hne, hsearch, hfirst, hsecond⟩ := exists_cells_searchAround m p
  have hfar : ∀ cell, ¬ IsAround p cell →
      (featureOf m p c').distance ≤ (featureOf m p cell).distance := by
    intro cell hcell
    have hle := h cell hcell
    rwa [hsearch] at hle
  have hranked : (featureOf m p c).distance ≤ (featureOf m p c').distance := by
    have hle : (searchAround m p).1.distance ≤ (searchAround m p).2.distance :=
      nearest_distance_le m p
    rwa [hsearch] at hle
  refine ⟨c, c', hne, hsearch, fun cell => ?_, fun cell hother => ?_⟩
  · by_cases haround : IsAround p cell
    · exact hfirst cell haround
    · exact hranked.trans (hfar cell haround)
  · by_cases haround : IsAround p cell
    · exact hsecond cell haround hother
    · exact hfar cell haround

/-- Feature points of other cells are farther than one. -/
theorem covers_of_le (h : (searchAround m p).2.distance ≤ 1 + border p) : Covers m p :=
  fun _ hcell => h.trans (one_add_border_le m hcell)

theorem chessBoard_spread_le {d : Vec ℝ} {r : ℝ} (h : ∀ i, |d.toFun i| ≤ r) :
    Metric.chessBoard.spread d ≤ r := by
  rw [Metric.chessBoard_spread]
  exact max_le (max_le (h 0) (h 1)) (h 2)

/-- The border that is nearest to a position lies across one of the axes. -/
theorem exists_border_eq (p : Vec ℝ) :
    ∃ axis, border p = min (Int.fract (p.toFun axis)) (1 - Int.fract (p.toFun axis)) := by
  let edge (a : ℝ) := min (Int.fract a) (1 - Int.fract a)
  rcases min_choice (min (edge p.x) (edge p.y)) (edge p.z) with hxy | hz
  · rcases min_choice (edge p.x) (edge p.y) with hx | hy
    · exact ⟨0, hxy.trans hx⟩
    · exact ⟨1, hxy.trans hy⟩
  · exact ⟨2, hz⟩

/-- By the largest coordinate, the feature point of the neighbour across the nearest border is no farther
than those of other cells can be. -/
theorem exists_neighbour (p : Vec ℝ) : ∃ cell, IsAround p cell ∧ cell ≠ p.map Int.floor ∧
    (featureOf .chessBoard p cell).distance ≤ 1 + border p := by
  obtain ⟨axis, hborder⟩ := exists_border_eq p
  have hnonneg := border_nonneg p
  -- The side of the border, and where a point of the neighbour is along this axis.
  obtain ⟨side, hside, hacross⟩ : ∃ side : ℤ, |side| = 1 ∧ ∀ a : ℝ,
      ⌊p.toFun axis⌋ + side ≤ a → a ≤ ⌊p.toFun axis⌋ + side + 1 →
        |p.toFun axis - a| ≤ 1 + border p := by
    have hfloor := Int.floor_add_fract (p.toFun axis)
    rcases min_choice (Int.fract (p.toFun axis)) (1 - Int.fract (p.toFun axis)) with hlow | hhigh
    · refine ⟨-1, rfl, fun a hle hle' => abs_le.mpr ⟨?_, ?_⟩⟩ <;> push_cast at hle hle' <;> linarith
    · refine ⟨1, rfl, fun a hle hle' => abs_le.mpr ⟨?_, ?_⟩⟩ <;> push_cast at hle hle' <;> linarith
  obtain ⟨cell, hcell⟩ :=
    Vec.toFun_surjective fun i => ⌊p.toFun i⌋ + if i = axis then side else 0
  have hat : ∀ i, cell.toFun i = ⌊p.toFun i⌋ + if i = axis then side else 0 := fun i =>
    congrFun hcell i
  refine ⟨cell, fun i => ?_, fun h => ?_, ?_⟩
  · rw [hat, add_sub_cancel_left]
    split_ifs
    · exact hside.le
    · exact zero_le_one
  · have hsame := hat axis
    rw [h, Vec.toFun_map, if_pos rfl, left_eq_add] at hsame
    rw [hsame, abs_zero] at hside
    exact absurd hside zero_ne_one
  · rw [distance_featureOf]
    refine chessBoard_spread_le fun i => ?_
    rw [Vec.toFun_sub, Pi.sub_apply]
    obtain ⟨hlow, hhigh⟩ := featurePoint_mem cell i
    rw [hat] at hlow hhigh
    by_cases hi : i = axis
    · subst hi
      rw [if_pos rfl] at hlow hhigh
      push_cast at hlow hhigh
      exact hacross _ hlow hhigh.le
    · rw [if_neg hi, add_zero] at hlow hhigh
      have hfloor := Int.floor_le (p.toFun i)
      have hceil := Int.lt_floor_add_one (p.toFun i)
      exact abs_le.mpr ⟨by linarith, by linarith⟩

/-- By the largest coordinate, the cell of the position and the neighbour across the nearest border hold
feature points that are nearer than those of other cells can be. -/
theorem covers_chessBoard (p : Vec ℝ) : Covers .chessBoard p := by
  obtain ⟨c, c', -, hsearch, -, hsecond⟩ := exists_cells_searchAround .chessBoard p
  refine covers_of_le ?_
  rw [hsearch]
  -- One of the two cells is not the one that is found first.
  by_cases hself : p.map Int.floor = c
  · obtain ⟨cell, haround, hother, hle⟩ := exists_neighbour p
    exact (hsecond cell haround fun h => hother (h.trans hself.symm)).trans hle
  · have hone : Metric.chessBoard.spread (⟨1, 1, 1⟩ : Vec ℝ) = 1 := by
      rw [Metric.chessBoard_spread, abs_one, max_self, max_self]
    have hle := (distance_le_diagonal .chessBoard p).trans_eq hone
    exact ((hsecond _ (isAround_self p) hself).trans hle).trans
      (le_add_of_nonneg_right (border_nonneg p))

/-! ### A search of the whole lattice -/

open Classical in
/-- What is found around the position, unless there are nearer feature points in the lattice. -/
noncomputable def latticeSearch : Search := fun m p =>
  if IsNearestPair m p (searchAround m p) then searchAround m p
  else Classical.choose (exists_isNearestPair m p)

theorem latticeSearch_findsNearest : latticeSearch.FindsNearest := by
  intro m p
  by_cases haround : IsNearestPair m p (searchAround m p)
  · rwa [latticeSearch, if_pos haround]
  · rw [latticeSearch, if_neg haround]
    exact Classical.choose_spec (exists_isNearestPair m p)

theorem latticeSearch_eq_searchAround {m : Metric} {p : Vec ℝ}
    (h : m = .chessBoard ∨ IsNearestPair m p (searchAround m p)) :
    latticeSearch m p = searchAround m p := by
  rcases h with rfl | haround
  · exact if_pos (covers_chessBoard p).isNearestPair
  · exact if_pos haround

end TextureGraph.Pattern
