import TextureGraph.Proofs.Pattern.Metric
import TextureGraph.Proofs.Pattern.Nearest
import TextureGraph.Catalog.Texture

/-!
# Distances to feature points change no faster than the position

`Texture.cellsError_bounds`: in real arithmetic, between two positions in the same cell of the lattice, the
distances of the two nearest feature points change by at most the spread of the error, for every metric.  So
the error of the distances that a `cells` module yields is a bound.

Each of the feature points around a cell changes its distance by at most the length of the step between the
positions (`abs_distance_sub_le`).  Which of them is nearest and second nearest may change; how many of them
are within a distance does so by the step at most (`countP_distance_le`), and this settles both distances
(`Ranked.first_le_iff`, `Ranked.second_le_iff`).

The integers that the real numbers count with have no bounds (`ExactArith`), so the lattice has no border
where cells would wrap around.
-/

namespace TextureGraph

namespace Pattern

variable (m : Metric)

/-- The features around a position are ranked by their distances. -/
theorem nearestTwo_ranked (p : Vec ℝ) :
    ∃ first second, nearestTwo m p = (some first, some second) ∧
      Ranked Feature.distance (nearbyFeatures m p) (some first, some second) := by
  have hranked : Ranked Feature.distance (nearbyFeatures m p) (nearestTwo m p) :=
    ranked_foldl_insertNearest ⟨fun _ _ => rfl, fun _ _ _ _ => Iff.rfl⟩
  obtain ⟨first, second, hbest⟩ := hranked.exists_some (Nat.le_of_ble_eq_true rfl)
  exact ⟨first, second, hbest, hbest ▸ hranked⟩

theorem distance_featureOf (p : Vec ℝ) (cell : Vec Int) :
    (featureOf m p cell).distance = m.spread (p - (featurePoint cell).1) :=
  m.measure_eq_spread _

/-- **The distance of a feature point** changes by at most the length of the step. -/
theorem abs_distance_sub_le (p p' : Vec ℝ) (cell : Vec Int) :
    |(featureOf m p' cell).distance - (featureOf m p cell).distance| ≤ m.spread (p' - p) := by
  have hstep : p' - (featurePoint cell).1 - (p - (featurePoint cell).1) = p' - p := by
    refine Vec.toFun_injective ?_
    simp only [Vec.toFun_sub, sub_sub_sub_cancel_right]
  rw [distance_featureOf, distance_featureOf, ← hstep]
  exact m.abs_spread_sub_le _ _

variable {m} {p p' : Vec ℝ}

/-- Within the same cell, at least as many features are within a distance that has grown by the step. -/
theorem countP_distance_le (hbase : p.map Arith.floorInt = p'.map Arith.floorInt) (t : ℝ) :
    (nearbyFeatures m p).countP (·.distance ≤ t)
      ≤ (nearbyFeatures m p').countP (·.distance ≤ t + m.spread (p' - p)) := by
  -- Both positions look at the same cells, so features are compared cell by cell.
  rw [nearbyFeatures, nearbyFeatures, hbase, List.countP_map, List.countP_map]
  refine List.countP_mono_left fun step _ hle => decide_eq_true ?_
  have hchange := (abs_sub_le_iff.mp
    (abs_distance_sub_le m p p' (stepFrom ℝ (p'.map Arith.floorInt) step))).1
  have hle : (featureOf m p (stepFrom ℝ (p'.map Arith.floorInt) step)).distance ≤ t :=
    of_decide_eq_true hle
  linarith

/-- **Neither distance grows by more than the step.** -/
theorem Ranked.distance_le {first second first' second' : Feature ℝ}
    (h : Ranked Feature.distance (nearbyFeatures m p) (some first, some second))
    (h' : Ranked Feature.distance (nearbyFeatures m p') (some first', some second'))
    (hbase : p.map Arith.floorInt = p'.map Arith.floorInt) :
    first'.distance ≤ first.distance + m.spread (p' - p) ∧
      second'.distance ≤ second.distance + m.spread (p' - p) :=
  ⟨(h'.first_le_iff _).mpr (((h.first_le_iff _).mp le_rfl).trans (countP_distance_le hbase _)),
    (h'.second_le_iff _).mpr (((h.second_le_iff _).mp le_rfl).trans (countP_distance_le hbase _))⟩

end Pattern

namespace Texture

open Pattern

/-- **The error of the distances is a bound**: in real arithmetic and for every metric, take two positions in
the same cell of the lattice that differ by at most an error along each axis.  Two nearest feature points are
found around either one, and both distances change by at most the spread of the error.

So the distances that a `cells` module yields change by at most their error, when its inputs yield positions
in the same cell that differ by at most the errors of the inputs. -/
theorem cellsError_bounds (m : Metric) {p p' e : Vec ℝ}
    (hfloor : ∀ i, ⌊p.toFun i⌋ = ⌊p'.toFun i⌋) (he : ∀ i, |p'.toFun i - p.toFun i| ≤ e.toFun i) :
    (∃ first second first' second',
      nearestTwo m p = (some first, some second) ∧ nearestTwo m p' = (some first', some second') ∧
        |first'.distance - first.distance| ≤ m.spread e ∧
        |second'.distance - second.distance| ≤ m.spread e) ∧
    ∀ (inputs inputs' : Inputs ℝ) (q q' : Query ℝ), inputs.position q = p →
      inputs.positionError q = e → inputs'.position q' = p' →
      ∀ output ∈ [firstDistanceOutput, secondDistanceOutput],
        |cellsValue m output inputs' q' - cellsValue m output inputs q|
          ≤ cellsError m output inputs q := by
  have hbase : p.map Arith.floorInt = p'.map Arith.floorInt := Vec.toFun_injective <| by
    refine funext fun i => ?_
    have := hfloor i
    fin_cases i <;> exact this
  have hspread : m.spread (p' - p) ≤ m.spread e := by
    refine m.spread_mono fun i => ?_
    rw [Vec.toFun_sub]
    exact (he i).trans (le_abs_self _)
  obtain ⟨first, second, hbest, hranked⟩ := nearestTwo_ranked m p
  obtain ⟨first', second', hbest', hranked'⟩ := nearestTwo_ranked m p'
  obtain ⟨hfirst, hsecond⟩ := hranked.distance_le hranked' hbase
  obtain ⟨hfirst', hsecond'⟩ := hranked'.distance_le hranked hbase.symm
  rw [m.spread_sub_comm] at hfirst' hsecond'
  have hfirsts : |first'.distance - first.distance| ≤ m.spread e :=
    abs_sub_le_iff.mpr ⟨by linarith, by linarith⟩
  have hseconds : |second'.distance - second.distance| ≤ m.spread e :=
    abs_sub_le_iff.mpr ⟨by linarith, by linarith⟩
  refine ⟨⟨first, second, first', second', hbest, hbest', hfirsts, hseconds⟩, ?_⟩
  rintro inputs inputs' q q' rfl rfl rfl output houtput
  have hnearest : nearest m inputs q = (first, second) := by
    rw [nearest, hbest]
    rfl
  have hnearest' : nearest m inputs' q' = (first', second') := by
    rw [nearest, hbest']
    rfl
  rw [cellsValue, cellsValue, hnearest, hnearest', cellsError]
  rcases List.mem_pair.mp houtput with rfl | rfl
  · rw [if_neg (by decide)]
    exact hfirsts
  · rw [if_neg (by decide)]
    exact hseconds

/-- Two positions in the cell at the origin. -/
theorem cellsError_bounds_origin :
    ∃ first second first' second' : Feature ℝ,
      nearestTwo .euclidean ⟨0, 0, 0⟩ = (some first, some second) ∧
        nearestTwo .euclidean ⟨3 / 5, 4 / 5, 0⟩ = (some first', some second') ∧
        |first'.distance - first.distance| ≤ 1 ∧ |second'.distance - second.distance| ≤ 1 := by
  have hspread : Metric.euclidean.spread (⟨3 / 5, 4 / 5, 0⟩ : Vec ℝ) = 1 := by
    show √(|3 / 5| * |3 / 5| + |4 / 5| * |4 / 5| + |0| * |0|) = 1
    norm_num
  rw [← hspread]
  refine (cellsError_bounds .euclidean (e := ⟨3 / 5, 4 / 5, 0⟩) (fun i => ?_) fun i => ?_).1
  · fin_cases i
    all_goals norm_num [Vec.toFun]
  · fin_cases i
    all_goals norm_num [Vec.toFun]

end Texture

end TextureGraph
