import TextureGraph.Proofs.Sampling.Refinement

/-!
# Footprints cover their cells and nest

The footprint of a cell is a box along the axes of space, while the cell lies askew in space as the
axes of the patch do.  In real arithmetic the box is the smallest one that covers the cell: along
every axis of space, each end of the box is the coordinate of a corner of the cell
(`Patch.exists_corners`), and no point of the cell is beyond it (`Patch.abs_position_sub_le`).

So the box of a cell covers that of any cell within it (`Patch.box_subset_of_within`), and the boxes
of the quadrants, of their quadrants and so on nest (`Patch.footprint_covers_and_nests`).
-/

namespace TextureGraph

/-! ### Components -/

namespace Vec

variable {α : Type} [Arith α] (v w : Vec α) (a : α) (i : Nat)

theorem component_add : (v + w).component i = v.component i + w.component i := by
  rcases i with _ | _ | i <;> rfl

theorem component_scale : (v.scale a).component i = v.component i * a := by
  rcases i with _ | _ | i <;> rfl

theorem component_abs : v.abs.component i = Arith.abs (v.component i) := by
  rcases i with _ | _ | i <;> rfl

end Vec

/-- The box of a footprint: along every axis, half of the extent to either side of the middle. -/
def Footprint.box (p : Footprint ℝ) : Set (Vec ℝ) :=
  {v | ∀ i, v.component i ∈ Set.Icc (p.position.component i - p.size.component i / (2 : Nat))
    (p.position.component i + p.size.component i / (2 : Nat))}

theorem Footprint.mem_box {p : Footprint ℝ} {v : Vec ℝ} : v ∈ p.box ↔
    ∀ i, |v.component i - p.position.component i| ≤ p.size.component i / 2 := by
  refine forall_congr' fun i => ?_
  rw [Nat.cast_ofNat, abs_sub_comm, Set.mem_Icc_iff_abs_le]

/-! ### Cells that extend forwards -/

namespace Cell

variable {α : Type} [ExactArith α] {c d q : Cell α} {cells : List (Cell α)}

/-- A cell that does not extend backwards, though perhaps not at all. -/
structure Forward (c : Cell α) : Prop where
  /-- It does not extend backwards in the first direction. -/
  ds : 0 ≤ c.ds
  /-- It does not extend backwards in the second direction. -/
  dt : 0 ≤ c.dt

/-- The coordinates of the corners in the first direction. -/
def sEnds (c : Cell α) : Set α :=
  {c.s, c.s + c.ds}

/-- The coordinates of the corners in the second direction. -/
def tEnds (c : Cell α) : Set α :=
  {c.t, c.t + c.dt}

namespace Forward

theorem ends_mem_region (h : c.Forward) {s t : α} (hs : s ∈ c.sEnds) (ht : t ∈ c.tEnds) :
    (s, t) ∈ c.region := by
  have hends : ∀ {lo extent x : α}, 0 ≤ extent → x ∈ ({lo, lo + extent} : Set α) →
      x ∈ Set.Icc lo (lo + extent) := by
    rintro lo extent x hextent (rfl | rfl)
    · exact ⟨le_rfl, le_add_of_nonneg_right hextent⟩
    · exact ⟨le_add_of_nonneg_right hextent, le_rfl⟩
  exact ⟨hends h.ds hs, hends h.dt ht⟩

/-- **Step**: the quadrants of a cell extend forwards and lie within it. -/
theorem quadrant (h : c.Forward) (hq : q ∈ c.split) : q.Forward ∧ q.Within c := by
  have hds := h.ds
  have hdt := h.dt
  simp only [split, List.mem_cons, List.not_mem_nil, or_false] at hq
  rcases hq with rfl | rfl | rfl | rfl <;>
    refine ⟨⟨?_, ?_⟩, ⟨?_, ?_, ?_, ?_⟩⟩ <;>
    simp only [Cell.quadrant, ExactArith.half_eq, ExactArith.ofInt_eq] <;>
    push_cast <;>
    linarith

end Forward

/-- **Run**: so do all cells that come of a cell. -/
theorem Refinement.forward_within (h : c.Refinement cells) (hc : c.Forward) :
    ∀ d ∈ cells, d.Forward ∧ d.Within c := by
  induction h with
  | whole c =>
    intro d hd
    obtain rfl := List.mem_singleton.mp hd
    exact ⟨hc, .refl d⟩
  | @split c parts _ ih =>
    intro d hd
    obtain ⟨q, hq, hd⟩ := List.mem_flatMap.mp hd
    obtain ⟨hforward, hwithin⟩ := hc.quadrant hq
    obtain ⟨hforward', hwithin'⟩ := ih q hq hforward d hd
    exact ⟨hforward', hwithin'.trans hwithin⟩

end Cell

/-! ### The footprint along one axis -/

namespace Patch

/-- The two ends of an interval are as far from its middle as its extent says, on either side; which
end is on which side depends on the sign of the slope. -/
theorem exists_ends (a lo extent : ℝ) :
    ∃ x ∈ ({lo, lo + extent} : Set ℝ), ∃ y ∈ ({lo, lo + extent} : Set ℝ),
      a * (x - (lo + 1 / 2 * extent)) = -(|a| * extent / 2) ∧
      a * (y - (lo + 1 / 2 * extent)) = |a| * extent / 2 := by
  rcases le_total 0 a with h | h
  · refine ⟨lo, .inl rfl, lo + extent, .inr rfl, ?_, ?_⟩ <;>
    · rw [abs_of_nonneg h]
      ring
  · refine ⟨lo + extent, .inr rfl, lo, .inl rfl, ?_, ?_⟩ <;>
    · rw [abs_of_nonpos h]
      ring

/-- No other point of the interval is farther from its middle. -/
theorem abs_mul_sub_le (a : ℝ) {lo extent x : ℝ} (hx : x ∈ Set.Icc lo (lo + extent)) :
    |a * (x - (lo + 1 / 2 * extent))| ≤ |a| * extent / 2 := by
  have hoffset : |x - (lo + 1 / 2 * extent)| ≤ extent / 2 := by
    rw [abs_le]
    constructor <;> linarith [hx.1, hx.2]
  rw [abs_mul, mul_div_assoc]
  exact mul_le_mul_of_nonneg_left hoffset (abs_nonneg a)

variable (patch : Patch ℝ) {c q : Cell ℝ} (i : Nat)

/-- How far a point is from the middle of a cell along an axis. -/
theorem component_position_sub (c : Cell ℝ) (s t : ℝ) :
    (patch.position s t).component i - (patch.footprint c).position.component i
      = patch.uAxis.component i * (s - (c.s + 1 / 2 * c.ds))
        + patch.vAxis.component i * (t - (c.t + 1 / 2 * c.dt)) := by
  simp only [footprint, position, Cell.center, Vec.component_add, Vec.component_scale,
    ExactArith.half_eq]
  ring

/-- The extent of the footprint along an axis, whatever the signs of the axes of the patch are. -/
theorem component_size (c : Cell ℝ) : (patch.footprint c).size.component i
    = |patch.uAxis.component i| * c.ds + |patch.vAxis.component i| * c.dt := by
  simp only [footprint, Vec.component_add, Vec.component_scale, Vec.component_abs,
    ExactArith.abs_real]

theorem component_size_nonneg (hc : c.Forward) : 0 ≤ (patch.footprint c).size.component i := by
  rw [component_size]
  exact add_nonneg (mul_nonneg (abs_nonneg _) hc.ds) (mul_nonneg (abs_nonneg _) hc.dt)

/-- No point of a cell is farther from its middle than half of the footprint. -/
theorem abs_position_sub_le {s t : ℝ} (h : (s, t) ∈ c.region) :
    |(patch.position s t).component i - (patch.footprint c).position.component i|
      ≤ (patch.footprint c).size.component i / 2 := by
  rw [component_position_sub, component_size, add_div]
  exact (abs_add_le _ _).trans (add_le_add (abs_mul_sub_le _ h.1) (abs_mul_sub_le _ h.2))

/-- Some corners of a cell are on the two sides of the footprint. -/
theorem exists_corners (c : Cell ℝ) :
    (∃ s ∈ c.sEnds, ∃ t ∈ c.tEnds,
      (patch.position s t).component i - (patch.footprint c).position.component i
        = -((patch.footprint c).size.component i / 2)) ∧
    ∃ s ∈ c.sEnds, ∃ t ∈ c.tEnds,
      (patch.position s t).component i - (patch.footprint c).position.component i
        = (patch.footprint c).size.component i / 2 := by
  obtain ⟨s, hs, s', hs', hlow, hhigh⟩ := exists_ends (patch.uAxis.component i) c.s c.ds
  obtain ⟨t, ht, t', ht', hlow', hhigh'⟩ := exists_ends (patch.vAxis.component i) c.t c.dt
  simp only [component_position_sub, component_size]
  refine ⟨⟨s, hs, t, ht, ?_⟩, s', hs', t', ht', ?_⟩
  · rw [hlow, hlow']
    ring
  · rw [hhigh, hhigh']
    ring

/-! ### Boxes -/

/-- The box of a cell covers the box of any cell within it, as the sides of the latter go through
corners of the cell within. -/
theorem box_subset_of_within (hq : q.Forward) (h : q.Within c) :
    (patch.footprint q).box ⊆ (patch.footprint c).box := by
  intro v hv
  refine Footprint.mem_box.mpr fun i => ?_
  obtain ⟨⟨s, hs, t, ht, hlow⟩, s', hs', t', ht', hhigh⟩ := patch.exists_corners i q
  have hcorner := patch.abs_position_sub_le i (h.region_subset (hq.ends_mem_region hs ht))
  have hcorner' := patch.abs_position_sub_le i (h.region_subset (hq.ends_mem_region hs' ht'))
  have hv := Footprint.mem_box.mp hv i
  rw [abs_le] at hv hcorner hcorner' ⊢
  constructor <;> linarith [hv.1, hv.2, hcorner.1, hcorner'.2]

/-- **Footprints cover their cells and nest**: in real arithmetic, take any patch and a cell that
does not extend backwards.

* Along every axis, no point of the cell is farther from the middle of the footprint than half of
  the extent, and some corner of the cell is as far as that.
* The box of every quadrant lies within the box of the cell.
* So does the box of every cell that comes of the cell by repeated splits. -/
theorem footprint_covers_and_nests (hds : 0 ≤ c.ds) (hdt : 0 ≤ c.dt) :
    (∀ i, (∀ s ∈ Set.Icc c.s (c.s + c.ds), ∀ t ∈ Set.Icc c.t (c.t + c.dt),
        |(patch.position s t).component i - (patch.footprint c).position.component i|
          ≤ (patch.footprint c).size.component i / 2) ∧
      ∃ s ∈ ({c.s, c.s + c.ds} : Set ℝ), ∃ t ∈ ({c.t, c.t + c.dt} : Set ℝ),
        |(patch.position s t).component i - (patch.footprint c).position.component i|
          = (patch.footprint c).size.component i / 2) ∧
      (∀ q ∈ c.split, (patch.footprint q).box ⊆ (patch.footprint c).box) ∧
      ∀ cells, c.Refinement cells →
        ∀ d ∈ cells, (patch.footprint d).box ⊆ (patch.footprint c).box := by
  have hc : c.Forward := ⟨hds, hdt⟩
  refine ⟨fun i => ⟨fun s hs t ht => patch.abs_position_sub_le i ⟨hs, ht⟩, ?_⟩, fun q hq => ?_,
    fun cells hcells d hd => ?_⟩
  · obtain ⟨-, s, hs, t, ht, hcorner⟩ := patch.exists_corners i c
    refine ⟨s, hs, t, ht, ?_⟩
    rw [hcorner, abs_of_nonneg (div_nonneg (patch.component_size_nonneg i hc) zero_le_two)]
  · obtain ⟨hforward, hwithin⟩ := hc.quadrant hq
    exact patch.box_subset_of_within hforward hwithin
  · obtain ⟨hforward, hwithin⟩ := hcells.forward_within hc d hd
    exact patch.box_subset_of_within hforward hwithin

/-- A patch with two axes that are not at right angles, one of them backwards along the first axis
of space. -/
noncomputable def skew : Patch ℝ :=
  ⟨⟨1, 0, 0⟩, ⟨-1, 1, 0⟩, ⟨1, -1, 1⟩, 0⟩

theorem footprint_covers_and_nests_skew :
    |(skew.position 1 (1 / 2)).component 0 - (skew.footprint ⟨0, 0, 1, 2, 0⟩).position.component 0|
        ≤ (skew.footprint ⟨0, 0, 1, 2, 0⟩).size.component 0 / 2 ∧
      (skew.footprint (Cell.quadrant ⟨0, 0, 1, 2, 0⟩ 1 0)).box
        ⊆ (skew.footprint ⟨0, 0, 1, 2, 0⟩).box := by
  obtain ⟨hcovers, hnests, -⟩ :=
    skew.footprint_covers_and_nests (c := ⟨0, 0, 1, 2, 0⟩) zero_le_one zero_le_two
  refine ⟨(hcovers 0).1 1 ?_ (1 / 2) ?_, hnests _ (by simp [Cell.split])⟩ <;>
    constructor <;> norm_num

end Patch

end TextureGraph
