import Mathlib.Order.BourbakiWitt
import Mathlib.Order.CompletePartialOrder
import Mathlib.Tactic.FieldSimp
import Mathlib.Tactic.Linarith
import TextureGraph.Proofs.Number.Exact
import TextureGraph.Sampling.Raster

/-!
# Partitions of cells

A cell stands for a rectangle of the plane, and a list of cells partitions it when they cover it
without overlap (`Cell.IsPartition`).

* `Cell.isPartition_grid`: equal columns and rows partition a cell.  The quadrants of a cell and the
  pixels of an image are grids.
* `Cell.IsPartition.flatMap`: partitions of the parts make a partition of the whole.
-/

namespace TextureGraph.Cell

variable {α : Type} [ExactArith α]

/-! ### Rectangles -/

/-- The points of a cell. -/
def region (c : Cell α) : Set (α × α) :=
  Set.Icc c.s (c.s + c.ds) ×ˢ Set.Icc c.t (c.t + c.dt)

/-- The points of a cell that are not on its edges. -/
def interior (c : Cell α) : Set (α × α) :=
  Set.Ioo c.s (c.s + c.ds) ×ˢ Set.Ioo c.t (c.t + c.dt)

/-- A cell that has an area. -/
structure Proper (c : Cell α) : Prop where
  /-- It extends in the first direction. -/
  ds : 0 < c.ds
  /-- It extends in the second direction. -/
  dt : 0 < c.dt

/-- A cell that lies within another one. -/
structure Within (c outer : Cell α) : Prop where
  /-- It does not start before it in the first direction. -/
  left : outer.s ≤ c.s
  /-- It does not end after it in the first direction. -/
  right : c.s + c.ds ≤ outer.s + outer.ds
  /-- It does not start before it in the second direction. -/
  bottom : outer.t ≤ c.t
  /-- It does not end after it in the second direction. -/
  top : c.t + c.dt ≤ outer.t + outer.dt

namespace Within

variable {c d outer : Cell α}

theorem refl (c : Cell α) : c.Within c :=
  ⟨le_rfl, le_rfl, le_rfl, le_rfl⟩

theorem trans (h : c.Within d) (h' : d.Within outer) : c.Within outer :=
  ⟨h'.left.trans h.left, h.right.trans h'.right, h'.bottom.trans h.bottom, h.top.trans h'.top⟩

theorem region_subset (h : c.Within outer) : c.region ⊆ outer.region :=
  Set.prod_mono (Set.Icc_subset_Icc h.left h.right) (Set.Icc_subset_Icc h.bottom h.top)

theorem interior_subset (h : c.Within outer) : c.interior ⊆ outer.interior :=
  Set.prod_mono (Set.Ioo_subset_Ioo h.left h.right) (Set.Ioo_subset_Ioo h.bottom h.top)

end Within

/-! ### Partitions -/

/-- Cells that cover a cell without overlap. -/
structure IsPartition (outer : Cell α) (cells : List (Cell α)) : Prop where
  /-- Each of the cells has an area. -/
  proper : ∀ c ∈ cells, c.Proper
  /-- No cell sticks out. -/
  within : ∀ c ∈ cells, c.Within outer
  /-- No two of the cells have an inner point in common. -/
  disjoint : cells.Pairwise fun c d => Disjoint c.interior d.interior
  /-- Together they have all points of the outer cell. -/
  covers : ⋃ c ∈ cells, c.region = outer.region
  /-- Their areas add up to the area of the outer cell. -/
  areas : (cells.map area).sum = outer.area

theorem isPartition_singleton {c : Cell α} (h : c.Proper) : c.IsPartition [c] where
  proper := by simp [h]
  within := by simp [Within.refl]
  disjoint := List.pairwise_singleton _ _
  covers := by simp
  areas := by simp

/-- Partitions of the parts make a partition of the whole. -/
theorem IsPartition.flatMap {outer : Cell α} {cells : List (Cell α)}
    {pieces : Cell α → List (Cell α)} (h : outer.IsPartition cells)
    (hpieces : ∀ c ∈ cells, c.IsPartition (pieces c)) :
    outer.IsPartition (cells.flatMap pieces) where
  proper := by
    intro d hd
    obtain ⟨c, hc, hd⟩ := List.mem_flatMap.mp hd
    exact (hpieces c hc).proper d hd
  within := by
    intro d hd
    obtain ⟨c, hc, hd⟩ := List.mem_flatMap.mp hd
    exact ((hpieces c hc).within d hd).trans (h.within c hc)
  disjoint := by
    refine List.pairwise_flatMap.mpr ⟨fun c hc => (hpieces c hc).disjoint, ?_⟩
    refine h.disjoint.imp_of_mem fun {c d} hc hd hdisjoint c' hc' d' hd' => ?_
    -- The pieces of two parts keep apart as the parts do.
    exact hdisjoint.mono ((hpieces c hc).within c' hc').interior_subset
      ((hpieces d hd).within d' hd').interior_subset
  covers := by
    rw [← h.covers]
    ext p
    simp only [List.mem_flatMap, Set.mem_iUnion, exists_prop]
    constructor
    · rintro ⟨d, ⟨c, hc, hd⟩, hp⟩
      exact ⟨c, hc, ((hpieces c hc).within d hd).region_subset hp⟩
    · rintro ⟨c, hc, hp⟩
      rw [← (hpieces c hc).covers] at hp
      simp only [Set.mem_iUnion, exists_prop] at hp
      obtain ⟨d, hd, hp⟩ := hp
      exact ⟨d, ⟨c, hc, hd⟩, hp⟩
  areas := by
    rw [← h.areas, List.flatMap_def, List.map_flatten, List.sum_flatten, List.map_map, List.map_map]
    exact congrArg List.sum (List.map_congr_left fun c hc => (hpieces c hc).areas)

/-! ### Grids -/

section Steps

variable {lo extent : α} {n : Nat}

/-- The steps that divide an interval reach its upper end. -/
theorem lo_add_steps (hn : 0 < n) (lo extent : α) : lo + n * (extent / n) = lo + extent := by
  have hne : (n : α) ≠ 0 := Nat.cast_ne_zero.mpr hn.ne'
  rw [mul_div_cancel₀ extent hne]

/-- A step that divides an interval lies within it. -/
theorem step_within (lo : α) (hextent : 0 ≤ extent) {i : Nat} (hi : i < n) :
    lo ≤ lo + i * (extent / n) ∧ lo + i * (extent / n) + extent / n ≤ lo + extent := by
  have hstep : 0 ≤ extent / (n : α) := div_nonneg hextent (Nat.cast_nonneg n)
  have hcast : (i : α) + 1 ≤ n := by exact_mod_cast hi
  have hmul : ((i : α) + 1) * (extent / n) ≤ n * (extent / n) :=
    mul_le_mul_of_nonneg_right hcast hstep
  have hsteps : lo + n * (extent / n) = lo + extent := lo_add_steps (Nat.zero_lt_of_lt hi) lo extent
  have hfirst : 0 ≤ (i : α) * (extent / n) := mul_nonneg (Nat.cast_nonneg i) hstep
  constructor <;> linarith

/-- Steps of one size leave out no number up to the end of the last one. -/
theorem exists_step {d x : α} (hn : 0 < n) (hx : x ∈ Set.Icc lo (lo + n * d)) :
    ∃ i < n, x ∈ Set.Icc (lo + i * d) (lo + i * d + d) := by
  induction n with
  | zero => exact absurd hn (lt_irrefl 0)
  | succ n ih =>
    have hend : lo + (n + 1 : Nat) * d = lo + n * d + d := by
      push_cast
      ring
    rcases le_total x (lo + n * d) with hle | hge
    · rcases Nat.eq_zero_or_pos n with rfl | hpos
      · refine ⟨0, Nat.one_pos, ?_, ?_⟩
        · simpa using hx.1
        · simpa using hx.2
      · obtain ⟨i, hi, hmem⟩ := ih hpos ⟨hx.1, hle⟩
        exact ⟨i, Nat.lt_succ_of_lt hi, hmem⟩
    · exact ⟨n, Nat.lt_succ_self n, hge, hx.2.trans_eq hend⟩

/-- Different steps have no inner point in common. -/
theorem disjoint_steps {d : α} (hd : 0 ≤ d) {i j : Nat} (hij : i < j) :
    Disjoint (Set.Ioo (lo + i * d) (lo + i * d + d)) (Set.Ioo (lo + j * d) (lo + j * d + d)) := by
  have hle : lo + i * d + d ≤ lo + j * d := by
    have hcast : (i : α) + 1 ≤ j := by exact_mod_cast hij
    have hmul : ((i : α) + 1) * d ≤ j * d := mul_le_mul_of_nonneg_right hcast hd
    linarith
  rw [Set.disjoint_left]
  rintro x ⟨-, hx⟩ ⟨hx', -⟩
  exact absurd (hx.trans_le hle) hx'.not_gt

end Steps

/-- A grid of columns and rows, row by row. -/
def grid (columns rows : Nat) (cell : Nat → Nat → Cell α) : List (Cell α) :=
  (List.range rows).flatMap fun j => (List.range columns).map fun i => cell i j

omit [ExactArith α] in
theorem mem_grid {columns rows : Nat} {cell : Nat → Nat → Cell α} {c : Cell α} :
    c ∈ grid columns rows cell ↔ ∃ j < rows, ∃ i < columns, cell i j = c := by
  simp [grid]

/-- A cell of a grid that divides another cell into equal columns and rows. -/
structure IsStep (outer : Cell α) (columns rows i j : Nat) (c : Cell α) : Prop where
  /-- The column starts after those before it. -/
  s : c.s = outer.s + i * (outer.ds / columns)
  /-- The row starts after those before it. -/
  t : c.t = outer.t + j * (outer.dt / rows)
  /-- The columns have the same width. -/
  ds : c.ds = outer.ds / columns
  /-- The rows have the same height. -/
  dt : c.dt = outer.dt / rows

namespace IsStep

variable {outer c d : Cell α} {columns rows i i' j j' : Nat}

theorem proper (h : IsStep outer columns rows i j c) (houter : outer.Proper)
    (hcolumns : 0 < columns) (hrows : 0 < rows) : c.Proper where
  ds := by
    rw [h.ds]
    exact div_pos houter.ds (Nat.cast_pos.mpr hcolumns)
  dt := by
    rw [h.dt]
    exact div_pos houter.dt (Nat.cast_pos.mpr hrows)

theorem within (h : IsStep outer columns rows i j c) (houter : outer.Proper) (hi : i < columns)
    (hj : j < rows) : c.Within outer := by
  obtain ⟨hleft, hright⟩ := step_within outer.s houter.ds.le hi
  obtain ⟨hbottom, htop⟩ := step_within outer.t houter.dt.le hj
  constructor
  · rwa [h.s]
  · rwa [h.s, h.ds]
  · rwa [h.t]
  · rwa [h.t, h.dt]

theorem disjoint_of_column_lt (h : IsStep outer columns rows i j c)
    (h' : IsStep outer columns rows i' j' d) (houter : outer.Proper) (hi : i < i') :
    Disjoint c.interior d.interior := by
  have hwidth : 0 ≤ outer.ds / (columns : α) := div_nonneg houter.ds.le (Nat.cast_nonneg columns)
  unfold interior
  rw [h.s, h.ds, h'.s, h'.ds]
  exact Set.disjoint_prod.mpr (.inl (disjoint_steps hwidth hi))

theorem disjoint_of_row_lt (h : IsStep outer columns rows i j c)
    (h' : IsStep outer columns rows i' j' d) (houter : outer.Proper) (hj : j < j') :
    Disjoint c.interior d.interior := by
  have hheight : 0 ≤ outer.dt / (rows : α) := div_nonneg houter.dt.le (Nat.cast_nonneg rows)
  unfold interior
  rw [h.t, h.dt, h'.t, h'.dt]
  exact Set.disjoint_prod.mpr (.inr (disjoint_steps hheight hj))

theorem area_eq (h : IsStep outer columns rows i j c) :
    c.area = outer.ds / columns * (outer.dt / rows) := by
  rw [area, h.ds, h.dt]

end IsStep

section Grids

variable {outer : Cell α} {columns rows : Nat} {cell : Nat → Nat → Cell α}

/-- The cells of a grid leave out no point. -/
theorem exists_mem_grid (hcolumns : 0 < columns) (hrows : 0 < rows)
    (hcell : ∀ i j, IsStep outer columns rows i j (cell i j)) {p : α × α} (hp : p ∈ outer.region) :
    ∃ c ∈ grid columns rows cell, p ∈ c.region := by
  obtain ⟨hx, hy⟩ := hp
  rw [← lo_add_steps hcolumns] at hx
  rw [← lo_add_steps hrows] at hy
  obtain ⟨i, hi, hx⟩ := exists_step hcolumns hx
  obtain ⟨j, hj, hy⟩ := exists_step hrows hy
  refine ⟨cell i j, mem_grid.mpr ⟨j, hj, i, hi, rfl⟩, ?_, ?_⟩
  · rwa [(hcell i j).s, (hcell i j).ds]
  · rwa [(hcell i j).t, (hcell i j).dt]

theorem areas_grid (hcolumns : 0 < columns) (hrows : 0 < rows)
    (hcell : ∀ i j, IsStep outer columns rows i j (cell i j)) :
    ((grid columns rows cell).map area).sum = outer.area := by
  have harea : ∀ c ∈ grid columns rows cell, c.area = outer.ds / columns * (outer.dt / rows) := by
    intro c hc
    obtain ⟨j, -, i, -, rfl⟩ := mem_grid.mp hc
    exact (hcell i j).area_eq
  have hlength : (grid columns rows cell).length = rows * columns := by
    simp [grid]
  have hcolumns' : (columns : α) ≠ 0 := Nat.cast_ne_zero.mpr hcolumns.ne'
  have hrows' : (rows : α) ≠ 0 := Nat.cast_ne_zero.mpr hrows.ne'
  rw [List.map_congr_left harea, List.map_const', List.sum_replicate, hlength, nsmul_eq_mul, area]
  push_cast
  field_simp

/-- Equal columns and rows partition a cell. -/
theorem isPartition_grid (houter : outer.Proper) (hcolumns : 0 < columns) (hrows : 0 < rows)
    (hcell : ∀ i j, IsStep outer columns rows i j (cell i j)) :
    outer.IsPartition (grid columns rows cell) := by
  have hwithin : ∀ c ∈ grid columns rows cell, c.Within outer := by
    intro c hc
    obtain ⟨j, hj, i, hi, rfl⟩ := mem_grid.mp hc
    exact (hcell i j).within houter hi hj
  refine ⟨?_, hwithin, ?_, ?_, areas_grid hcolumns hrows hcell⟩
  · intro c hc
    obtain ⟨j, -, i, -, rfl⟩ := mem_grid.mp hc
    exact (hcell i j).proper houter hcolumns hrows
  · -- Cells of one row lie in different columns, all others in different rows.
    refine List.pairwise_flatMap.mpr ⟨fun j _ => List.pairwise_map.mpr ?_, ?_⟩
    · exact List.pairwise_lt_range.imp fun {i i'} hi =>
        (hcell i j).disjoint_of_column_lt (hcell i' j) houter hi
    · refine List.pairwise_lt_range.imp fun {j j'} hj c hc c' hc' => ?_
      obtain ⟨i, -, rfl⟩ := List.mem_map.mp hc
      obtain ⟨i', -, rfl⟩ := List.mem_map.mp hc'
      exact (hcell i j).disjoint_of_row_lt (hcell i' j') houter hj
  · refine subset_antisymm (Set.iUnion₂_subset fun c hc => (hwithin c hc).region_subset) ?_
    intro p hp
    obtain ⟨c, hc, hpc⟩ := exists_mem_grid hcolumns hrows hcell hp
    exact Set.mem_biUnion hc hpc

end Grids

/-- The quadrants of a cell partition it. -/
theorem isPartition_split {c : Cell α} (h : c.Proper) : c.IsPartition c.split := by
  have hsplit : c.split = grid 2 2 fun i j => c.quadrant i j := rfl
  rw [hsplit]
  refine isPartition_grid h Nat.two_pos Nat.two_pos fun i j => ?_
  have hhalf : ∀ a : α, 1 / 2 * a = a / (2 : Nat) := by
    intro a
    push_cast
    ring
  constructor <;>
    simp only [quadrant, ExactArith.half_eq, hhalf, ExactArith.ofInt_eq, Int.cast_natCast]

/-- The unit square. -/
def unit : Cell α where
  s := 0
  t := 0
  ds := 1
  dt := 1

theorem proper_unit : (unit : Cell α).Proper :=
  ⟨one_pos, one_pos⟩

theorem region_unit : (unit : Cell α).region = Set.Icc 0 1 ×ˢ Set.Icc 0 1 := by
  simp [region, unit]

theorem area_unit : (unit : Cell α).area = 1 :=
  mul_one 1

/-- The pixels of an image partition the unit square. -/
theorem isPartition_cells {width height : Nat} (hwidth : 0 < width) (hheight : 0 < height) :
    (unit : Cell α).IsPartition (Raster.cells width height) := by
  refine isPartition_grid proper_unit hwidth hheight fun x y => ?_
  constructor <;> simp [Raster.pixelCell, unit]

end TextureGraph.Cell
