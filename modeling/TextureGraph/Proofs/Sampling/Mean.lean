import TextureGraph.Proofs.Sampling.Refinement
import TextureGraph.Proofs.Sampling.Visits

/-!
# Means are convex combinations

`Sampler.average_convex`: in real arithmetic, the mean over a cell that has an area weighs each leaf
with `4 ^ -n`, where `n` is the number of splits that led from the cell to the leaf.

* `Cell.Refinement.sharedBy`: whichever cells are split, these weights add up to one and are the
  parts of the area that the cells have.  This needs no sign of the extents and no area.
* `Sampler.mean_of_sharedBy`: so the area of the whole cell cancels out of the mean.
* `Sampler.mean_mem_Icc`: bounds of the leaves are bounds of the mean.
-/

namespace TextureGraph

/-! ### Shares of a cell -/

namespace Cell

variable {α : Type} [ExactArith α] {c d q : Cell α} {cells : List (Cell α)}

theorem area_of_mem_split (hq : q ∈ c.split) : q.area = c.area / 4 := by
  obtain ⟨i, j, rfl⟩ := exists_quadrant_of_mem_split hq
  simp only [area, quadrant, ExactArith.half_eq]
  ring

/-- The part of a cell that another one is by its depth: one fourth for every split. -/
def share (c d : Cell α) : α :=
  ((4 : Nat) : α) ^ (-((d.depth : ℤ) - c.depth))

theorem share_eq (c d : Cell α) : c.share d = 4 ^ (-((d.depth : ℤ) - c.depth)) := by
  rw [share, Nat.cast_ofNat]

theorem share_pos (c d : Cell α) : 0 < c.share d := by
  rw [share_eq]
  exact zpow_pos four_pos _

@[simp]
theorem share_self (c : Cell α) : c.share c = 1 := by
  rw [share_eq, sub_self, neg_zero, zpow_zero]

theorem share_of_mem_split (hq : q ∈ c.split) (d : Cell α) : c.share d = q.share d * 4⁻¹ := by
  have hdepth : -((d.depth : ℤ) - c.depth) = -((d.depth : ℤ) - q.depth) - 1 := by
    rw [depth_of_mem_split hq]
    push_cast
    ring
  rw [share_eq, share_eq, hdepth, zpow_sub_one₀ four_ne_zero]

/-- Cells whose depths tell which part of a cell they are. -/
structure SharedBy (c : Cell α) (cells : List (Cell α)) : Prop where
  /-- The cells are as deep as the whole cell at least. -/
  depth_le : ∀ d ∈ cells, c.depth ≤ d.depth
  /-- The areas are those of the parts. -/
  area_eq : ∀ d ∈ cells, d.area = c.share d * c.area
  /-- The parts make up the whole. -/
  sum_eq : (cells.map c.share).sum = 1

namespace SharedBy

theorem whole (c : Cell α) : c.SharedBy [c] := by
  constructor <;> simp

/-- **Step**: what shares the quadrants shares the cell. -/
theorem split {parts : Cell α → List (Cell α)} (h : ∀ q ∈ c.split, q.SharedBy (parts q)) :
    c.SharedBy (c.split.flatMap parts) where
  depth_le := by
    intro d hd
    obtain ⟨q, hq, hd⟩ := List.mem_flatMap.mp hd
    exact (Nat.le_succ c.depth).trans ((depth_of_mem_split hq).ge.trans ((h q hq).depth_le d hd))
  area_eq := by
    intro d hd
    obtain ⟨q, hq, hd⟩ := List.mem_flatMap.mp hd
    rw [(h q hq).area_eq d hd, area_of_mem_split hq, share_of_mem_split hq]
    ring
  sum_eq := by
    have hquadrant : ∀ q ∈ c.split, ((parts q).map c.share).sum = 4⁻¹ := by
      intro q hq
      have hshare : (parts q).map c.share = (parts q).map fun d => q.share d * 4⁻¹ :=
        List.map_congr_left fun d _ => share_of_mem_split hq d
      rw [hshare, List.sum_map_mul_right, (h q hq).sum_eq, one_mul]
    have hquadrants : c.split.map (fun q => ((parts q).map c.share).sum) = c.split.map fun _ => 4⁻¹ :=
      List.map_congr_left hquadrant
    rw [List.map_flatMap, List.flatMap_def, List.sum_flatten, List.map_map]
    refine (congrArg List.sum hquadrants).trans ?_
    simp only [Cell.split, List.map_cons, List.map_nil, List.sum_cons, List.sum_nil]
    norm_num

end SharedBy

/-- **Run**: whichever cells are split, the cells that come of a cell share it. -/
theorem Refinement.sharedBy (h : c.Refinement cells) : c.SharedBy cells := by
  induction h with
  | whole c => exact .whole c
  | split _ ih => exact .split ih

end Cell

namespace Sampler

/-! ### Means of leaves -/

section Means

variable {c : Cell ℝ} {area low high : ℝ} {leaves : List (Leaf ℝ)}

/-- In real arithmetic, the mean over an area is the weighted sum over the area. -/
theorem mean_of_ne_zero (h : area ≠ 0) (leaves : List (Leaf ℝ)) :
    mean area leaves = (leaves.map fun leaf => leaf.value * leaf.cell.area).sum / area := by
  have harea : (area == Arith.toOfScientific.ofScientific 0 true 1) = false := by
    rw [ExactArith.zero_eq]
    exact decide_eq_false h
  unfold mean Arith.sum
  rw [harea, ExactArith.zero_eq, neg_zero, ← List.sum_eq_foldl]
  rfl

/-- Without an area, the mean is the value of the first leaf. -/
theorem mean_zero (leaf : Leaf ℝ) (leaves : List (Leaf ℝ)) :
    mean 0 (leaf :: leaves) = leaf.value := by
  have harea : ((0 : ℝ) == Arith.toOfScientific.ofScientific 0 true 1) = true := by
    rw [ExactArith.zero_eq]
    exact decide_eq_true rfl
  unfold mean
  rw [harea]
  rfl

/-- The area of the whole cell cancels out, whatever its sign. -/
theorem mean_of_sharedBy (h : c.SharedBy (leaves.map Leaf.cell)) (hc : c.area ≠ 0) :
    mean c.area leaves = (leaves.map fun leaf => leaf.value * c.share leaf.cell).sum := by
  have hleaf : ∀ leaf ∈ leaves, leaf.value * leaf.cell.area
      = leaf.value * c.share leaf.cell * c.area := by
    intro leaf hleaf
    rw [h.area_eq leaf.cell (List.mem_map_of_mem hleaf), mul_assoc]
  rw [mean_of_ne_zero hc, List.map_congr_left hleaf, List.sum_map_mul_right,
    mul_div_cancel_right₀ _ hc]

theorem exists_cons_of_sharedBy (h : c.SharedBy (leaves.map Leaf.cell)) :
    ∃ first rest, leaves = first :: rest := by
  refine List.exists_cons_of_ne_nil fun hnil => ?_
  have hsum := h.sum_eq
  rw [hnil] at hsum
  exact zero_ne_one hsum

/-- What the values of all leaves lie between, their mean lies between. -/
theorem mean_mem_Icc (h : c.SharedBy (leaves.map Leaf.cell))
    (hvalues : ∀ leaf ∈ leaves, leaf.value ∈ Set.Icc low high) :
    mean c.area leaves ∈ Set.Icc low high := by
  by_cases hc : c.area = 0
  · obtain ⟨first, rest, rfl⟩ := exists_cons_of_sharedBy h
    rw [hc, mean_zero]
    exact hvalues first List.mem_cons_self
  · have hbound : ∀ a, (leaves.map fun leaf => a * c.share leaf.cell).sum = a := by
      intro a
      have hsum := h.sum_eq
      rw [List.map_map] at hsum
      rw [List.sum_map_mul_left]
      exact (congrArg (a * ·) hsum).trans (mul_one a)
    rw [mean_of_sharedBy h hc]
    constructor
    · calc low = (leaves.map fun leaf => low * c.share leaf.cell).sum := (hbound low).symm
        _ ≤ _ := List.sum_le_sum fun leaf hleaf =>
          mul_le_mul_of_nonneg_right (hvalues leaf hleaf).1 (c.share_pos leaf.cell).le
    · calc (leaves.map fun leaf => leaf.value * c.share leaf.cell).sum
          ≤ (leaves.map fun leaf => high * c.share leaf.cell).sum :=
            List.sum_le_sum fun leaf hleaf =>
              mul_le_mul_of_nonneg_right (hvalues leaf hleaf).2 (c.share_pos leaf.cell).le
        _ = high := hbound high

/-- Some leaves have the smallest and the largest value, and the mean lies between them. -/
theorem exists_extremal_leaves (h : c.SharedBy (leaves.map Leaf.cell)) :
    ∃ smallest ∈ leaves, ∃ largest ∈ leaves,
      (∀ leaf ∈ leaves, leaf.value ∈ Set.Icc smallest.value largest.value) ∧
      mean c.area leaves ∈ Set.Icc smallest.value largest.value := by
  obtain ⟨first, rest, hleaves⟩ := exists_cons_of_sharedBy h
  have hfinite : {leaf | leaf ∈ leaves}.Finite := leaves.finite_toSet
  have hnonempty : {leaf | leaf ∈ leaves}.Nonempty := ⟨first, hleaves ▸ List.mem_cons_self⟩
  obtain ⟨smallest, hsmallest, hlow⟩ := Set.exists_min_image _ Leaf.value hfinite hnonempty
  obtain ⟨largest, hlargest, hhigh⟩ := Set.exists_max_image _ Leaf.value hfinite hnonempty
  have hvalues : ∀ leaf ∈ leaves, leaf.value ∈ Set.Icc smallest.value largest.value :=
    fun leaf hleaf => ⟨hlow leaf hleaf, hhigh leaf hleaf⟩
  exact ⟨smallest, hsmallest, largest, hlargest, hvalues, mean_mem_Icc h hvalues⟩

end Means

/-! ### Means over cells and images -/

section Averages

variable {M : Type} [TextureModule M ℝ] {f : FrozenGraph M ℝ} {target : Target}
  {settings : Settings ℝ}

/-- **Means are convex combinations**: in real arithmetic, take a graph, an output that carries
numbers, a patch and settings that can be used.  Every cell, of any sign and size, is sampled and
has a mean, and the pixels of an image are the means over their cells.

* The leaves are at least as deep as the cell; their weights `4 ^ -n`, where `n` is how much deeper
  they are, are positive and add up to one.
* If the cell has an area, the mean is the sum of the values of the leaves with these weights;
  otherwise it is the value of the first leaf.
* The mean lies between the smallest and the largest value of a leaf.
* An output that has one value over all cells of the patch has that mean. -/
theorem average_convex (patch : Patch ℝ) (hsettings : settings.validate = .ok ())
    (htarget : f.CarriesNumbers target) :
    ∃ (s : Sampler M ℝ) (sampling : Cell ℝ → Sampling ℝ) (value : Cell ℝ → ℝ),
      create f target patch settings = .ok s ∧
      (∀ width height, 0 < width → 0 < height →
        ∃ raster, Raster.render f target patch settings width height = .ok raster ∧
          raster.pixels = (Raster.cells width height).map value) ∧
      ∀ c : Cell ℝ, s.sample c = .ok (sampling c) ∧
        s.average c = .ok (value c, (sampling c).work) ∧
        (∀ leaf ∈ (sampling c).leaves, c.depth ≤ leaf.cell.depth ∧
          0 < (4 : ℝ) ^ (-((leaf.cell.depth : ℤ) - c.depth))) ∧
        ((sampling c).leaves.map fun leaf =>
          (4 : ℝ) ^ (-((leaf.cell.depth : ℤ) - c.depth))).sum = 1 ∧
        (c.ds * c.dt ≠ 0 → value c = ((sampling c).leaves.map fun leaf =>
          leaf.value * (4 : ℝ) ^ (-((leaf.cell.depth : ℤ) - c.depth))).sum) ∧
        (c.ds * c.dt = 0 → ∃ first rest,
          (sampling c).leaves = first :: rest ∧ value c = first.value) ∧
        (∃ smallest ∈ (sampling c).leaves, ∃ largest ∈ (sampling c).leaves,
          (∀ leaf ∈ (sampling c).leaves, leaf.value ∈ Set.Icc smallest.value largest.value) ∧
          value c ∈ Set.Icc smallest.value largest.value) ∧
        ∀ a, (∀ d, f.evaluateScalar target ⟨patch.footprint d, settings.baseBlur⟩ = .ok a) →
          value c = a := by
  obtain ⟨s, hcreate⟩ : ∃ s, create f target patch settings = .ok s :=
    exists_create_iff.mpr ⟨hsettings, htarget⟩
  obtain ⟨-, -, rfl⟩ := create_ok hcreate
  have haccepted := accepted_of_create hcreate
  obtain ⟨sampling, hsampling⟩ := haccepted.exists_sampling
  have hshared : ∀ c : Cell ℝ, c.SharedBy ((sampling c).leaves.map Leaf.cell) :=
    fun c => (haccepted.refinement hsampling c).sharedBy
  refine ⟨_, sampling, fun c => mean c.area (sampling c).leaves, hcreate,
    fun width height => exists_render hcreate hsampling, fun c => ⟨hsampling c,
      average_eq_ok (hsampling c), fun leaf hleaf => ⟨?_, c.share_pos leaf.cell⟩, ?_,
      mean_of_sharedBy (hshared c), fun hc => ?_, exists_extremal_leaves (hshared c),
      fun a ha => ?_⟩⟩
  · exact (hshared c).depth_le leaf.cell (List.mem_map_of_mem hleaf)
  · have hsum := (hshared c).sum_eq
    rwa [List.map_map] at hsum
  · obtain ⟨first, rest, hleaves⟩ := exists_cons_of_sharedBy (hshared c)
    have harea : c.area = 0 := hc
    refine ⟨first, rest, hleaves, ?_⟩
    show mean c.area (sampling c).leaves = first.value
    rw [harea, hleaves, mean_zero]
  · have hvalues : ∀ leaf ∈ (sampling c).leaves, leaf.value ∈ Set.Icc a a := by
      intro leaf hleaf
      have hvalue := (haccepted.leaf_of_mem hsampling c hleaf).1
      rw [Except.ok.inj (hvalue.symm.trans (ha leaf.cell))]
      exact ⟨le_rfl, le_rfl⟩
    obtain ⟨hle, hge⟩ := mean_mem_Icc (hshared c) hvalues
    exact le_antisymm hge hle

/-- Of a cell that extends backwards in one direction, and of one that has no area. -/
theorem average_convex_firstCoordinate :
    ∃ f, firstCoordinate.freeze = .ok f ∧
      ∃ (s : Sampler (Catalog ℝ) ℝ) (sampling : Cell ℝ → Sampling ℝ) (value : Cell ℝ → ℝ),
        create f ⟨⟨0⟩, 0⟩ .standard .standard = .ok s ∧
        s.average ⟨2, 3, -1, 4, 1⟩ = .ok (value ⟨2, 3, -1, 4, 1⟩,
          (sampling ⟨2, 3, -1, 4, 1⟩).work) ∧
        value ⟨2, 3, -1, 4, 1⟩ = ((sampling ⟨2, 3, -1, 4, 1⟩).leaves.map fun leaf =>
          leaf.value * (4 : ℝ) ^ (-((leaf.cell.depth : ℤ) - (1 : Nat)))).sum ∧
        ∃ first rest, (sampling ⟨2, 3, 0, 4, 0⟩).leaves = first :: rest ∧
          value ⟨2, 3, 0, 4, 0⟩ = first.value := by
  have hfreeze : firstCoordinate.freeze = .ok ⟨firstCoordinate, ⟨[⟨0⟩], 1⟩⟩ :=
    Graph.freeze_eq_ok (by decide +kernel)
  obtain ⟨s, sampling, value, hcreate, -, hall⟩ :
      ∃ s sampling value,
        create ⟨firstCoordinate, ⟨[⟨0⟩], 1⟩⟩ ⟨⟨0⟩, 0⟩ .standard .standard = .ok s ∧ _ :=
    average_convex .standard validate_standard ⟨_, _, rfl, rfl, by decide⟩
  obtain ⟨-, haverage, -, -, hmean, -⟩ := hall ⟨2, 3, -1, 4, 1⟩
  obtain ⟨-, -, -, -, -, hfirst, -⟩ := hall ⟨2, 3, 0, 4, 0⟩
  exact ⟨_, hfreeze, s, sampling, value, hcreate, haverage, hmean (by norm_num),
    hfirst (zero_mul 4)⟩

end Averages

end Sampler

end TextureGraph
