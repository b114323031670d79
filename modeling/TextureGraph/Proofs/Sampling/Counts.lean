import TextureGraph.Proofs.Sampling.Visits

/-!
# What is counted

The counts of a sampling determine each other, whichever cells are split.

* `Work.Tally`: each split makes four cells of one, and the graph is asked twice for a leaf and once
  for a cell that is split, except where the cell is split in any case.  This is kept up when work is
  added up, so that it holds of cells (`Sampler.Accepted.tally`) and of images.
* `Sampler.forced_eq`: the cells that are split in any case are all those at the first levels.
* `Sampler.Accepted.isGreatest_deepest`, `Sampler.Accepted.leaves_le`: how deep and how many the leaves
  are.
-/

namespace TextureGraph

/-! ### Tallies -/

namespace Work

/-- The counts for a number of cells, when there were so many cells over which the error was not asked
for. -/
structure Tally (cells forced : Nat) (w : Work) : Prop where
  /-- A split makes four cells of one. -/
  leaves_eq : w.leaves = cells + 3 * w.refined
  /-- The graph is asked for the value and the error of a leaf, and for the error over a cell that is
  split. -/
  evaluations_eq : w.evaluations + forced = 2 * w.leaves + w.refined

namespace Tally

variable {cells cells' forced forced' depth : Nat} {a b : Work}

theorem zero : Tally 0 0 0 :=
  ⟨rfl, rfl⟩

theorem leaf : Tally 1 0 { evaluations := 2, leaves := 1, deepest := depth } :=
  ⟨rfl, rfl⟩

theorem add (h : Tally cells forced a) (h' : Tally cells' forced' b) :
    Tally (cells + cells') (forced + forced') (a + b) := by
  obtain ⟨hleaves, hevaluations⟩ := h
  obtain ⟨hleaves', hevaluations'⟩ := h'
  constructor
  · change a.leaves + b.leaves = cells + cells' + 3 * (a.refined + b.refined)
    omega
  · change a.evaluations + b.evaluations + (forced + forced')
      = 2 * (a.leaves + b.leaves) + (a.refined + b.refined)
    omega

theorem sum {β : Type} {work : β → Work} {forced : β → Nat} {parts : List β}
    (h : ∀ x ∈ parts, Tally 1 (forced x) (work x)) :
    Tally parts.length (parts.map forced).sum (parts.map work).sum := by
  induction parts with
  | nil => exact zero
  | cons x parts ih =>
    obtain ⟨hx, hparts⟩ := List.forall_mem_cons.mp h
    rw [List.length_cons, Nat.add_comm]
    exact hx.add (ih hparts)

/-- A cell is split into four. -/
theorem split {own : Nat} (hown : own ≤ 1) (h : Tally 4 forced a) :
    Tally 1 (1 - own + forced) ({ evaluations := own, refined := 1 } + a) := by
  obtain ⟨hleaves, hevaluations⟩ := h
  constructor
  · change 0 + a.leaves = 1 + 3 * (1 + a.refined)
    omega
  · change own + a.evaluations + (1 - own + forced) = 2 * (0 + a.leaves) + (1 + a.refined)
    omega

end Tally

/-! ### The deepest leaf -/

variable {w : Work} {works : List Work}

theorem deepest_le_sum (h : w ∈ works) : w.deepest ≤ works.sum.deepest := by
  induction works with
  | nil => cases h
  | cons first works ih =>
    change _ ≤ max first.deepest works.sum.deepest
    rcases List.mem_cons.mp h with rfl | h
    · exact le_max_left _ _
    · exact (ih h).trans (le_max_right _ _)

theorem exists_deepest_eq_sum (h : works ≠ []) : ∃ w ∈ works, works.sum.deepest = w.deepest := by
  induction works with
  | nil => exact absurd rfl h
  | cons first works ih =>
    have hdeepest : (first :: works).sum.deepest = max first.deepest works.sum.deepest := rfl
    rw [hdeepest]
    by_cases hnil : works = []
    · exact ⟨first, List.mem_cons_self, by rw [hnil]; exact Nat.max_zero _⟩
    · obtain ⟨w, hw, hsum⟩ := ih hnil
      rcases max_choice first.deepest works.sum.deepest with hmax | hmax
      · exact ⟨first, List.mem_cons_self, hmax⟩
      · exact ⟨w, List.mem_cons_of_mem _ hw, hmax.trans hsum⟩

end Work

/-- There are four quadrants. -/
theorem Cell.sum_map_const_split {α : Type} [Arith α] (c : Cell α) (n : Nat) :
    (c.split.map fun _ => n).sum = 4 * n := by
  rw [List.map_const', List.sum_replicate, smul_eq_mul]
  rfl

namespace Sampler

variable {M α : Type} [Arith α] [TextureModule M α] {s : Sampler M α} {c : Cell α}

/-! ### Cells that are split in any case -/

/-- The number of cells that are visited and not as deep as they have to be. -/
def forced (s : Sampler M α) (c : Cell α) : Nat :=
  (s.visited c).countP fun q => q.depth < s.settings.minDepth

theorem forced_of_isSplit (hc : s.IsSplit c) :
    s.forced c
      = (c.split.map s.forced).sum + if c.depth < s.settings.minDepth then 1 else 0 := by
  rw [forced, visited_of_isSplit hc, List.countP_cons, List.countP_flatMap]
  simp only [decide_eq_true_eq]
  rfl

/-- At each of the first levels, there are four times as many as at the level before. -/
theorem forced_eq (s : Sampler M α) (c : Cell α) :
    s.forced c = ∑ level ∈ Finset.range (s.settings.minDepth - c.depth), 4 ^ level := by
  induction c using s.cell_induction with
  | leaf c hc =>
    have hmin : s.settings.minDepth ≤ c.depth := Nat.not_lt.mp (not_or.mp hc).1
    rw [forced, visited_of_not_isSplit hc, Nat.sub_eq_zero_of_le hmin]
    simpa using hmin
  | split c hc ih =>
    have hquadrants : ∀ q ∈ c.split, s.forced q
        = ∑ level ∈ Finset.range (s.settings.minDepth - (c.depth + 1)), 4 ^ level := by
      intro q hq
      rw [ih q hq, Cell.depth_of_mem_split hq]
    rw [forced_of_isSplit hc, List.map_congr_left hquadrants, Cell.sum_map_const_split]
    by_cases hmin : c.depth < s.settings.minDepth
    · have hlevels : s.settings.minDepth - c.depth = s.settings.minDepth - (c.depth + 1) + 1 := by
        omega
      rw [if_pos hmin, hlevels, geom_sum_succ]
    · rw [if_neg hmin, Nat.sub_eq_zero_of_le (Nat.not_lt.mp hmin),
        Nat.sub_eq_zero_of_le (Nat.le_succ_of_le (Nat.not_lt.mp hmin))]
      rfl

theorem forced_eq_div (s : Sampler M α) (c : Cell α) :
    s.forced c = (4 ^ (s.settings.minDepth - c.depth) - 1) / 3 := by
  rw [forced_eq, Nat.geomSum_eq (by decide)]

/-! ### Counts of a cell -/

namespace Accepted

variable {sampling : Cell α → Sampling α}

variable (h : s.Accepted) (hsampling : ∀ c, s.sample c = .ok (sampling c))

include h hsampling

/-- **Run**: the counts of a cell tally, whichever cells are split. -/
theorem tally (c : Cell α) : (sampling c).work.Tally 1 (s.forced c) := by
  induction c using s.cell_induction with
  | leaf c hc =>
    obtain ⟨value, error, -, -, heq⟩ := h.exists_leaf_of_not_isSplit hsampling hc
    have hforced : s.forced c = 0 := by
      rw [forced_eq, Nat.sub_eq_zero_of_le (Nat.not_lt.mp (not_or.mp hc).1)]
      rfl
    rw [heq, hforced]
    exact .leaf
  | split c hc ih =>
    have hquadrants : Work.Tally 4 (c.split.map s.forced).sum
        (c.split.map fun q => (sampling q).work).sum := .sum ih
    rw [work_of_isSplit hsampling hc, forced_of_isSplit hc]
    by_cases hmin : c.depth < s.settings.minDepth
    · rw [if_pos hmin, if_pos hmin, Nat.add_comm]
      exact hquadrants.split (Nat.zero_le 1)
    · rw [if_neg hmin, if_neg hmin, Nat.add_comm]
      exact hquadrants.split le_rfl

theorem leaves_eq_length (c : Cell α) : (sampling c).work.leaves = (sampling c).leaves.length := by
  induction c using s.cell_induction with
  | leaf c hc =>
    obtain ⟨value, error, -, -, heq⟩ := h.exists_leaf_of_not_isSplit hsampling hc
    rw [heq]
    rfl
  | split c hc ih =>
    have hquadrants : c.split.map (Work.leaves ∘ fun q => (sampling q).work)
        = c.split.map fun q => (sampling q).leaves.length := List.map_congr_left ih
    rw [work_of_isSplit hsampling hc, leaves_of_isSplit hsampling hc, List.length_flatMap,
      ← hquadrants, ← List.map_map, ← Work.leaves_sum]
    exact Nat.zero_add _

/-- Every level that is left may make four leaves of one. -/
theorem leaves_le (hdepths : s.settings.minDepth ≤ s.settings.maxDepth) (c : Cell α) :
    (sampling c).work.leaves ≤ 4 ^ (s.settings.maxDepth - c.depth) := by
  induction c using s.cell_induction with
  | leaf c hc =>
    obtain ⟨value, error, -, -, heq⟩ := h.exists_leaf_of_not_isSplit hsampling hc
    rw [heq]
    exact Nat.one_le_pow _ _ (by decide)
  | split c hc ih =>
    have hmax := hc.depth_lt_maxDepth hdepths
    have hlevels : s.settings.maxDepth - c.depth = s.settings.maxDepth - (c.depth + 1) + 1 := by
      omega
    have hquadrants : ∀ n ∈ (c.split.map fun q => (sampling q).work).map Work.leaves,
        n ≤ 4 ^ (s.settings.maxDepth - (c.depth + 1)) := by
      simp only [List.forall_mem_map]
      intro q hq
      rw [← Cell.depth_of_mem_split hq]
      exact ih q hq
    rw [work_of_isSplit hsampling hc, hlevels, Nat.pow_succ, Nat.mul_comm]
    change 0 + Work.leaves _ ≤ _
    rw [Nat.zero_add, Work.leaves_sum]
    exact List.sum_le_card_nsmul _ _ hquadrants

/-- The greatest depth that is counted is that of a leaf, and no leaf is deeper. -/
theorem isGreatest_deepest (c : Cell α) :
    IsGreatest {d | ∃ leaf ∈ (sampling c).leaves, leaf.cell.depth = d}
      (sampling c).work.deepest := by
  induction c using s.cell_induction with
  | leaf c hc =>
    obtain ⟨value, error, -, -, heq⟩ := h.exists_leaf_of_not_isSplit hsampling hc
    rw [heq]
    refine ⟨⟨_, List.mem_cons_self, rfl⟩, ?_⟩
    rintro d ⟨leaf, hleaf, rfl⟩
    obtain rfl := List.mem_singleton.mp hleaf
    exact le_rfl
  | split c hc ih =>
    have hdeepest : (sampling c).work.deepest
        = (c.split.map fun q => (sampling q).work).sum.deepest := by
      rw [work_of_isSplit hsampling hc]
      exact Nat.zero_max _
    rw [hdeepest, leaves_of_isSplit hsampling hc]
    constructor
    · have hne : (c.split.map fun q => (sampling q).work) ≠ [] := List.cons_ne_nil _ _
      obtain ⟨w, hw, hsum⟩ := Work.exists_deepest_eq_sum hne
      obtain ⟨q, hq, rfl⟩ := List.mem_map.mp hw
      obtain ⟨⟨leaf, hleaf, hdepth⟩, -⟩ := ih q hq
      exact ⟨leaf, List.mem_flatMap_of_mem hq hleaf, hdepth.trans hsum.symm⟩
    · rintro d ⟨leaf, hleaf, rfl⟩
      obtain ⟨q, hq, hleaf⟩ := List.mem_flatMap.mp hleaf
      have hquadrant := (ih q hq).2 ⟨leaf, hleaf, rfl⟩
      exact hquadrant.trans (Work.deepest_le_sum (List.mem_map_of_mem hq))

end Accepted

/-! ### Counts of an image -/

variable {f : FrozenGraph M α} {target : Target} {patch : Patch α} {settings : Settings α}
  {sampling : Cell α → Sampling α} {width height : Nat}

theorem depth_of_mem_cells (hc : c ∈ Raster.cells width height) : c.depth = 0 := by
  obtain ⟨y, -, hc⟩ := List.mem_flatMap.mp hc
  obtain ⟨x, -, rfl⟩ := List.mem_map.mp hc
  rfl

/-- The counts of an image are those of its pixels together. -/
theorem tally_render (hcreate : create f target patch settings = .ok s)
    (hsampling : ∀ c, s.sample c = .ok (sampling c)) (hwidth : 0 < width) (hheight : 0 < height) :
    ∃ raster, Raster.render f target patch settings width height = .ok raster ∧
      raster.work.Tally (width * height)
        (width * height * ((4 ^ settings.minDepth - 1) / 3)) := by
  refine ⟨_, render_eq_ok hcreate hsampling hwidth hheight, ?_⟩
  have haccepted := accepted_of_create hcreate
  obtain ⟨-, -, rfl⟩ := create_ok hcreate
  have hlength : (Raster.cells width height : List (Cell α)).length = width * height := by
    simp [Raster.cells, Nat.mul_comm]
  have hpixels : ∀ c ∈ (Raster.cells width height : List (Cell α)),
      (sampling c).work.Tally 1 ((4 ^ settings.minDepth - 1) / 3) := by
    intro c hc
    have htally := haccepted.tally hsampling c
    rwa [forced_eq_div, depth_of_mem_cells hc, Nat.sub_zero] at htally
  have hsum := Work.Tally.sum hpixels
  rwa [hlength, List.map_const', List.sum_replicate, hlength, smul_eq_mul, List.sum_eq_foldl]
    at hsum

/-- **What is counted**: take settings that can be used and an output that carries numbers.  A cell
that is sampled with fresh counts, whatever its depth is,

* counts as many leaves as it adds to those that are there, one and three for each split, and at most
  four times as many for each level that is left;
* counts two requests for each leaf and one for each split, except those of the cells that are not as
  deep as they have to be, of which there are four times as many at each level as at the one before;
* counts as the greatest depth that of the deepest leaf.

An image counts the same for all of its pixels together. -/
theorem countingLaws (hsettings : settings.validate = .ok ()) (hnumbers : f.CarriesNumbers target) :
    ∃ (s : Sampler M α) (sampling : Cell α → Sampling α),
      create f target patch settings = .ok s ∧
      (∀ c : Cell α, let work := (sampling c).work
        (∀ leaves, s.sampleOnto c { leaves }
          = .ok { leaves := leaves ++ (sampling c).leaves, work }) ∧
        work.leaves = (sampling c).leaves.length ∧
        work.leaves = 1 + 3 * work.refined ∧
        (s.visited c).countP (fun q => q.depth < settings.minDepth)
          = (4 ^ (settings.minDepth - c.depth) - 1) / 3 ∧
        work.evaluations + (4 ^ (settings.minDepth - c.depth) - 1) / 3
          = 2 * work.leaves + work.refined ∧
        IsGreatest {d | ∃ leaf ∈ (sampling c).leaves, leaf.cell.depth = d} work.deepest ∧
        work.leaves ≤ 4 ^ (settings.maxDepth - c.depth)) ∧
      ∀ width height, 0 < width → 0 < height →
        ∃ raster, Raster.render f target patch settings width height = .ok raster ∧
          Raster.renderRows f target patch settings width height = .ok raster ∧
          raster.work.leaves = width * height + 3 * raster.work.refined ∧
          raster.work.evaluations + width * height * ((4 ^ settings.minDepth - 1) / 3)
            = 2 * raster.work.leaves + raster.work.refined := by
  obtain ⟨s, hcreate⟩ : ∃ s, create f target patch settings = .ok s :=
    exists_create_iff.mpr ⟨hsettings, hnumbers⟩
  obtain ⟨-, -, rfl⟩ := create_ok hcreate
  have haccepted := accepted_of_create hcreate
  have hdepths := Settings.minDepth_le_maxDepth hsettings
  obtain ⟨sampling, hsampling⟩ := haccepted.exists_sampling
  refine ⟨_, sampling, hcreate, fun c => ?_, fun width height hwidth hheight => ?_⟩
  · obtain ⟨hleaves, hevaluations⟩ := haccepted.tally hsampling c
    have hforced := forced_eq_div (M := M) ⟨f, target, patch, settings⟩ c
    rw [hforced] at hevaluations
    refine ⟨fun leaves => ?_, haccepted.leaves_eq_length hsampling c, hleaves, hforced, hevaluations,
      haccepted.isGreatest_deepest hsampling c,
      haccepted.leaves_le hsampling hdepths c⟩
    rw [sampleOnto_eq, hsampling]
    change Except.ok (⟨_, 0 + _⟩ : Sampling α) = _
    rw [zero_add]
  · obtain ⟨raster, hrender, hleaves, hevaluations⟩ :=
      tally_render hcreate hsampling hwidth hheight
    exact ⟨raster, hrender, (Raster.renderRows_eq_render ..).trans hrender, hleaves, hevaluations⟩

/-- The standard settings, but with two levels at which every cell is split. -/
def twice : Settings Float :=
  { Settings.standard with minDepth := 2 }

theorem countingLaws_onePlus :
    ∃ (g : FrozenGraph (Catalog Float) Float) (s : Sampler (Catalog Float) Float)
      (r : Sampling Float) (raster : Raster Float),
      FrozenGraph.onePlus.freeze = .ok g ∧ create g ⟨⟨1⟩, 0⟩ .standard twice = .ok s ∧
      s.sampleOnto ⟨0.0, 0.0, 1.0, 1.0, 0⟩ {} = .ok r ∧
      r.leaves.length = 1 + 3 * r.work.refined ∧
      r.work.evaluations + 5 = 2 * r.work.leaves + r.work.refined ∧ r.work.leaves ≤ 256 ∧
      Raster.render g ⟨⟨1⟩, 0⟩ .standard twice 3 2 = .ok raster ∧
      raster.work.evaluations + 30 = 2 * raster.work.leaves + raster.work.refined := by
  obtain ⟨s, sampling, hcreate, hcell, himage⟩ :
      ∃ s sampling, create ⟨FrozenGraph.onePlus, ⟨[⟨0⟩, ⟨1⟩], 2⟩⟩ ⟨⟨1⟩, 0⟩ .standard twice
        = .ok s ∧ _ :=
    countingLaws rfl ⟨_, _, rfl, rfl, by decide⟩
  obtain ⟨hsample, hlength, hleaves, -, hevaluations, -, hbound⟩ := hcell ⟨0.0, 0.0, 1.0, 1.0, 0⟩
  obtain ⟨raster, hrender, -, -, hpixels⟩ := himage 3 2 (by decide) (by decide)
  exact ⟨_, s, _, raster, FrozenGraph.freeze_onePlus, hcreate, hsample [], hlength ▸ hleaves,
    hevaluations, hbound, hrender, hpixels⟩

end Sampler

end TextureGraph
