import TextureGraph.Proofs.Number.Rounding
import TextureGraph.Proofs.Sampling.Split

/-!
# The cells that are visited

`Sampler.visited` are the cells that sampling a cell comes by: the cell, and if it is split, the cells
that sampling its quadrants comes by.

* `Sampler.wellFounded_isSplit`: no cell is split without end.
* `Sampler.depth_le_of_mem_visited`: no cell that is visited is deeper than the settings allow,
  unless the cell that is sampled is.
* `Sampler.Accepted.cells_eq_filter_visited`, `Sampler.Accepted.refined_eq_countP_visited`: each cell
  that is visited is split or becomes a leaf.
* `Sampler.Accepted.leaf_of_mem`: a leaf has the value and the error of the output over its cell.

`Sampler.refinementContract` assembles them for floating point, where an error that does not exceed
the tolerance is less than it or equal, since neither can be undefined.
-/

namespace TextureGraph

namespace Sampler

/-! ### Visits -/

section Visits

variable {M α : Type} [Arith α] [TextureModule M α]

/-- Whether a cell is split when it is visited. -/
def splitsCell (s : Sampler M α) (c : Cell α) : Bool :=
  match s.cellError c with
  | .ok error => s.splits c error
  | .error _ => false

/-- The cells that are visited for a cell that may be split at most `levels` times, each before its
quadrants. -/
def visits (s : Sampler M α) : Nat → Cell α → List (Cell α)
  | 0, c => [c]
  | levels + 1, c => c :: if s.splitsCell c then c.split.flatMap (s.visits levels) else []

/-- The cells that are visited when a cell is sampled. -/
def visited (s : Sampler M α) (c : Cell α) : List (Cell α) :=
  s.visits (s.levels c) c

variable {s : Sampler M α} {c q : Cell α}

theorem splitsCell_iff : s.splitsCell c = true ↔ s.IsSplit c := by
  unfold splitsCell cellError IsSplit
  by_cases hmin : c.depth < s.settings.minDepth
  · simp [hmin, splits]
  · cases herror : s.graph.estimateError s.target (s.query c) with
    | error e => simp [hmin, Except.map]
    | ok error => simp [hmin, Except.map, splits]

/-- **Step**: from a cell that is split, the visit goes on to its quadrants. -/
theorem visited_of_isSplit (h : s.IsSplit c) :
    s.visited c = c :: c.split.flatMap s.visited := by
  have hpositive : 0 < s.levels c :=
    (Nat.zero_le _).trans_lt (h.levels_quadrant_lt (q := c.quadrant 0 0) List.mem_cons_self)
  obtain ⟨levels, hlevels⟩ := Nat.exists_eq_add_of_le' hpositive
  have hquadrants : c.split.flatMap (s.visits levels) = c.split.flatMap s.visited := by
    refine List.flatMap_congr fun q hq => ?_
    obtain ⟨i, j, rfl⟩ := Cell.exists_quadrant_of_mem_split hq
    rw [visited, levels_quadrant hlevels]
  rw [visited, hlevels, visits, if_pos (splitsCell_iff.mpr h), hquadrants]

theorem visited_of_not_isSplit (h : ¬ s.IsSplit c) : s.visited c = [c] := by
  unfold visited
  cases s.levels c with
  | zero => rfl
  | succ levels => rw [visits, if_neg (mt splitsCell_iff.mp h)]

theorem visited_eq (s : Sampler M α) (c : Cell α) :
    s.visited c = c :: if s.splitsCell c then c.split.flatMap s.visited else [] := by
  by_cases hc : s.IsSplit c
  · rw [visited_of_isSplit hc, if_pos (splitsCell_iff.mpr hc)]
  · rw [visited_of_not_isSplit hc, if_neg (mt splitsCell_iff.mp hc)]

/-- No cell is split without end. -/
theorem wellFounded_isSplit (s : Sampler M α) :
    WellFounded fun q c : Cell α => s.IsSplit c ∧ q ∈ c.split :=
  Subrelation.wf (fun h => h.1.levels_quadrant_lt h.2) (measure s.levels).wf

theorem IsSplit.depth_lt_maxDepth (hdepths : s.settings.minDepth ≤ s.settings.maxDepth)
    (h : s.IsSplit c) : c.depth < s.settings.maxDepth := by
  rcases h with hmin | ⟨-, -, -, hmax⟩
  · exact hmin.trans_le hdepths
  · exact hmax

/-- **Run**: no cell that is visited is deeper than the settings allow, or than the first one. -/
theorem depth_le_of_mem_visited (hdepths : s.settings.minDepth ≤ s.settings.maxDepth)
    (hq : q ∈ s.visited c) : q.depth ≤ max s.settings.maxDepth c.depth := by
  induction c using s.cell_induction with
  | leaf c hc =>
    rw [visited_of_not_isSplit hc] at hq
    obtain rfl := List.mem_singleton.mp hq
    exact le_max_right _ _
  | split c hc ih =>
    rw [visited_of_isSplit hc] at hq
    rcases List.mem_cons.mp hq with rfl | hq
    · exact le_max_right _ _
    · obtain ⟨p, hp, hq⟩ := List.mem_flatMap.mp hq
      have hdepth := ih p hp hq
      have hmax := hc.depth_lt_maxDepth hdepths
      rw [Cell.depth_of_mem_split hp] at hdepth
      omega

end Visits

/-! ### Leaves and cells that are split -/

namespace Accepted

variable {M α : Type} [Arith α] [TextureModule M α] {s : Sampler M α}
  {sampling : Cell α → Sampling α}

variable (h : s.Accepted) (hsampling : ∀ c, s.sample c = .ok (sampling c))

include h hsampling

/-- The cells of the leaves are those that are visited and not split. -/
theorem cells_eq_filter_visited (c : Cell α) :
    (sampling c).cells = (s.visited c).filter fun q => !s.splitsCell q := by
  induction c using s.cell_induction with
  | leaf c hc =>
    obtain ⟨value, error, -, -, heq⟩ := h.exists_leaf_of_not_isSplit hsampling hc
    have hsplits : s.splitsCell c = false := Bool.eq_false_iff.mpr (mt splitsCell_iff.mp hc)
    rw [heq, visited_of_not_isSplit hc]
    simp [Sampling.cells, hsplits]
  | split c hc ih =>
    rw [sampling_of_isSplit hsampling hc, Sampling.cells_foldl_append, visited_of_isSplit hc,
      List.filter_cons_of_neg (by simp [splitsCell_iff.mpr hc]), List.filter_flatMap]
    exact List.flatMap_congr ih

theorem mem_visited_of_leaf (c : Cell α) {leaf : Leaf α} (hleaf : leaf ∈ (sampling c).leaves) :
    leaf.cell ∈ s.visited c ∧ ¬ s.IsSplit leaf.cell := by
  have hcell : leaf.cell ∈ (sampling c).cells := List.mem_map_of_mem hleaf
  rw [h.cells_eq_filter_visited hsampling, List.mem_filter, Bool.not_eq_true',
    Bool.eq_false_iff, ne_eq, splitsCell_iff] at hcell
  exact hcell

/-- The cells that are counted as split are those that are visited and split. -/
theorem refined_eq_countP_visited (c : Cell α) :
    (sampling c).work.refined = (s.visited c).countP s.splitsCell := by
  induction c using s.cell_induction with
  | leaf c hc =>
    obtain ⟨value, error, -, -, heq⟩ := h.exists_leaf_of_not_isSplit hsampling hc
    rw [heq, visited_of_not_isSplit hc, List.countP_singleton, if_neg (mt splitsCell_iff.mp hc)]
  | split c hc ih =>
    have hquadrants : c.split.map (Work.refined ∘ fun q => (sampling q).work)
        = c.split.map (List.countP s.splitsCell ∘ s.visited) := List.map_congr_left ih
    rw [work_of_isSplit hsampling hc, visited_of_isSplit hc,
      List.countP_cons_of_pos (splitsCell_iff.mpr hc), List.countP_flatMap, Nat.add_comm]
    change 1 + Work.refined _ = _
    rw [Work.refined_sum, List.map_map, hquadrants]

/-- A leaf has the value and the error of the output over its cell. -/
theorem leaf_of_mem (c : Cell α) {leaf : Leaf α} (hleaf : leaf ∈ (sampling c).leaves) :
    s.graph.evaluateScalar s.target (s.query leaf.cell) = .ok leaf.value ∧
      s.graph.estimateError s.target (s.query leaf.cell) = .ok leaf.error := by
  induction c using s.cell_induction with
  | leaf c hc =>
    obtain ⟨value, error, hvalue, herror, heq⟩ := h.exists_leaf_of_not_isSplit hsampling hc
    rw [heq] at hleaf
    obtain rfl := List.mem_singleton.mp hleaf
    exact ⟨hvalue, herror⟩
  | split c hc ih =>
    rw [leaves_of_isSplit hsampling hc] at hleaf
    obtain ⟨q, hq, hleaf⟩ := List.mem_flatMap.mp hleaf
    exact ih q hq hleaf

end Accepted

/-! ### Floating point -/

open Binary64

/-- A reported error is a number. -/
theorem isNaN_reportedError (error : Float) : (FrozenGraph.reportedError error).isNaN = false := by
  unfold FrozenGraph.reportedError
  split
  · rename_i hfinite
    have hdefined : error.isNaN = false := Bool.eq_false_iff.mpr fun hundefined =>
      Bool.eq_false_iff.mp (isFinite_of_isNaN hundefined) hfinite
    unfold Arith.max
    split_ifs
    · decide +kernel
    · exact hdefined
    · decide +kernel
  · decide +kernel

variable {M : Type} [TextureModule M Float] {s : Sampler M Float} {f : FrozenGraph M Float}
  {target : Target} {patch : Patch Float} {settings : Settings Float}

theorem isNaN_errorTolerance (h : settings.validate = .ok ()) :
    settings.errorTolerance.isNaN = false := by
  have hmeasure := Settings.isMeasure_errorTolerance h
  rw [Settings.isMeasure, Bool.and_eq_true] at hmeasure
  exact Bool.eq_false_iff.mpr fun hundefined =>
    Bool.eq_false_iff.mp (isFinite_of_isNaN hundefined) hmeasure.1

theorem isNaN_of_estimateError {q : Query Float} {error : Float}
    (h : f.estimateError target q = .ok error) : error.isNaN = false := by
  obtain ⟨⟨e, kind⟩, -, h⟩ := bind_eq_ok_iff.mp h
  obtain rfl := Except.ok.inj h
  exact isNaN_reportedError _

/-- Cells become leaves for a tolerated error or for their depth. -/
theorem le_of_not_isSplit (hsettings : s.settings.validate = .ok ()) {c : Cell Float}
    (hc : ¬ s.IsSplit c) {error : Float}
    (herror : s.graph.estimateError s.target (s.query c) = .ok error) :
    s.settings.minDepth ≤ c.depth ∧
      (error ≤ s.settings.errorTolerance ∨ s.settings.maxDepth ≤ c.depth) := by
  obtain ⟨hmin, hmax⟩ := not_or.mp hc
  refine ⟨Nat.not_lt.mp hmin, ?_⟩
  by_cases hdepth : c.depth < s.settings.maxDepth
  · refine .inl (le_of_not_lt (isNaN_of_estimateError herror) (isNaN_errorTolerance hsettings) ?_)
    exact fun htolerance => hmax ⟨error, herror, htolerance, hdepth⟩
  · exact .inr (Nat.not_lt.mp hdepth)

/-- **What refinement keeps to**: take settings that can be used and an output that carries numbers.
No cell is split without end, and for every cell, whatever its depth is,

* its leaves are added to any running total, and they are the cells that are visited and not split;
* no cell that is visited is deeper than the settings allow, unless the first one is;
* a cell is split only if it is not as deep as it has to be, or if the error over it exceeds the
  tolerance and it may be split;
* a leaf has the value and the error of the output over its cell, is as deep as it has to be, and
  either its error is tolerated or it is as deep as it may be. -/
theorem refinementContract (hsettings : settings.validate = .ok ())
    (hnumbers : f.CarriesNumbers target) :
    ∃ (s : Sampler M Float) (sampling : Cell Float → Sampling Float),
      create f target patch settings = .ok s ∧
      (WellFounded fun q c : Cell Float => s.splitsCell c = true ∧ q ∈ c.split) ∧
      ∀ c : Cell Float,
        (∀ total, s.sampleOnto c total = .ok (total.append (sampling c))) ∧
        s.visited c = (c :: if s.splitsCell c then c.split.flatMap s.visited else []) ∧
        (sampling c).cells = (s.visited c).filter (fun q => !s.splitsCell q) ∧
        (sampling c).work.refined = (s.visited c).countP s.splitsCell ∧
        (∀ q ∈ s.visited c, q.depth ≤ max settings.maxDepth c.depth) ∧
        (∀ q ∈ s.visited c, s.splitsCell q = true →
          q.depth < settings.minDepth ∨
            ∃ error, f.estimateError target ⟨patch.footprint q, settings.baseBlur⟩ = .ok error ∧
              settings.errorTolerance < error ∧ q.depth < settings.maxDepth) ∧
        ∀ leaf ∈ (sampling c).leaves,
          f.evaluateScalar target ⟨patch.footprint leaf.cell, settings.baseBlur⟩ = .ok leaf.value ∧
          f.estimateError target ⟨patch.footprint leaf.cell, settings.baseBlur⟩ = .ok leaf.error ∧
          settings.minDepth ≤ leaf.cell.depth ∧
          leaf.cell.depth ≤ max settings.maxDepth c.depth ∧
          (leaf.error ≤ settings.errorTolerance ∨ settings.maxDepth ≤ leaf.cell.depth) := by
  obtain ⟨s, hcreate⟩ : ∃ s, create f target patch settings = .ok s :=
    exists_create_iff.mpr ⟨hsettings, hnumbers⟩
  obtain ⟨-, -, rfl⟩ := create_ok hcreate
  have haccepted := accepted_of_create hcreate
  have hdepths := Settings.minDepth_le_maxDepth hsettings
  obtain ⟨sampling, hsampling⟩ := haccepted.exists_sampling
  refine ⟨_, sampling, hcreate, ?_, fun c => ⟨fun total => ?_, visited_eq _ c,
    haccepted.cells_eq_filter_visited hsampling c, haccepted.refined_eq_countP_visited hsampling c,
    fun q hq => depth_le_of_mem_visited hdepths hq, fun q _ hq => splitsCell_iff.mp hq,
    fun leaf hleaf => ?_⟩⟩
  · simp only [splitsCell_iff]
    exact wellFounded_isSplit _
  · rw [sampleOnto_eq, hsampling]
    rfl
  · obtain ⟨hvisited, hsplit⟩ := haccepted.mem_visited_of_leaf hsampling c hleaf
    obtain ⟨hvalue, herror⟩ := haccepted.leaf_of_mem hsampling c hleaf
    obtain ⟨hmin, hsettled⟩ := le_of_not_isSplit hsettings hsplit herror
    exact ⟨hvalue, herror, hmin, depth_le_of_mem_visited hdepths hvisited, hsettled⟩

theorem refinementContract_ramp :
    ∃ (g : FrozenGraph (Catalog Float) Float) (s : Sampler (Catalog Float) Float)
      (sampling : Cell Float → Sampling Float),
      ramp.freeze = .ok g ∧ create g ⟨⟨0⟩, 0⟩ .standard demanding = .ok s ∧
      s.splitsCell ⟨0.0, 0.0, 1.0, 1.0, 0⟩ = true ∧
      s.sampleOnto ⟨0.0, 0.0, 1.0, 1.0, 0⟩ {} = .ok (({} : Sampling Float).append
        (sampling ⟨0.0, 0.0, 1.0, 1.0, 0⟩)) ∧
      (∀ q ∈ s.visited ⟨0.0, 0.0, 1.0, 1.0, 0⟩, q.depth ≤ 6) ∧
      ∀ leaf ∈ (sampling ⟨0.0, 0.0, 1.0, 1.0, 0⟩).leaves,
        1 ≤ leaf.cell.depth ∧ (leaf.error ≤ demanding.errorTolerance ∨ 6 ≤ leaf.cell.depth) := by
  obtain ⟨s, sampling, hcreate, -, hall⟩ :
      ∃ s sampling, create ⟨ramp, ⟨[⟨0⟩], 1⟩⟩ ⟨⟨0⟩, 0⟩ .standard demanding = .ok s ∧ _ :=
    refinementContract rfl ⟨_, _, rfl, rfl, by decide⟩
  obtain ⟨htotal, -, -, -, hdepth, -, hleaves⟩ := hall ⟨0.0, 0.0, 1.0, 1.0, 0⟩
  obtain ⟨-, -, rfl⟩ := create_ok hcreate
  refine ⟨_, _, sampling, freeze_ramp, hcreate, by decide +kernel, htotal {}, hdepth,
    fun leaf hleaf => ?_⟩
  obtain ⟨-, -, hmin, -, hsettled⟩ := hleaves leaf hleaf
  exact ⟨hmin, hsettled⟩

end Sampler

end TextureGraph
