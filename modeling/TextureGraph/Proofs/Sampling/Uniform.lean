import TextureGraph.Proofs.Estimate.Affine
import TextureGraph.Proofs.Sampling.Mean

/-!
# Affine outputs are refined uniformly and averaged exactly

`Sampler.affine_refined_uniformly`: where an output rests on affine modules only, all leaves of a
cell have the same depth, which the error over the whole cell and the settings determine
(`Settings.IsLeafDepth`), and their mean is the value in the middle of the cell.

* `Sampler.IsEven` collects what matters of such an output: the error over a quadrant is half that
  over the cell, and the values over the quadrants have the value over the cell as their mean.
* `Sampler.IsEven.isUniform_of_splits`, `Sampler.IsEven.isUniform`: so the quadrants are split alike,
  and what holds of the leaves of each quadrant holds of those of the cell.
* `Sampler.exists_isEven`: affine outputs are even on every patch.
-/

namespace TextureGraph

/-! ### Points and boxes of a patch -/

namespace Patch

/-- The request for a point of a patch. -/
def pointQuery {α : Type} [Arith α] (patch : Patch α) (s t : α) : Query α :=
  ⟨⟨patch.position s t, Vec.zero, patch.time, []⟩, 0.0⟩

variable (patch : Patch ℝ) (v : Vec ℝ)

/-- Positions are affine functions of the patch coordinates. -/
theorem dot_position (s t : ℝ) : v.dot (patch.position s t)
    = v.dot patch.origin + s * v.dot patch.uAxis + t * v.dot patch.vAxis := by
  simp only [position, Vec.dot_add_right, Vec.dot_scale_right]

/-- The extents of a box are linear functions of those of the cell. -/
theorem dot_size (c : Cell ℝ) : v.dot (patch.footprint c).size
    = c.ds * v.dot patch.uAxis.abs + c.dt * v.dot patch.vAxis.abs := by
  simp only [footprint, Vec.dot_add_right, Vec.dot_scale_right]

end Patch

/-! ### The depth of the leaves -/

namespace Settings

variable {settings : Settings ℝ} {error : Nat → ℝ}

/-- The depths that the settings allow and at which the error of that depth is tolerated. -/
def tolerated (settings : Settings ℝ) (error : Nat → ℝ) : Set Nat :=
  {d | settings.minDepth ≤ d ∧ d ≤ settings.maxDepth ∧ error d ≤ settings.errorTolerance}

/-- The least depth at which the error is tolerated, or the greatest depth if there is none. -/
def IsLeafDepth (settings : Settings ℝ) (error : Nat → ℝ) (d : Nat) : Prop :=
  IsLeast (settings.tolerated error) d ∨ settings.tolerated error = ∅ ∧ d = settings.maxDepth

/-- A cell of the given depth with the given error becomes a leaf. -/
def StopsAt (settings : Settings ℝ) (depth : Nat) (error : ℝ) : Prop :=
  settings.minDepth ≤ depth ∧ (error ≤ settings.errorTolerance ∨ settings.maxDepth ≤ depth)

/-- Cells whose errors depend on their depths alone become leaves at one depth and at none before. -/
theorem exists_isLeafDepth (h : settings.validate = .ok ()) (error : Nat → ℝ) :
    ∃ d, settings.IsLeafDepth error d ∧ settings.StopsAt d (error d) ∧
      ∀ k < d, ¬ settings.StopsAt k (error k) := by
  classical
  have hle := minDepth_le_maxDepth h
  have hexists : ∃ d, settings.StopsAt d (error d) := ⟨settings.maxDepth, hle, .inr le_rfl⟩
  let d := Nat.find hexists
  have hstops : settings.StopsAt d (error d) := Nat.find_spec hexists
  have hbefore : ∀ k < d, ¬ settings.StopsAt k (error k) := fun k hk => Nat.find_min hexists hk
  have hmax : d ≤ settings.maxDepth := Nat.find_min' hexists ⟨hle, .inr le_rfl⟩
  refine ⟨d, ?_, hstops, hbefore⟩
  by_cases htolerated : error d ≤ settings.errorTolerance
  · refine .inl ⟨⟨hstops.1, hmax, htolerated⟩, fun k hk => ?_⟩
    exact not_lt.mp fun hlt => hbefore k hlt ⟨hk.1, .inl hk.2.2⟩
  · -- The cells stop for their depth alone, so the error is not tolerated before, either.
    have hd : d = settings.maxDepth := le_antisymm hmax (hstops.2.resolve_left htolerated)
    refine .inr ⟨Set.eq_empty_of_forall_notMem fun k hk => ?_, hd⟩
    rcases (hk.2.1.trans_eq hd.symm).lt_or_eq with hlt | rfl
    · exact hbefore k hlt ⟨hk.1, .inl hk.2.2⟩
    · exact htolerated hk.2.2

end Settings

/-! ### Uniform leaves -/

theorem Cell.Proper.area_pos {c : Cell ℝ} (h : c.Proper) : 0 < c.area :=
  mul_pos h.ds h.dt

/-- Leaves as of a cell that was split all over for the given number of levels. -/
structure Leaf.Uniform (leaves : List (Leaf ℝ)) (levels depth : Nat) (error total : ℝ) : Prop where
  /-- Every level makes four leaves of one. -/
  length_eq : leaves.length = 4 ^ levels
  /-- The leaves have the same depth. -/
  depth_eq : ∀ leaf ∈ leaves, leaf.cell.depth = depth
  /-- The leaves have the same error. -/
  error_eq : ∀ leaf ∈ leaves, leaf.error = error
  /-- The sum of the values, weighted by the areas. -/
  total_eq : (leaves.map fun leaf => leaf.value * leaf.cell.area).sum = total

/-- Four quadrants with uniform leaves have uniform leaves together. -/
theorem Leaf.Uniform.quadrants {c : Cell ℝ} {leaves : Cell ℝ → List (Leaf ℝ)}
    {levels depth : Nat} {error : ℝ} {total : Cell ℝ → ℝ}
    (h : ∀ q ∈ c.split, Leaf.Uniform (leaves q) levels depth error (total q)) :
    Leaf.Uniform (c.split.flatMap leaves) (levels + 1) depth error (c.split.map total).sum where
  length_eq := by
    have hlength : c.split.map (fun q => (leaves q).length) = c.split.map fun _ => 4 ^ levels :=
      List.map_congr_left fun q hq => (h q hq).length_eq
    rw [List.length_flatMap, hlength, List.map_const', List.sum_replicate, smul_eq_mul, pow_succ,
      mul_comm]
    rfl
  depth_eq := by
    intro leaf hleaf
    obtain ⟨q, hq, hleaf⟩ := List.mem_flatMap.mp hleaf
    exact (h q hq).depth_eq leaf hleaf
  error_eq := by
    intro leaf hleaf
    obtain ⟨q, hq, hleaf⟩ := List.mem_flatMap.mp hleaf
    exact (h q hq).error_eq leaf hleaf
  total_eq := by
    rw [List.flatMap_def, List.map_flatten, List.sum_flatten, List.map_map, List.map_map]
    exact congrArg List.sum (List.map_congr_left fun q hq => (h q hq).total_eq)

namespace Sampler

/-- In real arithmetic, the mean over a cell that has an area is the weighted sum over the area. -/
theorem mean_eq {c : Cell ℝ} (hc : c.Proper) (leaves : List (Leaf ℝ)) :
    mean c.area leaves = (leaves.map fun leaf => leaf.value * leaf.cell.area).sum / c.area :=
  mean_of_ne_zero hc.area_pos.ne' leaves

/-! ### Even outputs -/

variable {M : Type} [TextureModule M ℝ] {s : Sampler M ℝ}

/-- The output has the given value and error over every cell; over the quadrants of a cell the
errors are half as large, and the values have the value over the cell as their mean. -/
structure IsEven (s : Sampler M ℝ) (value error : Cell ℝ → ℝ) : Prop where
  /-- The value over a cell. -/
  value_eq : ∀ c, s.graph.evaluateScalar s.target (s.query c) = .ok (value c)
  /-- The error over a cell. -/
  error_eq : ∀ c, s.graph.estimateError s.target (s.query c) = .ok (error c)
  /-- The errors over the quadrants. -/
  halved : ∀ (c : Cell ℝ), ∀ q ∈ c.split, error q = error c / 2
  /-- The values over the quadrants. -/
  balanced : ∀ c : Cell ℝ, (c.split.map value).sum = 4 * value c

namespace IsEven

variable {value error : Cell ℝ → ℝ} {sampling : Cell ℝ → Sampling ℝ} {c : Cell ℝ}

/-- A cell is split unless it stops. -/
theorem isSplit_iff (h : s.IsEven value error) :
    s.IsSplit c ↔ ¬ s.settings.StopsAt c.depth (error c) := by
  unfold IsSplit Settings.StopsAt
  rw [not_and_or, not_or, not_le, not_le, not_le]
  refine or_congr Iff.rfl ⟨fun ⟨e, he, hsplit⟩ => ?_, fun hsplit => ⟨_, h.error_eq c, hsplit⟩⟩
  rwa [Except.ok.inj ((h.error_eq c).symm.trans he)]

/-- A cell that stops becomes a leaf. -/
theorem leaves_of_stops (h : s.IsEven value error)
    (hsampling : ∀ c, s.sample c = .ok (sampling c))
    (hstops : s.settings.StopsAt c.depth (error c)) :
    (sampling c).leaves = [⟨c, value c, error c⟩] := by
  have hc : ¬ s.IsSplit c := fun hsplit => h.isSplit_iff.mp hsplit hstops
  rw [sampling_of_not_isSplit hsampling hc (h.value_eq c) (h.error_eq c)]

/-- A cell that does not stop has the leaves of its quadrants. -/
theorem leaves_of_not_stops (h : s.IsEven value error)
    (hsampling : ∀ c, s.sample c = .ok (sampling c))
    (hstops : ¬ s.settings.StopsAt c.depth (error c)) :
    (sampling c).leaves = c.split.flatMap fun q => (sampling q).leaves :=
  leaves_of_isSplit hsampling (h.isSplit_iff.mpr hstops)

/-- **Step**: a cell that does not stop has uniform leaves when its quadrants do. -/
theorem isUniform_of_splits (h : s.IsEven value error)
    (hsampling : ∀ c, s.sample c = .ok (sampling c))
    (hstops : ¬ s.settings.StopsAt c.depth (error c)) {levels depth : Nat} {e : ℝ}
    (hquadrants : ∀ q ∈ c.split,
      Leaf.Uniform (sampling q).leaves levels depth e (value q * q.area)) :
    Leaf.Uniform (sampling c).leaves (levels + 1) depth e (value c * c.area) := by
  have htotal : (c.split.map fun q => value q * q.area).sum = value c * c.area := by
    have hmap : c.split.map (fun q => value q * q.area)
        = c.split.map fun q => value q * (c.area / 4) :=
      List.map_congr_left fun q hq => by rw [Cell.area_of_mem_split hq]
    rw [hmap, List.sum_map_mul_right, h.balanced]
    ring
  rw [h.leaves_of_not_stops hsampling hstops, ← htotal]
  exact Leaf.Uniform.quadrants hquadrants

/-- **Run**: a cell whose descendants stop at one level and at none before has uniform leaves. -/
theorem isUniform (h : s.IsEven value error)
    (hsampling : ∀ c, s.sample c = .ok (sampling c)) {levels : Nat}
    (hstops : s.settings.StopsAt (c.depth + levels) (error c / 2 ^ levels))
    (hbefore : ∀ k < levels, ¬ s.settings.StopsAt (c.depth + k) (error c / 2 ^ k)) :
    Leaf.Uniform (sampling c).leaves levels (c.depth + levels) (error c / 2 ^ levels)
      (value c * c.area) := by
  induction levels generalizing c with
  | zero =>
    rw [pow_zero, div_one] at hstops ⊢
    rw [h.leaves_of_stops hsampling hstops]
    constructor <;> simp
  | succ levels ih =>
    have hfirst : ¬ s.settings.StopsAt c.depth (error c) := by
      simpa using hbefore 0 levels.succ_pos
    refine h.isUniform_of_splits hsampling hfirst fun q hq => ?_
    -- From a quadrant on, there is one level less, and the error is half as large.
    have hdepth : ∀ k, c.depth + (k + 1) = q.depth + k := by
      intro k
      have hquadrant := Cell.depth_of_mem_split hq
      omega
    have herror : ∀ k, error c / 2 ^ (k + 1) = error q / 2 ^ k := by
      intro k
      rw [h.halved c q hq, div_div, pow_succ']
    rw [hdepth, herror] at hstops ⊢
    refine ih hstops fun k hk => ?_
    rw [← hdepth, ← herror]
    exact hbefore (k + 1) (Nat.succ_lt_succ hk)

end IsEven

/-! ### Affine outputs -/

section Affine

variable {f : FrozenGraph (Catalog ℝ) ℝ} {t : Target} {patch : Patch ℝ} {settings : Settings ℝ}
  {e : Entry (Catalog ℝ) ℝ} {kind : SocketKind}

/-- An affine output is even on every patch, and over a cell it has the value in the middle of the
cell. -/
theorem exists_isEven (hblur : settings.baseBlur = 0)
    (htarget : f.target t settings.baseBlur = .ok (e, kind)) (hnumber : kind ≠ .color)
    (haffine : ∀ q, (f.answers e).IsAffine q t.output) :
    ∃ value error, IsEven ⟨f, t, patch, settings⟩ value error ∧
      ∀ c : Cell ℝ, f.evaluateScalar t (patch.pointQuery c.center.1 c.center.2) = .ok (value c) := by
  let q : Query ℝ := patch.pointQuery 0 0
  let middle (c : Cell ℝ) : Vec ℝ := patch.position c.center.1 c.center.2
  let size (c : Cell ℝ) : Vec ℝ := (patch.footprint c).size
  obtain ⟨slope, weights, offset, hvalue, herror⟩ := haffine q
  have hzero : settings.baseBlur = Arith.toOfScientific.ofScientific 0 true 1 :=
    hblur.trans ExactArith.zero_eq.symm
  have hquery : ∀ c, query (M := Catalog ℝ) ⟨f, t, patch, settings⟩ c
      = q.overBox (middle c) (size c) := by
    intro c
    unfold query
    rw [hzero]
    rfl
  refine ⟨fun c => slope.dot (middle c) + offset, fun c => max (weights.dot (size c)) 0,
    ⟨fun c => ?_, fun c => ?_, fun c quadrant hquadrant => ?_, fun c => ?_⟩, fun c => ?_⟩
  · rw [← hvalue (middle c) (size c), ← hquery]
    exact FrozenGraph.evaluateScalar_eq_ok htarget hnumber
  · rw [← herror (middle c) (size c), ← hquery, ← FrozenGraph.reportedError_eq]
    exact FrozenGraph.estimateError_eq_ok htarget
  · obtain ⟨i, j, rfl⟩ := Cell.exists_quadrant_of_mem_split hquadrant
    have hhalf : weights.dot (size (c.quadrant i j)) = weights.dot (size c) / 2 := by
      simp only [size, Patch.dot_size, Cell.quadrant, ExactArith.half_eq]
      ring
    rw [hhalf, ← max_div_div_right zero_le_two, zero_div]
  · simp only [middle, Patch.dot_position, Cell.split, Cell.quadrant, Cell.center, List.map_cons,
      List.map_nil, List.sum_cons, List.sum_nil, ExactArith.half_eq, ExactArith.ofInt_eq]
    push_cast
    ring
  · show _ = Except.ok (slope.dot (middle c) + offset)
    rw [← hvalue (middle c) Vec.zero]
    rw [hzero] at htarget
    exact FrozenGraph.evaluateScalar_eq_ok (q := q.overBox (middle c) Vec.zero) htarget hnumber

/-- **Affine outputs are refined uniformly and averaged exactly**: in real arithmetic, whatever
changes have led to a graph without cycles, take an output that carries numbers, upstream of which
all modules are affine, any patch, settings without blur that can be used, and a cell with an area
that was not split from another one.  All leaves of the cell have one depth, the least that the
settings allow and at which the error over the cell, halved with every level, is tolerated, or the
greatest if there is none; on every level there are four times as many, with half the error; and
their mean is the value in the middle of the cell. -/
theorem affine_refined_uniformly (name : String) (edits : List (Edit (Catalog ℝ) ℝ))
    (h : (Graph.ofEdits name edits).freeze = .ok f) (he : f.graph.entry? t.module = some e)
    (hkind : e.signature.outputKind? t.output = some kind) (hnumber : kind ≠ .color)
    (hcone : ∀ i, f.graph.Upstream t.module i → ∀ s, f.graph.entry? i = some s → s.module.IsAffine)
    (hsettings : settings.validate = .ok ()) (hblur : settings.baseBlur = 0) {c : Cell ℝ}
    (hproper : c.Proper) (hdepth : c.depth = 0) :
    ∃ (s : Sampler (Catalog ℝ) ℝ) (sampling : Sampling ℝ) (error value : ℝ) (d : Nat),
      create f t patch settings = .ok s ∧ s.sample c = .ok sampling ∧
      f.estimateError t ⟨patch.footprint c, settings.baseBlur⟩ = .ok error ∧
      settings.IsLeafDepth (fun d => error / 2 ^ d) d ∧
      sampling.leaves.length = 4 ^ d ∧
      (∀ leaf ∈ sampling.leaves, leaf.cell.depth = d ∧ leaf.error = error / 2 ^ d) ∧
      f.evaluateScalar t (patch.pointQuery c.center.1 c.center.2) = .ok value ∧
      s.average c = .ok (value, sampling.work) := by
  have hsignature : f.graph.signature? t.module = some e.signature := by
    rw [Graph.signature?, he, Option.map_some]
  have htarget : f.target t settings.baseBlur = .ok (e, kind) :=
    FrozenGraph.target_of_nonneg hblur.ge he hkind
  have hcreate : create f t patch settings = .ok ⟨f, t, patch, settings⟩ :=
    create_eq_ok hsettings hsignature hkind hnumber
  obtain ⟨value, error, heven, hpoint⟩ :
      ∃ value error, IsEven ⟨f, t, patch, settings⟩ value error ∧ _ :=
    exists_isEven hblur htarget hnumber fun q =>
      FrozenGraph.answers_isAffine (Graph.consistent_ofEdits name edits) h he hcone hkind
        hnumber
  obtain ⟨sampling, hsampling⟩ := (accepted_of_create hcreate).exists_sampling
  obtain ⟨d, hd, hstops, hbefore⟩ := Settings.exists_isLeafDepth hsettings fun d => error c / 2 ^ d
  have hroot : ∀ k, c.depth + k = k := by
    intro k
    rw [hdepth, Nat.zero_add]
  have huniform : Leaf.Uniform (sampling c).leaves d d (error c / 2 ^ d) (value c * c.area) := by
    have hrun := heven.isUniform (c := c) hsampling (by rwa [hroot]) fun k hk => by
      rw [hroot]
      exact hbefore k hk
    rwa [hroot] at hrun
  have hmean : mean c.area (sampling c).leaves = value c := by
    rw [mean_eq hproper, huniform.total_eq]
    exact mul_div_cancel_right₀ (value c) hproper.area_pos.ne'
  refine ⟨_, sampling c, error c, value c, d, hcreate, hsampling c, heven.error_eq c, hd,
    huniform.length_eq, fun leaf hleaf => ⟨huniform.depth_eq leaf hleaf,
      huniform.error_eq leaf hleaf⟩, hpoint c, ?_⟩
  rw [← hmean]
  exact average_eq_ok (hsampling c)

theorem affine_refined_uniformly_firstCoordinate :
    ∃ f, firstCoordinate.freeze = .ok f ∧
      ∃ (s : Sampler (Catalog ℝ) ℝ) (sampling : Sampling ℝ) (error value : ℝ) (d : Nat),
        create f ⟨⟨0⟩, 0⟩ .standard .standard = .ok s ∧ s.sample ⟨2, 3, 1, 4, 0⟩ = .ok sampling ∧
        (Settings.standard : Settings ℝ).IsLeafDepth (fun d => error / 2 ^ d) d ∧
        sampling.leaves.length = 4 ^ d ∧
        s.average ⟨2, 3, 1, 4, 0⟩ = .ok (value, sampling.work) := by
  have hfreeze : firstCoordinate.freeze = .ok ⟨firstCoordinate, ⟨[⟨0⟩], 1⟩⟩ :=
    Graph.freeze_eq_ok (by decide +kernel)
  have hcone : ∀ i, firstCoordinate.Upstream ⟨0⟩ i → ∀ s, firstCoordinate.entry? i = some s →
      s.module.IsAffine := by
    intro i _ s hs
    have hmem : i ∈ firstCoordinate.ids := Graph.mem_ids_of_lookup hs
    have hids : firstCoordinate.ids = [⟨0⟩] := rfl
    rw [hids, List.mem_singleton] at hmem
    subst hmem
    cases hs
    exact .coordinate _
  obtain ⟨s, sampling, error, value, d, hcreate, hsample, -, hd, hlength, -, -, haverage⟩ :=
    affine_refined_uniformly (t := ⟨⟨0⟩, 0⟩) (c := ⟨2, 3, 1, 4, 0⟩) _ _ hfreeze rfl rfl
      (by decide) hcone validate_standard ExactArith.zero_eq ⟨one_pos, four_pos⟩ rfl
  exact ⟨_, hfreeze, s, sampling, error, value, d, hcreate, hsample, hd, hlength, haverage⟩

end Affine

end Sampler

end TextureGraph
