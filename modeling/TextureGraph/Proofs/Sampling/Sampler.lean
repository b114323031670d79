import TextureGraph.Proofs.Sampling.Partition
import TextureGraph.Proofs.Graph.Evaluation

/-!
# Correctness of adaptive sampling

* `Sampler.create_eq_ok`, `Sampler.accepted_of_valid`: settings that can be used and an output that
  carries numbers make a sampler, and the graph accepts every request of it.
* `Sampler.refine_levels`: the error and the settings alone decide whether a cell is split.
* `Sampler.Accepted.exists_refine_succ`: a cell that may be split becomes a leaf or gives way to its
  quadrants.
* `Sampler.Accepted.exists_refine`: whichever cells are split, the leaves partition the cell.
* `Sampler.leaves_partition`: the leaves of a cell partition it, and those of an image partition the
  unit square.
-/

namespace TextureGraph

variable {M α : Type}

/-! ### Leaves -/

namespace Sampling

/-- The cells of the leaves. -/
def cells (r : Sampling α) : List (Cell α) :=
  r.leaves.map Leaf.cell

/-- Parts that are all sampled are sampled one after another. -/
theorem foldlM_append {ε : Type} {sample : Cell α → Except ε (Sampling α)}
    {part : Cell α → Sampling α} (h : ∀ c, sample c = .ok (part c)) (parts : List (Cell α))
    (own : Sampling α) :
    parts.foldlM (fun sum c => return sum.append (← sample c)) own
      = .ok (parts.foldl (fun sum c => sum.append (part c)) own) := by
  have hstep : (fun (sum : Sampling α) c => return sum.append (← sample c))
      = fun sum c => (pure (sum.append (part c)) : Except ε (Sampling α)) := by
    funext sum c
    rw [h c]
    rfl
  rw [hstep]
  exact List.foldlM_pure

/-- What is sampled part by part has the leaves of all parts. -/
theorem leaves_foldl_append (part : Cell α → Sampling α) (parts : List (Cell α))
    (own : Sampling α) :
    (parts.foldl (fun sum c => sum.append (part c)) own).leaves
      = own.leaves ++ parts.flatMap fun c => (part c).leaves := by
  induction parts generalizing own with
  | nil => simp
  | cons c parts ih =>
    rw [List.foldl_cons, ih, List.flatMap_cons, ← List.append_assoc]
    rfl

theorem cells_foldl_append (part : Cell α → Sampling α) (parts : List (Cell α))
    (own : Sampling α) :
    (parts.foldl (fun sum c => sum.append (part c)) own).cells
      = own.cells ++ parts.flatMap fun c => (part c).cells := by
  rw [cells, leaves_foldl_append, List.map_append, List.map_flatMap]
  rfl

end Sampling

/-! ### Requests that are accepted -/

section Requests

variable [Arith α]

namespace Settings

variable {settings : Settings α}

theorem isMeasure_errorTolerance (h : settings.validate = .ok ()) :
    isMeasure settings.errorTolerance = true := by
  unfold validate at h
  split_ifs at h with hversion htolerance
  simpa using htolerance

/-- The blur of settings that can be used. -/
theorem isMeasure_baseBlur (h : settings.validate = .ok ()) :
    isMeasure settings.baseBlur = true := by
  unfold validate at h
  split_ifs at h with hversion htolerance hblur
  simpa using hblur

theorem minDepth_le_maxDepth (h : settings.validate = .ok ()) :
    settings.minDepth ≤ settings.maxDepth := by
  unfold validate at h
  split_ifs at h with hversion htolerance hblur hdepth
  simp only [Bool.or_eq_true, decide_eq_true_eq, not_or, not_lt] at hdepth
  exact hdepth.1

end Settings

namespace FrozenGraph

variable {f : FrozenGraph M α} {t : Target}

/-- An output of the graph is found for every blur that settings may have. -/
theorem exists_target {blur : α} {signature : Signature α} {kind : SocketKind}
    (hblur : Settings.isMeasure blur = true)
    (hsignature : f.graph.signature? t.module = some signature)
    (hkind : signature.outputKind? t.output = some kind) :
    ∃ e, f.target t blur = .ok (e, kind) := by
  obtain ⟨e, he, rfl⟩ := Option.map_eq_some_iff.mp hsignature
  have haccepted : (!Arith.isFinite blur || decide (blur < 0.0)) = false := by
    simpa [Settings.isMeasure] using hblur
  exact ⟨e, by simp [target, haccepted, he, hkind]⟩

variable [TextureModule M α] {q : Query α} {e : Entry M α} {kind : SocketKind}

theorem evaluateScalar_eq_ok (h : f.target t q.blur = .ok (e, kind)) (hscalar : kind ≠ .color) :
    f.evaluateScalar t q = .ok ((f.answers e).value t.output q) := by
  unfold evaluateScalar
  rw [h]
  exact if_neg hscalar

theorem estimateError_eq_ok (h : f.target t q.blur = .ok (e, kind)) :
    f.estimateError t q = .ok (reportedError ((f.answers e).error t.output q)) := by
  unfold estimateError
  rw [h]
  rfl

end FrozenGraph

end Requests

namespace Sampler

section Steps

variable [Arith α]

/-- The graph accepts the requests of the sampler. -/
def Accepted (s : Sampler M α) : Prop :=
  ∃ e kind, s.graph.target s.target s.settings.baseBlur = .ok (e, kind) ∧ kind ≠ .color

section Valid

variable {f : FrozenGraph M α} {target : Target} {patch : Patch α} {settings : Settings α}
  {signature : Signature α} {kind : SocketKind}

/-- Settings that can be used and an output that carries numbers make a sampler. -/
theorem create_eq_ok (hsettings : settings.validate = .ok ())
    (hsignature : f.graph.signature? target.module = some signature)
    (hkind : signature.outputKind? target.output = some kind) (hscalar : kind ≠ .color) :
    create f target patch settings = .ok ⟨f, target, patch, settings⟩ := by
  unfold create
  rw [hsettings]
  simp only [hsignature, hkind, if_neg hscalar]
  rfl

/-- The graph accepts the requests of such a sampler. -/
theorem accepted_of_valid (hsettings : settings.validate = .ok ())
    (hsignature : f.graph.signature? target.module = some signature)
    (hkind : signature.outputKind? target.output = some kind) (hscalar : kind ≠ .color) :
    Accepted ⟨f, target, patch, settings⟩ := by
  obtain ⟨e, he⟩ :=
    FrozenGraph.exists_target (Settings.isMeasure_baseBlur hsettings) hsignature hkind
  exact ⟨e, kind, he, hscalar⟩

end Valid

variable {s : Sampler M α}

/-! ### The step -/

/-- A quadrant may be split once less often than the cell. -/
theorem levels_quadrant {c : Cell α} {levels : Nat} (hlevels : s.levels c = levels + 1)
    (i j : Nat) : s.levels (c.quadrant i j) = levels := by
  unfold Sampler.levels at hlevels ⊢
  have hdepth : (c.quadrant i j).depth = c.depth + 1 := rfl
  omega

variable [TextureModule M α]

/-- A cell that is as deep as the settings allow is not split. -/
theorem splits_of_levels_eq_zero {c : Cell α} (hlevels : s.levels c = 0) {error : Option α}
    (herror : s.cellError c = .ok error) : s.splits c error = false := by
  unfold levels at hlevels
  have hmin : ¬ c.depth < s.settings.minDepth := by omega
  have hmax : ¬ c.depth < s.settings.maxDepth := by omega
  unfold cellError at herror
  rw [if_neg hmin] at herror
  cases herror' : s.graph.estimateError s.target (s.query c) with
  | error e =>
    rw [herror'] at herror
    cases herror
  | ok a =>
    rw [herror'] at herror
    cases herror
    simp [splits, hmax]

/-- How often a cell may be split never decides whether it is: the error and the settings alone
do. -/
theorem refine_levels (s : Sampler M α) (c : Cell α) :
    s.refine (s.levels c) c = (do
      let error ← s.cellError c
      if s.splits c error then
        c.split.foldlM (fun sum q => return sum.append (← s.refine (s.levels q) q))
          { work := { evaluations := if error.isSome then 1 else 0, refined := 1 } }
      else s.leaf c error) := by
  cases hlevels : s.levels c with
  | zero =>
    rw [refine]
    refine bind_congr_of_ok fun error herror => ?_
    rw [splits_of_levels_eq_zero hlevels herror]
    rfl
  | succ levels =>
    rw [refine]
    simp only [Cell.split, List.foldlM, levels_quadrant hlevels]

theorem Accepted.exists_cellError (h : s.Accepted) (c : Cell α) :
    ∃ error, s.cellError c = .ok error := by
  obtain ⟨e, kind, htarget, -⟩ := h
  unfold cellError
  split_ifs with hdepth
  · exact ⟨none, rfl⟩
  · rw [FrozenGraph.estimateError_eq_ok (q := s.query c) htarget]
    exact ⟨_, rfl⟩

theorem Accepted.exists_leaf (h : s.Accepted) (c : Cell α) (error : Option α) :
    ∃ r, s.leaf c error = .ok r ∧ r.cells = [c] := by
  obtain ⟨e, kind, htarget, hscalar⟩ := h
  unfold leaf
  rw [FrozenGraph.evaluateScalar_eq_ok (q := s.query c) htarget hscalar]
  exact ⟨_, rfl, rfl⟩

/-- A cell that may be split no further becomes a leaf. -/
theorem Accepted.exists_refine_zero (h : s.Accepted) (c : Cell α) :
    ∃ r, s.refine 0 c = .ok r ∧ r.cells = [c] := by
  obtain ⟨error, herror⟩ := h.exists_cellError c
  rw [refine, herror]
  exact h.exists_leaf c error

/-- A cell that may be split becomes a leaf or gives way to its quadrants. -/
theorem Accepted.exists_refine_succ (h : s.Accepted) {levels : Nat} {part : Cell α → Sampling α}
    (hpart : ∀ q, s.refine levels q = .ok (part q)) (c : Cell α) :
    ∃ r, s.refine (levels + 1) c = .ok r ∧
      (r.cells = [c] ∨ r.cells = c.split.flatMap fun q => (part q).cells) := by
  obtain ⟨error, herror⟩ := h.exists_cellError c
  rw [refine, herror]
  by_cases hsplits : s.splits c error = true
  · exact ⟨_, (if_pos hsplits).trans (Sampling.foldlM_append hpart c.split _),
      .inr (Sampling.cells_foldl_append part c.split _)⟩
  · obtain ⟨r, hr, hcells⟩ := h.exists_leaf c error
    exact ⟨r, (if_neg hsplits).trans hr, .inl hcells⟩

/-! ### Images -/

theorem average_eq_ok {c : Cell α} {r : Sampling α} (h : s.sample c = .ok r) :
    s.average c = .ok (mean c.area r.leaves, r.work) := by
  unfold average
  rw [h]
  rfl

section Images

variable {f : FrozenGraph M α} {target : Target} {patch : Patch α} {settings : Settings α}
  {sampling : Cell α → Sampling α} {width height : Nat}

theorem mapM_average (hsample : ∀ c, s.sample c = .ok (sampling c)) (cells : List (Cell α)) :
    cells.mapM s.average
      = .ok (cells.map fun c => (mean c.area (sampling c).leaves, (sampling c).work)) := by
  have haverage : s.average = fun c => pure (mean c.area (sampling c).leaves, (sampling c).work) :=
    funext fun c => average_eq_ok (hsample c)
  rw [haverage]
  exact List.mapM_pure

/-- A pixel is the mean over the leaves of its cell, and the work is that of all cells. -/
theorem render_eq_ok (hcreate : create f target patch settings = .ok s)
    (hsample : ∀ c, s.sample c = .ok (sampling c)) (hwidth : 0 < width) (hheight : 0 < height) :
    Raster.render f target patch settings width height = .ok
      { width, height
        pixels := (Raster.cells width height).map fun c => mean c.area (sampling c).leaves
        work := ((Raster.cells width height).map fun c => (sampling c).work).foldl (· + ·) {} } := by
  have hpixels : ¬ (width = 0 ∨ height = 0) := by omega
  unfold Raster.render
  rw [if_neg hpixels, hcreate]
  simp only [bind, Except.bind, mapM_average hsample, List.map_map]
  rfl

theorem exists_render (hcreate : create f target patch settings = .ok s)
    (hsample : ∀ c, s.sample c = .ok (sampling c)) (hwidth : 0 < width) (hheight : 0 < height) :
    ∃ raster, Raster.render f target patch settings width height = .ok raster ∧
      raster.pixels = (Raster.cells width height).map fun c => mean c.area (sampling c).leaves :=
  ⟨_, render_eq_ok hcreate hsample hwidth hheight, rfl⟩

end Images

end Steps

/-! ### The run -/

section Run

variable [ExactArith α] [TextureModule M α] {s : Sampler M α}

/-- Whichever cells are split, the leaves partition the cell. -/
theorem Accepted.exists_refine (h : s.Accepted) (levels : Nat) :
    ∃ sampling : Cell α → Sampling α, ∀ c, s.refine levels c = .ok (sampling c) ∧
      (c.Proper → c.IsPartition (sampling c).cells) := by
  -- Induction on how often a cell may still be split: its quadrants have one level less.
  induction levels with
  | zero =>
    choose sampling hrefine hcells using h.exists_refine_zero
    refine ⟨sampling, fun c => ⟨hrefine c, fun hproper => ?_⟩⟩
    rw [hcells c]
    exact Cell.isPartition_singleton hproper
  | succ levels ih =>
    obtain ⟨part, hpart⟩ := ih
    choose sampling hrefine hcells using h.exists_refine_succ fun q => (hpart q).1
    refine ⟨sampling, fun c => ⟨hrefine c, fun hproper => ?_⟩⟩
    rcases hcells c with hleaf | hquadrants
    · rw [hleaf]
      exact Cell.isPartition_singleton hproper
    · have hsplit : c.IsPartition c.split := Cell.isPartition_split hproper
      rw [hquadrants]
      exact hsplit.flatMap fun q hq => (hpart q).2 (hsplit.proper q hq)

/-- Every cell is sampled, and the leaves partition it. -/
theorem Accepted.exists_sample (h : s.Accepted) :
    ∃ sampling : Cell α → Sampling α, ∀ c, s.sample c = .ok (sampling c) ∧
      (c.Proper → c.IsPartition (sampling c).cells) := by
  choose sampling hsampling using h.exists_refine
  refine ⟨fun c => sampling (s.levels c) c, fun c => ?_⟩
  obtain ⟨hrefine, hpartition⟩ := hsampling (s.levels c) c
  exact ⟨mapError_eq_ok_iff.mpr hrefine, hpartition⟩

variable {f : FrozenGraph M α} {target : Target} {patch : Patch α} {settings : Settings α}
  {signature : Signature α} {kind : SocketKind}

/-- **Leaves are partitions**: a sampler is created from settings that can be used and an output
that carries numbers, and samples every cell; whichever cells are split,

* the leaves of a cell partition it;
* the image of the output has for each pixel the mean over the leaves of the cell of the pixel, and
  these leaves together partition the unit square. -/
theorem leaves_partition (hsettings : settings.validate = .ok ())
    (hsignature : f.graph.signature? target.module = some signature)
    (hkind : signature.outputKind? target.output = some kind) (hscalar : kind ≠ .color) :
    ∃ (s : Sampler M α) (sampling : Cell α → Sampling α),
      create f target patch settings = .ok s ∧ (∀ c, s.sample c = .ok (sampling c)) ∧
        (∀ c : Cell α, c.Proper → c.IsPartition (sampling c).cells) ∧
        ∀ width height, 0 < width → 0 < height →
          (∃ raster, Raster.render f target patch settings width height = .ok raster ∧
            raster.pixels
              = (Raster.cells width height).map fun c => mean c.area (sampling c).leaves) ∧
          Cell.unit.IsPartition
            ((Raster.cells width height).flatMap fun c => (sampling c).cells) := by
  have hcreate : create f target patch settings = .ok ⟨f, target, patch, settings⟩ :=
    create_eq_ok hsettings hsignature hkind hscalar
  have haccepted : Accepted ⟨f, target, patch, settings⟩ :=
    accepted_of_valid hsettings hsignature hkind hscalar
  obtain ⟨sampling, hsampling⟩ := haccepted.exists_sample
  refine ⟨_, sampling, hcreate, fun c => (hsampling c).1, fun c => (hsampling c).2,
    fun width height hwidth hheight => ⟨?_, ?_⟩⟩
  · exact exists_render hcreate (fun c => (hsampling c).1) hwidth hheight
  · have hpixels : Cell.unit.IsPartition (Raster.cells width height : List (Cell α)) :=
      Cell.isPartition_cells hwidth hheight
    exact hpixels.flatMap fun c hc => (hsampling c).2 (hpixels.proper c hc)

end Run

/-- The first coordinate of the position. -/
noncomputable def firstCoordinate : Graph (Catalog ℝ) ℝ :=
  Graph.ofEdits "first coordinate" [.add (.source (.coordinate .x))]

theorem validate_standard : (Settings.standard : Settings ℝ).validate = .ok () := by
  have hmeasure : ∀ a : ℝ, 0 ≤ a → Settings.isMeasure a = true := by
    intro a ha
    refine (Bool.and_eq_true _ _).mpr ⟨rfl, ?_⟩
    simpa using ha
  have htolerance : Settings.isMeasure (Settings.standard : Settings ℝ).errorTolerance = true := by
    refine hmeasure _ ?_
    unfold Settings.standard
    rw [ExactArith.literal_eq]
    norm_num
  have hblur : Settings.isMeasure (Settings.standard : Settings ℝ).baseBlur = true :=
    hmeasure _ (ExactArith.zero_eq (α := ℝ)).ge
  unfold Settings.validate
  rw [htolerance, hblur]
  rfl

theorem leaves_partition_firstCoordinate :
    ∃ f, firstCoordinate.freeze = .ok f ∧
      ∃ (s : Sampler (Catalog ℝ) ℝ) (sampling : Cell ℝ → Sampling ℝ),
        create f ⟨⟨0⟩, 0⟩ .standard .standard = .ok s ∧ (∀ c, s.sample c = .ok (sampling c)) ∧
          Cell.IsPartition ⟨2, 3, 1, 4, 0⟩ (sampling ⟨2, 3, 1, 4, 0⟩).cells ∧
          ∃ leaves, leaves = (Raster.cells 3 2).flatMap (fun c => (sampling c).cells) ∧
            (⋃ c ∈ leaves, c.region = Set.Icc (0 : ℝ) 1 ×ˢ Set.Icc (0 : ℝ) 1) ∧
            (leaves.map Cell.area).sum = 1 := by
  have hfreeze : firstCoordinate.freeze = .ok ⟨firstCoordinate, ⟨[⟨0⟩], 1⟩⟩ :=
    Graph.freeze_eq_ok (by decide +kernel)
  obtain ⟨s, sampling, hcreate, hsample, hcell, himage⟩ :
      ∃ s sampling, create ⟨firstCoordinate, ⟨[⟨0⟩], 1⟩⟩ ⟨⟨0⟩, 0⟩ .standard .standard = .ok s ∧ _ :=
    leaves_partition validate_standard rfl rfl (by decide)
  have hleaves := (himage 3 2 (by decide) (by decide)).2
  exact ⟨_, hfreeze, s, sampling, hcreate, hsample, hcell _ ⟨one_pos, four_pos⟩, _, rfl,
    hleaves.covers.trans Cell.region_unit, hleaves.areas.trans Cell.area_unit⟩

end Sampler

end TextureGraph
