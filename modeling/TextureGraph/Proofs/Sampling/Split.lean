import TextureGraph.Proofs.Sampling.Accumulation
import TextureGraph.Proofs.Sampling.Totality

/-!
# The cells that are split

The settings and the error over a cell decide whether the cell is split (`Sampler.IsSplit`).

* `Sampler.sampling_of_isSplit`, `Sampler.sampling_of_not_isSplit`: a cell that is split gives way to
  its quadrants, and any other cell becomes a leaf.
* `Sampler.cell_induction`: the induction along the cells that are split.
-/

namespace TextureGraph

namespace Cell

variable {α : Type} [Arith α] {c q : Cell α}

theorem exists_quadrant_of_mem_split (h : q ∈ c.split) : ∃ i j, q = c.quadrant i j := by
  simp only [split, List.mem_cons, List.not_mem_nil, or_false] at h
  rcases h with rfl | rfl | rfl | rfl <;> exact ⟨_, _, rfl⟩

theorem depth_of_mem_split (h : q ∈ c.split) : q.depth = c.depth + 1 := by
  obtain ⟨i, j, rfl⟩ := exists_quadrant_of_mem_split h
  rfl

end Cell

namespace Sampler

variable {M α : Type} [Arith α] [TextureModule M α] {s : Sampler M α}

/-- The cell is split: it is not as deep as every cell has to be, or the error over it is not
tolerated and it may be split further. -/
def IsSplit (s : Sampler M α) (c : Cell α) : Prop :=
  c.depth < s.settings.minDepth ∨
    ∃ error, s.graph.estimateError s.target (s.query c) = .ok error ∧
      s.settings.errorTolerance < error ∧ c.depth < s.settings.maxDepth

theorem IsSplit.levels_quadrant_lt {c q : Cell α} (h : s.IsSplit c) (hq : q ∈ c.split) :
    s.levels q < s.levels c := by
  have hdepth := Cell.depth_of_mem_split hq
  unfold levels
  rcases h with hmin | ⟨-, -, -, hmax⟩ <;> omega

/-- Facts about cells are proved from the leaves upward: for a cell that is split they may be assumed
of its quadrants. -/
theorem cell_induction (s : Sampler M α) {motive : Cell α → Prop}
    (leaf : ∀ c, ¬ s.IsSplit c → motive c)
    (split : ∀ c, s.IsSplit c → (∀ q ∈ c.split, motive q) → motive c) (c : Cell α) : motive c := by
  induction hlevels : s.levels c using Nat.strong_induction_on generalizing c with
  | _ levels ih =>
    by_cases hc : s.IsSplit c
    · exact split c hc fun q hq => ih _ (hlevels ▸ hc.levels_quadrant_lt hq) q rfl
    · exact leaf c hc

variable {sampling : Cell α → Sampling α} {c : Cell α}

/-- The error over a cell that is split was asked for unless the cell is split in any case. -/
theorem IsSplit.exists_cellError (hc : s.IsSplit c) :
    ∃ error, s.cellError c = .ok error ∧ s.splits c error = true ∧
      (if error.isSome then 1 else 0) = if c.depth < s.settings.minDepth then 0 else 1 := by
  rw [cellError]
  by_cases hmin : c.depth < s.settings.minDepth
  · rw [if_pos hmin, if_pos hmin]
    exact ⟨none, rfl, rfl, rfl⟩
  · obtain ⟨error, herror, htolerance, hmax⟩ := hc.resolve_left hmin
    have hsplits : s.splits c (some error) = true := by simp [splits, htolerance, hmax]
    rw [if_neg hmin, if_neg hmin, herror]
    exact ⟨some error, rfl, hsplits, rfl⟩

/-- A cell that is split gives way to its quadrants. -/
theorem sampling_of_isSplit (hsampling : ∀ c, s.sample c = .ok (sampling c)) (hc : s.IsSplit c) :
    sampling c = c.split.foldl (fun sum q => sum.append (sampling q))
      { work :=
        { evaluations := if c.depth < s.settings.minDepth then 0 else 1, refined := 1 } } := by
  have hrefine : ∀ c, s.refine (s.levels c) c = .ok (sampling c) :=
    fun c => mapError_eq_ok_iff.mp (hsampling c)
  have hc' := hrefine c
  obtain ⟨error, herror, hsplits, hasked⟩ := hc.exists_cellError
  rw [refine_levels, herror] at hc'
  have hfold := (if_pos hsplits).symm.trans hc'
  rw [← hasked]
  exact Except.ok.inj (hfold.symm.trans (Sampling.foldlM_append hrefine c.split _))

theorem leaves_of_isSplit (hsampling : ∀ c, s.sample c = .ok (sampling c)) (hc : s.IsSplit c) :
    (sampling c).leaves = c.split.flatMap fun q => (sampling q).leaves := by
  rw [sampling_of_isSplit hsampling hc, Sampling.leaves_foldl_append, List.nil_append]

theorem work_of_isSplit (hsampling : ∀ c, s.sample c = .ok (sampling c)) (hc : s.IsSplit c) :
    (sampling c).work
      = { evaluations := if c.depth < s.settings.minDepth then 0 else 1, refined := 1 }
        + (c.split.map fun q => (sampling q).work).sum := by
  rw [sampling_of_isSplit hsampling hc, Sampling.work_foldl_append]

/-- The error over any other cell is asked for. -/
theorem cellError_of_not_isSplit (hc : ¬ s.IsSplit c) {error : α}
    (herror : s.graph.estimateError s.target (s.query c) = .ok error) :
    s.cellError c = .ok (some error) ∧ ¬ s.splits c (some error) = true := by
  rw [IsSplit, not_or, not_exists] at hc
  obtain ⟨hmin, hmax⟩ := hc
  rw [cellError, if_neg hmin, herror]
  exact ⟨rfl, by simpa [splits, herror] using hmax error⟩

/-- Any other cell becomes a leaf, with the value and the error of the output over it. -/
theorem sampling_of_not_isSplit (hsampling : ∀ c, s.sample c = .ok (sampling c))
    (hc : ¬ s.IsSplit c) {value error : α}
    (hvalue : s.graph.evaluateScalar s.target (s.query c) = .ok value)
    (herror : s.graph.estimateError s.target (s.query c) = .ok error) :
    sampling c = { leaves := [⟨c, value, error⟩]
                   work := { evaluations := 2, leaves := 1, deepest := c.depth } } := by
  obtain ⟨hasked, hsplits⟩ := cellError_of_not_isSplit hc herror
  have hc' : s.refine (s.levels c) c = .ok (sampling c) := mapError_eq_ok_iff.mp (hsampling c)
  rw [refine_levels, hasked] at hc'
  have hleaf := (if_neg hsplits).symm.trans hc'
  rw [leaf, hvalue] at hleaf
  exact (Except.ok.inj hleaf).symm

namespace Accepted

theorem exists_estimateError (h : s.Accepted) (c : Cell α) :
    ∃ error, s.graph.estimateError s.target (s.query c) = .ok error := by
  obtain ⟨e, kind, htarget, -⟩ := h
  exact ⟨_, FrozenGraph.estimateError_eq_ok (q := s.query c) htarget⟩

theorem exists_evaluateScalar (h : s.Accepted) (c : Cell α) :
    ∃ value, s.graph.evaluateScalar s.target (s.query c) = .ok value := by
  obtain ⟨e, kind, htarget, hscalar⟩ := h
  exact ⟨_, FrozenGraph.evaluateScalar_eq_ok (q := s.query c) htarget hscalar⟩

/-- Where the graph accepts the requests, any other cell becomes a leaf. -/
theorem exists_leaf_of_not_isSplit (h : s.Accepted)
    (hsampling : ∀ c, s.sample c = .ok (sampling c)) (hc : ¬ s.IsSplit c) :
    ∃ value error, s.graph.evaluateScalar s.target (s.query c) = .ok value ∧
      s.graph.estimateError s.target (s.query c) = .ok error ∧
      sampling c = { leaves := [⟨c, value, error⟩]
                     work := { evaluations := 2, leaves := 1, deepest := c.depth } } := by
  obtain ⟨value, hvalue⟩ := h.exists_evaluateScalar c
  obtain ⟨error, herror⟩ := h.exists_estimateError c
  exact ⟨value, error, hvalue, herror, sampling_of_not_isSplit hsampling hc hvalue herror⟩

theorem exists_cellError_of_not_isSplit (h : s.Accepted)
    (hsampling : ∀ c, s.sample c = .ok (sampling c)) (hc : ¬ s.IsSplit c) :
    ∃ error, s.cellError c = .ok error ∧ ¬ s.splits c error = true ∧
      s.leaf c error = .ok (sampling c) := by
  obtain ⟨value, error, hvalue, herror, heq⟩ := h.exists_leaf_of_not_isSplit hsampling hc
  obtain ⟨hasked, hsplits⟩ := cellError_of_not_isSplit hc herror
  refine ⟨some error, hasked, hsplits, ?_⟩
  rw [leaf, hvalue, heq]
  rfl

end Accepted

end Sampler

end TextureGraph
