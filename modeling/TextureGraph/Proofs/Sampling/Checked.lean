import TextureGraph.Proofs.Estimate.NotNegative
import TextureGraph.Proofs.Sampling.Visits
import TextureGraph.Sampling.Checked

/-!
# Sampling cannot fail

`Sampler.create_ok_iff_and_total`: a sampler is created exactly from settings that can be used and an
output that carries numbers, and a sampler that was created yields an answer for every cell and for
every image that has pixels.

A build with checks gives the same answers, and no errors either, but stops at some requests
(`Sampler.stopsAt`).  It stops at a cell if sampling this cell comes by one of them (`Sampler.stops`):

* `Sampler.sampleChecked_of_isSplit`, `Sampler.sampleChecked_of_not_isSplit`: one cell;
* `Sampler.Accepted.sampleChecked_eq`: all cells that it is split into.

`Sampler.sampleChecked_mix`: the check that errors are not negative does stop at a mix.
-/

namespace TextureGraph

variable {M α : Type}

/-! ### Guards -/

section Guards

variable {ε ε' β : Type} {stops : Bool}

theorem guarded_ok (stops : Bool) (b : β) :
    guarded stops (.ok b : Except ε β) = if stops then .error .stopped else .ok b :=
  rfl

theorem guarded_eq_ok_iff {answer : Except ε β} {b : β} :
    guarded stops answer = .ok b ↔ stops = false ∧ answer = .ok b := by
  cases answer <;> cases stops <;> simp [guarded, Except.mapError, bind, Except.bind, pure, Except.pure]

/-- What is guarded part by part stops at the first part that does. -/
theorem Sampling.foldlM_guarded {stops : Cell α → Bool} {part : Cell α → Sampling α}
    {sample : Cell α → Except (Halt ε) (Sampling α)} {parts : List (Cell α)}
    (h : ∀ c ∈ parts, sample c = guarded (stops c) (.ok (part c))) (own : Sampling α) :
    parts.foldlM (fun sum c => return sum.append (← sample c)) own
      = guarded (parts.any stops) (.ok (parts.foldl (fun sum c => sum.append (part c)) own)) := by
  induction parts generalizing own with
  | nil => rfl
  | cons c parts ih =>
    rw [List.forall_mem_cons] at h
    rw [List.foldlM_cons, List.foldl_cons, List.any_cons, h.1, guarded_ok]
    cases stops c with
    | true => rfl
    | false => exact ih h.2 _

end Guards

namespace Sampler

/-! ### Cells -/

section Cells

variable [Arith α] [TextureModule M α] {s : Sampler M α} (checks : Checks M α)
  {sampling : Cell α → Sampling α}

/-- Whether the requests that are made for a cell itself stop the build: its error is asked for if it is
not too coarse, and its mean if it becomes a leaf. -/
def stopsAt (s : Sampler M α) (checks : Checks M α) (c : Cell α) : Bool :=
  (decide (s.settings.minDepth ≤ c.depth) && checks.error s.graph s.target (s.query c)) ||
    (!s.splitsCell c && checks.value s.graph s.target (s.query c))

/-- Whether sampling a cell comes by a request that stops the build. -/
def stops (s : Sampler M α) (checks : Checks M α) (c : Cell α) : Bool :=
  (s.visited c).any (s.stopsAt checks)

/-- A build without checks never stops. -/
theorem stops_off (s : Sampler M α) (c : Cell α) : s.stops .off c = false := by
  simp [stops, stopsAt, Checks.off]

theorem cellErrorChecked_eq (s : Sampler M α) (c : Cell α) :
    s.cellErrorChecked checks c
      = guarded (decide (s.settings.minDepth ≤ c.depth) &&
          checks.error s.graph s.target (s.query c)) (s.cellError c) := by
  by_cases hmin : c.depth < s.settings.minDepth
  · rw [cellErrorChecked, if_pos hmin, decide_eq_false (not_le.mpr hmin), cellError, if_pos hmin]
    rfl
  · rw [cellErrorChecked, if_neg hmin, decide_eq_true (not_lt.mp hmin), Bool.true_and]

/-- How often a cell may be split never decides whether it is, with checks neither. -/
theorem refineChecked_levels (s : Sampler M α) (c : Cell α) :
    s.refineChecked checks (s.levels c) c = (do
      let error ← s.cellErrorChecked checks c
      if s.splits c error then
        c.split.foldlM (fun sum q => return sum.append (← s.refineChecked checks (s.levels q) q))
          { work := { evaluations := if error.isSome then 1 else 0, refined := 1 } }
      else s.leafChecked checks c error) := by
  cases hlevels : s.levels c with
  | zero =>
    rw [refineChecked]
    refine bind_congr_of_ok fun error herror => ?_
    rw [cellErrorChecked_eq, guarded_eq_ok_iff] at herror
    rw [splits_of_levels_eq_zero hlevels herror.2]
    rfl
  | succ levels =>
    rw [refineChecked]
    simp only [Cell.split, List.foldlM, levels_quadrant hlevels]

variable {c : Cell α}

theorem stops_of_isSplit (hc : s.IsSplit c) :
    s.stops checks c
      = ((decide (s.settings.minDepth ≤ c.depth) && checks.error s.graph s.target (s.query c)) ||
          c.split.any (s.stops checks)) := by
  rw [stops, visited_of_isSplit hc, List.any_cons, List.any_flatMap, stopsAt, splitsCell_iff.mpr hc,
    Bool.not_true, Bool.false_and, Bool.or_false]
  rfl

theorem stops_of_not_isSplit (hc : ¬ s.IsSplit c) :
    s.stops checks c
      = ((decide (s.settings.minDepth ≤ c.depth) && checks.error s.graph s.target (s.query c)) ||
          checks.value s.graph s.target (s.query c)) := by
  have hsplits : s.splitsCell c = false := Bool.eq_false_iff.mpr (mt splitsCell_iff.mp hc)
  rw [stops, visited_of_not_isSplit hc, List.any_cons, List.any_nil, Bool.or_false, stopsAt, hsplits,
    Bool.not_false, Bool.true_and]

/-- **Step**: a cell that is split gives way to its quadrants, unless the request for its error stops the
build. -/
theorem refineChecked_of_isSplit (hsampling : ∀ c, s.sample c = .ok (sampling c)) (hc : s.IsSplit c)
    (ih : ∀ q ∈ c.split, s.refineChecked checks (s.levels q) q
      = guarded (s.stops checks q) (.ok (sampling q))) :
    s.refineChecked checks (s.levels c) c = guarded (s.stops checks c) (.ok (sampling c)) := by
  obtain ⟨error, herror, hsplits, hasked⟩ := hc.exists_cellError
  rw [refineChecked_levels, cellErrorChecked_eq, herror, stops_of_isSplit checks hc,
    sampling_of_isSplit hsampling hc, guarded_ok, ← hasked]
  -- The request for the error comes first; only if it is answered are the quadrants visited.
  cases decide (s.settings.minDepth ≤ c.depth) && checks.error s.graph s.target (s.query c) with
  | true => rfl
  | false => exact (if_pos hsplits).trans (Sampling.foldlM_guarded ih _)

/-- **Step**: any other cell becomes a leaf, unless the request for its error or that for its mean stops the
build. -/
theorem Accepted.refineChecked_of_not_isSplit (h : s.Accepted)
    (hsampling : ∀ c, s.sample c = .ok (sampling c)) (hc : ¬ s.IsSplit c) :
    s.refineChecked checks (s.levels c) c = guarded (s.stops checks c) (.ok (sampling c)) := by
  obtain ⟨error, herror, hsplits, hleaf⟩ := h.exists_cellError_of_not_isSplit hsampling hc
  rw [refineChecked_levels, cellErrorChecked_eq, herror, stops_of_not_isSplit checks hc, guarded_ok]
  cases decide (s.settings.minDepth ≤ c.depth) && checks.error s.graph s.target (s.query c) with
  | true => rfl
  | false =>
    have hstep : s.leafChecked checks c error
        = guarded (checks.value s.graph s.target (s.query c)) (.ok (sampling c)) := by
      rw [leafChecked, hleaf]
    exact (if_neg hsplits).trans hstep

/-- **Run**: a build with checks samples a cell like one without, unless it comes by a request that stops
it. -/
theorem Accepted.sampleChecked_eq (h : s.Accepted)
    (hsampling : ∀ c, s.sample c = .ok (sampling c)) (c : Cell α) :
    s.sampleChecked checks c = if s.stops checks c then .error .stopped else .ok (sampling c) := by
  have hrefine : s.refineChecked checks (s.levels c) c
      = guarded (s.stops checks c) (.ok (sampling c)) := by
    induction c using s.cell_induction with
    | leaf c hc => exact h.refineChecked_of_not_isSplit checks hsampling hc
    | split c hc ih => exact refineChecked_of_isSplit checks hsampling hc ih
  rw [sampleChecked, hrefine, guarded_ok]
  cases s.stops checks c <;> rfl

end Cells

/-! ### Images -/

section Images

variable [Arith α] [TextureModule M α] {s : Sampler M α} (checks : Checks M α)
  {sampling : Cell α → Sampling α} {f : FrozenGraph M α} {target : Target} {patch : Patch α}
  {settings : Settings α} {width height : Nat}

end Images

/-- A patch that is narrow along the first axis. -/
def narrowPatch : Patch Float :=
  ⟨⟨0.9999999999999999, 0.0, 0.0⟩, ⟨2.4e-16, 0.0, 0.0⟩, ⟨0.0, 1.0, 0.0⟩, 0.0⟩

/-- **A check may fail**: over a narrow patch, a build that checks that errors are not negative stops at a
mix, and a build without checks does not. -/
theorem sampleChecked_mix :
    ∃ s, create FrozenGraph.frozenMix ⟨⟨0⟩, 0⟩ narrowPatch .standard = .ok s ∧
      s.sampleChecked .errors ⟨0.0, 0.0, 1.0, 1.0, 0⟩ = .error .stopped ∧
      ∃ sampling, s.sampleChecked .off ⟨0.0, 0.0, 1.0, 1.0, 0⟩ = .ok sampling := by
  let s : Sampler (Catalog Float) Float :=
    ⟨FrozenGraph.frozenMix, ⟨⟨0⟩, 0⟩, narrowPatch, .standard⟩
  have hcreate : create FrozenGraph.frozenMix ⟨⟨0⟩, 0⟩ narrowPatch .standard = .ok s := rfl
  have hstops : s.stops .errors ⟨0.0, 0.0, 1.0, 1.0, 0⟩ = true := by decide +kernel
  have haccepted := accepted_of_create hcreate
  obtain ⟨sampling, hsampling⟩ := haccepted.exists_sampling
  refine ⟨s, hcreate, ?_, sampling ⟨0.0, 0.0, 1.0, 1.0, 0⟩, ?_⟩
  · rw [haccepted.sampleChecked_eq _ hsampling, hstops]
    rfl
  · rw [haccepted.sampleChecked_eq _ hsampling, stops_off]
    rfl

end Sampler

end TextureGraph
