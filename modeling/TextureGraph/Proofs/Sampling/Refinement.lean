import TextureGraph.Proofs.Number.Rounding
import TextureGraph.Proofs.Sampling.Accumulation
import TextureGraph.Proofs.Sampling.Split

/-!
# Finer settings refine further

`Sampler.refines_of_finer`: with a smaller tolerance or greater depths, every leaf stays a leaf or
gives way, at its place, to the leaves of its quadrants, and no count gets smaller.

* `Cell.Refinement`: what comes of a cell when it is split, and perhaps some of its quadrants in turn.
  By `Sampler.Accepted.refinement` the leaves of a cell are such a refinement.
* `Sampler.IsSplit.of_finer`: a cell that is split is also split with finer settings.  So the two runs
  go together down to the leaves of the first one, where the second one may go on.
-/

namespace TextureGraph

/-! ### Finer settings -/

/-- Settings with the same blur that ask for as much in tolerance and in depth. -/
structure Settings.FinerThan {α : Type} [Arith α] (fine coarse : Settings α) : Prop where
  /-- The blur is the same. -/
  blur : fine.baseBlur = coarse.baseBlur
  /-- The tolerance is not larger. -/
  tolerance : fine.errorTolerance ≤ coarse.errorTolerance
  /-- Cells are split at least as often. -/
  minDepth : coarse.minDepth ≤ fine.minDepth
  /-- Cells may be split as often. -/
  maxDepth : coarse.maxDepth ≤ fine.maxDepth

/-! ### Refinements of a cell -/

section Cells

variable {α : Type} [Arith α]

/-- The cells that come of a cell when it is split, and perhaps some of its quadrants in turn, in the
order of the quadrants. -/
inductive Cell.Refinement : Cell α → List (Cell α) → Prop where
  /-- The cell itself. -/
  | whole (c : Cell α) : Refinement c [c]
  /-- What comes of each quadrant. -/
  | split {c : Cell α} {parts : Cell α → List (Cell α)}
      (quadrants : ∀ q ∈ c.split, Refinement q (parts q)) : Refinement c (c.split.flatMap parts)

/-- The cells are a refinement for which the cell itself is split. -/
def Cell.SplitInto (c : Cell α) (cells : List (Cell α)) : Prop :=
  ∃ parts : Cell α → List (Cell α), (∀ q ∈ c.split, q.Refinement (parts q)) ∧
    cells = c.split.flatMap parts

end Cells

/-! ### Work -/

namespace Work

/-- The work is at least as much in leaves, in cells that were split and in depth. -/
structure Covers (a b : Work) : Prop where
  /-- There are as many leaves. -/
  leaves : b.leaves ≤ a.leaves
  /-- As many cells were split. -/
  refined : b.refined ≤ a.refined
  /-- Some leaf is as deep. -/
  deepest : b.deepest ≤ a.deepest

namespace Covers

variable {a b a' b' : Work}

theorem refl (a : Work) : a.Covers a :=
  ⟨le_rfl, le_rfl, le_rfl⟩

theorem trans (h : a.Covers b) (h' : b.Covers b') : a.Covers b' :=
  ⟨h'.leaves.trans h.leaves, h'.refined.trans h.refined, h'.deepest.trans h.deepest⟩

theorem add_left (a b : Work) : (a + b).Covers b :=
  ⟨Nat.le_add_left _ _, Nat.le_add_left _ _, le_max_right _ _⟩

theorem add_right (a b : Work) : (a + b).Covers a :=
  ⟨Nat.le_add_right _ _, Nat.le_add_right _ _, le_max_left _ _⟩

theorem add (h : a.Covers b) (h' : a'.Covers b') : (a + a').Covers (b + b') where
  leaves := Nat.add_le_add h.leaves h'.leaves
  refined := Nat.add_le_add h.refined h'.refined
  deepest := max_le_max h.deepest h'.deepest

theorem sum {β : Type} {work work' : β → Work} {parts : List β}
    (h : ∀ x ∈ parts, (work' x).Covers (work x)) :
    (parts.map work').sum.Covers (parts.map work).sum := by
  induction parts with
  | nil => exact .refl 0
  | cons x parts ih =>
    rw [List.map_cons, List.map_cons, List.sum_cons, List.sum_cons]
    exact (h x List.mem_cons_self).add (ih fun y hy => h y (List.mem_cons_of_mem _ hy))

end Covers

end Work

namespace Sampler

/-! ### The leaves of a cell -/

namespace Accepted

variable {M α : Type} [Arith α] [TextureModule M α] {s : Sampler M α}
  {sampling : Cell α → Sampling α} {c : Cell α}

variable (h : s.Accepted) (hsampling : ∀ c, s.sample c = .ok (sampling c))

include h hsampling

/-- The leaves of a cell are a refinement of it. -/
theorem refinement (c : Cell α) : c.Refinement (sampling c).cells := by
  induction c using s.cell_induction with
  | leaf c hc =>
    obtain ⟨value, error, -, -, heq⟩ := h.exists_leaf_of_not_isSplit hsampling hc
    rw [heq]
    exact .whole c
  | split c hc ih =>
    rw [sampling_of_isSplit hsampling hc, Sampling.cells_foldl_append]
    exact .split ih

theorem splitInto (hc : s.IsSplit c) : c.SplitInto (sampling c).cells := by
  rw [sampling_of_isSplit hsampling hc, Sampling.cells_foldl_append]
  exact ⟨_, fun q _ => h.refinement hsampling q, rfl⟩

/-- A cell has a leaf, which is as deep as the cell. -/
theorem work_covers_leaf (c : Cell α) :
    (sampling c).work.Covers { evaluations := 2, leaves := 1, deepest := c.depth } := by
  induction c using s.cell_induction with
  | leaf c hc =>
    obtain ⟨value, error, -, -, heq⟩ := h.exists_leaf_of_not_isSplit hsampling hc
    rw [heq]
    exact .refl _
  | split c hc ih =>
    rw [work_of_isSplit hsampling hc, Cell.split, List.map_cons, List.sum_cons]
    -- The first quadrant has a leaf already, which is deeper than the cell.
    have hfirst := ih (c.quadrant 0 0) List.mem_cons_self
    have hdeeper : Work.Covers { evaluations := 2, leaves := 1, deepest := (c.quadrant 0 0).depth }
        { evaluations := 2, leaves := 1, deepest := c.depth } :=
      ⟨le_rfl, le_rfl, Nat.le_succ c.depth⟩
    exact ((Work.Covers.add_left _ _).trans (.add_right _ _)).trans (hfirst.trans hdeeper)

end Accepted

/-! ### The two runs -/

section Runs

variable {M : Type} [TextureModule M Float] {f : FrozenGraph M Float} {target : Target}
  {patch : Patch Float} {coarse fine : Settings Float}

/-- **Step**: a cell that is split is split with finer settings, too. -/
theorem IsSplit.of_finer (hfiner : fine.FinerThan coarse) {c : Cell Float}
    (hc : (⟨f, target, patch, coarse⟩ : Sampler M Float).IsSplit c) :
    (⟨f, target, patch, fine⟩ : Sampler M Float).IsSplit c := by
  rcases hc with hmin | ⟨error, herror, htolerance, hmax⟩
  · exact .inl (hmin.trans_le hfiner.minDepth)
  · refine .inr ⟨error, ?_, Binary64.lt_of_le_lt hfiner.tolerance htolerance,
      hmax.trans_le hfiner.maxDepth⟩
    -- Both ask for the same error, as the blur is the same.
    rw [← herror, query, hfiner.blur]
    rfl

variable {sampling sampling' : Cell Float → Sampling Float}

/-- **Run**: the finer run has, at the place of each leaf, the leaves of the cell of that leaf. -/
theorem leaves_of_finer (h : (⟨f, target, patch, coarse⟩ : Sampler M Float).Accepted)
    (h' : (⟨f, target, patch, fine⟩ : Sampler M Float).Accepted)
    (hsampling : ∀ c, sample (M := M) ⟨f, target, patch, coarse⟩ c = .ok (sampling c))
    (hsampling' : ∀ c, sample (M := M) ⟨f, target, patch, fine⟩ c = .ok (sampling' c))
    (hfiner : fine.FinerThan coarse) (c : Cell Float) :
    (sampling' c).leaves
        = (sampling c).leaves.flatMap (fun leaf => (sampling' leaf.cell).leaves) ∧
      (sampling' c).work.Covers (sampling c).work ∧
      ∀ leaf ∈ (sampling c).leaves, (sampling' leaf.cell).leaves = [leaf] ∨
        leaf.cell.SplitInto (sampling' leaf.cell).cells := by
  induction c using (⟨f, target, patch, coarse⟩ : Sampler M Float).cell_induction with
  | leaf c hc =>
    obtain ⟨value, error, hvalue, herror, heq⟩ := h.exists_leaf_of_not_isSplit hsampling hc
    rw [heq]
    refine ⟨by simp, h'.work_covers_leaf hsampling' c, fun leaf hleaf => ?_⟩
    obtain rfl := List.mem_singleton.mp hleaf
    by_cases hc' : (⟨f, target, patch, fine⟩ : Sampler M Float).IsSplit c
    · exact .inr (h'.splitInto hsampling' hc')
    · -- Neither run splits the cell, and both ask the same of it.
      obtain ⟨value', error', hvalue', herror', heq'⟩ :=
        h'.exists_leaf_of_not_isSplit hsampling' hc'
      have hquery : query (M := M) ⟨f, target, patch, fine⟩ c
          = query (M := M) ⟨f, target, patch, coarse⟩ c := by
        rw [query, query, hfiner.blur]
      rw [hquery] at hvalue' herror'
      obtain rfl := Except.ok.inj (hvalue.symm.trans hvalue')
      obtain rfl := Except.ok.inj (herror.symm.trans herror')
      exact .inl (by rw [heq'])
  | split c hc ih =>
    have hc' := hc.of_finer hfiner
    rw [leaves_of_isSplit hsampling hc, leaves_of_isSplit hsampling' hc',
      work_of_isSplit hsampling hc, work_of_isSplit hsampling' hc', List.flatMap_assoc]
    refine ⟨List.flatMap_congr fun q hq => (ih q hq).1, ?_, fun leaf hleaf => ?_⟩
    · exact .add ⟨le_rfl, le_rfl, le_rfl⟩ (.sum fun q hq => (ih q hq).2.1)
    · obtain ⟨q, hq, hleaf⟩ := List.mem_flatMap.mp hleaf
      exact (ih q hq).2.2 leaf hleaf

/-- **Finer settings refine further**: for a graph, an output that carries numbers and a patch, and
two settings that can be used, the second of which have the same blur, no larger tolerance and no
smaller depths, both samplers are created and sample every cell.  The leaves of the second run are
those of the first one in their order, each of which either stays as it is or gives way at its place
to the leaves that its cell is split into; and there are as many leaves, as many cells that were
split and a leaf as deep as in the first run. -/
theorem refines_of_finer (hcoarse : coarse.validate = .ok ()) (hfine : fine.validate = .ok ())
    (htarget : f.CarriesNumbers target) (hfiner : fine.FinerThan coarse) :
    ∃ (s s' : Sampler M Float) (sampling sampling' : Cell Float → Sampling Float),
      create f target patch coarse = .ok s ∧ create f target patch fine = .ok s' ∧
      (∀ c, s.sample c = .ok (sampling c)) ∧ (∀ c, s'.sample c = .ok (sampling' c)) ∧
      ∀ c, (sampling' c).leaves
            = (sampling c).leaves.flatMap (fun leaf => (sampling' leaf.cell).leaves) ∧
        (∀ leaf ∈ (sampling c).leaves, (sampling' leaf.cell).leaves = [leaf] ∨
          leaf.cell.SplitInto (sampling' leaf.cell).cells) ∧
        (sampling c).work.leaves ≤ (sampling' c).work.leaves ∧
        (sampling c).work.refined ≤ (sampling' c).work.refined ∧
        (sampling c).work.deepest ≤ (sampling' c).work.deepest := by
  obtain ⟨s, hcreate⟩ : ∃ s, create f target patch coarse = .ok s :=
    exists_create_iff.mpr ⟨hcoarse, htarget⟩
  obtain ⟨s', hcreate'⟩ : ∃ s', create f target patch fine = .ok s' :=
    exists_create_iff.mpr ⟨hfine, htarget⟩
  obtain ⟨-, -, rfl⟩ := create_ok hcreate
  obtain ⟨-, -, rfl⟩ := create_ok hcreate'
  have h := accepted_of_create hcreate
  have h' := accepted_of_create hcreate'
  obtain ⟨sampling, hsampling⟩ := h.exists_sampling
  obtain ⟨sampling', hsampling'⟩ := h'.exists_sampling
  refine ⟨_, _, sampling, sampling', hcreate, hcreate', hsampling, hsampling', fun c => ?_⟩
  obtain ⟨hleaves, hwork, hstays⟩ := leaves_of_finer h h' hsampling hsampling' hfiner c
  exact ⟨hleaves, hstays, hwork.leaves, hwork.refined, hwork.deepest⟩

end Runs

theorem finerThan_demanding : demanding.FinerThan .standard :=
  ⟨rfl, by decide +kernel, by decide, by decide⟩

theorem refines_of_finer_ramp :
    ∃ (f : FrozenGraph (Catalog Float) Float) (s s' : Sampler (Catalog Float) Float)
      (sampling sampling' : Cell Float → Sampling Float),
      ramp.freeze = .ok f ∧ create f ⟨⟨0⟩, 0⟩ .standard .standard = .ok s ∧
      create f ⟨⟨0⟩, 0⟩ .standard demanding = .ok s' ∧
      (∀ c, s.sample c = .ok (sampling c)) ∧ (∀ c, s'.sample c = .ok (sampling' c)) ∧
      (∀ leaf ∈ (sampling ⟨0.0, 0.0, 1.0, 1.0, 0⟩).leaves, (sampling' leaf.cell).leaves = [leaf] ∨
        leaf.cell.SplitInto (sampling' leaf.cell).cells) ∧
      (sampling ⟨0.0, 0.0, 1.0, 1.0, 0⟩).work.leaves
        ≤ (sampling' ⟨0.0, 0.0, 1.0, 1.0, 0⟩).work.leaves := by
  obtain ⟨s, s', sampling, sampling', hs, hs', hsampling, hsampling', hall⟩ :
      ∃ s s' sampling sampling', create ⟨ramp, ⟨[⟨0⟩], 1⟩⟩ ⟨⟨0⟩, 0⟩ .standard .standard = .ok s ∧ _ :=
    refines_of_finer rfl rfl ⟨_, _, rfl, rfl, by decide⟩ finerThan_demanding
  obtain ⟨-, hstays, hleaves, -⟩ := hall ⟨0.0, 0.0, 1.0, 1.0, 0⟩
  exact ⟨_, s, s', sampling, sampling', freeze_ramp, hs, hs', hsampling, hsampling', hstays, hleaves⟩

end Sampler

end TextureGraph
