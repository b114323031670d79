import TextureGraph.Proofs.Sampling.Sampler

/-!
# Creating a sampler

`Sampler.exists_create_iff`: a sampler is created exactly from settings that can be used and an output that
carries numbers.

The checks at the creation are made once; the graph makes its own at every request, for every cell.
`Sampler.accepted_of_create` says that the former entail the latter, whatever the cell is, and
`Sampler.Accepted.exists_sampling` carries this over to all cells that a cell is split into.
-/

namespace TextureGraph

variable {M α : Type} [Arith α]

/-- The output is there and carries numbers or truth values. -/
def FrozenGraph.CarriesNumbers (f : FrozenGraph M α) (t : Target) : Prop :=
  ∃ signature kind, f.graph.signature? t.module = some signature ∧
    signature.outputKind? t.output = some kind ∧ kind ≠ .color

namespace Sampler

variable {f : FrozenGraph M α} {target : Target} {patch : Patch α} {settings : Settings α}
  {s : Sampler M α}

/-! ### Creation -/

/-- What a sampler is created from, and what it is then. -/
theorem create_ok (h : create f target patch settings = .ok s) :
    settings.validate = .ok () ∧ f.CarriesNumbers target ∧ s = ⟨f, target, patch, settings⟩ := by
  unfold create at h
  rw [bind_eq_ok_iff] at h
  obtain ⟨⟨⟩, hsettings, h⟩ := h
  rw [mapError_eq_ok_iff] at hsettings
  split at h
  · cases h
  rename_i signature hsignature
  split at h
  · cases h
  rename_i kind hkind
  split_ifs at h with hcolor
  cases h
  exact ⟨hsettings, ⟨signature, kind, hsignature, hkind, hcolor⟩, rfl⟩

theorem exists_create_iff :
    (∃ s, create f target patch settings = .ok s) ↔
      settings.validate = .ok () ∧ f.CarriesNumbers target := by
  constructor
  · rintro ⟨s, h⟩
    obtain ⟨hsettings, hnumbers, -⟩ := create_ok h
    exact ⟨hsettings, hnumbers⟩
  · rintro ⟨hsettings, signature, kind, hsignature, hkind, hscalar⟩
    exact ⟨_, create_eq_ok hsettings hsignature hkind hscalar⟩

/-- The checks at the creation entail those that the graph makes at every request. -/
theorem accepted_of_create (h : create f target patch settings = .ok s) : s.Accepted := by
  obtain ⟨hsettings, ⟨signature, kind, hsignature, hkind, hscalar⟩, rfl⟩ := create_ok h
  exact accepted_of_valid hsettings hsignature hkind hscalar

/-! ### Cells and images -/

variable [TextureModule M α]

/-- **Step and run**: a cell that may be split at most `levels` times is sampled, since it becomes a
leaf or gives way to quadrants that may be split once less often. -/
theorem Accepted.exists_refinement (h : s.Accepted) (levels : Nat) :
    ∃ sampling : Cell α → Sampling α, ∀ c, s.refine levels c = .ok (sampling c) := by
  induction levels with
  | zero =>
    choose sampling hrefine hcells using h.exists_refine_zero
    exact ⟨sampling, hrefine⟩
  | succ levels ih =>
    obtain ⟨part, hpart⟩ := ih
    choose sampling hrefine hcells using h.exists_refine_succ hpart
    exact ⟨sampling, hrefine⟩

/-- Every cell is sampled, be it proper or not. -/
theorem Accepted.exists_sampling (h : s.Accepted) :
    ∃ sampling : Cell α → Sampling α, ∀ c, s.sample c = .ok (sampling c) := by
  choose sampling hrefine using h.exists_refinement
  exact ⟨fun c => sampling (s.levels c) c, fun c => mapError_eq_ok_iff.mpr (hrefine _ c)⟩

/-! ### A ramp -/

/-- The first coordinate of the position, in floating point. -/
def ramp : Graph (Catalog Float) Float :=
  Graph.ofEdits "ramp" [.add (.source (.coordinate .x))]

/-- Settings that split every cell, and most cells further than the standard ones do. -/
def demanding : Settings Float :=
  { Settings.standard with errorTolerance := 0.002, minDepth := 1, maxDepth := 6 }

theorem freeze_ramp : ramp.freeze = .ok ⟨ramp, ⟨[⟨0⟩], 1⟩⟩ :=
  Graph.freeze_eq_ok (by decide +kernel)

end Sampler

end TextureGraph
