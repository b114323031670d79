import TextureGraph.Catalog.Basic
import TextureGraph.Proofs.Graph.Invariant
import TextureGraph.Proofs.Outcome

/-!
# Configured modules

A caller takes a module in its initial configuration from the registry, and sets its parameters one
after another (`TextureModule.configure`).  What holds of the modules of the registry, and is kept when
a parameter is changed, holds of all modules that a caller can get (`Catalog.IsRegistered.induction`),
and of all modules of a graph that such modules are added to (`Graph.isRegistered_of_ofEdits`).
-/

namespace TextureGraph

variable {M α : Type}

namespace TextureModule

variable [TextureModule M α]

/-- The module after a parameter has been set.  It stays as it is when the value is refused. -/
def attempt (m : M) (setting : String × ParameterValue α) : M :=
  match setParameter m setting.1 setting.2 with
  | .ok changed => changed
  | .error _ => m

/-- The module after parameters have been set one after another. -/
def configure (m : M) (settings : List (String × ParameterValue α)) : M :=
  settings.foldl attempt m

/-- What every change of a parameter keeps is kept by all of them. -/
theorem configure_induction {p : M → Prop} {m : M} (hm : p m)
    {settings : List (String × ParameterValue α)}
    (step : ∀ m setting changed, setting ∈ settings → p m →
      setParameter m setting.1 setting.2 = .ok changed → p changed) :
    p (configure m settings) := by
  induction settings generalizing m with
  | nil => exact hm
  | cons setting rest ih =>
    have hattempt : p (attempt m setting) := by
      unfold attempt
      split
      · exact step m setting _ (.head _) hm (by assumption)
      · exact hm
    exact ih hattempt fun m s changed hs => step m s changed (.tail _ hs)

end TextureModule

theorem ParameterValue.asPositive_eq_ok_iff [Arith α] {v : ParameterValue α} {name : String} {a : α} :
    v.asPositive name = .ok a ↔ v.asNumber name = .ok a ∧ 0.0 < a := by
  unfold asPositive
  rw [bind_eq_ok_iff]
  constructor
  · rintro ⟨b, hb, h⟩
    split at h
    · cases h
      exact ⟨hb, by assumption⟩
    · cases h
  · rintro ⟨ha, hpos⟩
    exact ⟨a, ha, if_pos hpos⟩

theorem ParameterValue.asInteger_number [Arith α] (a : α) (name : String) (min max : Int) :
    (ParameterValue.number a).asInteger name min max
      = if Arith.isWhole a then (ParameterValue.integer (Arith.floorInt a)).asInteger name min max
        else .error (.wrongType name .integer) := by
  by_cases h : Arith.isWhole a = true
  · rw [if_pos h]
    unfold asInteger
    dsimp only
    rw [if_pos h]
  · rw [if_neg h]
    unfold asInteger
    dsimp only
    rw [if_neg h]
    rfl

/-- A whole number is given as such or as a number without fractional digits, and checked after it has
been read. -/
theorem ParameterValue.asInteger_eq_ok_iff [Arith α] {v : ParameterValue α} {name : String}
    {min max n : Int} :
    v.asInteger name min max = .ok n ↔
      (v = .integer n ∨ ∃ a, v = .number a ∧ Arith.isWhole a = true ∧ Arith.floorInt a = n) ∧
        min ≤ n ∧ n ≤ max := by
  have hchecked {k : Int} (h : (ParameterValue.integer k : ParameterValue α).asInteger name min max
      = .ok n) : k = n ∧ min ≤ n ∧ n ≤ max := by
    change (if min ≤ k ∧ k ≤ max then .ok k else .error (.outOfRange name (.integer k))
      : Except (ParameterError α) Int) = .ok n at h
    split at h
    · cases h
      exact ⟨rfl, by assumption⟩
    · cases h
  constructor
  · intro h
    cases v with
    | integer k =>
      obtain ⟨rfl, hrange⟩ := hchecked h
      exact ⟨.inl rfl, hrange⟩
    | number a =>
      rw [asInteger_number] at h
      split at h
      · obtain ⟨hn, hrange⟩ := hchecked h
        exact ⟨.inr ⟨a, rfl, by assumption, hn⟩, hrange⟩
      · cases h
    | toggle | choice | color | text => cases h
  · rintro ⟨rfl | ⟨a, rfl, hwhole, rfl⟩, hrange⟩
    · exact if_pos hrange
    · rw [asInteger_number, if_pos hwhole]
      exact if_pos hrange

theorem ParameterValue.asInteger_eq_ok [Arith α] {v : ParameterValue α} {name : String}
    {min max n : Int} (h : v.asInteger name min max = .ok n) : min ≤ n ∧ n ≤ max :=
  (asInteger_eq_ok_iff.mp h).2

open TextureModule

/-- A module of the registry, with its parameters set in some way. -/
def Catalog.IsRegistered [Arith α] (m : Catalog α) : Prop :=
  ∃ initial ∈ Catalog.registry, ∃ settings : List (String × ParameterValue α),
    m = configure initial settings

namespace Catalog

variable [Arith α]

theorem IsRegistered.setParameter {m changed : Catalog α} (hm : m.IsRegistered) {name : String}
    {v : ParameterValue α} (h : m.setParameter name v = .ok changed) : changed.IsRegistered := by
  obtain ⟨initial, hinitial, settings, rfl⟩ := hm
  refine ⟨initial, hinitial, settings ++ [(name, v)], ?_⟩
  have hset : TextureModule.setParameter (configure initial settings) name v = .ok changed := h
  have hattempt : attempt (configure initial settings) (name, v) = changed := by
    simp only [attempt, hset]
  rw [configure, List.foldl_append]
  exact hattempt.symm

/-- What holds of the modules of the registry, and of a changed module whenever it holds of the module,
holds of all modules that a caller can get. -/
theorem IsRegistered.induction {p : Catalog α → Prop} (initial : ∀ m ∈ registry, p m)
    (step : ∀ m name v changed, p m → m.setParameter name v = .ok changed → p changed)
    {m : Catalog α} (hm : m.IsRegistered) : p m := by
  obtain ⟨m, hmem, settings, rfl⟩ := hm
  exact configure_induction (initial m hmem) fun m setting changed _ =>
    step m setting.1 setting.2 changed

end Catalog

/-- Changes keep a graph within the modules that a caller can get. -/
theorem Graph.isRegistered_of_ofEdits [Arith α] (name : String) (edits : List (Edit (Catalog α) α))
    (hadd : ∀ m, .add m ∈ edits → m.IsRegistered) {id : ModuleId} {e : Entry (Catalog α) α}
    (he : entry? (ofEdits name edits) id = some e) : e.module.IsRegistered := by
  have hp : IsInvariant fun (m : Catalog α) (_ : Signature α) => m.IsRegistered := by
    refine ⟨?_, ?_⟩
    · intro m s name v changed hm hset
      exact hm.setParameter hset
    · intro m s name v changed hm hset _
      exact hm.setParameter hset
  exact forallEntry_ofEdits hp name edits hadd id e he

end TextureGraph
