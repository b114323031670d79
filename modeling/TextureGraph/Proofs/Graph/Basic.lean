import TextureGraph.Graph.Basic
import Mathlib.Logic.Relation

/-!
# Lookups in graphs and the modules that read each other

`Graph.Reads` is the relation along the bindings; `mem_dependencies_iff` says that `dependencies`
lists it.
-/

namespace TextureGraph

variable {M α : Type}

/-! ### Lists with one more entry -/

theorem lookup_snoc_eq_some_iff {β : Type} {l : List (ModuleId × β)} {id last : ModuleId}
    {x y : β} :
    (l ++ [(last, x)]).lookup id = some y ↔
      l.lookup id = some y ∨ l.lookup id = none ∧ id = last ∧ x = y := by
  rw [List.lookup_append]
  cases l.lookup id with
  | some z => simp
  | none =>
    by_cases h : id = last
    · simp [h]
    · rw [Option.none_or, List.lookup_cons, beq_eq_false_iff_ne.mpr h]
      simp [h]

/-! ### Bindings of a module -/

theorem Entry.binding?_eq_some_iff {e : Entry M α} {input : Nat} {b : Binding} :
    e.binding? input = some b ↔ e.bindings[input]? = some (some b) :=
  Option.join_eq_some_iff

theorem Entry.lt_length_of_binding? {e : Entry M α} {input : Nat} {b : Binding}
    (h : e.binding? input = some b) : input < e.bindings.length :=
  (List.getElem?_eq_some_iff.mp (Entry.binding?_eq_some_iff.mp h)).1

/-- The slot of an input holds what it has been set to, and the other slots what they held. -/
theorem Entry.binding?_set (e : Entry M α) (input : Nat) (slot : Option Binding) (i : Nat) :
    ({ e with bindings := e.bindings.set input slot } : Entry M α).binding? i
      = if input = i ∧ i < e.bindings.length then slot else e.binding? i := by
  unfold binding?
  rw [List.getElem?_set]
  by_cases h : input = i <;> by_cases hi : i < e.bindings.length <;> simp [h, hi]

/-- When bindings are dropped, a slot holds what passes the test. -/
theorem Entry.binding?_map_filter (e : Entry M α) (keep : Binding → Bool) (input : Nat) :
    ({ e with bindings := e.bindings.map fun slot => slot.filter keep } :
      Entry M α).binding? input = (e.binding? input).filter keep := by
  simp only [binding?, List.getElem?_map]
  cases e.bindings[input]? <;> rfl

/-- The test may depend on the slot. -/
theorem Entry.binding?_mapIdx_filter (e : Entry M α) (keep : Nat → Binding → Bool) (input : Nat) :
    ({ e with bindings := e.bindings.mapIdx fun i slot => slot.filter (keep i) } :
      Entry M α).binding? input = (e.binding? input).filter (keep input) := by
  simp only [binding?, List.getElem?_mapIdx]
  cases e.bindings[input]? <;> rfl

theorem Entry.mem_sources_iff {e : Entry M α} {source : ModuleId} :
    source ∈ e.sources ↔ ∃ input b, e.binding? input = some b ∧ b.source = source := by
  simp only [Entry.sources, List.mem_filterMap, Option.map_eq_some_iff,
    Entry.binding?_eq_some_iff]
  constructor
  · rintro ⟨slot, hslot, b, rfl, hb⟩
    obtain ⟨input, hinput⟩ := List.mem_iff_getElem?.mp hslot
    exact ⟨input, b, hinput, hb⟩
  · rintro ⟨input, b, hinput, hb⟩
    exact ⟨some b, List.mem_of_getElem? hinput, b, rfl, hb⟩

namespace Graph

variable {g : Graph M α}

/-! ### Lookups -/

theorem mem_entries_of_lookup {id : ModuleId} {e : Entry M α} (h : g.entry? id = some e) :
    (id, e) ∈ g.entries := by
  obtain ⟨before, after, hentries, -⟩ := List.lookup_eq_some_iff.mp h
  simp [hentries]

theorem mem_ids_of_lookup {id : ModuleId} {e : Entry M α} (h : g.entry? id = some e) :
    id ∈ g.ids :=
  List.mem_map.mpr ⟨(id, e), mem_entries_of_lookup h, rfl⟩

theorem contains_iff {id : ModuleId} : g.contains id = true ↔ id ∈ g.ids := by
  simp [contains, entry?, ids, List.lookup_isSome_iff]

/-! ### Modules that read each other -/

/-- One module reads another when one of its inputs is bound to an output of it. -/
def Reads (g : Graph M α) (reader source : ModuleId) : Prop :=
  ∃ input b, g.binding? reader input = some b ∧ b.source = source

/-- No module reaches itself through one or more bindings. -/
def Acyclic (g : Graph M α) : Prop :=
  ∀ id, ¬ Relation.TransGen g.Reads id id

theorem binding?_eq {reader : ModuleId} {e : Entry M α} (he : g.entry? reader = some e)
    (input : Nat) : g.binding? reader input = e.binding? input := by
  rw [binding?, he]
  rfl

theorem mem_dependencies_iff {reader source : ModuleId} :
    source ∈ g.dependencies reader ↔ g.Reads reader source := by
  unfold dependencies Reads binding?
  cases g.entry? reader with
  | none => simp
  | some e => exact Entry.mem_sources_iff

end Graph

end TextureGraph
