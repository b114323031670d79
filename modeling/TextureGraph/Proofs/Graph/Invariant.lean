import TextureGraph.Proofs.Graph.Wired

/-!
# Invariants of the modules of a graph

`Graph.forallEntry_ofEdits`: what holds of the modules that are added to a graph, with their own
sockets, and goes on to hold when a parameter is changed (`Graph.IsInvariant`), holds of all modules
of the graph, whatever changes it has gone through.
-/

namespace TextureGraph.Graph

variable {M α : Type}

/-- Every module of the graph satisfies `p` together with the sockets that the graph goes by. -/
def ForallEntry (p : M → Signature α → Prop) (g : Graph M α) : Prop :=
  ∀ id e, g.entry? id = some e → p e.module e.signature

variable {p : M → Signature α → Prop} {g : Graph M α}

theorem ForallEntry.replaceEntry (hg : g.ForallEntry p) (id : ModuleId) {e : Entry M α}
    (he : p e.module e.signature) : (g.replaceEntry id e).ForallEntry p := by
  intro i r hi
  rw [entry?_replaceEntry, Option.map_eq_some_iff] at hi
  obtain ⟨old, hold, rfl⟩ := hi
  split
  · exact he
  · exact hg i old hold

theorem ForallEntry.mapBindings (hg : g.ForallEntry p) (f : Entry M α → List (Option Binding)) :
    (g.mapBindings f).ForallEntry p := by
  intro i r hi
  rw [entry?_mapBindings, Option.map_eq_some_iff] at hi
  obtain ⟨e, he, rfl⟩ := hi
  exact hg i e he

theorem ForallEntry.empty (p : M → Signature α → Prop) (name : String) :
    (empty name : Graph M α).ForallEntry p := by
  intro id e he
  cases he

theorem ForallEntry.without (hg : g.ForallEntry p) (id : ModuleId) :
    (g.without id).ForallEntry p := by
  let rest : Graph M α := { g with entries := g.entries.filter (·.1 != id) }
  have hrest : rest.ForallEntry p :=
    fun i e hi => hg i e ((lookup_filter_entries g.entries).mp hi).2
  exact hrest.mapBindings _

variable [TextureModule M α]

theorem ForallEntry.add (hg : g.ForallEntry p) {m : M} (hm : p m (TextureModule.signature m)) :
    (g.add m).2.ForallEntry p := by
  intro i e hi
  rcases lookup_snoc_eq_some_iff.mp hi with hold | ⟨-, -, rfl⟩
  · exact hg i e hold
  · exact hm

variable [Arith α]

/-- A module that has accepted the value of a parameter satisfies `p` with its own sockets, or with those that
the graph goes by, when these pass for its own. -/
theorem ForallEntry.refreshed (hg : g.ForallEntry p) (id : ModuleId) {e : Entry M α} {m : M}
    (hown : p m (TextureModule.signature m))
    (hkept : ((TextureModule.signature m : Signature α) == e.signature) = true → p m e.signature) :
    (g.refreshed id e m).ForallEntry p := by
  unfold Graph.refreshed
  split
  · rename_i hsame
    exact hg.replaceEntry id (e := { e with module := m }) (hkept hsame)
  · exact (hg.replaceEntry id (e := e.reshape m) hown).mapBindings _

/-- Changes of parameters cannot make an invariant of the modules fail. -/
structure IsInvariant (p : M → Signature α → Prop) : Prop where
  /-- A changed module satisfies it with its own sockets. -/
  changed : ∀ (m : M) (s : Signature α) (name : String) (v : ParameterValue α) (changed : M), p m s →
    TextureModule.setParameter m name v = .ok changed → p changed (TextureModule.signature changed)
  /-- It does with the sockets that the graph goes by, when its own ones pass for them. -/
  kept : ∀ (m : M) (s : Signature α) (name : String) (v : ParameterValue α) (changed : M), p m s →
    TextureModule.setParameter m name v = .ok changed →
    (TextureModule.signature changed == s) = true → p changed s

/-- **Step**: an invariant of the modules outlasts a change. -/
theorem ForallEntry.edit (hp : IsInvariant p) (hg : g.ForallEntry p) (change : Edit M α)
    (hadd : ∀ m, change = .add m → p m (TextureModule.signature m)) :
    (g.edit change).ForallEntry p := by
  cases change with
  | add m => exact hg.add (hadd m rfl)
  | remove id =>
    simp only [Graph.edit, remove_eq]
    cases g.entry? id with
    | none => exact hg
    | some e => exact hg.without id
  | setParameter id name v =>
    simp only [Graph.edit]
    split
    · rename_i changed h
      obtain ⟨e, m, he, hm, rfl⟩ := setParameter_ok h
      exact hg.refreshed id (hp.changed _ _ name v m (hg id e he) hm)
        (hp.kept _ _ name v m (hg id e he) hm)
    · exact hg
  | bind id input b =>
    simp only [Graph.edit]
    split
    · rename_i changed h
      obtain ⟨e, he, -, -, rfl⟩ := bind_ok h
      exact hg.replaceEntry id (hg id e he)
    · exact hg
  | unbind id input =>
    simp only [Graph.edit]
    split
    · rename_i previous changed h
      obtain ⟨e, he, -, -, rfl⟩ := unbind_ok h
      exact hg.replaceEntry id (hg id e he)
    · exact hg

/-- **Run**: an invariant of the modules holds after any changes. -/
theorem forallEntry_ofEdits (hp : IsInvariant p) (name : String) (edits : List (Edit M α))
    (hadd : ∀ m, .add m ∈ edits → p m (TextureModule.signature m)) :
    (ofEdits name edits).ForallEntry p := by
  have hrun : ∀ g : Graph M α, g.ForallEntry p → (edits.foldl Graph.edit g).ForallEntry p := by
    induction edits with
    | nil => exact fun g hg => hg
    | cons change rest ih =>
      refine fun g hg => ih (fun m hm => hadd m (.tail _ hm)) _ (hg.edit hp change ?_)
      rintro m rfl
      exact hadd m (.head _)
  exact hrun (empty name) (.empty p name)

end TextureGraph.Graph
