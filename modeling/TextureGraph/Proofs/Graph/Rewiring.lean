import TextureGraph.Proofs.Graph.Depth
import TextureGraph.Proofs.Graph.Links

/-!
# Orders of evaluation under changes

`Graph.orderLaws_ofEdits`: what a change does to the order of evaluation of a graph that has one
(`Graph.OrderLaws`).

* Changes that take modules or edges away leave a graph that lies within the one before
  (`Graph.Within`).  Its chains are chains of that graph, so there is still an order, and the longest
  chain has not become longer (`Within.exists_schedule`).
* An edge that is added closes a cycle exactly when the module that is read is, or reads by way of
  others, the one that reads (`acyclic_iff_of_gains`).
-/

namespace TextureGraph.Graph

variable {M α : Type} {g g' : Graph M α}

theorem exists_schedule_of_acyclic (h : g.Acyclic) : ∃ s, g.schedule = .ok s := by
  obtain ⟨f, hf⟩ := exists_freeze_of_acyclic h
  exact ⟨f.schedule, (freeze_ok hf).2⟩

theorem reads_iff_exists_link (hnodup : g.ids.Nodup) {reader source : ModuleId} :
    g.Reads reader source ↔
      ∃ l ∈ g.wiring.links, reader = l.reader ∧ source = l.binding.source := by
  constructor
  · rintro ⟨input, b, hb, rfl⟩
    exact ⟨⟨b, reader, input⟩, (mem_links_iff hnodup).mpr hb, rfl, rfl⟩
  · rintro ⟨l, hl, rfl, rfl⟩
    exact ⟨l.input, l.binding, (mem_links_iff hnodup).mp hl, rfl⟩

/-! ### Edges that are taken away -/

/-- A graph that has no modules and no dependencies but those of another one. -/
structure Within (g' g : Graph M α) : Prop where
  /-- Its modules are modules of the other graph. -/
  ids : ∀ id ∈ g'.ids, id ∈ g.ids
  /-- Modules that read each other do so in the other graph. -/
  reads : ∀ reader source, g'.Reads reader source → g.Reads reader source

/-- A graph of which modules and edges have been taken away lies within the graph before. -/
theorem within_of_sublist (hnodup : g.ids.Nodup) (hmodules : g'.wiring.modules.Sublist g.wiring.modules)
    (hlinks : g'.wiring.links.Sublist g.wiring.links) : g'.Within g where
  ids id hid := hmodules.subset hid
  reads reader source h := by
    have hnodup' : g'.ids.Nodup := hnodup.sublist hmodules
    obtain ⟨l, hl, hends⟩ := (reads_iff_exists_link hnodup').mp h
    exact (reads_iff_exists_link hnodup).mpr ⟨l, hlinks.subset hl, hends⟩

theorem Within.acyclic (h : g'.Within g) (hacyclic : g.Acyclic) : g'.Acyclic :=
  fun id hcycle => hacyclic id (Relation.TransGen.mono h.reads _ _ hcycle)

/-- A graph within one that has an order of evaluation has one, too, and is no deeper. -/
theorem Within.exists_schedule (h : g'.Within g) {s : Schedule} (hs : g.schedule = .ok s) :
    ∃ s', g'.schedule = .ok s' ∧ s'.depth ≤ s.depth := by
  obtain ⟨s', hs'⟩ := exists_schedule_of_acyclic (h.acyclic (acyclic_of_schedule_ok hs))
  obtain ⟨chain, hchain, hlength⟩ := exists_chain_of_schedule_ok hs'
  have hle : chain.length ≤ s.depth := (hchain.mono h.ids h.reads).length_le_depth hs
  exact ⟨s', hs', hlength ▸ hle⟩

/-! ### An edge that is added -/

/-- With an edge more, the module where it ends reads the one from which it comes, and apart from
that modules read each other as before. -/
theorem reads_iff_of_gains (hnodup : g.ids.Nodup) {l : Link} (h : g.wiring.Gains l g'.wiring)
    {reader source : ModuleId} :
    g'.Reads reader source ↔
      g.Reads reader source ∨ reader = l.reader ∧ source = l.binding.source := by
  obtain ⟨hmodules, before, after, hlinks, hlinks'⟩ := h
  have hnodup' : g'.ids.Nodup := by
    rw [show g'.ids = g.ids from hmodules]
    exact hnodup
  rw [reads_iff_exists_link hnodup, reads_iff_exists_link hnodup', hlinks, hlinks']
  simp only [List.mem_append, List.mem_cons]
  constructor
  · rintro ⟨k, hbefore | rfl | hafter, hends⟩
    · exact .inl ⟨k, .inl hbefore, hends⟩
    · exact .inr hends
    · exact .inl ⟨k, .inr hafter, hends⟩
  · rintro (⟨k, hbefore | hafter, hends⟩ | hends)
    · exact ⟨k, .inl hbefore, hends⟩
    · exact ⟨k, .inr (.inr hafter), hends⟩
    · exact ⟨l, .inr (.inl rfl), hends⟩

/-- A way along the edges, one of which has been added, either avoids this edge or passes it: then it
leads to where the edge ends, and comes from where the edge comes from. -/
theorem transGen_of_gains (hnodup : g.ids.Nodup) {l : Link} (h : g.wiring.Gains l g'.wiring)
    {a b : ModuleId} (hway : Relation.TransGen g'.Reads a b) :
    Relation.TransGen g.Reads a b ∨
      Relation.ReflTransGen g.Reads a l.reader ∧
        Relation.ReflTransGen g.Reads l.binding.source b := by
  induction hway with
  | single hread =>
    rcases (reads_iff_of_gains hnodup h).mp hread with hold | ⟨rfl, rfl⟩
    · exact .inl (.single hold)
    · exact .inr ⟨.refl, .refl⟩
  | tail _ hread ih =>
    rcases (reads_iff_of_gains hnodup h).mp hread with hold | ⟨rfl, rfl⟩
    · rcases ih with havoids | ⟨hto, hfrom⟩
      · exact .inl (havoids.tail hold)
      · exact .inr ⟨hto, hfrom.tail hold⟩
    · -- The way ends with the new edge.
      rcases ih with havoids | ⟨hto, -⟩
      · exact .inr ⟨havoids.to_reflTransGen, .refl⟩
      · exact .inr ⟨hto, .refl⟩

/-- An edge that is added to a graph without cycles closes one exactly when it comes from where it
ends, or from a module that reads this one by way of others. -/
theorem acyclic_iff_of_gains (hnodup : g.ids.Nodup) {l : Link} (h : g.wiring.Gains l g'.wiring)
    (hacyclic : g.Acyclic) :
    g'.Acyclic ↔
      l.binding.source ≠ l.reader ∧ ¬ Relation.TransGen g.Reads l.binding.source l.reader := by
  have hnew : g'.Reads l.reader l.binding.source :=
    (reads_iff_of_gains hnodup h).mpr (.inr ⟨rfl, rfl⟩)
  have hold : ∀ {a b}, g.Reads a b → g'.Reads a b :=
    fun hread => (reads_iff_of_gains hnodup h).mpr (.inl hread)
  constructor
  · intro hacyclic'
    refine ⟨fun heq => ?_, fun hback => ?_⟩
    · rw [heq] at hnew
      exact hacyclic' _ (.single hnew)
    · exact hacyclic' _ (.head hnew (Relation.TransGen.mono (fun _ _ => hold) _ _ hback))
  · rintro ⟨hne, hback⟩ id hcycle
    rcases transGen_of_gains hnodup h hcycle with havoids | ⟨hto, hfrom⟩
    · exact hacyclic id havoids
    · -- The cycle passes the new edge, so the rest of it leads back from one end to the other.
      rcases Relation.reflTransGen_iff_eq_or_transGen.mp (hfrom.trans hto) with heq | hrest
      · exact hne heq.symm
      · exact hback hrest

/-! ### Changes -/

variable [Arith α] [TextureModule M α]

/-- A change that is turned down. -/
def Refuses (g : Graph M α) : Edit M α → Prop
  | .add _ => False
  | .remove id => g.remove id = none
  | .setParameter id name v => ∃ e, g.setParameter id name v = .error e
  | .bind id input b => ∃ e, g.bind id input b = .error e
  | .unbind id input => ∃ e, g.unbind id input = .error e

theorem edit_of_refuses {change : Edit M α} (h : g.Refuses change) : g.edit change = g := by
  cases change with
  | add m => exact h.elim
  | remove id =>
    have hnone : g.remove id = none := h
    simp only [Graph.edit, hnone]
  | setParameter id name v | bind id input b | unbind id input =>
    obtain ⟨e, he⟩ := h
    simp only [Graph.edit, he]

/-- What changes do to the order of evaluation of a graph. -/
structure OrderLaws (g : Graph M α) (s : Schedule) : Prop where
  /-- With a module more there is still an order. -/
  add : ∀ m, ∃ s', (g.add m).2.schedule = .ok s'
  /-- With a module less there is one, and the longest chain is no longer than before. -/
  remove : ∀ id m changed, g.remove id = some (m, changed) →
    ∃ s', changed.schedule = .ok s' ∧ s'.depth ≤ s.depth
  /-- So it is with a binding less. -/
  unbind : ∀ id input previous changed, g.unbind id input = .ok (previous, changed) →
    ∃ s', changed.schedule = .ok s' ∧ s'.depth ≤ s.depth
  /-- So it is when a parameter has been changed, and bindings may have been dropped. -/
  setParameter : ∀ id name v changed, g.setParameter id name v = .ok changed →
    ∃ s', changed.schedule = .ok s' ∧ s'.depth ≤ s.depth
  /-- With a binding more there is an order unless the module that is read is the one that reads, or
  reads it already by way of others. -/
  bind : ∀ id input b changed, g.bind id input b = .ok changed →
    ((∃ s', changed.schedule = .ok s') ↔
      b.source ≠ id ∧ ¬ Relation.TransGen g.Reads b.source id)
  /-- A change that is turned down leaves the order as it is. -/
  refused : ∀ change, g.Refuses change → (g.edit change).schedule = .ok s

/-- A change keeps the order of evaluation, or has the effect on it that its edges have. -/
theorem Consistent.orderLaws (hg : g.Consistent) {s : Schedule} (hs : g.schedule = .ok s) :
    g.OrderLaws s where
  add m := by
    refine exists_schedule_of_acyclic (hg.acyclic_snoc (acyclic_of_schedule_ok hs) ?_)
    intro input b hb
    rw [Entry.binding?_ofModule] at hb
    cases hb
  remove id m changed h := by
    have hwiring : changed.wiring = g.wiring.remove id := by
      rw [remove_eq] at h
      obtain ⟨e, -, heq⟩ := Option.map_eq_some_iff.mp h
      cases heq
      exact wiring_without g id
    refine (within_of_sublist hg.nodup ?_ ?_).exists_schedule hs
    · rw [hwiring]
      exact List.filter_sublist
    · rw [hwiring]
      exact List.filter_sublist
  unbind id input previous changed h := by
    obtain ⟨-, hwiring, -⟩ := hg.wired.wiring_unbind h
    refine (within_of_sublist hg.nodup ?_ ?_).exists_schedule hs
    · rw [hwiring]
      exact List.Sublist.refl _
    · rw [hwiring]
      exact List.filter_sublist
  setParameter id name v changed h := by
    obtain ⟨e, m, he, -, rfl⟩ := setParameter_ok h
    have hwiring := hg.wired.wiring_refreshed he m
    refine (within_of_sublist hg.nodup ?_ ?_).exists_schedule hs
    · rw [hwiring]
      exact List.Sublist.refl _
    · rw [hwiring]
      exact List.filter_sublist
  bind id input b changed h := by
    obtain ⟨hgains, -⟩ := hg.wired.wiring_bind h
    have hacyclic := acyclic_iff_of_gains hg.nodup hgains (acyclic_of_schedule_ok hs)
    constructor
    · rintro ⟨s', hs'⟩
      exact hacyclic.mp (acyclic_of_schedule_ok hs')
    · intro hends
      exact exists_schedule_of_acyclic (hacyclic.mpr hends)
  refused change h := by
    rw [edit_of_refuses h]
    exact hs

/-- **Changes and the order of evaluation**: of a graph that has an order of evaluation, whatever
changes have led to it, every further change but a binding keeps that there is one, and those that
take something away do not make the longest chain longer.  A binding keeps it exactly when it closes
no cycle. -/
theorem orderLaws_ofEdits (name : String) (edits : List (Edit M α)) {s : Schedule}
    (h : (ofEdits name edits).schedule = .ok s) : (ofEdits name edits).OrderLaws s := by
  have hconsistent : (ofEdits name edits).Consistent := consistent_ofEdits name edits
  exact hconsistent.orderLaws h

/-- Of two sums that stand one upon the other, the lower one may not read the upper one. -/
theorem orderLaws_ofEdits_tower :
    ∃ (g changed : Graph (Catalog Float) Float) (s : Schedule),
      g = ofEdits "tower" [.add (.operator .sum), .add (.operator .sum),
        .bind ⟨1⟩ 0 ⟨⟨0⟩, 0⟩] ∧ g.schedule = .ok s ∧ g.OrderLaws s ∧
      g.bind ⟨0⟩ 0 ⟨⟨1⟩, 0⟩ = .ok changed ∧ ¬ ∃ s', changed.schedule = .ok s' := by
  have hfreeze : (ofEdits "tower" [.add (.operator .sum), .add (.operator .sum),
      .bind ⟨1⟩ 0 ⟨⟨0⟩, 0⟩] : Graph (Catalog Float) Float).freeze
        = .ok ⟨_, ⟨[⟨0⟩, ⟨1⟩], 2⟩⟩ := freeze_eq_ok (by decide +kernel)
  have hlaws := orderLaws_ofEdits _ _ (freeze_ok hfreeze).2
  refine ⟨_, _, _, rfl, (freeze_ok hfreeze).2, hlaws, rfl, fun hs => ?_⟩
  have hback := ((hlaws.bind ⟨0⟩ 0 ⟨⟨1⟩, 0⟩ _ rfl).mp hs).2
  exact hback (.single ⟨0, ⟨⟨0⟩, 0⟩, rfl, rfl⟩)

end TextureGraph.Graph
