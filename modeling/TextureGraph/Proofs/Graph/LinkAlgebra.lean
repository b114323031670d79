import TextureGraph.Proofs.Graph.InPlace

/-!
# Calls and the edges of a graph

`Graph.wiringLaws_afterCalls`: whatever calls have been made on a graph, each further one acts on its
modules and edges as it would on a store that holds nothing else (`Graph.WiringLaws`).  The laws are about
the answer of a call and the graph that it leaves: one that is turned down leaves the modules in their order
and all edges, though it may have changed the module that it was about.
-/

namespace TextureGraph.Graph

variable {M α : Type} [Arith α] [TextureModule M α] [InPlaceModule M α]

/-- Every call on a graph acts on its modules and edges as it would on a store of nothing else. -/
structure WiringLaws (g : Graph M α) : Prop where
  /-- No two edges end at the same input. -/
  nodup : (g.wiring.links.map Link.sink).Nodup
  /-- A module is added at the end, under a new name and without edges. -/
  add : ∀ m answer left, addInPlace m g = (answer, left) →
    ∃ id, answer = .ok id ∧ id ∉ g.wiring.modules ∧ left.wiring = g.wiring.add id ∧
      left.linksFor id = []
  /-- A module that is there is taken out with the edges at it; the others stay in their order. -/
  remove : ∀ id answer left, removeInPlace id g = (answer, left) →
    (id ∉ g.wiring.modules → answer = .ok none ∧ left = g) ∧
      ∀ e, g.entry? id = some e → answer = .ok (some e.module) ∧
        left.wiring = g.wiring.remove id ∧
        left.unwired.entries = g.unwired.entries.filter (·.1 != id)
  /-- An edge that fits is added where none ends yet, and nothing else changes. -/
  bind : ∀ id input b answer left, bindInPlace id input b g = (answer, left) →
    (answer = .ok () ↔
        g.admits ⟨b, id, input⟩ = true ∧ g.wiring.link? (id, input) = none) ∧
      (answer = .ok () →
        g.wiring.Gains ⟨b, id, input⟩ left.wiring ∧ left.unwired = g.unwired)
  /-- At an input where an edge ends, no edge is added; of one that fits, the refusal names the
  binding that stays. -/
  bound : ∀ id input l, g.wiring.link? (id, input) = some l →
    ∀ b answer left, bindInPlace id input b g = (answer, left) →
      (∃ e, answer = .error e) ∧
        (answer = .error (.alreadyBound id input l.binding) ↔ g.admits ⟨b, id, input⟩ = true)
  /-- The edge at an input that is there, if any, is taken away and yielded, and nothing else
  changes. -/
  unbind : ∀ id input answer left, unbindInPlace id input g = (answer, left) →
    ((∃ previous, answer = .ok previous) ↔
        ∃ s, g.signature? id = some s ∧ input < s.inputs.length) ∧
      ∀ previous, answer = .ok previous →
        previous = (g.wiring.link? (id, input)).map Link.binding ∧
          left.wiring = g.wiring.unlink (id, input) ∧ left.unwired = g.unwired
  /-- When a module accepts a parameter, exactly the edges are left that fit the sockets that it has
  then.  No other module changes, be the parameter accepted or not. -/
  setParameter : ∀ id name v answer left, setParameterInPlace id name v g = (answer, left) →
    (answer = .ok () ↔ ∃ e m, g.entry? id = some e ∧
        (InPlaceModule.assign name v : InPlace M α Unit) e.module = (.ok (), m)) ∧
      (answer = .ok () → left.wiring = g.wiring.retain left.admits ∧
        ∃ e e', g.entry? id = some e ∧ left.entry? id = some e' ∧
          (InPlaceModule.assign name v : InPlace M α Unit) e.module = (.ok (), e'.module) ∧
          Known e'.module e'.signature) ∧
      ∀ other, other ≠ id → left.unwired.entry? other = g.unwired.entry? other
  /-- A call that is turned down leaves the modules and all edges as they were, and unless it was about a
  parameter, everything else too. -/
  refused : ∀ change e left, (change : Edit M α).call g = (.error e, left) →
    left.wiring = g.wiring ∧ ((∀ id name v, change ≠ .setParameter id name v) → left = g)

variable {g : Graph M α}

omit [InPlaceModule M α] in
/-- The graph goes by the sockets of a module that has accepted a parameter. -/
theorem exists_entry?_refreshed {id : ModuleId} {e : Entry M α} (he : g.entry? id = some e) (m : M) :
    ∃ e', entry? (g.refreshed id e m) id = some e' ∧ e'.module = m ∧ Known m e'.signature := by
  unfold refreshed
  split
  · rename_i hsame
    exact ⟨_, entry?_replaceEntry_self he _, rfl, known_of_beq hsame⟩
  · rw [dropStale, entry?_mapBindings, entry?_replaceEntry_self he]
    exact ⟨_, rfl, rfl, rfl, rfl⟩

/-- What a call on a wired graph does to its edges. -/
theorem Wired.wiringLaws (hg : g.Wired) : g.WiringLaws where
  nodup := nodup_sinks hg.nodup
  add m answer left h := by
    rw [addInPlace_apply] at h
    cases h
    exact ⟨_, rfl, (hg.wiring_add m).1, (hg.wiring_add m).2, hg.linksFor_add m⟩
  remove id answer left h := by
    rw [removeInPlace_apply, remove_eq] at h
    refine ⟨fun hid => ?_, fun e he => ?_⟩
    · have hnone : g.entry? id = none :=
        Option.not_isSome_iff_eq_none.mp fun hsome => hid (contains_iff.mp hsome)
      rw [hnone] at h
      cases h
      exact ⟨rfl, rfl⟩
    · rw [he] at h
      cases h
      exact ⟨rfl, wiring_without g id, unwired_without g id⟩
  bind id input b answer left h := by
    rw [bindInPlace_apply] at h
    have hiff := hg.exists_bind_iff id input b
    cases hbind : g.bind id input b with
    | error e =>
      rw [hbind] at h hiff
      cases h
      refine ⟨⟨fun hok => ?_, fun hfits => ?_⟩, fun hok => ?_⟩
      · cases hok
      · obtain ⟨_, hchanged⟩ := hiff.mpr hfits
        cases hchanged
      · cases hok
    | ok changed =>
      rw [hbind] at h
      cases h
      exact ⟨⟨fun _ => hiff.mp ⟨_, hbind⟩, fun _ => rfl⟩, fun _ => hg.wiring_bind hbind⟩
  bound id input l hl b answer left h := by
    rw [bindInPlace_apply] at h
    have hiff := hg.bind_bound_iff hl b
    cases hbind : g.bind id input b with
    | error e =>
      rw [hbind] at h hiff
      cases h
      simpa using hiff
    | ok changed =>
      have hfree := ((hg.exists_bind_iff id input b).mp ⟨changed, hbind⟩).2
      rw [hl] at hfree
      cases hfree
  unbind id input answer left h := by
    rw [unbindInPlace_apply] at h
    have hiff := hg.exists_unbind_iff id input
    cases hunbind : g.unbind id input with
    | error e =>
      rw [hunbind] at h hiff
      cases h
      refine ⟨⟨fun ⟨_, hok⟩ => ?_, fun hinput => ?_⟩, fun _ hok => ?_⟩
      · cases hok
      · obtain ⟨_, hchanged⟩ := hiff.mpr hinput
        cases hchanged
      · cases hok
    | ok found =>
      obtain ⟨previous, changed⟩ := found
      rw [hunbind] at h
      cases h
      refine ⟨⟨fun _ => hiff.mp ⟨_, hunbind⟩, fun _ => ⟨previous, rfl⟩⟩, fun _ hok => ?_⟩
      cases hok
      exact hg.wiring_unbind hunbind
  setParameter id name v answer left h := by
    -- The module is not there, refuses the value, or accepts it.
    rcases setParameterInPlace_cases g id name v with
      ⟨he, hcall⟩ | ⟨e, m, refusal, he, hassign, hcall⟩ | ⟨e, m, he, hassign, hcall⟩
    · rw [hcall] at h
      cases h
      refine ⟨⟨fun hok => ?_, ?_⟩, fun hok => ?_, fun _ _ => rfl⟩
      · cases hok
      · rintro ⟨e, _, hfound, -⟩
        rw [he] at hfound
        cases hfound
      · cases hok
    · rw [hcall] at h
      cases h
      refine ⟨⟨fun hok => ?_, ?_⟩, fun hok => ?_, fun other hother => ?_⟩
      · cases hok
      · rintro ⟨e', m', he', hassign'⟩
        rw [he] at he'
        cases he'
        rw [hassign] at hassign'
        cases hassign'
      · cases hok
      · exact entry?_unwired_replaceEntry_of_ne g hother _
    · rw [hcall] at h
      cases h
      obtain ⟨e', he', rfl, hknown⟩ := exists_entry?_refreshed he m
      exact ⟨⟨fun _ => ⟨e, _, he, hassign⟩, fun _ => rfl⟩,
        fun _ => ⟨hg.wiring_refreshed he _, e, e', he, he', hassign, hknown⟩,
        fun other hother => entry?_unwired_refreshed_of_ne g hother e _⟩
  refused change e left h := by
    by_cases hne : ∀ id name v, change ≠ .setParameter id name v
    · -- such a call is turned down before anything is written
      rcases call_apply g hne with hcall | ⟨refusal, hcall, -⟩
      · cases hcall.symm.trans h
      · cases hcall.symm.trans h
        exact ⟨rfl, fun _ => rfl⟩
    · refine ⟨?_, fun hne' => absurd hne' hne⟩
      obtain ⟨id, name, v, rfl⟩ : ∃ id name v, change = .setParameter id name v := by
        simpa using hne
      rcases setParameterInPlace_cases g id name v with
        ⟨he, hcall⟩ | ⟨e, m, refusal, he, hassign, hcall⟩ | ⟨e, m, he, hassign, hcall⟩
      · cases hcall.symm.trans h
        rfl
      · cases hcall.symm.trans h
        exact wiring_setModule hg.nodup he m
      · cases hcall.symm.trans h

/-- **Every call acts on the edges alone**: whatever calls have been made on a graph, accepted or turned
down, each further one changes its modules and edges as it would change a store that holds nothing else,
and one that is turned down leaves them as they were. -/
theorem wiringLaws_afterCalls (name : String) (edits : List (Edit M α)) :
    (afterCalls name edits).WiringLaws :=
  (wired_afterCalls name edits).wiringLaws

end TextureGraph.Graph
