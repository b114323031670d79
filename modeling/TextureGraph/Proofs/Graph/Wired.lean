import TextureGraph.Graph.History
import TextureGraph.Proofs.Graph.Basic
import TextureGraph.Proofs.Outcome
import TextureGraph.Proofs.Socket.Signature
import Mathlib.Data.List.Nodup

/-!
# Slots and bindings under changes

A graph is wired when each of its modules has one slot for every input that the graph goes by, and every
binding reads an output that the graph goes by and feeds its input (`Graph.Wired`).  This is a matter of the
sockets as the graph knows them: it does not depend on the modules, which may have others meanwhile.

* `bind_ok`, `unbind_ok`, `remove_eq` and `setParameter_eq` say what a change that is accepted has done to
  the graph.
* All changes are made of four steps: a module is added, a module is replaced, a module is taken out,
  and bindings that do not fit are dropped.  Each keeps the graph wired; `Fits.mono` says when a binding
  fits as it did before.
-/

namespace TextureGraph

variable {M α : Type}

/-- A module after a change of its sockets.  The slots of the inputs that it still has are kept. -/
def Entry.reshape [TextureModule M α] (e : Entry M α) (m : M) : Entry M α :=
  let signature := TextureModule.signature m
  { module := m, signature
    bindings := e.bindings.take signature.inputs.length
      ++ List.replicate (signature.inputs.length - e.bindings.length) none }

theorem Entry.length_reshape [TextureModule M α] (e : Entry M α) (m : M) :
    (e.reshape m).bindings.length = (e.reshape m).signature.inputs.length := by
  simp only [Entry.reshape, List.length_append, List.length_take, List.length_replicate]
  omega

namespace Graph

/-- A binding that may stand at an input of a module: the graph has the module that is read, this
module has the output, and the kind of the output feeds the kind of the input. -/
def Fits (g : Graph M α) (e : Entry M α) (input : Nat) (b : Binding) : Prop :=
  ∃ source, g.signature? b.source = some source ∧
    ∃ output, source.outputKind? b.output = some output ∧
      ∃ kind, e.signature.inputKind? input = some kind ∧ output.feeds kind = true

/-- A graph that has one slot for each input. -/
structure Slotted (g : Graph M α) : Prop where
  /-- No module is there twice. -/
  nodup : g.ids.Nodup
  /-- The next number has not been given yet. -/
  numbered : ∀ id ∈ g.ids, id.number < g.next
  /-- There is one slot for each input. -/
  slots : ∀ id e, g.entry? id = some e → e.bindings.length = e.signature.inputs.length

/-- A graph that has one slot for each input and whose bindings all fit. -/
structure Wired (g : Graph M α) : Prop extends g.Slotted where
  /-- Every binding fits. -/
  bindings : ∀ id e, g.entry? id = some e → ∀ input b, e.binding? input = some b → g.Fits e input b

variable {g : Graph M α}

theorem fits_iff {e : Entry M α} {input : Nat} {b : Binding} :
    g.fits e input b = true ↔ g.Fits e input b := by
  unfold fits Fits outputKind?
  cases g.signature? b.source with
  | none => simp
  | some source =>
    simp only [Option.bind_eq_bind, Option.bind_some, Option.some.injEq, exists_eq_left']
    cases source.outputKind? b.output with
    | none => simp
    | some output => cases e.signature.inputKind? input <;> simp

/-- A binding goes on to fit while the sockets at both of its ends are the same. -/
theorem Fits.mono {g' : Graph M α} {e e' : Entry M α} {input : Nat} {b : Binding}
    (h : g.Fits e input b) (hreader : e'.signature = e.signature)
    (hsource : ∀ s, g.signature? b.source = some s → g'.signature? b.source = some s) :
    g'.Fits e' input b := by
  obtain ⟨source, hs, output, ho, kind, hk, hfeeds⟩ := h
  exact ⟨source, hsource source hs, output, ho, kind, by rw [hreader, hk], hfeeds⟩

/-! ### Lookups after a step -/

theorem lookup_map_entries (l : List (ModuleId × Entry M α))
    (f : ModuleId → Entry M α → Entry M α) (id : ModuleId) :
    (l.map fun x => (x.1, f x.1 x.2)).lookup id = (l.lookup id).map (f id) := by
  induction l with
  | nil => rfl
  | cons x l ih =>
    rw [List.map_cons, List.lookup_cons, List.lookup_cons]
    split
    · rename_i h
      rw [eq_of_beq h, Option.map_some]
    · exact ih

theorem lookup_filter_entries (l : List (ModuleId × Entry M α)) {id other : ModuleId}
    {e : Entry M α} :
    (l.filter (·.1 != id)).lookup other = some e ↔ other ≠ id ∧ l.lookup other = some e := by
  induction l with
  | nil => simp
  | cons x l ih =>
    by_cases hx : x.1 = id
    · rw [List.filter_cons_of_neg (by simp [hx]), ih, List.lookup_cons, hx]
      refine and_congr_right fun hother => ?_
      rw [beq_eq_false_iff_ne.mpr hother]
    · rw [List.filter_cons_of_pos (by simpa using hx), List.lookup_cons, List.lookup_cons]
      split
      · rename_i h
        rw [eq_of_beq h]
        simp [hx]
      · exact ih

theorem entry?_replaceEntry (g : Graph M α) (id : ModuleId) (e : Entry M α) (i : ModuleId) :
    entry? (g.replaceEntry id e) i = (g.entry? i).map fun old => if i == id then e else old :=
  lookup_map_entries g.entries (fun i old => if i == id then e else old) i

theorem entry?_replaceEntry_of_ne (g : Graph M α) {id i : ModuleId} (h : i ≠ id) (e : Entry M α) :
    entry? (g.replaceEntry id e) i = g.entry? i := by
  rw [entry?_replaceEntry, beq_false_of_ne h]
  simp

theorem entry?_replaceEntry_self {id : ModuleId} {e : Entry M α} (he : g.entry? id = some e)
    (e' : Entry M α) : entry? (g.replaceEntry id e') id = some e' := by
  rw [entry?_replaceEntry, he, Option.map_some, beq_self_eq_true, if_pos rfl]

theorem entry?_mapBindings (g : Graph M α) (f : Entry M α → List (Option Binding))
    (i : ModuleId) :
    entry? (g.mapBindings f) i = (g.entry? i).map fun e => { e with bindings := f e } :=
  lookup_map_entries g.entries (fun _ e => { e with bindings := f e }) i

theorem ids_replaceEntry (g : Graph M α) (id : ModuleId) (e : Entry M α) :
    (g.replaceEntry id e).ids = g.ids := by
  simp [ids, replaceEntry]

theorem ids_mapBindings (g : Graph M α) (f : Entry M α → List (Option Binding)) :
    (g.mapBindings f).ids = g.ids := by
  simp [ids, mapBindings]

theorem signature?_mapBindings (g : Graph M α) (f : Entry M α → List (Option Binding))
    (i : ModuleId) : (g.mapBindings f).signature? i = g.signature? i := by
  rw [signature?, entry?_mapBindings, Option.map_map]
  rfl

/-- A module replaced by one with the same sockets leaves all sockets as they are. -/
theorem signature?_replaceEntry {id : ModuleId} {e e' : Entry M α} (h : g.entry? id = some e)
    (hsignature : e'.signature = e.signature) (i : ModuleId) :
    (g.replaceEntry id e').signature? i = g.signature? i := by
  rw [signature?, signature?, entry?_replaceEntry, Option.map_map]
  by_cases hi : i = id
  · rw [hi, h]
    simp [hsignature]
  · simp [hi, Function.comp_def]

/-! ### What a change does -/

/-- The graph without a module and without the bindings that read it. -/
def without (g : Graph M α) (id : ModuleId) : Graph M α :=
  ({ g with entries := g.entries.filter (·.1 != id) } : Graph M α).mapBindings fun e =>
    e.bindings.map fun b => b.filter fun b => b.source != id

/-- A module is taken out together with the bindings that read it. -/
theorem remove_eq (g : Graph M α) (id : ModuleId) :
    g.remove id = (g.entry? id).map fun e => (e.module, g.without id) := by
  unfold remove
  cases g.entry? id <;> rfl

/-- A binding that is accepted fits, and only the slot that it takes is changed. -/
theorem bind_ok {id : ModuleId} {input : Nat} {b : Binding} {changed : Graph M α}
    (h : g.bind id input b = .ok changed) :
    ∃ e, g.entry? id = some e ∧ g.Fits e input b ∧ e.binding? input = none ∧
      changed = g.replaceEntry id { e with bindings := e.bindings.set input (some b) } := by
  unfold bind at h
  split at h
  · cases h
  rename_i source hsource
  split at h
  · cases h
  rename_i output houtput
  split at h
  · cases h
  rename_i e he
  split at h
  · cases h
  rename_i kind hkind
  split at h
  · rename_i hfeeds
    split at h
    · cases h
    rename_i hfree
    cases h
    refine ⟨e, he, ⟨source.signature, ?_, output, houtput, kind, hkind, hfeeds⟩, hfree, rfl⟩
    rw [signature?, hsource, Option.map_some]
  · cases h

/-- A binding that fits is accepted unless there is one already, which stays in place. -/
theorem Fits.bind_eq {e : Entry M α} {id : ModuleId} {input : Nat} {b : Binding}
    (h : g.Fits e input b) (he : g.entry? id = some e) :
    g.bind id input b = match e.binding? input with
      | some existing => .error (.alreadyBound id input existing)
      | none => .ok (g.replaceEntry id { e with bindings := e.bindings.set input (some b) }) := by
  obtain ⟨signature, hsignature, output, houtput, kind, hkind, hfeeds⟩ := h
  obtain ⟨source, hsource, rfl⟩ := Option.map_eq_some_iff.mp hsignature
  unfold bind
  rw [show g.entry? b.source = some source from hsource]
  cases hb : e.binding? input with
  | none => simp only [houtput, he, hkind, if_pos hfeeds, hb]
  | some existing => simp only [houtput, he, hkind, if_pos hfeeds, hb]

/-- Only the slot of an input is changed when its binding is taken away. -/
theorem unbind_ok {id : ModuleId} {input : Nat} {previous : Option Binding} {changed : Graph M α}
    (h : g.unbind id input = .ok (previous, changed)) :
    ∃ e, g.entry? id = some e ∧ input < e.bindings.length ∧ previous = e.binding? input ∧
      changed = g.replaceEntry id { e with bindings := e.bindings.set input none } := by
  unfold unbind at h
  split at h
  · cases h
  rename_i e he
  split at h
  · rename_i hinput
    cases h
    exact ⟨e, he, hinput, rfl, rfl⟩
  · cases h

/-- The graph after a module has accepted the value of a parameter.  The module alone has changed, or the
module with its sockets; then the bindings that no longer fit are dropped. -/
def refreshed [Arith α] [TextureModule M α] (g : Graph M α) (id : ModuleId) (e : Entry M α) (m : M) :
    Graph M α :=
  if (TextureModule.signature m : Signature α) == e.signature then
    g.replaceEntry id { e with module := m }
  else (g.replaceEntry id (e.reshape m)).dropStale

theorem setParameter_eq [Arith α] [TextureModule M α] {id : ModuleId} {e : Entry M α}
    (he : g.entry? id = some e) (name : String) (v : ParameterValue α) :
    g.setParameter id name v
      = ((TextureModule.setParameter e.module name v).map (g.refreshed id e)).mapError
          GraphError.parameter := by
  unfold setParameter
  simp only [he]
  cases TextureModule.setParameter e.module name v with
  | error refusal => rfl
  | ok m =>
    show (if _ then Except.ok _ else Except.ok _) = Except.ok (g.refreshed id e m)
    unfold refreshed
    split <;> rfl

/-- A parameter is accepted where the module accepts it. -/
theorem setParameter_ok [Arith α] [TextureModule M α] {id : ModuleId} {name : String}
    {v : ParameterValue α} {changed : Graph M α}
    (h : g.setParameter id name v = .ok changed) :
    ∃ e m, g.entry? id = some e ∧ TextureModule.setParameter e.module name v = .ok m ∧
      changed = g.refreshed id e m := by
  cases he : g.entry? id with
  | none =>
    unfold setParameter at h
    rw [he] at h
    cases h
  | some e =>
    rw [setParameter_eq he, mapError_eq_ok_iff, map_eq_ok_iff] at h
    obtain ⟨m, hm, rfl⟩ := h
    exact ⟨e, m, rfl, hm, rfl⟩

/-! ### Steps -/

theorem Slotted.replaceEntry (hg : g.Slotted) (id : ModuleId) {e : Entry M α}
    (h : e.bindings.length = e.signature.inputs.length) : (g.replaceEntry id e).Slotted where
  nodup := by
    rw [ids_replaceEntry]
    exact hg.nodup
  numbered := by
    rw [ids_replaceEntry]
    exact hg.numbered
  slots i r hi := by
    rw [entry?_replaceEntry, Option.map_eq_some_iff] at hi
    obtain ⟨old, hold, rfl⟩ := hi
    split
    · exact h
    · exact hg.slots i old hold

theorem Slotted.mapBindings (hg : g.Slotted) {f : Entry M α → List (Option Binding)}
    (hf : ∀ e, (f e).length = e.bindings.length) : (g.mapBindings f).Slotted where
  nodup := by
    rw [ids_mapBindings]
    exact hg.nodup
  numbered := by
    rw [ids_mapBindings]
    exact hg.numbered
  slots i r hi := by
    rw [entry?_mapBindings, Option.map_eq_some_iff] at hi
    obtain ⟨e, he, rfl⟩ := hi
    exact (hf e).trans (hg.slots i e he)

/-- When the bindings that do not fit are dropped, the rest fit: the sockets of all modules stay as
they are. -/
theorem Slotted.dropStale (hg : g.Slotted) : g.dropStale.Wired where
  toSlotted := hg.mapBindings fun e => List.length_mapIdx
  bindings i r hi input b hb := by
    rw [Graph.dropStale, entry?_mapBindings, Option.map_eq_some_iff] at hi
    obtain ⟨e, he, rfl⟩ := hi
    rw [Entry.binding?_mapIdx_filter, Option.filter_eq_some_iff] at hb
    -- What is left in a slot has passed the test.
    have hfits : g.Fits e input b := fits_iff.mp hb.2
    refine hfits.mono rfl fun s hs => ?_
    rw [Graph.dropStale, signature?_mapBindings, hs]

/-- A module may be replaced where the graph goes on to go by the same sockets and the bindings fit. -/
theorem Wired.replaceEntry (hg : g.Wired) {id : ModuleId} {e e' : Entry M α}
    (he : g.entry? id = some e) (hsignature : e'.signature = e.signature)
    (hslots : e'.bindings.length = e.bindings.length)
    (hfits : ∀ input b, e'.binding? input = some b → g.Fits e input b) :
    (g.replaceEntry id e').Wired where
  toSlotted := by
    refine hg.toSlotted.replaceEntry id ?_
    rw [hslots, hsignature]
    exact hg.slots id e he
  bindings i r hi input b hb := by
    have hsource : ∀ s, g.signature? b.source = some s →
        (g.replaceEntry id e').signature? b.source = some s := by
      intro s hs
      rw [signature?_replaceEntry he hsignature, hs]
    rw [entry?_replaceEntry, Option.map_eq_some_iff] at hi
    obtain ⟨old, hold, rfl⟩ := hi
    -- The slots of the replaced module are the new ones, those of the others are as they were.
    by_cases h : (i == id) = true
    · rw [if_pos h] at hb ⊢
      exact (hfits input b hb).mono hsignature hsource
    · rw [if_neg h] at hb ⊢
      exact (hg.bindings i old hold input b hb).mono rfl hsource

/-- Whatever has become of a module, the sockets that the graph goes by and the bindings are as before. -/
theorem Wired.setModule (hg : g.Wired) {id : ModuleId} {e : Entry M α} (he : g.entry? id = some e)
    (m : M) : (g.replaceEntry id { e with module := m }).Wired :=
  hg.replaceEntry he rfl rfl (hg.bindings id e he)

/-- A slot may be cleared, or take a binding that fits. -/
theorem Wired.setSlot (hg : g.Wired) {id : ModuleId} {e : Entry M α} (he : g.entry? id = some e)
    {input : Nat} {slot : Option Binding} (hslot : ∀ b, slot = some b → g.Fits e input b) :
    (g.replaceEntry id { e with bindings := e.bindings.set input slot }).Wired := by
  refine hg.replaceEntry he rfl List.length_set ?_
  intro i b hb
  rw [Entry.binding?_eq_some_iff, List.getElem?_set] at hb
  split at hb
  · rename_i hi
    split at hb
    · exact hi ▸ hslot b (Option.some.inj hb)
    · cases hb
  · exact hg.bindings id e he i b (Entry.binding?_eq_some_iff.mpr hb)

theorem Wired.without (hg : g.Wired) (id : ModuleId) : (g.without id).Wired := by
  let rest : Graph M α := { g with entries := g.entries.filter (·.1 != id) }
  have hids : rest.ids = g.ids.filter (· != id) := by simp [rest, ids, List.filter_map]; rfl
  have hrest : rest.Slotted := by
    refine { nodup := ?_, numbered := ?_, slots := ?_ }
    · rw [hids]
      exact hg.nodup.filter _
    · rw [hids]
      exact fun i hi => hg.numbered i (List.mem_of_mem_filter hi)
    · exact fun i e hi => hg.slots i e (lookup_filter_entries g.entries |>.mp hi).2
  refine { toSlotted := hrest.mapBindings fun e => List.length_map _, bindings := ?_ }
  intro i r hi input b hb
  rw [Graph.without, entry?_mapBindings, Option.map_eq_some_iff] at hi
  obtain ⟨e, he, rfl⟩ := hi
  rw [Entry.binding?_map_filter, Option.filter_eq_some_iff] at hb
  -- A binding that is left reads another module, and this one has stayed.
  obtain ⟨hb, hother⟩ := hb
  have hfits : g.Fits e input b :=
    hg.bindings i e (lookup_filter_entries g.entries |>.mp he).2 input b hb
  refine hfits.mono rfl fun s hs => ?_
  obtain ⟨source, hsource, rfl⟩ := Option.map_eq_some_iff.mp hs
  rw [Graph.without, signature?_mapBindings]
  exact Option.map_eq_some_iff.mpr
    ⟨source, (lookup_filter_entries g.entries).mpr ⟨bne_iff_ne.mp hother, hsource⟩, rfl⟩

theorem wired_empty (name : String) : (empty name : Graph M α).Wired where
  nodup := List.nodup_nil
  numbered := by simp [ids, empty]
  slots := by simp [empty, entry?]
  bindings := by simp [empty, entry?]

variable [TextureModule M α]

theorem Wired.add (hg : g.Wired) (m : M) : (g.add m).2.Wired := by
  have hids : (g.add m).2.ids = g.ids ++ [⟨g.next⟩] := by simp [Graph.add, ids]
  have hentry : ∀ {i e}, entry? (g.add m).2 i = some e →
      g.entry? i = some e ∨ e = .ofModule m := by
    intro i e hi
    rcases lookup_snoc_eq_some_iff.mp hi with hold | ⟨-, -, hnew⟩
    · exact .inl hold
    · exact .inr hnew.symm
  refine { nodup := ?_, numbered := ?_, slots := ?_, bindings := ?_ }
  · rw [hids]
    refine List.nodup_append.mpr ⟨hg.nodup, List.nodup_singleton _, ?_⟩
    rintro id hid _ hnew rfl
    rw [List.mem_singleton.mp hnew] at hid
    exact Nat.lt_irrefl _ (hg.numbered _ hid)
  · rw [hids]
    intro id hid
    rcases List.mem_append.mp hid with hid | hid
    · exact Nat.lt_succ_of_lt (hg.numbered id hid)
    · rw [List.mem_singleton.mp hid]
      exact Nat.lt_succ_self _
  · intro i e hi
    rcases hentry hi with hold | rfl
    · exact hg.slots i e hold
    · simp [Entry.ofModule]
  · intro i e hi input b hb
    rcases hentry hi with hold | rfl
    · refine (hg.bindings i e hold input b hb).mono rfl fun s hs => ?_
      obtain ⟨source, hsource, rfl⟩ := Option.map_eq_some_iff.mp hs
      exact Option.map_eq_some_iff.mpr ⟨source, lookup_snoc_eq_some_iff.mpr (.inl hsource), rfl⟩
    · -- The slots of the new module are empty.
      rw [Entry.binding?_eq_some_iff] at hb
      cases List.eq_of_mem_replicate (List.mem_of_getElem? hb)

/-- The slots of a module that has other sockets are brought in line with these. -/
theorem Wired.refreshed [Arith α] (hg : g.Wired) {id : ModuleId} {e : Entry M α}
    (he : g.entry? id = some e) (m : M) : (g.refreshed id e m).Wired := by
  unfold Graph.refreshed
  split
  · exact hg.setModule he m
  · exact (hg.toSlotted.replaceEntry id (e.length_reshape m)).dropStale

/-! ### Changes -/

variable [Arith α]

theorem Wired.edit (hg : g.Wired) (change : Edit M α) : (g.edit change).Wired := by
  cases change with
  | add m => exact hg.add m
  | remove id =>
    simp only [Graph.edit, remove_eq]
    cases g.entry? id with
    | none => exact hg
    | some e => exact hg.without id
  | setParameter id name v =>
    simp only [Graph.edit]
    split
    · rename_i changed h
      obtain ⟨e, m, he, -, rfl⟩ := setParameter_ok h
      exact hg.refreshed he m
    · exact hg
  | bind id input b =>
    simp only [Graph.edit]
    split
    · rename_i changed h
      obtain ⟨e, he, hfits, -, rfl⟩ := bind_ok h
      exact hg.setSlot he (by rintro b' ⟨⟩; exact hfits)
    · exact hg
  | unbind id input =>
    simp only [Graph.edit]
    split
    · rename_i previous changed h
      obtain ⟨e, he, -, -, rfl⟩ := unbind_ok h
      exact hg.setSlot he (by rintro b' ⟨⟩)
    · exact hg

end Graph

end TextureGraph
