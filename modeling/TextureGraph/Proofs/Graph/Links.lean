import TextureGraph.Proofs.Graph.Wired

/-!
# Edges under changes

Each change of a wired graph acts on its modules and edges as it would on a store that holds nothing else
(`Wiring`).

The edges are spread over the slots of the modules that read.  A slot that is cleared takes one edge
out of the list of all edges, and leaves the others in their order:

* `links_replaceEntry` says which edges are left when the slots of a single module are changed,
* `links_mapBindings` when the slots of all modules are.

A new edge is where it would be taken out again, so `bind` is `unbind` read backwards.
-/

namespace TextureGraph

variable {M α : Type}

/-! ### Stores of edges -/

/-- The input at which an edge ends. -/
def Link.sink (l : Link) : ModuleId × Nat :=
  (l.reader, l.input)

/-- Modules in their order and the edges between them, without anything else. -/
structure Wiring where
  /-- The modules. -/
  modules : List ModuleId
  /-- The edges. -/
  links : List Link

namespace Wiring

/-- With one more module, to which no edge leads and from which none comes. -/
def add (w : Wiring) (id : ModuleId) : Wiring :=
  { w with modules := w.modules ++ [id] }

/-- Without a module and the edges at it. -/
def remove (w : Wiring) (id : ModuleId) : Wiring :=
  { modules := w.modules.filter (· != id), links := w.links.filter (!·.involves id) }

/-- Without the edges that fail a test. -/
def retain (w : Wiring) (p : Link → Bool) : Wiring :=
  { w with links := w.links.filter p }

/-- Without the edge that ends at an input. -/
def unlink (w : Wiring) (sink : ModuleId × Nat) : Wiring :=
  w.retain (·.sink != sink)

/-- The edge that ends at an input. -/
def link? (w : Wiring) (sink : ModuleId × Nat) : Option Link :=
  w.links.find? (·.sink == sink)

/-- With exactly one edge more, somewhere among the others. -/
def Gains (w : Wiring) (l : Link) (w' : Wiring) : Prop :=
  w'.modules = w.modules ∧
    ∃ before after, w.links = before ++ after ∧ w'.links = before ++ l :: after

/-- An edge that has been taken away is the one that has to be added again. -/
theorem gains_of_unlink {w : Wiring} (hnodup : (w.links.map Link.sink).Nodup) {l : Link}
    (hl : l ∈ w.links) : (w.unlink l.sink).Gains l w := by
  obtain ⟨before, after, hsplit⟩ := List.append_of_mem hl
  refine ⟨rfl, before, after, ?_, hsplit⟩
  -- No other edge ends at this input, so the test takes out this one alone.
  rw [hsplit, List.map_append, List.map_cons, List.nodup_append, List.nodup_cons] at hnodup
  obtain ⟨-, ⟨hafter, -⟩, hbefore⟩ := hnodup
  have hkeepBefore : before.filter (·.sink != l.sink) = before := by
    refine List.filter_eq_self.mpr fun x hx => bne_iff_ne.mpr ?_
    exact hbefore _ (List.mem_map_of_mem hx) _ List.mem_cons_self
  have hkeepAfter : after.filter (·.sink != l.sink) = after := by
    refine List.filter_eq_self.mpr fun x hx => bne_iff_ne.mpr fun hsink => ?_
    exact hafter (List.mem_map.mpr ⟨x, hx, hsink⟩)
  show w.links.filter (·.sink != l.sink) = before ++ after
  rw [hsplit, List.filter_append, List.filter_cons_of_neg (by simp), hkeepBefore, hkeepAfter]

end Wiring

namespace Graph

/-- The modules and edges of a graph. -/
def wiring (g : Graph M α) : Wiring :=
  ⟨g.ids, g.links⟩

/-- The graph apart from its edges. -/
def unwired (g : Graph M α) : Graph M α :=
  g.mapBindings fun _ => []

/-- Whether the graph knows the sockets that an edge joins, and their kinds fit. -/
def admits (g : Graph M α) (l : Link) : Bool :=
  match g.entry? l.reader with
  | some e => g.fits e l.input l.binding
  | none => false

end Graph

/-! ### The edges of a module -/

namespace Entry

variable {e : Entry M α} {id : ModuleId}

theorem mem_links_iff {l : Link} :
    l ∈ e.links id ↔ l.reader = id ∧ e.binding? l.input = some l.binding := by
  simp only [links, List.mem_filterMap, List.mem_mapIdx, exists_eq_right, binding?_eq_some_iff,
    List.getElem?_eq_some_iff]
  constructor
  · rintro ⟨i, hi, hl⟩
    obtain ⟨b, hb, rfl⟩ := Option.map_eq_some_iff.mp hl
    exact ⟨rfl, hi, hb⟩
  · rintro ⟨rfl, hi, hb⟩
    exact ⟨l.input, hi, Option.map_eq_some_iff.mpr ⟨l.binding, hb, rfl⟩⟩

/-- No two edges of a module end at the same input. -/
theorem nodup_sinks (e : Entry M α) (id : ModuleId) : ((e.links id).map Link.sink).Nodup := by
  rw [List.Nodup, List.pairwise_map, links, List.pairwise_filterMap, List.pairwise_iff_getElem]
  intro i j hi hj hij l hl l' hl' hsink
  rw [List.getElem_mapIdx, Option.map_eq_some_iff] at hl hl'
  obtain ⟨_, -, rfl⟩ := hl
  obtain ⟨_, -, rfl⟩ := hl'
  exact Nat.ne_of_lt hij (Prod.mk.inj hsink).2

/-- The edges that end at a module, counted along the numbers of its inputs. -/
theorem links_eq_filterMap_range (id : ModuleId) {n : Nat} (h : e.bindings.length ≤ n) :
    e.links id = (List.range n).filterMap fun i => (e.binding? i).map fun b => ⟨b, id, i⟩ := by
  have hslots : e.bindings.mapIdx (fun i b => b.map fun b => (⟨b, id, i⟩ : Link))
      = (List.range e.bindings.length).map fun i => (e.binding? i).map fun b => ⟨b, id, i⟩ := by
    refine List.ext_getElem (by simp) fun i hi _ => ?_
    have hlt : i < e.bindings.length := by simpa using hi
    simp [binding?, List.getElem?_eq_getElem hlt]
  obtain ⟨k, rfl⟩ := Nat.exists_eq_add_of_le h
  have hempty : ((List.range k).map (e.bindings.length + ·)).filterMap
      (fun i => (e.binding? i).map fun b => (⟨b, id, i⟩ : Link)) = [] := by
    simp [binding?]
  rw [List.range_add, List.filterMap_append, hempty, List.append_nil, links, hslots,
    List.filterMap_map]
  rfl

/-- The bindings that are left are the edges that are left. -/
theorem links_eq_filter {e' : Entry M α} {p : Link → Bool}
    (h : ∀ i, e'.binding? i = (e.binding? i).filter fun b => p ⟨b, id, i⟩) :
    e'.links id = (e.links id).filter p := by
  rw [links_eq_filterMap_range id (Nat.le_max_left e.bindings.length e'.bindings.length),
    links_eq_filterMap_range id (Nat.le_max_right e.bindings.length e'.bindings.length),
    List.filter_filterMap]
  congr 1
  funext i
  rw [h, Option.filter_map]
  rfl

/-- A test that does not look at the binding keeps it or not. -/
theorem filter_const (slot : Option Binding) (keep : Bool) :
    slot.filter (fun _ => keep) = if keep then slot else none := by
  cases slot <;> cases keep <;> rfl

/-- When the slot of an input is cleared, the edge at this input is taken away. -/
theorem links_set_none (e : Entry M α) (id : ModuleId) (input : Nat) :
    ({ e with bindings := e.bindings.set input none } : Entry M α).links id
      = (e.links id).filter (·.sink != (id, input)) := by
  refine links_eq_filter fun i => ?_
  have hsink : ∀ b : Binding, ((⟨b, id, i⟩ : Link).sink != (id, input)) = (i != input) := by
    intro b
    rw [Bool.eq_iff_iff]
    simp [Link.sink]
  simp only [hsink]
  rw [filter_const, binding?_set]
  by_cases h : input = i
  · have hnone : ¬ i < e.bindings.length → e.binding? i = none := by
      intro hi
      simp [binding?, Nat.le_of_not_lt hi]
    by_cases hi : i < e.bindings.length <;> simp [h, hi, hnone]
  · simp [h, Ne.symm h]

/-- The slots that a module keeps after a change of its sockets keep their edges, and the new ones
are empty. -/
theorem links_reshape [TextureModule M α] (e : Entry M α) (m : M) (id : ModuleId) :
    (e.reshape m).links id
      = (e.links id).filter
          (·.input < (TextureModule.signature m : Signature α).inputs.length) := by
  refine links_eq_filter fun i => ?_
  simp only [binding?, reshape]
  generalize (TextureModule.signature m : Signature α).inputs.length = n
  have hnew : (List.replicate (n - e.bindings.length) (none : Option Binding))[i
      - (e.bindings.take n).length]?.join = none := by
    rw [List.getElem?_replicate]
    split <;> rfl
  -- The slots are the old ones, as far as there are inputs for them, and then the new ones.
  rw [filter_const _ (decide (i < n)), List.getElem?_append, apply_ite Option.join, hnew,
    List.length_take, List.getElem?_take]
  by_cases hkept : i < min n e.bindings.length
  · have hn : i < n := by omega
    simp [hkept, hn]
  · rw [if_neg hkept]
    by_cases hn : i < n
    · have hbeyond : e.bindings.length ≤ i := by omega
      simp [hbeyond]
    · simp [hn]

end Entry

namespace Graph

variable {g : Graph M α}

/-! ### The edges of a graph -/

theorem entry?_of_mem (hnodup : g.ids.Nodup) {id : ModuleId} {e : Entry M α}
    (h : (id, e) ∈ g.entries) : g.entry? id = some e := by
  obtain ⟨before, after, hentries⟩ := List.append_of_mem h
  refine List.lookup_eq_some_iff.mpr ⟨before, after, hentries, fun x hx => ?_⟩
  rw [ids, hentries, List.map_append, List.nodup_append] at hnodup
  have hne : x.1 ≠ id :=
    hnodup.2.2 x.1 (List.mem_map_of_mem hx) id (by simp)
  exact bne_iff_ne.mpr hne.symm

theorem eq_of_mem_entries (hnodup : g.ids.Nodup) {id : ModuleId} {e : Entry M α}
    (he : g.entry? id = some e) {x : ModuleId × Entry M α} (hx : x ∈ g.entries)
    (hid : x.1 = id) : x.2 = e := by
  rw [← hid, entry?_of_mem hnodup hx] at he
  exact Option.some.inj he

theorem mem_links_iff (hnodup : g.ids.Nodup) {l : Link} :
    l ∈ g.links ↔ g.binding? l.reader l.input = some l.binding := by
  simp only [links, List.mem_flatMap, binding?, Option.bind_eq_bind, Option.bind_eq_some_iff]
  constructor
  · rintro ⟨⟨id, e⟩, hmem, hl⟩
    obtain ⟨rfl, hb⟩ := Entry.mem_links_iff.mp hl
    exact ⟨e, entry?_of_mem hnodup hmem, hb⟩
  · rintro ⟨e, he, hb⟩
    exact ⟨(l.reader, e), mem_entries_of_lookup he, Entry.mem_links_iff.mpr ⟨rfl, hb⟩⟩

/-- No two edges end at the same input. -/
theorem nodup_sinks (hnodup : g.ids.Nodup) : (g.links.map Link.sink).Nodup := by
  rw [links, List.map_flatMap, List.nodup_flatMap]
  refine ⟨fun x _ => x.2.nodup_sinks x.1, ?_⟩
  have hdistinct : g.entries.Pairwise fun x y => x.1 ≠ y.1 := List.pairwise_map.mp hnodup
  refine hdistinct.imp fun {x y} hne sink hx hy => hne ?_
  obtain ⟨l, hl, rfl⟩ := List.mem_map.mp hx
  obtain ⟨l', hl', hsink⟩ := List.mem_map.mp hy
  rw [← (Entry.mem_links_iff.mp hl).1, ← (Entry.mem_links_iff.mp hl').1]
  exact (Prod.mk.inj hsink).1.symm

/-- The edges that are left when the slots of one module are changed, those of its edges being left
that pass a test. -/
theorem links_replaceEntry (hnodup : g.ids.Nodup) {id : ModuleId} {e e' : Entry M α}
    {p : Link → Bool} (he : g.entry? id = some e) (h : e'.links id = (e.links id).filter p)
    (hothers : ∀ l : Link, l.reader ≠ id → p l = true) :
    (g.replaceEntry id e').links = g.links.filter p := by
  simp only [links, replaceEntry, List.flatMap_map, List.filter_flatMap]
  refine List.flatMap_congr fun x hx => ?_
  by_cases hid : x.1 = id
  · obtain rfl : x.2 = e := eq_of_mem_entries hnodup he hx hid
    simp [hid, h]
  · have hkept : (x.2.links x.1).filter p = x.2.links x.1 :=
      List.filter_eq_self.mpr fun l hl => hothers l ((Entry.mem_links_iff.mp hl).1 ▸ hid)
    simp [hid, hkept]

/-- The edges that are left when the slots of all modules are changed. -/
theorem links_mapBindings {f : Entry M α → List (Option Binding)} {p : Link → Bool}
    (h : ∀ id e, (id, e) ∈ g.entries → ∀ i, ({ e with bindings := f e } : Entry M α).binding? i
      = (e.binding? i).filter fun b => p ⟨b, id, i⟩) :
    (g.mapBindings f).links = g.links.filter p := by
  simp only [links, mapBindings, List.flatMap_map, List.filter_flatMap]
  exact List.flatMap_congr fun x hx => Entry.links_eq_filter (h x.1 x.2 hx)

/-- The edge at an input is the binding of the input. -/
theorem link?_wiring (hnodup : g.ids.Nodup) (id : ModuleId) (input : Nat) :
    g.wiring.link? (id, input) = (g.binding? id input).map fun b => ⟨b, id, input⟩ := by
  cases hfind : g.wiring.link? (id, input) with
  | none =>
    rw [Wiring.link?, List.find?_eq_none] at hfind
    cases hb : g.binding? id input with
    | none => rfl
    | some b =>
      have hmem : ⟨b, id, input⟩ ∈ g.links := (mem_links_iff hnodup).mpr hb
      exact absurd (beq_self_eq_true _) (hfind _ hmem)
  | some l =>
    have hmem : l ∈ g.links := List.mem_of_find?_eq_some hfind
    have hfound : g.links.find? (fun l => l.sink == (id, input)) = some l := hfind
    have hsink : l.sink = (id, input) := by simpa using List.find?_some hfound
    obtain ⟨rfl, rfl⟩ : l.reader = id ∧ l.input = input := Prod.mk.inj hsink
    rw [(mem_links_iff hnodup).mp hmem, Option.map_some]

/-! ### Slots of one module -/

theorem replaceEntry_self (hnodup : g.ids.Nodup) {id : ModuleId} {e : Entry M α}
    (he : g.entry? id = some e) : g.replaceEntry id e = g := by
  have hsame : (g.entries.map fun x => (x.1, if x.1 == id then e else x.2)) = g.entries := by
    refine (List.map_congr_left fun x hx => ?_).trans (List.map_id _)
    by_cases hid : x.1 = id
    · rw [if_pos (beq_iff_eq.mpr hid), ← eq_of_mem_entries hnodup he hx hid, id_eq]
    · rw [if_neg (by simpa using hid), id_eq]
  rw [replaceEntry, hsame]

theorem replaceEntry_replaceEntry (g : Graph M α) (id : ModuleId) (e e' : Entry M α) :
    (g.replaceEntry id e).replaceEntry id e' = g.replaceEntry id e' := by
  simp only [replaceEntry, List.map_map]
  congr 1
  refine List.map_congr_left fun x _ => ?_
  by_cases hid : x.1 = id <;> simp [hid]

/-- The rest of the graph is as before when only the slots of a module are changed. -/
theorem unwired_replaceEntry (hnodup : g.ids.Nodup) {id : ModuleId} {e : Entry M α}
    (he : g.entry? id = some e) (bindings : List (Option Binding)) :
    (g.replaceEntry id { e with bindings }).unwired = g.unwired := by
  have hself := congrArg unwired (replaceEntry_self hnodup he)
  rw [← hself]
  simp only [unwired, mapBindings, replaceEntry, List.map_map]
  congr 1
  refine List.map_congr_left fun x _ => ?_
  by_cases hid : x.1 = id <;> simp [hid]

theorem links_replaceEntry_set_none (hnodup : g.ids.Nodup) {id : ModuleId} {e : Entry M α}
    (he : g.entry? id = some e) (input : Nat) :
    (g.replaceEntry id { e with bindings := e.bindings.set input none }).links
      = g.links.filter (·.sink != (id, input)) :=
  links_replaceEntry hnodup he (e.links_set_none id input) fun _ hl =>
    bne_iff_ne.mpr fun heq => hl (Prod.mk.inj heq).1

/-- An edge at an input that was free stands somewhere among the other edges. -/
theorem gains_replaceEntry_set_some (hnodup : g.ids.Nodup) {id : ModuleId} {e : Entry M α}
    (he : g.entry? id = some e) {input : Nat} (hinput : input < e.bindings.length)
    (hfree : e.binding? input = none) (b : Binding) :
    g.wiring.Gains ⟨b, id, input⟩
      (g.replaceEntry id { e with bindings := e.bindings.set input (some b) }).wiring := by
  let bound : Entry M α := { e with bindings := e.bindings.set input (some b) }
  let changed : Graph M α := g.replaceEntry id bound
  have hids : changed.ids = g.ids := ids_replaceEntry g id bound
  have hchanged : changed.ids.Nodup := hids ▸ hnodup
  have hentry : changed.entry? id = some bound := entry?_replaceEntry_self he bound
  -- Clearing the slot again leads back to the graph.
  have hclear : ({ bound with bindings := bound.bindings.set input none } : Entry M α) = e := by
    have hslot : e.bindings[input] = none := by
      simpa [Entry.binding?, List.getElem?_eq_getElem hinput] using hfree
    simp only [bound, List.set_set]
    rw [← hslot, List.set_getElem_self]
  have hback : changed.replaceEntry id e = g := by
    rw [replaceEntry_replaceEntry, replaceEntry_self hnodup he]
  have hunlink : changed.wiring.unlink (id, input) = g.wiring := by
    rw [Wiring.unlink, Wiring.retain, wiring, ← links_replaceEntry_set_none hchanged hentry input,
      hclear, hback, hids]
    rfl
  have hmem : (⟨b, id, input⟩ : Link) ∈ changed.wiring.links := by
    refine (mem_links_iff hchanged).mpr (Option.bind_eq_some_iff.mpr ⟨bound, hentry, ?_⟩)
    rw [Entry.binding?_set, if_pos ⟨rfl, hinput⟩]
  rw [← hunlink]
  exact Wiring.gains_of_unlink (nodup_sinks hchanged) hmem

/-! ### Slots of all modules -/

/-- A module is taken out with the edges at it. -/
theorem wiring_without (g : Graph M α) (id : ModuleId) :
    (g.without id).wiring = g.wiring.remove id := by
  let rest : Graph M α := { g with entries := g.entries.filter (·.1 != id) }
  have hids : (g.without id).ids = g.ids.filter (· != id) := by
    rw [without, ids_mapBindings]
    simp [ids, List.filter_map, Function.comp_def]
  have hrest : rest.links = g.links.filter (·.reader != id) := by
    have hreader : ∀ x : ModuleId × Entry M α, ∀ l ∈ x.2.links x.1,
        (l.reader != id) = (x.1 != id) := fun x l hl => by
      rw [(Entry.mem_links_iff.mp hl).1]
    simp only [links, rest]
    -- The edges of a module go together: all of them end at it.
    induction g.entries with
    | nil => rfl
    | cons x l ih =>
      rw [List.flatMap_cons, List.filter_append, List.filter_congr (hreader x), ← ih]
      cases hid : x.1 != id <;> simp [hid]
  have hlinks : (g.without id).links = rest.links.filter (·.binding.source != id) := by
    exact links_mapBindings fun i e _ input => e.binding?_map_filter _ input
  rw [wiring, hids, hlinks, hrest, List.filter_filter]
  simp only [Wiring.remove, wiring, Link.involves, Bool.not_or, bne]

/-! ### Edges that fit -/

theorem Fits.lt_length {e : Entry M α} {input : Nat} {b : Binding} (h : g.Fits e input b) :
    input < e.signature.inputs.length := by
  obtain ⟨_, -, _, -, kind, hkind, -⟩ := h
  exact Signature.lt_length_of_inputKind? hkind

theorem admits_iff {l : Link} {e : Entry M α} (he : g.entry? l.reader = some e) :
    g.admits l = true ↔ g.Fits e l.input l.binding := by
  unfold admits
  rw [he]
  exact fits_iff

/-- An edge that fits leads to a module of the graph. -/
theorem exists_entry?_of_admits {l : Link} (h : g.admits l = true) :
    ∃ e, g.entry? l.reader = some e := by
  unfold admits at h
  split at h
  · rename_i e he
    exact ⟨e, he⟩
  · cases h

/-- All edges of a graph fit. -/
theorem Wired.admits_of_mem (hg : g.Wired) {l : Link} (h : l ∈ g.links) : g.admits l = true := by
  obtain ⟨e, he, hb⟩ := Option.bind_eq_some_iff.mp ((mem_links_iff hg.nodup).mp h)
  exact (admits_iff he).mpr (hg.bindings _ e he _ _ hb)

theorem admits_mapBindings (g : Graph M α) (f : Entry M α → List (Option Binding)) :
    (g.mapBindings f).admits = g.admits := by
  funext l
  unfold admits fits outputKind?
  rw [entry?_mapBindings, signature?_mapBindings]
  cases g.entry? l.reader <;> rfl

/-- The edges that fit are left when bindings that do not fit are dropped. -/
theorem links_dropStale (hnodup : g.ids.Nodup) :
    g.dropStale.links = g.links.filter g.admits := by
  refine links_mapBindings fun id e hmem i => ?_
  have hadmits : ∀ b, g.fits e i b = g.admits ⟨b, id, i⟩ := by
    intro b
    have hentry : g.entry? (⟨b, id, i⟩ : Link).reader = some e := entry?_of_mem hnodup hmem
    exact Bool.eq_iff_iff.mpr (fits_iff.trans (admits_iff hentry).symm)
  simp only [← hadmits]
  exact e.binding?_mapIdx_filter _ i

/-- When the sockets of a module change, exactly the edges are left that go on to fit. -/
theorem links_reshape [TextureModule M α] (hnodup : g.ids.Nodup) {id : ModuleId} {e : Entry M α}
    (he : g.entry? id = some e) (m : M) :
    (g.replaceEntry id (e.reshape m)).dropStale.links
      = g.links.filter (g.replaceEntry id (e.reshape m)).dropStale.admits := by
  let replaced : Graph M α := g.replaceEntry id (e.reshape m)
  have hreplaced : replaced.ids.Nodup := (ids_replaceEntry g id (e.reshape m)).symm ▸ hnodup
  have hentry : replaced.entry? id = some (e.reshape m) := entry?_replaceEntry_self he _
  let count : Nat := (TextureModule.signature m : Signature α).inputs.length
  let kept (l : Link) : Bool := l.reader != id || decide (l.input < count)
  have hkept : replaced.links = g.links.filter kept := by
    refine links_replaceEntry hnodup he ((e.links_reshape m id).trans ?_) fun l hl => ?_
    · refine List.filter_congr fun l hl => ?_
      simp [kept, count, (Entry.mem_links_iff.mp hl).1]
    · simp [kept, hl]
  -- An edge that fits ends at an input that is there.
  have himp : ∀ l, (replaced.admits l && kept l) = replaced.admits l := by
    intro l
    by_cases hadmits : replaced.admits l = true
    · rw [hadmits, Bool.true_and]
      by_cases hid : l.reader = id
      · have hfits : replaced.Fits (e.reshape m) l.input l.binding :=
          (admits_iff (hid ▸ hentry)).mp hadmits
        have hlt : l.input < count := hfits.lt_length
        simp [kept, hlt]
      · simp [kept, hid]
    · simp [hadmits]
  rw [links_dropStale hreplaced, hkept, List.filter_filter, dropStale, admits_mapBindings]
  exact List.filter_congr fun l _ => himp l

/-! ### Changes -/

theorem entry?_unwired (g : Graph M α) (i : ModuleId) :
    g.unwired.entry? i = (g.entry? i).map fun e => { e with bindings := [] } :=
  entry?_mapBindings g _ i

theorem unwired_without (g : Graph M α) (id : ModuleId) :
    (g.without id).unwired.entries = g.unwired.entries.filter (·.1 != id) := by
  simp only [unwired, without, mapBindings, List.map_map, List.filter_map]
  rfl

/-- The rest of the graph is as before when one module is replaced. -/
theorem entry?_unwired_replaceEntry_of_ne (g : Graph M α) {id other : ModuleId} (h : other ≠ id)
    (e : Entry M α) : entry? (g.replaceEntry id e).unwired other = entry? g.unwired other := by
  rw [entry?_unwired, entry?_unwired, entry?_replaceEntry_of_ne g h]

section Bindings

variable {id : ModuleId}

/-- An edge is added where it fits and none ends yet. -/
theorem Wired.exists_bind_iff (hg : g.Wired) (id : ModuleId) (input : Nat) (b : Binding) :
    (∃ changed, g.bind id input b = .ok changed) ↔
      g.admits ⟨b, id, input⟩ = true ∧ g.wiring.link? (id, input) = none := by
  rw [link?_wiring hg.nodup, Option.map_eq_none_iff]
  constructor
  · rintro ⟨changed, h⟩
    obtain ⟨e, he, hfits, hfree, -⟩ := bind_ok h
    exact ⟨(admits_iff (l := ⟨b, id, input⟩) he).mpr hfits, (binding?_eq he input).trans hfree⟩
  · rintro ⟨hadmits, hfree⟩
    obtain ⟨e, he⟩ := exists_entry?_of_admits hadmits
    rw [binding?_eq he] at hfree
    rw [((admits_iff he).mp hadmits).bind_eq he]
    simp only [hfree]
    exact ⟨_, rfl⟩

/-- Where an edge ends, a second one is turned down: on account of the first one exactly when it
fits itself. -/
theorem Wired.bind_bound_iff (hg : g.Wired) {input : Nat} {l : Link}
    (hl : g.wiring.link? (id, input) = some l) (b : Binding) :
    g.bind id input b = .error (.alreadyBound id input l.binding) ↔
      g.admits ⟨b, id, input⟩ = true := by
  rw [link?_wiring hg.nodup] at hl
  obtain ⟨existing, hexisting, rfl⟩ := Option.map_eq_some_iff.mp hl
  obtain ⟨e, he, hb⟩ := Option.bind_eq_some_iff.mp hexisting
  rw [admits_iff (l := ⟨b, id, input⟩) he]
  constructor
  · intro h
    unfold Graph.bind at h
    split at h
    · cases h
    rename_i source hsource
    split at h
    · cases h
    rename_i output houtput
    split at h
    · cases h
    rename_i e' he'
    obtain rfl : e = e' := Option.some.inj (he.symm.trans he')
    split at h
    · cases h
    rename_i kind hkind
    split at h
    · rename_i hfeeds
      exact ⟨source.signature, Option.map_eq_some_iff.mpr ⟨source, hsource, rfl⟩, output, houtput,
        kind, hkind, hfeeds⟩
    · cases h
  · intro hfits
    rw [hfits.bind_eq he]
    simp only [hb]

theorem Wired.wiring_bind (hg : g.Wired) {input : Nat} {b : Binding}
    {changed : Graph M α} (h : g.bind id input b = .ok changed) :
    g.wiring.Gains ⟨b, id, input⟩ changed.wiring ∧ changed.unwired = g.unwired := by
  obtain ⟨e, he, hfits, hfree, rfl⟩ := bind_ok h
  have hinput : input < e.bindings.length := (hg.slots id e he).symm ▸ hfits.lt_length
  exact ⟨gains_replaceEntry_set_some hg.nodup he hinput hfree b,
    unwired_replaceEntry hg.nodup he _⟩

theorem Wired.exists_unbind_iff (hg : g.Wired) (id : ModuleId) (input : Nat) :
    (∃ r, g.unbind id input = .ok r) ↔
      ∃ s, g.signature? id = some s ∧ input < s.inputs.length := by
  unfold Graph.unbind signature?
  cases he : g.entry? id with
  | none => simp
  | some e =>
    simp only [hg.slots id e he, Option.map_some, Option.some.injEq, exists_eq_left']
    by_cases hinput : input < e.signature.inputs.length <;> simp [hinput]

theorem Wired.wiring_unbind (hg : g.Wired) {input : Nat} {previous : Option Binding}
    {changed : Graph M α} (h : g.unbind id input = .ok (previous, changed)) :
    previous = (g.wiring.link? (id, input)).map Link.binding ∧
      changed.wiring = g.wiring.unlink (id, input) ∧ changed.unwired = g.unwired := by
  obtain ⟨e, he, hinput, rfl, rfl⟩ := unbind_ok h
  refine ⟨?_, ?_, unwired_replaceEntry hg.nodup he _⟩
  · rw [link?_wiring hg.nodup, Option.map_map, binding?, he]
    exact (congrFun Option.map_id (e.binding? input)).symm
  · rw [wiring, ids_replaceEntry, links_replaceEntry_set_none hg.nodup he]
    rfl

/-- Whatever has become of a module, the edges are as before. -/
theorem wiring_setModule (hnodup : g.ids.Nodup) {e : Entry M α} (he : g.entry? id = some e) (m : M) :
    (g.replaceEntry id { e with module := m }).wiring = g.wiring := by
  have hlinks : (g.replaceEntry id { e with module := m }).links = g.links.filter fun _ => true :=
    links_replaceEntry hnodup he (List.filter_true _).symm fun _ _ => rfl
  rw [wiring, ids_replaceEntry, hlinks, List.filter_true]
  rfl

end Bindings

section Modules

variable [TextureModule M α] {id : ModuleId}

theorem Slotted.wiring_add (hg : g.Slotted) (m : M) :
    (g.add m).1 ∉ g.wiring.modules ∧ (g.add m).2.wiring = g.wiring.add (g.add m).1 := by
  refine ⟨fun hmem => Nat.lt_irrefl _ (hg.numbered _ hmem), ?_⟩
  have hempty : (Entry.ofModule m : Entry M α).links (g.add m).1 = [] := by
    refine List.eq_nil_iff_forall_not_mem.mpr fun l hl => ?_
    have hb := Entry.binding?_eq_some_iff.mp (Entry.mem_links_iff.mp hl).2
    cases List.eq_of_mem_replicate (List.mem_of_getElem? hb)
  simp only [wiring, Wiring.add, ids, links, Graph.add, List.map_append, List.flatMap_append,
    List.map_cons, List.map_nil, List.flatMap_cons, List.flatMap_nil, List.append_nil]
  rw [show (Entry.ofModule m : Entry M α).links ⟨g.next⟩ = [] from hempty, List.append_nil]

/-- No edge leads to or from a module that was not there. -/
theorem Wired.linksFor_add (hg : g.Wired) (m : M) : (g.add m).2.linksFor (g.add m).1 = [] := by
  obtain ⟨hnew, hwiring⟩ := hg.wiring_add m
  have hlinks : (g.add m).2.links = g.links := congrArg Wiring.links hwiring
  rw [linksFor, hlinks, List.filter_eq_nil_iff]
  intro l hl hinvolves
  obtain ⟨e, he, hb⟩ := Option.bind_eq_some_iff.mp ((mem_links_iff hg.nodup).mp hl)
  obtain ⟨source, hsource, -⟩ := hg.bindings _ e he _ _ hb
  obtain ⟨s, hs, -⟩ := Option.map_eq_some_iff.mp hsource
  rcases Bool.or_eq_true_iff.mp hinvolves with h | h
  · exact hnew (eq_of_beq h ▸ mem_ids_of_lookup hs)
  · exact hnew (eq_of_beq h ▸ mem_ids_of_lookup he)

variable [Arith α]

/-- When a module accepts a parameter, exactly the edges are left that fit its sockets. -/
theorem Wired.wiring_refreshed (hg : g.Wired) {e : Entry M α} (he : g.entry? id = some e) (m : M) :
    (g.refreshed id e m).wiring = g.wiring.retain (g.refreshed id e m).admits := by
  have hrefreshed : (g.refreshed id e m).Wired := hg.refreshed he m
  unfold Graph.refreshed at hrefreshed ⊢
  split
  · -- The graph goes by the same sockets, so all edges fit as before.
    rename_i hsame
    rw [if_pos hsame] at hrefreshed
    have hwiring := wiring_setModule hg.nodup he m
    have hlinks : (g.replaceEntry id { e with module := m }).links = g.links :=
      congrArg Wiring.links hwiring
    have hfits : g.links.filter (g.replaceEntry id { e with module := m }).admits = g.links :=
      List.filter_eq_self.mpr fun l hl => hrefreshed.admits_of_mem (hlinks ▸ hl)
    rw [hwiring, Wiring.retain, wiring, hfits]
  · rw [wiring, links_reshape hg.nodup he m, dropStale, ids_mapBindings, ids_replaceEntry]
    rfl

theorem entry?_unwired_refreshed_of_ne (g : Graph M α) {other : ModuleId} (h : other ≠ id)
    (e : Entry M α) (m : M) : entry? (g.refreshed id e m).unwired other = entry? g.unwired other := by
  unfold refreshed
  split
  · exact entry?_unwired_replaceEntry_of_ne g h _
  · rw [← entry?_unwired_replaceEntry_of_ne g h (e.reshape m), entry?_unwired, entry?_unwired,
      dropStale, entry?_mapBindings, Option.map_map]
    rfl

end Modules

end Graph

end TextureGraph
