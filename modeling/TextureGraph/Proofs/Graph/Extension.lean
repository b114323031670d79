import TextureGraph.Proofs.Graph.Upstream

/-!
# Graphs with a module more

Adding a module and then binding its inputs, one after another, puts a bound module at the end of
the graph (`Graph.snoc`).

* `Graph.Coherent.foldl_addBound`: the changes have exactly this effect when all the bindings fit.
* `Graph.Consistent.exists_freeze_snoc`: a graph without cycles stays one, as nothing reads the new
  module.
* `FrozenGraph.answers_of_extends`: the modules that were there answer as they did.
-/

namespace TextureGraph

variable {M α : Type}

/-- The changes that add a module, which gets the number `next`, and bind its inputs in their
order. -/
def Edit.addBound (next : Nat) (m : M) (bindings : List Binding) : List (Edit M α) :=
  .add m :: bindings.mapIdx fun input b => .bind ⟨next⟩ input b

/-- A module whose inputs are bound in their order. -/
def Entry.bound [TextureModule M α] (m : M) (bindings : List Binding) : Entry M α :=
  { (Entry.ofModule m : Entry M α) with bindings := bindings.map some }

theorem Entry.binding?_ofModule [TextureModule M α] (m : M) (input : Nat) :
    (Entry.ofModule m : Entry M α).binding? input = none := by
  rw [Entry.binding?, Entry.ofModule, List.getElem?_replicate]
  split <;> rfl

theorem Entry.binding?_bound [TextureModule M α] (m : M) (bindings : List Binding) (input : Nat) :
    (Entry.bound m bindings : Entry M α).binding? input = bindings[input]? := by
  simp only [Entry.binding?, Entry.bound, List.getElem?_map]
  cases bindings[input]? <;> rfl

namespace Graph

/-- The graph with one more module. -/
def snoc (g : Graph M α) (e : Entry M α) : Graph M α :=
  { g with entries := g.entries ++ [(⟨g.next⟩, e)], next := g.next + 1 }

variable {g g' : Graph M α} {e : Entry M α}

/-! ### Lookups -/

theorem entry?_snoc_eq_some_iff {id : ModuleId} {r : Entry M α} :
    entry? (g.snoc e) id = some r ↔
      g.entry? id = some r ∨ g.entry? id = none ∧ id = ⟨g.next⟩ ∧ e = r :=
  lookup_snoc_eq_some_iff

theorem extends_snoc (g : Graph M α) (e : Entry M α) : (g.snoc e).Extends g :=
  fun _ _ h => entry?_snoc_eq_some_iff.mpr (.inl h)

section Coherent

variable [TextureModule M α]

theorem Coherent.next_not_mem (hg : g.Coherent) : ⟨g.next⟩ ∉ g.ids :=
  fun hmem => Nat.lt_irrefl _ (hg.numbered _ hmem)

theorem Coherent.entry?_snoc_next (hg : g.Coherent) (e : Entry M α) :
    entry? (g.snoc e) ⟨g.next⟩ = some e := by
  refine entry?_snoc_eq_some_iff.mpr (.inr ⟨?_, rfl, rfl⟩)
  rw [Option.eq_none_iff_forall_ne_some]
  exact fun r hr => hg.next_not_mem (mem_ids_of_lookup hr)

/-! ### Binding the inputs -/

theorem Coherent.replaceEntry_snoc (hg : g.Coherent) (e e' : Entry M α) :
    (g.snoc e).replaceEntry ⟨g.next⟩ e' = g.snoc e' := by
  have hold :
      (g.entries.map fun x => (x.1, if x.1 == ⟨g.next⟩ then e' else x.2)) = g.entries := by
    refine (List.map_congr_left fun x hx => ?_).trans (List.map_id _)
    have hne : x.1 ≠ ⟨g.next⟩ := by
      intro heq
      exact hg.next_not_mem (heq ▸ List.mem_map.mpr ⟨x, hx, rfl⟩)
    simp [hne]
  rw [Graph.replaceEntry, snoc, List.map_append, hold]
  simp [snoc]

theorem Coherent.bind_snoc (hg : g.Coherent) {input : Nat} {b : Binding} (hfits : g.Fits e input b)
    (hfree : e.binding? input = none) :
    (g.snoc e).bind ⟨g.next⟩ input b
      = .ok (g.snoc { e with bindings := e.bindings.set input (some b) }) := by
  have hsnoc : (g.snoc e).Fits e input b := by
    refine hfits.mono rfl fun s hs => ?_
    obtain ⟨source, hsource, rfl⟩ := Option.map_eq_some_iff.mp hs
    rw [signature?, extends_snoc g e _ _ hsource, Option.map_some]
  rw [hsnoc.bind_eq (hg.entry?_snoc_next e), hfree]
  exact congrArg Except.ok (hg.replaceEntry_snoc e _)

variable [Arith α]

/-- The inputs that are bound already come before the others. -/
theorem Coherent.foldl_bind_snoc (hg : g.Coherent) (done rest : List Binding)
    (hslots : e.bindings = done.map some ++ List.replicate rest.length none)
    (hfits : ∀ input b, rest[input]? = some b → g.Fits e (done.length + input) b) :
    (rest.mapIdx fun input b => Edit.bind ⟨g.next⟩ (done.length + input) b).foldl Graph.edit
        (g.snoc e)
      = g.snoc { e with bindings := (done ++ rest).map some } := by
  induction rest generalizing done e with
  | nil =>
    rw [List.length_nil, List.replicate_zero, List.append_nil] at hslots
    rw [List.append_nil, ← hslots]
    rfl
  | cons b rest ih =>
    have hfree : e.binding? done.length = none := by
      rw [Entry.binding?, hslots]
      simp [List.replicate_succ]
    have hset : e.bindings.set done.length (some b)
        = (done ++ [b]).map some ++ List.replicate rest.length none := by
      rw [hslots]
      simp [List.replicate_succ]
    have hbind : (g.snoc e).bind ⟨g.next⟩ done.length b
        = .ok (g.snoc { e with bindings := e.bindings.set done.length (some b) }) :=
      hg.bind_snoc (hfits 0 b rfl) hfree
    have hedit : (g.snoc e).edit (.bind ⟨g.next⟩ (done.length + 0) b)
        = g.snoc { e with bindings := e.bindings.set done.length (some b) } := by
      rw [Graph.edit, Nat.add_zero, hbind]
    rw [List.mapIdx_cons, List.foldl_cons, hedit]
    have hrest := ih (e := { e with bindings := e.bindings.set done.length (some b) })
      (done ++ [b]) hset fun input b' hb' => by
        rw [List.length_append, List.length_singleton, Nat.add_assoc, Nat.add_comm 1]
        exact hfits (input + 1) b' hb'
    rw [List.append_assoc, List.singleton_append] at hrest
    rw [← hrest]
    simp only [List.length_append, List.length_singleton, Nat.add_assoc, Nat.add_comm 1]

/-- A module that is added and bound stands at the end of the graph with its bindings. -/
theorem Coherent.foldl_addBound (hg : g.Coherent) {m : M} {bindings : List Binding}
    (hlength : (TextureModule.signature m : Signature α).inputs.length = bindings.length)
    (hfits : ∀ input b, bindings[input]? = some b → g.Fits (.ofModule m) input b) :
    (Edit.addBound g.next m bindings).foldl Graph.edit g = g.snoc (.bound m bindings) := by
  have hslots : (Entry.ofModule m : Entry M α).bindings
      = ([] : List Binding).map some ++ List.replicate bindings.length none := by
    rw [← hlength]
    rfl
  have hbind := hg.foldl_bind_snoc [] bindings hslots fun input b hb => by
    rw [List.length_nil, Nat.zero_add]
    exact hfits input b hb
  simp only [List.length_nil, Nat.zero_add] at hbind
  exact hbind

end Coherent

/-! ### Cycles -/

theorem exists_freeze_of_acyclic (h : g.Acyclic) : ∃ f, g.freeze = .ok f := by
  cases hs : g.schedule with
  | ok s => exact ⟨_, freeze_eq_ok (by rw [hs]; rfl)⟩
  | error e =>
    obtain ⟨chain, hcycle, -⟩ := schedule_error hs
    exact absurd h hcycle.not_acyclic

section Consistent

variable [TextureModule M α]

/-- A module that is read is in the graph. -/
theorem Consistent.mem_ids_of_reads (hg : g.Consistent) {reader source : ModuleId}
    (h : g.Reads reader source) : source ∈ g.ids := by
  obtain ⟨input, b, hb, rfl⟩ := h
  obtain ⟨e, he, hb⟩ := Option.bind_eq_some_iff.mp hb
  obtain ⟨s, hsource, -⟩ := hg.exists_read he hb
  exact mem_ids_of_lookup hsource

/-- With one more module, a module of the graph still reads the same ones, and the new one is read
by none. -/
theorem Consistent.reads_snoc (hg : g.Consistent)
    (hsources : ∀ input b, e.binding? input = some b → b.source ∈ g.ids)
    {reader source : ModuleId} (h : (g.snoc e).Reads reader source) :
    source ∈ g.ids ∧ (reader ∈ g.ids → g.Reads reader source) := by
  obtain ⟨input, b, hb, rfl⟩ := h
  obtain ⟨r, hr, hb⟩ := Option.bind_eq_some_iff.mp hb
  rcases entry?_snoc_eq_some_iff.mp hr with hold | ⟨hnew, rfl, rfl⟩
  · have hread : g.Reads reader b.source := reads_of_binding? hold hb
    exact ⟨hg.mem_ids_of_reads hread, fun _ => hread⟩
  · exact ⟨hsources input b hb, fun hmem => absurd hmem hg.next_not_mem⟩

/-- A module that only reads others closes no cycle. -/
theorem Consistent.acyclic_snoc (hg : g.Consistent) (h : g.Acyclic)
    (hsources : ∀ input b, e.binding? input = some b → b.source ∈ g.ids) : (g.snoc e).Acyclic := by
  have hold : ∀ {a b}, Relation.TransGen (g.snoc e).Reads a b → a ∈ g.ids →
      Relation.TransGen g.Reads a b ∧ b ∈ g.ids := by
    intro a b hchain ha
    induction hchain with
    | single hread =>
      obtain ⟨hmem, hstep⟩ := hg.reads_snoc hsources hread
      exact ⟨.single (hstep ha), hmem⟩
    | tail _ hread ih =>
      obtain ⟨hmem, hstep⟩ := hg.reads_snoc hsources hread
      exact ⟨ih.1.tail (hstep ih.2), hmem⟩
  intro id hcycle
  -- A module on a cycle is read, so it is an old one.
  obtain ⟨_, -, hread⟩ := Relation.TransGen.tail'_iff.mp hcycle
  exact h id (hold hcycle (hg.reads_snoc hsources hread).1).1

theorem Consistent.exists_freeze_snoc [Arith α] (hg : g.Consistent) {f : FrozenGraph M α}
    (h : g.freeze = .ok f) (hsources : ∀ input b, e.binding? input = some b → b.source ∈ g.ids) :
    ∃ f', (g.snoc e).freeze = .ok f' :=
  exists_freeze_of_acyclic (hg.acyclic_snoc (acyclic_of_schedule_ok (freeze_ok h).2) hsources)

end Consistent

end Graph

end TextureGraph
