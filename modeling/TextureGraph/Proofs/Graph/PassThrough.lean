import TextureGraph.Proofs.Graph.Interposition
import TextureGraph.Proofs.Graph.Links

/-!
# Edges led through a module that passes things on

An edge of a graph can be led through a new module (`Graph.reroute`).
`FrozenGraph.evaluation_reroute`: when this is a channel of the right kind, or a tap with its ports
of the right kind (`Catalog.Conduit`), no evaluation of another module can tell.

* `PassesOn`: the modules that answer for an output as they find the input of the same number.  A
  tap does so for what suits the kind of the port only: its color has no gradient, and its
  brightness is its mean as a number.
* `Graph.Consistent.reroute_eq`: the four changes that lead an edge through such a module are
  accepted, and put it in front of the input.
-/

namespace TextureGraph

variable {M α : Type}

/-! ### Modules that pass things on -/

/-- Kinds that are both colors, or both not, feed the same inputs. -/
theorem SocketKind.feeds_of_color_iff {output output' input : SocketKind}
    (hcolor : output' = .color ↔ output = .color) (h : output.feeds input = true) :
    output'.feeds input = true := by
  cases output' with
  | color =>
    rw [hcolor.mp rfl] at h
    exact h
  | scalar | boolean => rfl

/-- What a module finds at its inputs, as answers. -/
def Inputs.answers (inputs : Inputs α) : Answers α :=
  ⟨inputs.value, inputs.color, inputs.error, inputs.gradient⟩

/-- A module that passes on what it finds at an input, as the output of the same number, when this
is bound to an output of the given kind. -/
structure PassesOn [TextureModule M α] (m : M) (port : Nat) (kind : SocketKind) : Prop where
  /-- The input takes the kind. -/
  takes : ∃ inputKind, (TextureModule.signature m : Signature α).inputKind? port = some inputKind ∧
    kind.feeds inputKind = true
  /-- The output has the kind, where truth values count as numbers. -/
  gives : ∃ outputKind,
    (TextureModule.signature m : Signature α).outputKind? port = some outputKind ∧
      (outputKind = .color ↔ kind = .color)
  /-- What suits the kind is passed on. -/
  answers : ∀ (inputs : Inputs α) (operation : Operation), operation.Suits kind → ∀ q,
    (TextureModule.answers m inputs).result operation port q
      = inputs.answers.result operation port q

namespace Catalog

variable [Arith α] {kind : SocketKind} {m : Catalog α} {port : Nat}

/-- The modules through which an edge can be led, with their ports: a channel of the kind of the
output that is read, where truth values count as numbers, and a tap, which has a port for numbers
and one for colors. -/
inductive Conduit (kind : SocketKind) : Catalog α → Nat → Prop where
  /-- A channel. -/
  | channel (c : Channel α) (hkind : c.unbound.kind = .color ↔ kind = .color) :
    Conduit kind (.channel c) 0
  /-- The port of a tap for numbers. -/
  | scalarTap (hkind : kind ≠ .color) : Conduit kind (.shaping .tap) 0
  /-- The port of a tap for colors. -/
  | colorTap (hkind : kind = .color) : Conduit kind (.shaping .tap) 1

theorem Conduit.passesOn (h : Conduit kind m port) : PassesOn (α := α) m port kind := by
  cases h with
  | channel c hkind =>
    refine ⟨⟨c.unbound.kind, rfl, ?_⟩, ⟨c.unbound.kind, rfl, hkind⟩, ?_⟩
    · cases kind with
      | color =>
        rw [hkind.mpr rfl]
        rfl
      | scalar | boolean => rfl
    · intro inputs operation _ q
      cases operation <;> rfl
  | scalarTap hkind =>
    refine ⟨⟨.scalar, rfl, ?_⟩, ⟨.scalar, rfl, ?_⟩, ?_⟩
    · cases kind with
      | color => exact absurd rfl hkind
      | scalar | boolean => rfl
    · exact ⟨fun h => (nomatch h), fun h => absurd h hkind⟩
    · intro inputs operation hsuits q
      cases operation with
      | color => exact absurd hsuits hkind
      | value | error | gradient => rfl
  | colorTap hkind =>
    subst hkind
    refine ⟨⟨.color, rfl, rfl⟩, ⟨.color, rfl, Iff.rfl⟩, ?_⟩
    intro inputs operation hsuits q
    cases operation with
    | value | gradient => exact absurd rfl hsuits
    | color | error => rfl

end Catalog

/-! ### Edges led through a module -/

/-- A new module that is bound to an output reads this output and nothing else. -/
theorem Entry.binding?_rebind_ofModule [TextureModule M α] {m : M} {port i : Nat} {b b' : Binding} :
    ((Entry.ofModule m : Entry M α).rebind port b).binding? i = some b' ↔
      i = port ∧ port < (TextureModule.signature m : Signature α).inputs.length ∧ b' = b := by
  have hlength : (Entry.ofModule m : Entry M α).bindings.length
      = (TextureModule.signature m : Signature α).inputs.length :=
    List.length_replicate
  rw [Entry.binding?_rebind, Entry.binding?_ofModule, hlength]
  split
  · rename_i hand
    obtain ⟨rfl, hlt⟩ := hand
    simp [hlt, eq_comm]
  · rename_i hnot
    refine iff_of_false (fun h => nomatch h) ?_
    rintro ⟨rfl, hlt, -⟩
    exact hnot ⟨rfl, hlt⟩

namespace Graph

/-- Leads an edge through a new module: the module is added, its input is bound to what the edge
reads, and the end of the edge is bound to its output. -/
def reroute [TextureModule M α] (g : Graph M α) (l : Link) (m : M) (port : Nat) :
    Except (GraphError α) (Graph M α) := do
  let (new, widened) := g.add m
  let attached ← widened.bind new port l.binding
  let (_, loosened) ← attached.unbind l.reader l.input
  loosened.bind l.reader l.input ⟨new, port⟩

variable {g : Graph M α} {l : Link} {e source : Entry M α} {m : M} {port : Nat} {kind : SocketKind}

/-- A binding may take the place of another one that is taken away first. -/
theorem Fits.rebind_eq {id : ModuleId} {input : Nat} {b : Binding} (h : g.Fits e input b)
    (he : g.entry? id = some e) (hlt : input < e.bindings.length) :
    (do
      let (_, loosened) ← g.unbind id input
      loosened.bind id input b) = .ok (g.replaceEntry id (e.rebind input b)) := by
  let free : Entry M α := { e with bindings := e.bindings.set input none }
  have hunbind : g.unbind id input = .ok (e.binding? input, g.replaceEntry id free) := by
    rw [unbind, he]
    exact if_pos hlt
  have hfree : entry? (g.replaceEntry id free) id = some free := entry?_replaceEntry_self he free
  have hsockets : free.signature = e.signature := rfl
  have hfits : (g.replaceEntry id free).Fits free input b :=
    h.mono hsockets fun s hs => (signature?_replaceEntry he hsockets b.source).trans hs
  have hnone : free.binding? input = none := by rw [Entry.binding?_set, if_pos ⟨rfl, hlt⟩]
  rw [hunbind]
  show (g.replaceEntry id free).bind id input b = _
  rw [hfits.bind_eq hfree, hnone]
  simp only [free, replaceEntry_replaceEntry, List.set_set, Entry.rebind]

section Reroute

variable [TextureModule M α]

/-- The changes that lead an edge through a module are accepted, and put it in front of the
input. -/
theorem Consistent.reroute_eq (hg : g.Consistent) (he : g.entry? l.reader = some e)
    (hb : e.binding? l.input = some l.binding) (hkind : g.outputKind? l.binding = some kind)
    (hm : PassesOn (α := α) m port kind) :
    g.reroute l m port
      = .ok (g.interpose l.reader e l.input ((Entry.ofModule m).rebind port l.binding) port) := by
  let added : Entry M α := (Entry.ofModule m).rebind port l.binding
  obtain ⟨signature, hsignature, hsource⟩ := Option.bind_eq_some_iff.mp hkind
  obtain ⟨taken, htaken, htakes⟩ := hm.takes
  obtain ⟨given, hgiven, hcolor⟩ := hm.gives
  have hattach : (g.snoc (.ofModule m)).bind ⟨g.next⟩ port l.binding = .ok (g.snoc added) :=
    hg.bind_snoc ⟨signature, hsignature, kind, hsource, taken, htaken, htakes⟩
      (Entry.binding?_ofModule m port)
  -- The output of the module feeds what the edge has fed.
  have hend : (g.snoc added).Fits e l.input ⟨⟨g.next⟩, port⟩ := by
    obtain ⟨_, hs, _, hk, inputKind, hinput, hfeeds⟩ :=
      hg.bindings l.reader e he l.input l.binding hb
    rw [hsignature, Option.some.injEq] at hs
    rw [← hs, hsource, Option.some.injEq] at hk
    rw [← hk] at hfeeds
    exact hg.fits_next hgiven hinput (SocketKind.feeds_of_color_iff hcolor hfeeds)
  have hlt : l.input < e.bindings.length := Entry.lt_length_of_binding? hb
  unfold reroute
  show (do
    let attached ← (g.snoc (.ofModule m)).bind ⟨g.next⟩ port l.binding
    let (_, loosened) ← attached.unbind l.reader l.input
    loosened.bind l.reader l.input ⟨⟨g.next⟩, port⟩) = _
  rw [hattach]
  exact hend.rebind_eq (extends_snoc g added l.reader e he) hlt

end Reroute

/-- What a module that passes things on finds at its input is what the output bound to it gives, as
far as it suits its kind. -/
theorem result_pull_of_source [Arith α] {answers : Entry M α → Answers α} {output : Nat}
    (hs : g.source? e port = some (source, output))
    (hkind : source.signature.outputKind? output = some kind) {operation : Operation}
    (hsuits : operation.Suits kind) (q : Query α) :
    (g.pull answers e).answers.result operation port q
      = (answers source).result operation output q := by
  cases operation with
  | value | error | gradient => simp only [Answers.result, Inputs.answers, pull, hs]
  | color =>
    have hcolor : (some kind == some SocketKind.color) = true := by
      rw [show kind = .color from hsuits]
      rfl
    simp only [Answers.result, Inputs.answers, pull, hs, hkind, if_pos hcolor]

end Graph

/-! ### Evaluations -/

namespace FrozenGraph

/-- The input at the end of an edge that is led through a module that passes things on finds what it
has found. -/
theorem inputKeptIn_reroute [Arith α] [TextureModule M α] {f f' : FrozenGraph M α} {l : Link}
    {e : Entry M α} {m : M} {port : Nat} {kind : SocketKind} (hg : f.graph.Consistent)
    (h' : (f.graph.interpose l.reader e l.input ((Entry.ofModule m).rebind port l.binding)
      port).freeze = .ok f') (he : f.graph.entry? l.reader = some e)
    (hb : e.binding? l.input = some l.binding) (hkind : f.graph.outputKind? l.binding = some kind)
    (hm : PassesOn (α := α) m port kind) (hsources : f.SourcesKeptIn f' l.reader) :
    f.InputKeptIn f' l.reader l.input := by
  let added : Entry M α := (Entry.ofModule m).rebind port l.binding
  -- What the edge reads, and what is there of it in the other graph.
  obtain ⟨source, hsource, hs⟩ := hg.exists_read he hb
  obtain ⟨-, kind', hkind', inputKind, hinput, hfeeds⟩ := hg.exists_feeds he hs
  obtain rfl : kind = kind' := by
    rw [Graph.outputKind?, Graph.signature?, hsource] at hkind
    exact Option.some.inj (hkind.symm.trans hkind')
  obtain ⟨source', hsource', hsockets, hagree⟩ :=
    hsources l.binding.source source (Graph.reads_of_binding? he hb) hsource
  have hlt : l.input < e.bindings.length := Entry.lt_length_of_binding? hb
  refine inputKeptIn_interpose hg h' he hlt fun e' hadded hs' question hadmitted hq _ => ?_
  -- The module that is put in between reads the same.
  obtain ⟨taken, htaken, -⟩ := hm.takes
  have hthrough : f'.graph.source? added port = some (source', l.binding.output) := by
    have hslot : added.binding? port = some l.binding :=
      Entry.binding?_rebind_ofModule.mpr ⟨rfl, Signature.lt_length_of_inputKind? htaken, rfl⟩
    exact Graph.source?_eq_some_iff.mpr ⟨l.binding, hslot, hsource', rfl⟩
  obtain ⟨given, hgiven, hcolor⟩ := hm.gives
  refine Graph.answer_pull_of_source hadmitted (hq ▸ hs) (hq ▸ hs') hkind' hgiven (hq ▸ hinput)
    hfeeds hcolor fun operation hsuits q => ?_
  calc (f'.answers added).result operation port q
      = (TextureModule.answers m (f'.graph.pull f'.answers added)).result operation port q := by
        rw [answers_eq h' hadded]
        rfl
    _ = (f'.graph.pull f'.answers added).answers.result operation port q :=
        hm.answers _ operation hsuits q
    _ = (f'.answers source').result operation l.binding.output q :=
        Graph.result_pull_of_source hthrough (by rw [hsockets, hkind']) hsuits q
    _ = (f.answers source).result operation l.binding.output q :=
        hagree l.binding.output kind hkind' operation hsuits q

variable {α : Type} [Arith α] {f : FrozenGraph (Catalog α) α}

/-- **Modules that pass things on are transparent**: in a graph without cycles, whatever changes
have led to it, every edge can be led through a channel of the right kind, or through the port of a
tap of the right kind.  The graph still has no cycles, and all evaluations of the modules that were
there, and of those that neither graph has, yield what they have yielded. -/
theorem evaluation_reroute (name : String) (edits : List (Edit (Catalog α) α))
    (h : (Graph.ofEdits name edits).freeze = .ok f) :
    ∀ l ∈ f.graph.links, ∃ kind, f.graph.outputKind? l.binding = some kind ∧
      ∀ m port, Catalog.Conduit kind m port →
        ∃ changed f', f.graph.reroute l m port = .ok changed ∧ changed.freeze = .ok f' ∧
          ∀ evaluation t q, t.module ≠ (f.graph.add m).1 →
            f'.evaluate evaluation t q = f.evaluate evaluation t q := by
  intro l hl
  obtain ⟨hg, h⟩ := consistent_of_freeze h
  obtain ⟨e, he, hb⟩ := Option.bind_eq_some_iff.mp ((Graph.mem_links_iff hg.nodup).mp hl)
  obtain ⟨signature, hsignature, kind, hkind, -⟩ := hg.bindings l.reader e he l.input l.binding hb
  have houtput : f.graph.outputKind? l.binding = some kind := by
    rw [Graph.outputKind?, hsignature]
    exact hkind
  refine ⟨kind, houtput, fun m port hconduit => ?_⟩
  have hm : PassesOn (α := α) m port kind := hconduit.passesOn
  let added : Entry (Catalog α) α := (Entry.ofModule m).rebind port l.binding
  have hreads : ∀ i b, added.binding? i = some b → f.graph.Reads l.reader b.source := by
    intro i b hi
    obtain ⟨-, -, rfl⟩ := Entry.binding?_rebind_ofModule.mp hi
    exact Graph.reads_of_binding? he hb
  obtain ⟨f', h'⟩ := hg.exists_freeze_interpose h he hreads
  refine ⟨_, f', hg.reroute_eq he hb houtput hm, h', fun evaluation t q ht => ?_⟩
  exact evaluate_interpose hg h h' he (.inl ⟨l.binding, hb⟩)
    (inputKeptIn_reroute hg h' he hb houtput hm) ht evaluation q

/-- The number that the sum reads can be led through a channel, and through a tap. -/
theorem evaluation_reroute_onePlus :
    ∃ f, onePlus.freeze = .ok f ∧
      ∀ m ∈ [Catalog.channel .standard, .shaping .tap], ∃ changed f',
        onePlus.reroute ⟨⟨⟨0⟩, 0⟩, ⟨1⟩, 0⟩ m 0 = .ok changed ∧ changed.freeze = .ok f' ∧
          ∀ evaluation t q, t.module ≠ ⟨2⟩ →
            f'.evaluate evaluation t q = f.evaluate evaluation t q := by
  have hlink : (⟨⟨⟨0⟩, 0⟩, ⟨1⟩, 0⟩ : Link) ∈ onePlus.links := List.mem_singleton.mpr rfl
  obtain ⟨kind, hkind, hreroute⟩ := evaluation_reroute _ _ freeze_onePlus _ hlink
  obtain rfl : kind = .scalar := (Option.some.inj hkind).symm
  refine ⟨_, freeze_onePlus, fun m hm => hreroute m 0 ?_⟩
  rcases List.mem_cons.mp hm with rfl | hm
  · exact .channel .standard (by decide)
  · rw [List.mem_singleton.mp hm]
    exact .scalarTap (by decide)

end FrozenGraph

end TextureGraph
