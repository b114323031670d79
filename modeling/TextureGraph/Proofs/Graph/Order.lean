import TextureGraph.Proofs.Graph.Evaluation
import TextureGraph.Proofs.Graph.Extension

/-!
# Orders and cycles that are reported

`Graph.schedule` answers with an order of evaluation or with a cycle, and either answer can be
checked against the bindings of the graph:

* `Graph.cycle_of_schedule_error`: a cycle that is reported is a cycle of the graph that meets no
  module twice.
* `Graph.order_of_schedule_ok`: an order that is reported has every module of the graph once, after
  the modules that it reads.
-/

namespace TextureGraph.Graph

variable {M α : Type} {g : Graph M α}

/-! ### Cycles -/

theorem IsCycle.two_le_length {chain : List ModuleId} (h : g.IsCycle chain) : 2 ≤ chain.length := by
  obtain ⟨first, rest, rfl, -⟩ := h.closes
  simp

theorem IsCycle.head?_eq_getLast? {chain : List ModuleId} (h : g.IsCycle chain) :
    chain.head? = chain.getLast? := by
  obtain ⟨first, rest, rfl, -⟩ := h.closes
  rw [List.getLast?_concat]
  rfl

theorem IsCycle.nodup_dropLast {chain : List ModuleId} (h : g.IsCycle chain) :
    chain.dropLast.Nodup := by
  obtain ⟨first, rest, rfl, hnodup⟩ := h.closes
  rwa [List.dropLast_concat]

/-- **Cycles that are reported are simple cycles of the graph**: when there is no order of
evaluation, the error is a chain of at least two modules of the graph that ends with the module it
starts with; each module on it has an input that is bound to the next one; and up to its last module
none is met twice. -/
theorem cycle_of_schedule_error {e : GraphError α} (h : g.schedule = .error e) :
    ∃ chain, e = .cycle chain ∧ 2 ≤ chain.length ∧ chain.head? = chain.getLast? ∧
      (∀ id ∈ chain, id ∈ g.ids) ∧
      (∀ i (hi : i + 1 < chain.length),
        ∃ input b, g.binding? chain[i] input = some b ∧ b.source = chain[i + 1]) ∧
      chain.dropLast.Nodup := by
  obtain ⟨chain, hcycle, rfl⟩ := schedule_error h
  refine ⟨chain, rfl, hcycle.two_le_length, hcycle.head?_eq_getLast?, hcycle.present, ?_,
    hcycle.nodup_dropLast⟩
  exact List.isChain_iff_getElem.mp hcycle.reads

/-- Two sums that read each other, read by a third one. -/
def circle : Graph (Catalog Float) Float :=
  ofEdits "circle" [.add (.operator .sum), .add (.operator .sum), .add (.operator .sum),
    .bind ⟨0⟩ 1 ⟨⟨1⟩, 0⟩, .bind ⟨1⟩ 0 ⟨⟨2⟩, 0⟩, .bind ⟨2⟩ 0 ⟨⟨1⟩, 0⟩]

theorem schedule_circle : circle.schedule = .error (.cycle [⟨1⟩, ⟨2⟩, ⟨1⟩]) := by
  have hvisit : circle.visitAll = .error [⟨1⟩, ⟨2⟩, ⟨1⟩] := by decide +kernel
  rw [schedule, hvisit]

theorem cycle_of_schedule_error_circle :
    circle.schedule = .error (.cycle [⟨1⟩, ⟨2⟩, ⟨1⟩]) ∧ ⟨0⟩ ∈ circle.ids ∧
      ∃ chain, chain = [⟨1⟩, ⟨2⟩, ⟨1⟩] ∧
        ∀ i (hi : i + 1 < chain.length),
          ∃ input b, circle.binding? chain[i] input = some b ∧ b.source = chain[i + 1] := by
  obtain ⟨chain, hchain, -, -, -, hreads, -⟩ := cycle_of_schedule_error schedule_circle
  cases hchain
  exact ⟨schedule_circle, by decide +kernel, _, rfl, hreads⟩

/-! ### Orders -/

namespace Settled

variable {visited : Visited}

theorem lookup_isSome_iff {id : ModuleId} :
    (∃ d, visited.lookup id = some d) ↔ id ∈ visited.map (·.1) := by
  rw [← Option.isSome_iff_exists, List.lookup_isSome_iff]
  simp

/-- Only modules of the graph are listed. -/
theorem mem_ids (h : g.Settled visited) {id : ModuleId} (hid : id ∈ visited.map (·.1)) :
    id ∈ g.ids := by
  induction h with
  | nil => cases hid
  | snoc settled present new listed ih =>
    rw [List.map_append, List.mem_append] at hid
    rcases hid with hold | hlast
    · exact ih hold
    · rwa [List.mem_singleton.mp hlast]

/-- No module is listed twice. -/
theorem nodup (h : g.Settled visited) : (visited.map (·.1)).Nodup := by
  induction h with
  | nil => exact List.nodup_nil
  | @snoc visited id settled present new listed ih =>
    have hnew : id ∉ visited.map (·.1) := fun hmem => by
      obtain ⟨d, hd⟩ := lookup_isSome_iff.mpr hmem
      rw [new] at hd
      cases hd
    rw [List.map_append]
    exact ih.append (List.nodup_singleton _) (List.disjoint_singleton.mpr hnew)

/-- A module is listed after the modules of the graph that it reads. -/
theorem idxOf_lt (h : g.Settled visited) {reader source : ModuleId}
    (hreader : reader ∈ visited.map (·.1)) (hsource : source ∈ g.sources reader) :
    (visited.map (·.1)).idxOf source < (visited.map (·.1)).idxOf reader := by
  induction h with
  | nil => cases hreader
  | @snoc visited id settled present new listed ih =>
    rw [List.map_append]
    by_cases hold : reader ∈ visited.map (·.1)
    · have hlt := ih hold
      have hmem : source ∈ visited.map (·.1) :=
        List.idxOf_lt_length_iff.mp (hlt.trans (List.idxOf_lt_length_iff.mpr hold))
      rwa [List.idxOf_append_of_mem hmem, List.idxOf_append_of_mem hold]
    · -- The reader is the new module, so its sources have been listed before.
      rw [List.map_append, List.mem_append] at hreader
      obtain rfl : reader = id := List.mem_singleton.mp (hreader.resolve_left hold)
      have hmem : source ∈ visited.map (·.1) := lookup_isSome_iff.mp (listed source hsource)
      rw [List.idxOf_append_of_mem hmem, List.idxOf_append_of_notMem hold]
      exact Nat.lt_add_right _ (List.idxOf_lt_length_iff.mpr hmem)

end Settled

variable [Arith α] [TextureModule M α]

/-- **Orders that are reported put sources before readers**: whatever changes have led to a graph, an
order of its evaluation has the modules of the graph and no others, each of them once, and every
binding reads a module that comes before the one that the binding belongs to. -/
theorem order_of_schedule_ok (name : String) (edits : List (Edit M α)) {s : Schedule}
    (h : (ofEdits name edits).schedule = .ok s) :
    s.order.Nodup ∧ (∀ id, id ∈ s.order ↔ id ∈ (ofEdits name edits).ids) ∧
      ∀ reader input b, (ofEdits name edits).binding? reader input = some b →
        s.order.idxOf b.source < s.order.idxOf reader := by
  have hconsistent : (ofEdits name edits).Consistent := consistent_ofEdits name edits
  obtain ⟨visited, hsettled, hlisted, rfl⟩ := schedule_ok h
  have hmem : ∀ {id}, id ∈ (ofEdits name edits).ids → id ∈ visited.map (·.1) := fun hid =>
    Settled.lookup_isSome_iff.mp (hlisted _ hid)
  refine ⟨hsettled.nodup, fun id => ⟨hsettled.mem_ids, hmem⟩, fun reader input b hb => ?_⟩
  have hreads : (ofEdits name edits).Reads reader b.source := ⟨input, b, hb, rfl⟩
  exact hsettled.idxOf_lt (hmem (mem_ids_of_reads hreads))
    (mem_sources_iff.mpr ⟨hreads, hconsistent.mem_ids_of_reads hreads⟩)

/-- A sum that reads a number both by itself and by way of another sum, which reads it twice. -/
def shared : Graph (Catalog Float) Float :=
  ofEdits "shared" [.add (.operator .sum), .add (.operator .sum), .add (.source (.number 1.0)),
    .bind ⟨0⟩ 0 ⟨⟨2⟩, 0⟩, .bind ⟨0⟩ 1 ⟨⟨1⟩, 0⟩, .bind ⟨1⟩ 0 ⟨⟨2⟩, 0⟩, .bind ⟨1⟩ 1 ⟨⟨2⟩, 0⟩]

theorem freeze_shared : shared.freeze = .ok ⟨shared, ⟨[⟨2⟩, ⟨1⟩, ⟨0⟩], 3⟩⟩ :=
  freeze_eq_ok (by decide +kernel)

theorem order_of_schedule_ok_shared :
    shared.schedule = .ok ⟨[⟨2⟩, ⟨1⟩, ⟨0⟩], 3⟩ ∧ shared.binding? ⟨0⟩ 1 = some ⟨⟨1⟩, 0⟩ ∧
      ∀ reader input b, shared.binding? reader input = some b →
        [⟨2⟩, ⟨1⟩, ⟨0⟩].idxOf b.source < ([⟨2⟩, ⟨1⟩, ⟨0⟩] : List ModuleId).idxOf reader := by
  obtain ⟨-, hschedule⟩ := freeze_ok freeze_shared
  obtain ⟨-, -, hbefore⟩ := order_of_schedule_ok _ _ hschedule
  exact ⟨hschedule, by decide +kernel, hbefore⟩

end TextureGraph.Graph
