import TextureGraph.Proofs.Graph.Invariant

/-!
# Graphs stay consistent

`consistent_ofEdits`: whatever changes a graph has gone through, accepted or refused, each of its
modules has one slot for every input, its sockets are known as they are, and every binding fits
(`Graph.Consistent`).

A graph is consistent when it is wired by the sockets that it goes by, and these are known as they are,
which is an invariant of the modules (`consistent_iff`).
-/

namespace TextureGraph

variable {M α : Type}

/-- A module that the graph knows as it is: there is one slot for each input, and the sockets that the
graph goes by are the sockets of the module, in number and in kind. -/
structure Entry.Coherent [TextureModule M α] (e : Entry M α) : Prop where
  /-- There is one slot for each input. -/
  slots : e.bindings.length = e.signature.inputs.length
  /-- The inputs are those of the module. -/
  inputs : e.signature.inputs.map Socket.kind
    = (TextureModule.signature e.module : Signature α).inputs.map Socket.kind
  /-- The outputs are those of the module. -/
  outputs : e.signature.outputs.map Socket.kind
    = (TextureModule.signature e.module : Signature α).outputs.map Socket.kind

section Coherent

variable [TextureModule M α] {e : Entry M α}

theorem Entry.Coherent.inputKind?_eq (h : e.Coherent) (input : Nat) :
    (TextureModule.signature e.module : Signature α).inputKind? input
      = e.signature.inputKind? input := by
  rw [Signature.inputKind?_eq h.inputs.symm, ← Signature.inputKind?_eq rfl]

theorem Entry.Coherent.outputKind?_eq (h : e.Coherent) (output : Nat) :
    (TextureModule.signature e.module : Signature α).outputKind? output
      = e.signature.outputKind? output := by
  rw [Signature.outputKind?_eq h.outputs.symm, ← Signature.outputKind?_eq rfl]

end Coherent

namespace Graph

variable [TextureModule M α]

/-- A graph whose modules are all known as they are. -/
structure Coherent (g : Graph M α) : Prop where
  /-- No module is there twice. -/
  nodup : g.ids.Nodup
  /-- The next number has not been given yet. -/
  numbered : ∀ id ∈ g.ids, id.number < g.next
  /-- Each module is known as it is. -/
  entries : ∀ id e, g.entry? id = some e → e.Coherent

/-- A graph whose modules are all known as they are and whose bindings all fit. -/
structure Consistent (g : Graph M α) : Prop extends g.Coherent where
  /-- Every binding fits. -/
  bindings : ∀ id e, g.entry? id = some e → ∀ input b, e.binding? input = some b → g.Fits e input b

variable {g : Graph M α}

/-- The sockets that the graph goes by are the sockets of the module, in number and in kind. -/
def Known (m : M) (s : Signature α) : Prop :=
  s.inputs.map Socket.kind = (TextureModule.signature m : Signature α).inputs.map Socket.kind ∧
    s.outputs.map Socket.kind = (TextureModule.signature m : Signature α).outputs.map Socket.kind

theorem consistent_iff : g.Consistent ↔ g.Wired ∧ g.ForallEntry Known := by
  constructor
  · intro hg
    refine ⟨⟨⟨hg.nodup, hg.numbered, fun id e he => (hg.entries id e he).slots⟩, hg.bindings⟩, ?_⟩
    exact fun id e he => ⟨(hg.entries id e he).inputs, (hg.entries id e he).outputs⟩
  · rintro ⟨hg, hknown⟩
    refine ⟨⟨hg.nodup, hg.numbered, fun id e he => ?_⟩, hg.bindings⟩
    exact ⟨hg.slots id e he, (hknown id e he).1, (hknown id e he).2⟩

theorem Consistent.wired (hg : g.Consistent) : g.Wired :=
  (consistent_iff.mp hg).1

theorem known_of_beq [BEq α] {m : M} {s : Signature α}
    (h : ((TextureModule.signature m : Signature α) == s) = true) : Known m s := by
  obtain ⟨hinputs, houtputs⟩ := Signature.kinds_eq_of_beq h
  exact ⟨hinputs.symm, houtputs.symm⟩

theorem consistent_empty (name : String) : (empty name : Graph M α).Consistent :=
  consistent_iff.mpr ⟨wired_empty name, .empty Known name⟩

variable [Arith α]

/-- A module that has accepted a parameter is known as it is. -/
theorem isInvariant_known : IsInvariant (Known (M := M) (α := α)) where
  changed _ _ _ _ _ _ _ := ⟨rfl, rfl⟩
  kept _ _ _ _ _ _ _ hsame := known_of_beq hsame

theorem Consistent.edit (hg : g.Consistent) (change : Edit M α) : (g.edit change).Consistent := by
  obtain ⟨hwired, hknown⟩ := consistent_iff.mp hg
  exact consistent_iff.mpr
    ⟨hwired.edit change, hknown.edit isInvariant_known change fun m _ => ⟨rfl, rfl⟩⟩

theorem Consistent.edits (hg : g.Consistent) (changes : List (Edit M α)) :
    (changes.foldl Graph.edit g).Consistent := by
  induction changes generalizing g with
  | nil => exact hg
  | cons change rest ih => exact ih (hg.edit change)

/-- **Every graph is consistent**, whatever changes have led to it: each module has one slot for
every input, its sockets are known in number and kind as they are, and every binding reads an output
that exists and feeds its input. -/
theorem consistent_ofEdits (name : String) (edits : List (Edit M α)) :
    (ofEdits name edits).Consistent :=
  (consistent_empty name).edits edits

end Graph

end TextureGraph
