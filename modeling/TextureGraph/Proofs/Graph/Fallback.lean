import TextureGraph.Proofs.Graph.Interposition
import TextureGraph.Proofs.Graph.Invariant

/-!
# Unbound inputs and their fallbacks

An input that nothing is bound to yields its fallback.  `FrozenGraph.evaluation_bindFallback`:
nothing else sets it apart from an input that is bound to a source of this fallback
(`Fallback.source`), unless it is an input of one of the few modules that ask whether their inputs
are bound (`Catalog.AsksForBindings`).

* `Fallback.answers_source`: the source answers as the fallback does.
* `Catalog.ignoresBindings`: the other modules do not ask.
* `Graph.fits_fallback`: the graph knows each input with a fallback of its kind, so that the source
  can be bound.
-/

namespace TextureGraph

/-! ### Sources of fallbacks -/

namespace Fallback

variable {α : Type}

/-- The kind of a source of a fallback. -/
def sourceKind : Fallback α → SocketKind
  | .color _ => .color
  | _ => .scalar

theorem sourceKind_feeds {fallback : Fallback α} {kind : SocketKind}
    (h : fallback.fits kind = true) : fallback.sourceKind.feeds kind = true := by
  cases fallback with
  | color c => exact h
  | scalar a | boolean b | coordinate axis => rfl

variable [Arith α]

/-- The source that yields a fallback: a number, a color or a coordinate. -/
def source : Fallback α → Source α
  | .scalar a => .number a
  | .boolean b => .number (Arith.ofBool b)
  | .color c => .color c
  | .coordinate axis => .coordinate axis

/-- What a fallback yields, as answers. -/
def answers (fallback : Fallback α) : Answers α where
  value _ q := fallback.value q
  color _ q := fallback.toColor q
  error _ q := fallback.error q
  gradient _ _ := fallback.gradient

/-- The source of a fallback answers as the fallback does. -/
theorem answers_source (fallback : Fallback α) (inputs : Inputs α) :
    TextureModule.answers (Catalog.source fallback.source) inputs = fallback.answers := by
  cases fallback <;> rfl

theorem outputKind?_source (fallback : Fallback α) :
    (Catalog.source fallback.source).signature.outputKind? 0 = some fallback.sourceKind := by
  cases fallback <;> rfl

end Fallback

/-! ### Modules that ask for bindings -/

/-- An expression never asks whether an input is bound. -/
theorem Expr.estimate_isBound {α : Type} [Arith α] (inputs : Inputs α) (bound : Nat → Bool)
    (q : Query α) (x : Expr α) :
    x.estimate { inputs with isBound := bound } q = x.estimate inputs q := by
  induction x with
  | number a | coordinate axis | input i => rfl
  | unary op x ih => rw [Expr.estimate, Expr.estimate, ih]
  | binary op l r ihl ihr => rw [Expr.estimate, Expr.estimate, ihl, ihr]

namespace Catalog

variable {α : Type} [Arith α]

/-- The modules that ask whether their inputs are bound: a product, a selection, and a comparison of
numbers. -/
def AsksForBindings : Catalog α → Prop
  | .operator .product | .matching .select | .matching (.numbers _) => True
  | _ => False

/-- The other modules do not take notice of what is bound. -/
theorem ignoresBindings {m : Catalog α} (h : ¬ m.AsksForBindings) :
    TextureModule.IgnoresBindings (α := α) m := by
  intro inputs bound
  cases m with
  | source m | channel m | shaping m | composition m | texture m | mapping m => rfl
  | expression m =>
    have hroot : ∀ q,
        m.root.estimate { inputs with isBound := bound } q = m.root.estimate inputs q :=
      fun q => m.root.estimate_isBound inputs bound q
    simp only [TextureModule.answers, Answers.mk.injEq]
    refine ⟨?_, ?_, ?_, ?_⟩ <;> funext output q
    · exact congrArg Estimate.value (hroot q)
    · exact congrArg (fun x => Color.gray (Estimate.value x)) (hroot q)
    · exact congrArg Estimate.error (hroot q)
    · exact congrArg Estimate.gradient (hroot q)
  | operator m =>
    cases m with
    | product => exact absurd trivial h
    | sum | difference | ratio | power | min | max => rfl
  | matching m =>
    cases m with
    | select | numbers tolerance => exact absurd trivial h
    | colors => rfl

/-- The fallbacks of all inputs are of the kinds of these inputs. -/
theorem fits_fallbacks (m : Catalog α) :
    m.signature.inputs.all (fun p => p.fallback.fits p.kind) = true := by
  cases m with
  | channel c =>
    obtain ⟨name, unbound⟩ := c
    cases unbound <;> rfl
  | expression m => rfl
  | source m | operator m | shaping m | matching m | composition m | texture m | mapping m =>
    cases m <;> rfl

end Catalog

namespace Graph

variable {α : Type} [Arith α]

/-- The graph goes by fallbacks that are of the kinds of their inputs. -/
theorem fits_fallback (name : String) (edits : List (Edit (Catalog α) α)) {id : ModuleId}
    {e : Entry (Catalog α) α} (he : entry? (ofEdits name edits) id = some e) {input : Nat}
    (hinput : input < e.signature.inputs.length) :
    ∃ kind, e.signature.inputKind? input = some kind ∧
      (e.signature.fallback input).fits kind = true := by
  let fitting (_ : Catalog α) (s : Signature α) : Prop :=
    s.inputs.all (fun p => p.fallback.fits p.kind) = true
  have hp : IsInvariant fitting :=
    ⟨fun _ _ _ _ changed _ _ => changed.fits_fallbacks, fun _ _ _ _ _ hm _ _ => hm⟩
  have hall : e.signature.inputs.all (fun p => p.fallback.fits p.kind) = true :=
    forallEntry_ofEdits hp name edits (fun m _ => m.fits_fallbacks) id e he
  have hsocket : e.signature.inputs[input]? = some e.signature.inputs[input] :=
    List.getElem?_eq_getElem hinput
  refine ⟨e.signature.inputs[input].kind, ?_, ?_⟩
  · rw [Signature.inputKind?, hsocket, Option.map_some]
  · rw [Signature.fallback, hsocket, Option.map_some, Option.getD_some]
    exact List.all_eq_true.mp hall _ (List.getElem_mem hinput)

end Graph

/-! ### Inputs bound to their fallbacks -/

section Inputs

variable {M α : Type} [Arith α] {g g' : Graph M α} {e e' source : Entry M α}
  {answers answers' : Entry M α → Answers α} {question : Question α} {output : Nat}

/-- An input finds its fallback in the answers of a source of it. -/
theorem Graph.answer_pull_fallback (hs : g.source? e question.input = none)
    (hs' : g'.source? e' question.input = some (source, 0))
    (hkind : source.signature.outputKind? 0 = some (e.signature.fallback question.input).sourceKind)
    (hanswers : answers' source = (e.signature.fallback question.input).answers)
    (hask : ∀ i, question ≠ .isBound i) :
    (g'.pull answers' e').answer question = (g.pull answers e).answer question := by
  cases question with
  | isBound i => exact absurd rfl (hask i)
  | value i q | error i q | gradient i q =>
    simp only [Question.input] at hs hs' hkind hanswers
    simp only [Inputs.answer, pull, hs, hs', hanswers]
    rfl
  | color i q =>
    simp only [Question.input] at hs hs' hkind hanswers
    simp only [Inputs.answer, pull, hs, hs', hkind, hanswers]
    cases e.signature.fallback i <;> rfl

end Inputs

namespace FrozenGraph

variable {α : Type} [Arith α] {f f' : FrozenGraph (Catalog α) α}

/-- An unbound input that is bound to a source of its fallback finds what it has found. -/
theorem inputKeptIn_fallback {id : ModuleId} {e : Entry (Catalog α) α} {input : Nat}
    (hg : f.graph.Consistent)
    (h' : (f.graph.interpose id e input
      (.ofModule (.source (e.signature.fallback input).source)) 0).freeze = .ok f')
    (he : f.graph.entry? id = some e) (hinput : input < e.signature.inputs.length)
    (hfree : e.binding? input = none) : f.InputKeptIn f' id input := by
  have hlt : input < e.bindings.length := (hg.entries id e he).slots ▸ hinput
  refine inputKeptIn_interpose hg h' he hlt fun e' hadded hs' question _ hq hask => ?_
  subst hq
  have hs : f.graph.source? e question.input = none := by
    rw [Graph.source?, hfree]
    rfl
  refine Graph.answer_pull_fallback hs hs' (Fallback.outputKind?_source _) ?_ hask
  rw [answers_eq h' hadded]
  exact Fallback.answers_source _ _

/-- **Unbound inputs are bound to their fallbacks**, as far as any evaluation can tell: in a graph
without cycles, whatever changes have led to it, an unbound input of a module that does not ask
whether its inputs are bound can be bound to a new source of its fallback.  The graph still has no
cycles, and all evaluations of the modules that were there, and of those that neither graph has,
yield what they have yielded. -/
theorem evaluation_bindFallback (name : String) (edits : List (Edit (Catalog α) α))
    (h : (Graph.ofEdits name edits).freeze = .ok f) {id : ModuleId} {e : Entry (Catalog α) α}
    (he : f.graph.entry? id = some e) {input : Nat} (hinput : input < e.signature.inputs.length)
    (hfree : e.binding? input = none) (hm : ¬ e.module.AsksForBindings) :
    let (new, widened) := f.graph.add (.source (e.signature.fallback input).source)
    ∃ changed f', widened.bind id input ⟨new, 0⟩ = .ok changed ∧ changed.freeze = .ok f' ∧
      ∀ evaluation t q, t.module ≠ new →
        f'.evaluate evaluation t q = f.evaluate evaluation t q := by
  have hgraph := (Graph.freeze_ok h).1
  obtain ⟨hg, h⟩ := consistent_of_freeze h
  let fallback := e.signature.fallback input
  let added : Entry (Catalog α) α := .ofModule (.source fallback.source)
  have hempty : ∀ i b, added.binding? i = some b → f.graph.Reads id b.source := by
    intro i b hb
    rw [Entry.binding?_ofModule] at hb
    cases hb
  obtain ⟨kind, hkind, hfits⟩ := Graph.fits_fallback name edits (hgraph ▸ he) hinput
  have hadded : added.signature.outputKind? 0 = some fallback.sourceKind :=
    fallback.outputKind?_source
  have hbind : (f.graph.snoc added).bind id input ⟨⟨f.graph.next⟩, 0⟩
      = .ok (f.graph.interpose id e input added 0) := by
    have hfitting := hg.fits_next hadded hkind (Fallback.sourceKind_feeds hfits)
    rw [hfitting.bind_eq (Graph.extends_snoc f.graph added id e he), hfree]
    rfl
  obtain ⟨f', h'⟩ : ∃ f', (f.graph.interpose id e input added 0).freeze = .ok f' :=
    hg.exists_freeze_interpose h he hempty
  refine ⟨_, f', hbind, h', fun evaluation t q ht => ?_⟩
  exact evaluate_interpose hg h h' he (.inr (Catalog.ignoresBindings hm))
    (fun _ => inputKeptIn_fallback hg h' he hinput hfree) ht evaluation q

/-- The second summand, which is unbound, can be bound to a zero. -/
theorem evaluation_bindFallback_onePlus :
    ∃ f changed f', onePlus.freeze = .ok f ∧
      (onePlus.add (.source (.number 0.0))).2.bind ⟨1⟩ 1 ⟨⟨2⟩, 0⟩ = .ok changed ∧
      changed.freeze = .ok f' ∧
      ∀ evaluation t q, t.module ≠ ⟨2⟩ →
        f'.evaluate evaluation t q = f.evaluate evaluation t q := by
  have hsum : onePlus.entry? ⟨1⟩ = some sumCall.entry := rfl
  obtain ⟨changed, f', hbind, hfreeze, hevaluate⟩ :=
    evaluation_bindFallback _ _ freeze_onePlus hsum Nat.one_lt_two rfl fun h => h
  exact ⟨_, changed, f', freeze_onePlus, hbind, hfreeze, hevaluate⟩

end FrozenGraph

end TextureGraph
