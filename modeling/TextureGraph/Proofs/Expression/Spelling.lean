import TextureGraph.Proofs.Graph.Extension
import TextureGraph.Proofs.Graph.Invariant
import TextureGraph.Proofs.Number.Binary64

/-!
# Expressions agree with the modules they abbreviate

An expression of numbers, coordinates, inputs, the four basic operations, powers and the functions
that the catalog has modules for can be spelled out: every node becomes a module, bound to those of
its operands (`Expr.spell?`).

* `Operator.estimate_answers`, `Shaping.estimate_answers`: a module makes of its inputs what the
  expression makes of the operands.
* `FrozenGraph.exists_yields_bound`: a module bound to outputs of the graph makes of their estimates
  what it makes of its inputs.
* `Expr.Plain.exists_spelling` combines them, node by node; `Expression.estimate_spelledOut` is the
  resulting agreement with the module that holds the expression.
-/

namespace TextureGraph

variable {M α : Type}

/-! ### Spelling out -/

/-- The module for a function. -/
def UnaryOp.module? : UnaryOp → Option Shaping
  | .abs => some .abs
  | .exp => some .exp
  | .sin => some .sine
  | .cos => some .cosine
  | .negate | .sqrt | .log => none

/-- The module for an operator. -/
def BinaryOp.module? : BinaryOp → Option Operator
  | .add => some .sum
  | .subtract => some .difference
  | .multiply => some .product
  | .divide => some .ratio
  | .power => some .power
  | .modulo | .min | .max | .angle => none

/-- An expression of numbers, coordinates, inputs, basic operations, powers and functions for which
there are modules. -/
inductive Expr.Plain : Expr α → Prop where
  /-- A number. -/
  | number (a : α) : Plain (.number a)
  /-- A coordinate. -/
  | coordinate (axis : Axis) : Plain (.coordinate axis)
  /-- An input. -/
  | input (i : Fin 3) : Plain (.input i)
  /-- An absolute value, an exponential, a sine or a cosine. -/
  | unary {op : UnaryOp} {e : Expr α} (function : op ∈ [.abs, .exp, .sin, .cos])
      (operand : Plain e) : Plain (.unary op e)
  /-- A sum, difference, product, quotient or power. -/
  | binary {op : BinaryOp} {l r : Expr α}
      (operator : op ∈ [.add, .subtract, .multiply, .divide, .power]) (left : Plain l)
      (right : Plain r) : Plain (.binary op l r)

/-- An expression spelled out. -/
structure Spelling (α : Type) where
  /-- The changes that add and bind the modules. -/
  edits : List (Edit (Catalog α) α)
  /-- The output with the value of the expression. -/
  output : Binding
  /-- The number of the next module. -/
  next : Nat

/-- What has been spelled out, followed by a module that is bound to outputs of it. -/
def Spelling.module (edits : List (Edit (Catalog α) α)) (next : Nat) (m : Catalog α)
    (operands : List Binding) : Spelling α :=
  ⟨edits ++ Edit.addBound next m operands, ⟨⟨next⟩, 0⟩, next + 1⟩

/-- An expression spelled out in modules from the number `next` on.  An input stands for the output
that `slots` binds it to, and for the number zero when it is not bound. -/
def Expr.spell? [Arith α] (slots : Nat → Option Binding) : Expr α → Nat → Option (Spelling α)
  | .number a, next => some (.module [] next (.source (.number a)) [])
  | .coordinate axis, next => some (.module [] next (.source (.coordinate axis)) [])
  | .input i, next =>
    match slots i with
    | some b => some ⟨[], b, next⟩
    | none => some (.module [] next (.source (.number 0.0)) [])
  | .unary op e, next => do
    let m ← op.module?
    let operand ← e.spell? slots next
    return .module operand.edits operand.next (.shaping m) [operand.output]
  | .binary op l r, next => do
    let m ← op.module?
    let left ← l.spell? slots next
    let right ← r.spell? slots left.next
    return .module (left.edits ++ right.edits) right.next (.operator m) [left.output, right.output]

/-! ### Modules and operators -/

/-- The value, error and gradient that a module answers for an output. -/
def Answers.estimate (answers : Answers α) (output : Nat) (q : Query α) : Estimate α :=
  ⟨answers.value output q, answers.error output q, answers.gradient output q⟩

section Rules

variable [Arith α]

/-- A function of a number is the same in an expression and as a module. -/
theorem Shaping.estimate_answers {op : UnaryOp} {m : Shaping} (h : op.module? = some m)
    (inputs : Inputs α) (q : Query α) :
    (TextureModule.answers (Catalog.shaping m : Catalog α) inputs).estimate 0 q
      = op.apply (inputs.estimate 0 q) := by
  cases op <;> cases h <;> rfl

variable [Std.Commutative (α := α) (· + ·)]

theorem Vec.add_comm (v w : Vec α) : v + w = w + v := by
  have hadd : ∀ a b : α, a + b = b + a := Std.Commutative.comm
  change Vec.mk _ _ _ = Vec.mk _ _ _
  rw [hadd v.x, hadd v.y, hadd v.z]

/-- An operation on two numbers is the same in an expression and as a module with both operands
bound. -/
theorem Operator.estimate_answers {op : BinaryOp} {m : Operator} (h : op.module? = some m)
    {inputs : Inputs α} (hleft : inputs.isBound 0 = true) (hright : inputs.isBound 1 = true)
    (q : Query α) :
    (TextureModule.answers (Catalog.operator m : Catalog α) inputs).estimate 0 q
      = op.apply (inputs.estimate 0 q) (inputs.estimate 1 q) := by
  have hbound : Operator.bothBound inputs = true := by
    rw [Operator.bothBound, hleft, hright]
    rfl
  change Estimate.mk (Operator.value inputs q m) (Operator.error inputs q m)
    (Operator.gradient inputs q m) = _
  cases op <;> cases h
  case add | subtract => rfl
  case multiply =>
    simp only [Operator.value, Operator.error, Operator.gradient, if_pos hbound]
    -- The two sums of products have their terms in opposite orders.
    rw [Vec.add_comm]
    rfl
  case divide =>
    by_cases hpole : Bound.reachesZero (inputs.value 1 q) (inputs.error 1 q) = true
    · have hdivisor : Operator.divisor? inputs q = none := if_pos hpole
      simp only [Operator.value, Operator.error, Operator.gradient, hdivisor]
      exact (if_pos hpole).symm
    · have hdivisor : Operator.divisor? inputs q = some (inputs.value 1 q) := if_neg hpole
      simp only [Operator.value, Operator.error, Operator.gradient, hdivisor]
      exact (if_neg hpole).symm
  case power =>
    by_cases hpole :
      Power.hasPole (inputs.value 0 q) (inputs.error 0 q) (inputs.value 1 q) = true
    · have hparts : Operator.baseAndExponent? inputs q = none := if_pos hpole
      simp only [Operator.value, Operator.error, Operator.gradient, hparts]
      exact (if_pos hpole).symm
    · have hparts :
          Operator.baseAndExponent? inputs q = some (inputs.value 0 q, inputs.value 1 q) :=
        if_neg hpole
      simp only [Operator.value, Operator.error, Operator.gradient, hparts]
      exact (if_neg hpole).symm

end Rules

/-! ### What an output yields -/

theorem Graph.estimate_pull_of_source? [Arith α] {g : Graph M α}
    {answers : Entry M α → Answers α} {e source : Entry M α} {input output : Nat}
    (h : g.source? e input = some (source, output)) (q : Query α) :
    (g.pull answers e).estimate input q = (answers source).estimate output q := by
  simp only [Inputs.estimate, Graph.pull, h]
  rfl

namespace FrozenGraph

variable [Arith α] [TextureModule M α] {f f' : FrozenGraph M α} {g g' : Graph M α}

/-- An output of a module of the graph that carries numbers or truth values, with the estimates that
it yields. -/
def Yields (f : FrozenGraph M α) (b : Binding) (estimate : Query α → Estimate α) : Prop :=
  ∃ source kind, f.graph.entry? b.source = some source ∧
    source.signature.outputKind? b.output = some kind ∧ kind ≠ .color ∧
      ∀ q, (f.answers source).estimate b.output q = estimate q

theorem Yields.of_extends {b : Binding} {estimate : Query α → Estimate α}
    (hb : f.Yields b estimate) (hg : g.Consistent) (h : g.freeze = .ok f)
    (h' : g'.freeze = .ok f') (hext : g'.Extends g) : f'.Yields b estimate := by
  obtain ⟨rfl, -⟩ := Graph.freeze_ok h
  obtain ⟨rfl, -⟩ := Graph.freeze_ok h'
  obtain ⟨source, kind, hsource, hkind, hne, hestimate⟩ := hb
  refine ⟨source, kind, hext _ _ hsource, hkind, hne, fun q => ?_⟩
  rw [answers_of_extends hg h h' hext hsource, hestimate]

/-- An input that is bound finds what the output yields. -/
theorem Yields.pull {b : Binding} {estimate : Query α → Estimate α} (hb : f.Yields b estimate)
    {e : Entry M α} {input : Nat} (hbinding : e.binding? input = some b) :
    (f.graph.pull f.answers e).isBound input = true ∧
      ∀ q, (f.graph.pull f.answers e).estimate input q = estimate q := by
  obtain ⟨source, kind, hsource, -, -, hestimate⟩ := hb
  have hs : f.graph.source? e input = some (source, b.output) :=
    Graph.source?_eq_some_iff.mpr ⟨b, hbinding, hsource, rfl⟩
  constructor
  · simp only [Graph.pull, hs]
    rfl
  · intro q
    rw [Graph.estimate_pull_of_source? hs, hestimate]

/-- An output that yields numbers or truth values may be bound to an input for numbers. -/
theorem Yields.fits {b : Binding} {estimate : Query α → Estimate α} (hb : f.Yields b estimate)
    {e : Entry M α} {input : Nat} (hscalar : e.signature.inputKind? input = some .scalar) :
    f.graph.Fits e input b := by
  obtain ⟨source, kind, hsource, hkind, hne, -⟩ := hb
  refine ⟨source.signature, ?_, kind, hkind, .scalar, hscalar, ?_⟩
  · rw [Graph.signature?, hsource, Option.map_some]
  · cases kind with
    | color => exact absurd rfl hne
    | scalar | boolean => rfl

/-- A module of numbers that is bound to outputs of the graph finds what they yield, and yields what
it makes of that. -/
theorem exists_yields_bound (hg : g.Consistent) (h : g.freeze = .ok f) (m : M)
    (operands : List Binding)
    (hinputs : (TextureModule.signature m : Signature α).inputs.map Socket.kind
      = List.replicate operands.length .scalar)
    (houtput : (TextureModule.signature m : Signature α).outputKind? 0 = some .scalar)
    (hoperands : ∀ b ∈ operands, ∃ estimate, f.Yields b estimate) :
    ∃ f' inputs, ((Edit.addBound g.next m operands).foldl Graph.edit g).freeze = .ok f' ∧
      f'.graph.next = g.next + 1 ∧ f'.graph.Extends g ∧
      (∀ i b estimate, operands[i]? = some b → f.Yields b estimate →
        inputs.isBound i = true ∧ ∀ q, inputs.estimate i q = estimate q) ∧
      f'.Yields ⟨⟨g.next⟩, 0⟩ fun q => (TextureModule.answers m inputs).estimate 0 q := by
  obtain ⟨rfl, -⟩ := Graph.freeze_ok h
  have hfits : ∀ i b, operands[i]? = some b → f.graph.Fits (.ofModule m) i b := by
    intro i b hb
    obtain ⟨_, hyields⟩ := hoperands b (List.mem_of_getElem? hb)
    refine hyields.fits (Signature.inputKind?_eq hinputs i |>.trans ?_)
    exact List.getElem?_replicate_of_lt (List.getElem?_eq_some_iff.mp hb).1
  have hsource : ∀ i b, (Entry.bound m operands : Entry M α).binding? i = some b →
      b.source ∈ f.graph.ids := by
    intro i b hb
    rw [Entry.binding?_bound] at hb
    obtain ⟨_, source, _, hsource, -⟩ := hoperands b (List.mem_of_getElem? hb)
    exact Graph.mem_ids_of_lookup hsource
  have hlength : (TextureModule.signature m : Signature α).inputs.length = operands.length := by
    rw [← List.length_map, hinputs, List.length_replicate]
  obtain ⟨f', h'⟩ := hg.exists_freeze_snoc h hsource
  have hgraph : f'.graph = f.graph.snoc (.bound m operands) := (Graph.freeze_ok h').1
  have hext : (f.graph.snoc (.bound m operands)).Extends f.graph := Graph.extends_snoc f.graph _
  rw [hg.toCoherent.foldl_addBound hlength hfits]
  refine ⟨f', f'.graph.pull f'.answers (.bound m operands), h', ?_, ?_, ?_, ?_⟩
  · rw [hgraph]
    rfl
  · rwa [hgraph]
  · intro i b estimate hb hyields
    exact (hyields.of_extends hg h h' hext).pull ((Entry.binding?_bound m operands i).trans hb)
  · have hentry : f'.graph.entry? ⟨f.graph.next⟩ = some (.bound m operands) := by
      rw [hgraph]
      exact hg.toCoherent.entry?_snoc_next _
    refine ⟨_, .scalar, hentry, houtput, by decide, fun q => ?_⟩
    rw [answers_eq h' hentry]
    rfl

end FrozenGraph

/-! ### Agreement -/

/-- The graph knows the sockets of an expression exactly: a changed text leaves them as they are. -/
theorem Graph.signature_of_expression [Arith α] (name : String) (edits : List (Edit (Catalog α) α)) {id : ModuleId}
    {e : Entry (Catalog α) α} {x : Expression α}
    (he : entry? (ofEdits name edits) id = some e) (hx : e.module = .expression x) :
    e.signature = x.signature := by
  let known (m : Catalog α) (s : Signature α) : Prop := ∀ x, m = .expression x → s = x.signature
  have hown : ∀ m : Catalog α, known m m.signature := by
    rintro m x rfl
    rfl
  have hp : IsInvariant known := by
    refine ⟨fun _ _ _ _ changed _ _ => hown changed, ?_⟩
    rintro m s name v changed hm hset - x rfl
    cases m with
    | expression y => exact hm y rfl
    | operator y | shaping y | composition y => cases hset
    | source y | channel y | matching y | texture y | mapping y =>
      obtain ⟨z, -, hz⟩ := bind_eq_ok_iff.mp hset
      cases hz
  exact forallEntry_ofEdits hp name edits (fun m _ => hown m) id e he x hx

section Agreement

variable [Arith α] {f : FrozenGraph (Catalog α) α} {g : Graph (Catalog α) α}

/-- What the slots of a module are bound to yields what its inputs yield; inputs that are not bound
yield zero. -/
structure FrozenGraph.Supplies (f : FrozenGraph (Catalog α) α) (slots : Nat → Option Binding)
    (inputs : Inputs α) : Prop where
  /-- A bound input yields what it is bound to. -/
  bound : ∀ (i : Fin 3) b, slots i = some b → f.Yields b fun q => inputs.estimate i q
  /-- An input that is not bound yields zero. -/
  unbound : ∀ i : Fin 3, slots i = none → ∀ q, inputs.estimate i q = .constant 0.0

theorem FrozenGraph.Supplies.of_extends {f' : FrozenGraph (Catalog α) α}
    {g' : Graph (Catalog α) α} {slots : Nat → Option Binding} {inputs : Inputs α}
    (hs : f.Supplies slots inputs) (hg : g.Consistent) (h : g.freeze = .ok f)
    (h' : g'.freeze = .ok f') (hext : g'.Extends g) : f'.Supplies slots inputs where
  bound i b hb := (hs.bound i b hb).of_extends hg h h' hext
  unbound := hs.unbound

/-- The inputs of an expression are supplied by its bindings. -/
theorem FrozenGraph.supplies_pull (hf : f.graph.Consistent) {id : ModuleId}
    {e : Entry (Catalog α) α} (he : f.graph.entry? id = some e) {x : Expression α}
    (hsignature : e.signature = x.signature) :
    f.Supplies e.binding? (f.graph.pull f.answers e) where
  bound i b hb := by
    obtain ⟨source, hentry, hs⟩ := hf.exists_read he hb
    obtain ⟨-, kind, hkind, inputKind, hinput, hfeeds⟩ := hf.exists_feeds he hs
    have hscalar : e.signature.inputKind? i = some .scalar := by
      rw [hsignature]
      exact x.inputKind?_signature i i.isLt
    obtain rfl : inputKind = .scalar := Option.some.inj (hinput.symm.trans hscalar)
    exact ⟨source, kind, hentry, hkind, SocketKind.ne_color_of_feeds hfeeds (by decide),
      fun q => (Graph.estimate_pull_of_source? hs q).symm⟩
  unbound i hb q := by
    have hs : f.graph.source? e i = none := by
      rw [Graph.source?, hb]
      rfl
    have hfallback : e.signature.fallback i = .scalar 0.0 := by
      rw [hsignature]
      match i with
      | 0 | 1 | 2 => rfl
    simp only [Inputs.estimate, Graph.pull, hs, hfallback]
    rfl

/-- The changes of a spelling lead from a graph to a graph in which its output yields an
estimate. -/
structure Spelling.LeadsTo (s : Spelling α) (g : Graph (Catalog α) α)
    (f : FrozenGraph (Catalog α) α) (estimate : Query α → Estimate α) : Prop where
  /-- The changed graph has no cycle. -/
  freeze : (s.edits.foldl Graph.edit g).freeze = .ok f
  /-- The number of its next module. -/
  next : f.graph.next = s.next
  /-- The modules that were there are still there. -/
  keeps : f.graph.Extends g
  /-- The output yields the estimate. -/
  yields : f.Yields s.output estimate

/-- A module that follows what has been spelled out finds what its operands yield, and yields what
it makes of that. -/
theorem Spelling.exists_leadsTo_module (hg : g.Consistent) {edits : List (Edit (Catalog α) α)}
    (h : (edits.foldl Graph.edit g).freeze = .ok f) (hkeeps : f.graph.Extends g) (m : Catalog α)
    (operands : List Binding)
    (hinputs : m.signature.inputs.map Socket.kind = List.replicate operands.length .scalar)
    (houtput : m.signature.outputKind? 0 = some .scalar)
    (hoperands : ∀ b ∈ operands, ∃ estimate, f.Yields b estimate) :
    ∃ f' inputs,
      (∀ i b estimate, operands[i]? = some b → f.Yields b estimate →
        inputs.isBound i = true ∧ ∀ q, inputs.estimate i q = estimate q) ∧
      (Spelling.module edits f.graph.next m operands).LeadsTo g f' fun q =>
        (TextureModule.answers m inputs).estimate 0 q := by
  obtain ⟨f', inputs, hfreeze, hnext, hext, hpull, hyields⟩ :=
    FrozenGraph.exists_yields_bound (hg.edits edits) h m operands hinputs houtput hoperands
  obtain ⟨hgraph, -⟩ := Graph.freeze_ok h
  rw [← hgraph] at hext hfreeze hnext hyields
  refine ⟨f', inputs, hpull, ?_, hnext, fun id r hr => hext id r (hkeeps id r hr), hyields⟩
  rw [Spelling.module, List.foldl_append, ← hgraph]
  exact hfreeze

/-- A module without inputs yields what it answers. -/
theorem Spelling.exists_leadsTo_source (hg : g.Consistent) (h : g.freeze = .ok f) (m : Source α)
    (estimate : Query α → Estimate α)
    (houtput : (TextureModule.signature m : Signature α).outputKind? 0 = some .scalar)
    (hm : ∀ inputs q,
      (TextureModule.answers (Catalog.source m : Catalog α) inputs).estimate 0 q = estimate q) :
    ∃ f', (Spelling.module [] g.next (.source m) []).LeadsTo g f' estimate := by
  have hgraph : ([].foldl Graph.edit g).freeze = .ok f := h
  obtain ⟨rfl, -⟩ := Graph.freeze_ok h
  have hinputs : (Catalog.source m).signature.inputs.map Socket.kind = [] := by
    cases m <;> rfl
  obtain ⟨f', inputs, -, hf'⟩ := Spelling.exists_leadsTo_module hg hgraph
    (fun _ _ hr => hr) (.source m) [] hinputs houtput (by simp)
  rw [funext (hm inputs)] at hf'
  exact ⟨f', hf'⟩

/-- A function of what has been spelled out. -/
theorem Spelling.LeadsTo.unary {slots : Nat → Option Binding} {inputs : Inputs α} {op : UnaryOp}
    {e : Expr α} (function : op ∈ [.abs, .exp, .sin, .cos]) (hg : g.Consistent) {s : Spelling α}
    (hspell : e.spell? slots g.next = some s)
    (hs : s.LeadsTo g f fun q => e.estimate inputs q) :
    ∃ s' f', (Expr.unary op e).spell? slots g.next = some s' ∧
      s'.LeadsTo g f' fun q => (Expr.unary op e).estimate inputs q := by
  obtain ⟨m, hm⟩ : ∃ m, op.module? = some m := by
    simp only [List.mem_cons, List.not_mem_nil, or_false] at function
    rcases function with rfl | rfl | rfl | rfl <;> exact ⟨_, rfl⟩
  have hinputs : (Catalog.shaping m : Catalog α).signature.inputs.map Socket.kind = [.scalar] := by
    cases op <;> cases hm <;> rfl
  have houtput : (Catalog.shaping m : Catalog α).signature.outputKind? 0 = some .scalar := by
    cases op <;> cases hm <;> rfl
  obtain ⟨f', inputs', hpull, hf'⟩ := Spelling.exists_leadsTo_module hg hs.freeze hs.keeps
    (.shaping m) [s.output] hinputs houtput (List.forall_mem_singleton.mpr ⟨_, hs.yields⟩)
  obtain ⟨-, hoperand⟩ := hpull 0 s.output _ rfl hs.yields
  have hestimate : ∀ q,
      (TextureModule.answers (Catalog.shaping m : Catalog α) inputs').estimate 0 q
        = (Expr.unary op e).estimate inputs q := by
    intro q
    rw [Shaping.estimate_answers hm, hoperand]
    rfl
  rw [funext hestimate, hs.next] at hf'
  refine ⟨_, f', ?_, hf'⟩
  simp only [Expr.spell?, hm, hspell, Option.bind_eq_bind, Option.bind_some]
  rfl

variable [Std.Commutative (α := α) (· + ·)]

/-- An operation on what has been spelled out, first the left operand and then the right one. -/
theorem Spelling.LeadsTo.binary {slots : Nat → Option Binding} {inputs : Inputs α} {op : BinaryOp}
    {l r : Expr α} (operator : op ∈ [.add, .subtract, .multiply, .divide, .power])
    (hg : g.Consistent) {s t : Spelling α} {f' : FrozenGraph (Catalog α) α}
    (hleft : l.spell? slots g.next = some s)
    (hs : s.LeadsTo g f fun q => l.estimate inputs q)
    (hright : r.spell? slots (s.edits.foldl Graph.edit g).next = some t)
    (ht : t.LeadsTo (s.edits.foldl Graph.edit g) f' fun q => r.estimate inputs q) :
    ∃ u f'', (Expr.binary op l r).spell? slots g.next = some u ∧
      u.LeadsTo g f'' fun q => (Expr.binary op l r).estimate inputs q := by
  obtain ⟨m, hm⟩ : ∃ m, op.module? = some m := by
    simp only [List.mem_cons, List.not_mem_nil, or_false] at operator
    rcases operator with rfl | rfl | rfl | rfl | rfl <;> exact ⟨_, rfl⟩
  have hinputs : (Catalog.operator m : Catalog α).signature.inputs.map Socket.kind
      = [.scalar, .scalar] := by
    cases op <;> cases hm <;> rfl
  have houtput : (Catalog.operator m : Catalog α).signature.outputKind? 0 = some .scalar := by
    cases op <;> cases hm <;> rfl
  obtain ⟨hgraph, -⟩ := Graph.freeze_ok hs.freeze
  obtain ⟨hgraph', -⟩ := Graph.freeze_ok ht.freeze
  -- The left operand still yields what it did when the right one has been spelled out.
  have hyields : f'.Yields s.output fun q => l.estimate inputs q :=
    hs.yields.of_extends (hg.edits s.edits) hs.freeze ht.freeze (hgraph' ▸ ht.keeps)
  have hfreeze : ((s.edits ++ t.edits).foldl Graph.edit g).freeze = .ok f' := by
    rw [List.foldl_append]
    exact ht.freeze
  have hkeeps : f'.graph.Extends g := fun i e hi => ht.keeps i e (hgraph ▸ hs.keeps i e hi)
  obtain ⟨f'', inputs', hpull, hf''⟩ := Spelling.exists_leadsTo_module hg hfreeze hkeeps
    (.operator m) [s.output, t.output] hinputs houtput
    (List.forall_mem_cons.mpr ⟨⟨_, hyields⟩, List.forall_mem_singleton.mpr ⟨_, ht.yields⟩⟩)
  obtain ⟨hbound₀, hoperand₀⟩ := hpull 0 s.output _ rfl hyields
  obtain ⟨hbound₁, hoperand₁⟩ := hpull 1 t.output _ rfl ht.yields
  have hestimate : ∀ q,
      (TextureModule.answers (Catalog.operator m : Catalog α) inputs').estimate 0 q
        = (Expr.binary op l r).estimate inputs q := by
    intro q
    rw [Operator.estimate_answers hm hbound₀ hbound₁, hoperand₀, hoperand₁]
    rfl
  rw [funext hestimate, ht.next] at hf''
  rw [← hgraph, hs.next] at hright
  refine ⟨_, f'', ?_, hf''⟩
  simp only [Expr.spell?, hm, hleft, hright, Option.bind_eq_bind, Option.bind_some]
  rfl

/-- What an expression is spelled out as yields the estimate of the expression. -/
theorem Expr.Plain.exists_spelling {e : Expr α} (he : e.Plain) {slots : Nat → Option Binding}
    {inputs : Inputs α} (hg : g.Consistent) (h : g.freeze = .ok f)
    (hs : f.Supplies slots inputs) :
    ∃ s f', e.spell? slots g.next = some s ∧
      s.LeadsTo g f' fun q => e.estimate inputs q := by
  induction he generalizing g f with
  | number a =>
    obtain ⟨f', hf'⟩ := Spelling.exists_leadsTo_source hg h (.number a) (fun _ => .constant a) rfl
      fun _ _ => rfl
    exact ⟨_, f', rfl, hf'⟩
  | coordinate axis =>
    obtain ⟨f', hf'⟩ :=
      Spelling.exists_leadsTo_source hg h (.coordinate axis) (.coordinate axis) rfl fun _ _ => rfl
    exact ⟨_, f', rfl, hf'⟩
  | input i =>
    cases hi : slots i with
    | some b =>
      obtain ⟨rfl, -⟩ := Graph.freeze_ok h
      refine ⟨⟨[], b, f.graph.next⟩, f, by simp only [Expr.spell?, hi], h, rfl,
        fun _ _ hr => hr, ?_⟩
      exact hs.bound i b hi
    | none =>
      obtain ⟨f', hf'⟩ := Spelling.exists_leadsTo_source hg h (.number 0.0) (fun _ => .constant 0.0)
        rfl fun _ _ => rfl
      rw [← funext (hs.unbound i hi)] at hf'
      exact ⟨_, f', by simp only [Expr.spell?, hi], hf'⟩
  | unary function _ ih =>
    obtain ⟨s, f₁, hspell, h₁⟩ := ih hg h hs
    exact h₁.unary function hg hspell
  | binary operator _ _ ihl ihr =>
    obtain ⟨s, f₁, hleft, h₁⟩ := ihl hg h hs
    obtain ⟨hgraph, -⟩ := Graph.freeze_ok h₁.freeze
    obtain ⟨t, f₂, hright, h₂⟩ := ihr (hg.edits s.edits) h₁.freeze
      (hs.of_extends hg h h₁.freeze (hgraph ▸ h₁.keeps))
    exact h₁.binary operator hg hleft hright h₂

/-- **Expressions agree with the modules they abbreviate**: whatever changes have led to a graph
without cycles, an expression of it that has modules for all its nodes can be spelled out in further
modules, bound to what the expression is bound to.  This makes no cycle and changes no answer, and
the output of the spelling has the value, the error and the gradient of the expression, for every
request. -/
theorem Expression.estimate_spelledOut (name : String) (edits : List (Edit (Catalog α) α))
    (h : (Graph.ofEdits name edits).freeze = .ok f) {id : ModuleId} {e : Entry (Catalog α) α}
    {x : Expression α} (he : f.graph.entry? id = some e) (hx : e.module = .expression x)
    (hplain : x.root.Plain) :
    ∃ s f', x.root.spell? e.binding? (Graph.ofEdits name edits).next = some s ∧
      (Graph.ofEdits name (edits ++ s.edits)).freeze = .ok f' ∧
      f'.graph.entry? id = some e ∧ f'.answers e = f.answers e ∧
      ∃ target, f'.graph.entry? s.output.source = some target ∧
        ∀ q, (f'.answers target).estimate s.output.output q = (f.answers e).estimate 0 q := by
  obtain ⟨hgraph, -⟩ := Graph.freeze_ok h
  have hg : (Graph.ofEdits name edits).Consistent := Graph.consistent_ofEdits name edits
  have hanswers : f.answers e = TextureModule.answers e.module (f.graph.pull f.answers e) :=
    FrozenGraph.answers_eq h he
  have hsignature : e.signature = x.signature :=
    Graph.signature_of_expression name edits (hgraph ▸ he) hx
  have hs : f.Supplies e.binding? (f.graph.pull f.answers e) :=
    FrozenGraph.supplies_pull (hgraph ▸ hg) he hsignature
  obtain ⟨s, f', hspell, hf'⟩ := hplain.exists_spelling hg h hs
  have hfreeze : (Graph.ofEdits name (edits ++ s.edits)).freeze = .ok f' := by
    rw [Graph.ofEdits, List.foldl_append]
    exact hf'.freeze
  have hext := hf'.keeps
  rw [hgraph] at he
  obtain ⟨target, -, htarget, -, -, hestimate⟩ := hf'.yields
  refine ⟨s, f', hspell, hfreeze, hext id e he, ?_, target, htarget, fun q => ?_⟩
  · exact FrozenGraph.answers_of_extends hg h hf'.freeze ((Graph.freeze_ok hf'.freeze).1 ▸ hext) he
  · rw [hestimate, hanswers, hx]
    rfl

end Agreement

/-- A graph with the expression `sin(input1) * x`, whose input is two. -/
def scaledSine : Graph (Catalog Float) Float :=
  Graph.ofEdits "sine" [.add (.source (.number 2.0)),
    .add (.expression ⟨"sin(input1) * x",
      .binary .multiply (.unary .sin (.input ⟨0, by decide⟩)) (.coordinate .x)⟩),
    .bind ⟨1⟩ 0 ⟨⟨0⟩, 0⟩]

theorem freeze_scaledSine : scaledSine.freeze = .ok ⟨scaledSine, ⟨[⟨0⟩, ⟨1⟩], 2⟩⟩ :=
  Graph.freeze_eq_ok (by decide +kernel)

/-- The spelling consists of a sine, a coordinate and a product. -/
theorem Expression.estimate_spelledOut_scaledSine :
    ∃ (f : FrozenGraph (Catalog Float) Float) (e : Entry (Catalog Float) Float) (s : Spelling Float)
      (f' : FrozenGraph (Catalog Float) Float),
      scaledSine.freeze = .ok f ∧ f.graph.entry? ⟨1⟩ = some e ∧ s.output = ⟨⟨4⟩, 0⟩ ∧
      (s.edits.foldl Graph.edit scaledSine).freeze = .ok f' ∧
      ∃ target, f'.graph.entry? ⟨4⟩ = some target ∧
        ∀ q, (f'.answers target).estimate 0 q = (f.answers e).estimate 0 q := by
  have hplain :
      (Expr.binary .multiply (.unary .sin (.input 0)) (.coordinate .x) : Expr Float).Plain :=
    .binary (by decide) (.unary (by decide) (.input 0)) (.coordinate .x)
  have hentry : scaledSine.entry? ⟨1⟩ = some _ := rfl
  obtain ⟨s, f', hspell, hfreeze, -, -, target, htarget, hestimate⟩ :=
    Expression.estimate_spelledOut _ _ freeze_scaledSine hentry rfl hplain
  cases hspell
  rw [Graph.ofEdits, List.foldl_append] at hfreeze
  exact ⟨_, _, _, f', freeze_scaledSine, rfl, rfl, hfreeze, target, htarget, hestimate⟩

end TextureGraph
