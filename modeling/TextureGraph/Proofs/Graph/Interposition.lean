import TextureGraph.Proofs.Graph.Extension

/-!
# Modules put in front of an input

A module is added to a graph, and an input of another module reads an output of it in place of what
the input has read before (`Graph.interpose`).

* `Graph.Consistent.exists_freeze_interpose`: no cycle comes up, when the new module reads nothing
  but what the other module has read.
* `FrozenGraph.keptIn_interpose`: when the input goes on to find what it has found, then all modules
  of the graph go on to give the answers that they have given (`FrozenGraph.KeptIn`).
* `FrozenGraph.evaluate_interpose`: then all evaluations yield what they have yielded.

Modules are compared by the answers that suit the kinds of their outputs (`Answers.AgreeOn`).  This
is all that a module of a consistent graph is ever asked for, and all that the modules that pass
things on leave as it is.
-/

namespace TextureGraph

variable {M α : Type}

/-! ### Answers that agree -/

/-- The input that a question is about. -/
def Question.input : Question α → Nat
  | .isBound i | .value i _ | .color i _ | .error i _ | .gradient i _ => i

/-- Two modules with the same sockets give the same results for whatever suits their outputs. -/
def Answers.AgreeOn (s : Signature α) (a a' : Answers α) : Prop :=
  ∀ output kind, s.outputKind? output = some kind →
    ∀ operation : Operation, operation.Suits kind →
      ∀ q, a'.result operation output q = a.result operation output q

/-- A module with an input bound to another output. -/
def Entry.rebind (e : Entry M α) (input : Nat) (b : Binding) : Entry M α :=
  { e with bindings := e.bindings.set input (some b) }

@[simp]
theorem Entry.signature_rebind (e : Entry M α) (input : Nat) (b : Binding) :
    (e.rebind input b).signature = e.signature :=
  rfl

theorem Entry.binding?_rebind (e : Entry M α) (input : Nat) (b : Binding) (i : Nat) :
    (e.rebind input b).binding? i
      = if input = i ∧ i < e.bindings.length then some b else e.binding? i :=
  e.binding?_set input (some b) i

/-- Modules that do not distinguish whether an input is bound. -/
def TextureModule.IgnoresBindings [TextureModule M α] (m : M) : Prop :=
  ∀ (inputs : Inputs α) (bound : Nat → Bool),
    TextureModule.answers m { inputs with isBound := bound } = TextureModule.answers m inputs

section Modules

variable [TextureModule M α] [Inquiring M α] {e : Entry M α} {inputs inputs' : Inputs α}

/-- A module that finds the same answers to all that it may ask gives the same results. -/
theorem Entry.Coherent.answers_agreeOn (he : e.Coherent)
    (h : ∀ question : Question α, question.AdmittedBy e.signature →
      inputs'.answer question = inputs.answer question) :
    (TextureModule.answers e.module inputs).AgreeOn e.signature
      (TextureModule.answers e.module inputs') := by
  intro output kind hkind operation hsuits q
  have hown : (TextureModule.signature e.module : Signature α).outputKind? output = some kind :=
    (he.outputKind?_eq output).trans hkind
  have hasks := Inquiring.asks_inquiry e.module operation output q kind hown hsuits
  rw [← Inquiring.run_inquiry, ← Inquiring.run_inquiry]
  refine Inquiry.run_congr fun question hquestion => h question ?_
  exact (hasks.of_mem_questions hquestion).congr fun i => (he.inputKind?_eq i).symm

/-- A module that ignores bindings may find other inputs bound. -/
theorem Entry.Coherent.answers_agreeOn_of_ignoresBindings (he : e.Coherent)
    (hm : TextureModule.IgnoresBindings (α := α) e.module)
    (h : ∀ question : Question α, question.AdmittedBy e.signature →
      (∀ i, question ≠ .isBound i) → inputs'.answer question = inputs.answer question) :
    (TextureModule.answers e.module inputs).AgreeOn e.signature
      (TextureModule.answers e.module inputs') := by
  rw [← hm inputs' inputs.isBound]
  refine he.answers_agreeOn fun question hquestion => ?_
  cases question with
  | isBound i => rfl
  | value i q | color i q | error i q | gradient i q => exact h _ hquestion fun _ => by simp

end Modules

/-! ### Inputs that agree -/

namespace Graph

variable {g g' : Graph M α} {e e' : Entry M α} {question : Question α}

section Inputs

variable [Arith α] {answers answers' : Entry M α → Answers α}

/-- An input that nothing is bound to is known by its fallback. -/
theorem answer_pull_of_unbound (hs : g.source? e question.input = none)
    (hs' : g'.source? e' question.input = none) (hsignature : e'.signature = e.signature) :
    (g'.pull answers' e').answer question = (g.pull answers e).answer question := by
  cases question <;> simp only [Question.input] at hs hs' <;>
    simp only [Inputs.answer, pull, hs, hs', hsignature]

/-- An input is known by what suits the output that is bound to it. -/
theorem answer_pull_of_source {source source' : Entry M α} {output output' : Nat}
    {kind kind' inputKind : SocketKind} (hadmitted : question.AdmittedBy e.signature)
    (hs : g.source? e question.input = some (source, output))
    (hs' : g'.source? e' question.input = some (source', output'))
    (hkind : source.signature.outputKind? output = some kind)
    (hkind' : source'.signature.outputKind? output' = some kind')
    (hinput : e.signature.inputKind? question.input = some inputKind)
    (hfeeds : kind.feeds inputKind = true) (hcolor : kind' = .color ↔ kind = .color)
    (hagree : ∀ operation : Operation, operation.Suits kind → ∀ q,
      (answers' source').result operation output' q = (answers source).result operation output q) :
    (g'.pull answers' e').answer question = (g.pull answers e).answer question := by
  cases question with
  | isBound i =>
    simp only [Question.input] at hs hs'
    simp only [Inputs.answer, pull, hs, hs', Option.isSome_some]
  | value i q =>
    -- Numbers are asked for where the input carries numbers, and then so does the output.
    obtain ⟨declared, hdeclared, hnumber⟩ := hadmitted
    obtain rfl : inputKind = declared := Option.some.inj (hinput.symm.trans hdeclared)
    simp only [Question.input] at hs hs'
    simp only [Inputs.answer, pull, hs, hs']
    exact hagree .value (SocketKind.ne_color_of_feeds hfeeds hnumber) q
  | color i q =>
    simp only [Question.input] at hs hs'
    simp only [Inputs.answer, pull, hs, hs', hkind, hkind']
    -- Either both outputs are colors, or both are numbers that are taken for shades of gray.
    by_cases hc : kind = .color
    · have hc' : kind' = .color := hcolor.mpr hc
      rw [if_pos (by rw [hc']; rfl), if_pos (by rw [hc]; rfl)]
      exact hagree .color hc q
    · have hc' : ¬ kind' = .color := fun h => hc (hcolor.mp h)
      have hno : ¬ ((some kind == some SocketKind.color) = true) :=
        fun h => hc (SocketKind.eq_of_beq h)
      have hno' : ¬ ((some kind' == some SocketKind.color) = true) :=
        fun h => hc' (SocketKind.eq_of_beq h)
      rw [if_neg hno', if_neg hno]
      exact congrArg Color.gray (hagree .value hc q)
  | error i q =>
    simp only [Question.input] at hs hs'
    simp only [Inputs.answer, pull, hs, hs']
    exact hagree .error trivial q
  | gradient i q =>
    obtain ⟨declared, hdeclared, hnumber⟩ := hadmitted
    obtain rfl : inputKind = declared := Option.some.inj (hinput.symm.trans hdeclared)
    simp only [Question.input] at hs hs'
    simp only [Inputs.answer, pull, hs, hs']
    exact hagree .gradient (SocketKind.ne_color_of_feeds hfeeds hnumber) q

end Inputs

/-! ### Modules in front of an input -/

/-- The graph with one more module, of which an input of another module reads an output. -/
def interpose (g : Graph M α) (id : ModuleId) (e : Entry M α) (input : Nat) (added : Entry M α)
    (port : Nat) : Graph M α :=
  (g.snoc added).replaceEntry id (e.rebind input ⟨⟨g.next⟩, port⟩)

variable {id : ModuleId} {input port : Nat} {added : Entry M α}

/-- The other modules are there as they were. -/
theorem entry?_interpose_of_ne {i : ModuleId} (hi : i ≠ id) :
    entry? (g.interpose id e input added port) i = entry? (g.snoc added) i :=
  entry?_replaceEntry_of_ne (g.snoc added) hi _

/-- The module in front of whose input another one has been put. -/
theorem entry?_interpose_self (he : g.entry? id = some e) :
    entry? (g.interpose id e input added port) id = some (e.rebind input ⟨⟨g.next⟩, port⟩) := by
  have hsnoc : entry? (g.snoc added) id = some e := extends_snoc g added id e he
  exact entry?_replaceEntry_self hsnoc _

/-- No module reaches itself when some number falls along every binding. -/
theorem acyclic_of_rank (rank : ModuleId → Nat)
    (h : ∀ reader source, g.Reads reader source → rank source < rank reader) : g.Acyclic := by
  have hchain : ∀ {a b}, Relation.TransGen g.Reads a b → rank b < rank a := by
    intro a b hab
    induction hab with
    | single hread => exact h _ _ hread
    | tail _ hread ih => exact (h _ _ hread).trans ih
  exact fun id hcycle => Nat.lt_irrefl _ (hchain hcycle)

section Consistent

variable [TextureModule M α]

theorem Coherent.ne_next (hg : g.Coherent) {i : ModuleId} {x : Entry M α}
    (hx : g.entry? i = some x) : i ≠ ⟨g.next⟩ := by
  rintro rfl
  exact hg.next_not_mem (mem_ids_of_lookup hx)

/-- The module that has been put in front of the input. -/
theorem Coherent.entry?_interpose_next (hg : g.Coherent) (he : g.entry? id = some e) :
    entry? (g.interpose id e input added port) ⟨g.next⟩ = some added := by
  rw [entry?_interpose_of_ne (hg.ne_next he).symm, hg.entry?_snoc_next]

/-- The input reads the module that has been put in front of it. -/
theorem Coherent.source?_interpose (hg : g.Coherent) (he : g.entry? id = some e)
    (hlt : input < e.bindings.length) :
    (g.interpose id e input added port).source? (e.rebind input ⟨⟨g.next⟩, port⟩) input
      = some (added, port) := by
  have hslot : (e.rebind input ⟨⟨g.next⟩, port⟩).binding? input = some ⟨⟨g.next⟩, port⟩ := by
    rw [Entry.binding?_rebind, if_pos ⟨rfl, hlt⟩]
  exact source?_eq_some_iff.mpr ⟨_, hslot, hg.entry?_interpose_next he, rfl⟩

/-- In a graph without cycles some number falls along every binding. -/
theorem Consistent.exists_rank (hg : g.Consistent) {f : FrozenGraph M α} (h : g.freeze = .ok f) :
    ∃ rank : ModuleId → Nat, ∀ reader source, g.Reads reader source →
      rank source < rank reader := by
  obtain ⟨rank, hr⟩ := exists_ranking (freeze_ok h).2
  refine ⟨rank, fun reader source hread => hr.falls reader (Graph.mem_ids_of_reads hread) source ?_⟩
  exact mem_sources_iff.mpr ⟨hread, hg.mem_ids_of_reads hread⟩

/-- An output of the new module may be bound to an input that its kind feeds. -/
theorem Coherent.fits_next (hg : g.Coherent) {kind inputKind : SocketKind}
    (hkind : added.signature.outputKind? port = some kind)
    (hinput : e.signature.inputKind? input = some inputKind)
    (hfeeds : kind.feeds inputKind = true) : (g.snoc added).Fits e input ⟨⟨g.next⟩, port⟩ := by
  refine ⟨added.signature, ?_, kind, hkind, inputKind, hinput, hfeeds⟩
  rw [signature?, hg.entry?_snoc_next, Option.map_some]

/-- What a module reads after another one has been put in front of one of its inputs: the old
modules read what they have read, or the new one, and the new one reads what it is bound to. -/
theorem Consistent.reads_interpose (hg : g.Consistent) (he : g.entry? id = some e)
    {reader source : ModuleId} (h : (g.interpose id e input added port).Reads reader source) :
    (g.Reads reader source ∧ reader ≠ ⟨g.next⟩ ∧ source ≠ ⟨g.next⟩) ∨
      (reader = id ∧ source = ⟨g.next⟩) ∨
      (reader = ⟨g.next⟩ ∧ ∃ i b, added.binding? i = some b ∧ b.source = source) := by
  have hold : ∀ {i x j b}, g.entry? i = some x → x.binding? j = some b →
      g.Reads i b.source ∧ i ≠ ⟨g.next⟩ ∧ b.source ≠ ⟨g.next⟩ := by
    intro i x j b hx hb
    have hread : g.Reads i b.source := reads_of_binding? hx hb
    refine ⟨hread, hg.ne_next hx, fun hnext => hg.next_not_mem ?_⟩
    exact hnext ▸ hg.mem_ids_of_reads hread
  obtain ⟨i, b, hb, rfl⟩ := h
  obtain ⟨x, hx, hb⟩ := Option.bind_eq_some_iff.mp hb
  by_cases hreader : reader = id
  · subst hreader
    rw [entry?_interpose_self he] at hx
    cases hx
    rw [Entry.binding?_rebind] at hb
    split at hb
    · cases hb
      exact .inr (.inl ⟨rfl, rfl⟩)
    · exact .inl (hold he hb)
  · rw [entry?_interpose_of_ne hreader] at hx
    rcases entry?_snoc_eq_some_iff.mp hx with hx | ⟨-, rfl, rfl⟩
    · exact .inl (hold hx hb)
    · exact .inr (.inr ⟨rfl, i, b, hb, rfl⟩)

/-- **No cycle comes up**: a module may be put in front of an input when it reads nothing but what
the module behind it reads. -/
theorem Consistent.exists_freeze_interpose [Arith α] (hg : g.Consistent) {f : FrozenGraph M α}
    (h : g.freeze = .ok f) (he : g.entry? id = some e)
    (hsources : ∀ i b, added.binding? i = some b → g.Reads id b.source) :
    ∃ f', (g.interpose id e input added port).freeze = .ok f' := by
  obtain ⟨rank, hrank⟩ := hg.exists_rank h
  -- The numbers are spread, which leaves room for the new module right below its reader.
  let spread (i : ModuleId) : Nat := if i = ⟨g.next⟩ then 2 * rank id + 1 else 2 * rank i + 2
  refine exists_freeze_of_acyclic (acyclic_of_rank spread fun reader source hread => ?_)
  rcases hg.reads_interpose he hread with
    ⟨hread, hreader, hsource⟩ | ⟨rfl, rfl⟩ | ⟨rfl, i, b, hb, rfl⟩
  · have hlt : rank source < rank reader := hrank reader source hread
    simp only [spread, if_neg hreader, if_neg hsource]
    omega
  · simp only [spread, if_neg (hg.ne_next he), if_pos trivial]
    omega
  · have hread : g.Reads id b.source := hsources i b hb
    have hlt : rank b.source < rank id := hrank id b.source hread
    have hold : b.source ≠ ⟨g.next⟩ := fun hnext =>
      hg.next_not_mem (hnext ▸ hg.mem_ids_of_reads hread)
    simp only [spread, if_neg hold, if_pos trivial]
    omega

end Consistent

end Graph

/-! ### Answers are kept -/

namespace FrozenGraph

variable [Arith α] [TextureModule M α] {f f' : FrozenGraph M α} {g : Graph M α}
  {i id : ModuleId} {e x x' : Entry M α}

/-- A graph without cycles that has come about by changes is consistent. -/
theorem consistent_of_freeze {name : String} {edits : List (Edit M α)}
    (h : (Graph.ofEdits name edits).freeze = .ok f) :
    f.graph.Consistent ∧ f.graph.freeze = .ok f := by
  have hgraph : f.graph = Graph.ofEdits name edits := (Graph.freeze_ok h).1
  refine ⟨?_, hgraph ▸ h⟩
  rw [hgraph]
  exact Graph.consistent_ofEdits name edits

/-- Another graph has a module of the same name with the same sockets, which gives the same results
for whatever suits its outputs. -/
def KeptIn (f f' : FrozenGraph M α) (i : ModuleId) (x : Entry M α) : Prop :=
  ∃ x', f'.graph.entry? i = some x' ∧ x'.signature = x.signature ∧
    (f.answers x).AgreeOn x.signature (f'.answers x')

/-- All modules that a module reads are kept. -/
def SourcesKeptIn (f f' : FrozenGraph M α) (i : ModuleId) : Prop :=
  ∀ source s, f.graph.Reads i source → f.graph.entry? source = some s → f.KeptIn f' source s

/-- An input with its binding left in place finds what it has found, where the modules that are read
are kept. -/
theorem SourcesKeptIn.answer_pull (hsources : f.SourcesKeptIn f' i) (hf : f.graph.Consistent)
    (hx : f.graph.entry? i = some x) (hsignature : x'.signature = x.signature)
    {question : Question α} (hadmitted : question.AdmittedBy x.signature)
    (hbinding : x'.binding? question.input = x.binding? question.input) :
    (f'.graph.pull f'.answers x').answer question = (f.graph.pull f.answers x).answer question := by
  cases hb : x.binding? question.input with
  | none =>
    have hs : f.graph.source? x question.input = none := by
      rw [Graph.source?, hb]
      rfl
    have hs' : f'.graph.source? x' question.input = none := by
      rw [Graph.source?, hbinding, hb]
      rfl
    exact Graph.answer_pull_of_unbound hs hs' hsignature
  | some b =>
    obtain ⟨signature, hs, kind, hkind, inputKind, hinput, hfeeds⟩ := hf.bindings i x hx _ b hb
    obtain ⟨source, hsource, rfl⟩ := Option.map_eq_some_iff.mp hs
    obtain ⟨source', hsource', hsockets, hagree⟩ :=
      hsources b.source source (Graph.reads_of_binding? hx hb) hsource
    refine Graph.answer_pull_of_source hadmitted
      (Graph.source?_eq_some_iff.mpr ⟨b, hb, hsource, rfl⟩)
      (Graph.source?_eq_some_iff.mpr ⟨b, hbinding.trans hb, hsource', rfl⟩) hkind
      (by rw [hsockets, hkind]) hinput hfeeds Iff.rfl fun operation hsuits q => ?_
    exact hagree b.output kind hkind operation hsuits q

/-- A request to a module that is kept, or to one that neither graph has, is refused for the same
reason, or is met by modules that agree. -/
theorem target_of_keptIn {t : Target}
    (hmissing : f.graph.entry? t.module = none → f'.graph.entry? t.module = none)
    (hkept : ∀ x, f.graph.entry? t.module = some x → f.KeptIn f' t.module x) (blur : α) :
    (∃ reason, f.target t blur = .error reason ∧ f'.target t blur = .error reason) ∨
      ∃ x x' kind, f.target t blur = .ok (x, kind) ∧ f'.target t blur = .ok (x', kind) ∧
        ∀ operation : Operation, operation.Suits kind → ∀ q,
          (f'.answers x').result operation t.output q
            = (f.answers x).result operation t.output q := by
  by_cases hblur : (!Arith.isFinite blur || decide (blur < 0.0)) = true
  · exact .inl ⟨_, if_pos hblur, if_pos hblur⟩
  cases hx : f.graph.entry? t.module with
  | none =>
    refine .inl ⟨.moduleNotFound t.module, ?_, ?_⟩
    · rw [target, if_neg hblur, hx]
    · rw [target, if_neg hblur, hmissing hx]
  | some x =>
    obtain ⟨x', hx', hsignature, hagree⟩ := hkept x hx
    cases hkind : x.signature.outputKind? t.output with
    | none =>
      refine .inl ⟨.outputOutOfRange t.module t.output x.signature.outputs.length, ?_, ?_⟩
      · simp only [target, if_neg hblur, hx, hkind]
      · simp only [target, if_neg hblur, hx', hsignature, hkind]
    | some kind =>
      refine .inr ⟨x, x', kind, target_eq_ok hblur hx hkind, target_eq_ok hblur hx' ?_, ?_⟩
      · rw [hsignature, hkind]
      · exact hagree t.output kind hkind

/-- Evaluations come to the same where the modules that are asked give the same results for whatever
suits the output. -/
theorem evaluate_congr {t : Target} {q : Query α} {kind : SocketKind}
    (htarget : f.target t q.blur = .ok (x, kind)) (htarget' : f'.target t q.blur = .ok (x', kind))
    (hagree : ∀ operation : Operation, operation.Suits kind →
      (f'.answers x').result operation t.output q = (f.answers x).result operation t.output q)
    (evaluation : Evaluation) : f'.evaluate evaluation t q = f.evaluate evaluation t q := by
  have herror := hagree .error trivial
  simp only [Answers.result] at herror
  -- Each of the other evaluations asks for what suits the kind of the output.
  by_cases hkind : kind = .color
  · have hcolor := hagree .color hkind
    simp only [Answers.result] at hcolor
    cases evaluation <;>
      simp only [evaluate, evaluateScalar, evaluateColor, estimateError, evaluateGradient,
        htarget, htarget', bind, Except.bind, if_pos hkind, hcolor, herror]
  · have hvalue := hagree .value hkind
    have hgradient := hagree .gradient hkind
    simp only [Answers.result] at hvalue hgradient
    cases evaluation <;>
      simp only [evaluate, evaluateScalar, evaluateColor, estimateError, evaluateGradient,
        htarget, htarget', bind, Except.bind, if_neg hkind, hvalue, herror, hgradient]

/-- Evaluations come to the same where they are refused for the same reason. -/
theorem evaluate_congr_of_error {t : Target} {q : Query α} {reason : EvaluationError α}
    (htarget : f.target t q.blur = .error reason) (htarget' : f'.target t q.blur = .error reason)
    (evaluation : Evaluation) : f'.evaluate evaluation t q = f.evaluate evaluation t q := by
  cases evaluation <;>
    simp only [evaluate, evaluateScalar, evaluateColor, estimateError, evaluateGradient, htarget,
      htarget'] <;>
    rfl

/-- An evaluation of a module that is kept yields what it has yielded, and so does one of a module
that neither graph has. -/
theorem evaluate_eq_of_keptIn {t : Target}
    (hmissing : f.graph.entry? t.module = none → f'.graph.entry? t.module = none)
    (hkept : ∀ x, f.graph.entry? t.module = some x → f.KeptIn f' t.module x)
    (evaluation : Evaluation) (q : Query α) :
    f'.evaluate evaluation t q = f.evaluate evaluation t q := by
  rcases target_of_keptIn hmissing hkept q.blur with
    ⟨reason, htarget, htarget'⟩ | ⟨x, x', kind, htarget, htarget', hagree⟩
  · exact evaluate_congr_of_error htarget htarget' evaluation
  · exact evaluate_congr htarget htarget' (fun operation hsuits => hagree operation hsuits q)
      evaluation

/-- An input goes on to find what it has found, apart from whether it is bound. -/
def InputKeptIn (f f' : FrozenGraph M α) (id : ModuleId) (input : Nat) : Prop :=
  ∀ e e', f.graph.entry? id = some e → f'.graph.entry? id = some e' →
    ∀ question : Question α, question.AdmittedBy e.signature → question.input = input →
      (∀ i, question ≠ .isBound i) →
      (f'.graph.pull f'.answers e').answer question = (f.graph.pull f.answers e).answer question

/-- With a module in front of it, an input goes on to find what it has found, when it finds that at
the output of this module. -/
theorem inputKeptIn_interpose {input port : Nat} {added : Entry M α} (hf : f.graph.Consistent)
    (h' : (f.graph.interpose id e input added port).freeze = .ok f')
    (he : f.graph.entry? id = some e) (hlt : input < e.bindings.length)
    (hfind : ∀ e', f'.graph.entry? ⟨f.graph.next⟩ = some added →
      f'.graph.source? e' input = some (added, port) → ∀ question : Question α,
        question.AdmittedBy e.signature → question.input = input →
        (∀ i, question ≠ .isBound i) →
        (f'.graph.pull f'.answers e').answer question
          = (f.graph.pull f.answers e).answer question) :
    f.InputKeptIn f' id input := by
  intro x x' hx hx' question hadmitted hq hask
  obtain rfl : e = x := Option.some.inj (he.symm.trans hx)
  have hgraph' := (Graph.freeze_ok h').1
  have hadded : f'.graph.entry? ⟨f.graph.next⟩ = some added :=
    hgraph' ▸ hf.entry?_interpose_next he
  rw [hgraph', Graph.entry?_interpose_self he, Option.some.injEq] at hx'
  have hs' : f'.graph.source? x' input = some (added, port) :=
    hx' ▸ hgraph' ▸ hf.source?_interpose he hlt
  exact hfind x' hadded hs' question hadmitted hq hask

section Interpose

variable [Inquiring M α] {input port : Nat} {added : Entry M α}
  (hg : g.Consistent) (h : g.freeze = .ok f)
  (h' : (g.interpose id e input added port).freeze = .ok f') (he : g.entry? id = some e)
  (hbound : (∃ b, e.binding? input = some b) ∨ TextureModule.IgnoresBindings (α := α) e.module)
  (hinput : f.SourcesKeptIn f' id → f.InputKeptIn f' id input)

include hg h h' he hbound hinput

/-- With a module in front of its input, a module is kept when those that it reads are and the input
finds what it has found.  Where the input has not been bound before, the module must not take
notice. -/
theorem keptIn_of_interpose_self (hsources : f.SourcesKeptIn f' id) : f.KeptIn f' id e := by
  obtain ⟨rfl, -⟩ := Graph.freeze_ok h
  have hgraph := (Graph.freeze_ok h').1
  let e' := e.rebind input ⟨⟨f.graph.next⟩, port⟩
  have he' : f'.graph.entry? id = some e' := hgraph ▸ Graph.entry?_interpose_self he
  have hquestion : ∀ question : Question α, question.AdmittedBy e.signature →
      (question.input = input → ∀ i, question ≠ .isBound i) →
      (f'.graph.pull f'.answers e').answer question
        = (f.graph.pull f.answers e).answer question := by
    intro question hadmitted hask
    by_cases hq : question.input = input
    · exact hinput hsources e e' he he' question hadmitted hq (hask hq)
    · have hsame : e'.binding? question.input = e.binding? question.input := by
        rw [Entry.binding?_rebind, if_neg fun hand => hq hand.1.symm]
      exact hsources.answer_pull hg he (e.signature_rebind input _) hadmitted hsame
  refine ⟨e', he', rfl, ?_⟩
  rw [answers_eq h he, answers_eq h' he']
  have hcoherent : e.Coherent := hg.entries id e he
  rcases hbound with ⟨b, hb⟩ | hignores
  · refine hcoherent.answers_agreeOn fun question hadmitted => ?_
    by_cases hq : question = .isBound input
    · -- The input is bound as before, to another module.
      have hlt : input < e.bindings.length := Entry.lt_length_of_binding? hb
      have hs' : f'.graph.source? e' input = some (added, port) :=
        hgraph ▸ hg.source?_interpose he hlt
      obtain ⟨source, hs, -⟩ := hg.exists_source he hb
      rw [hq]
      simp only [Inputs.answer, Graph.pull, hs, hs', Option.isSome_some]
    · refine hquestion question hadmitted fun hin i hi => hq ?_
      subst hi
      exact congrArg Question.isBound hin
  · exact hcoherent.answers_agreeOn_of_ignoresBindings hignores
      fun question hadmitted hask => hquestion question hadmitted fun _ => hask

/-- **Step**: with a module in front of an input, a module is kept when those that it reads are. -/
theorem keptIn_of_sourcesKeptIn (hx : g.entry? i = some x) (hsources : f.SourcesKeptIn f' i) :
    f.KeptIn f' i x := by
  by_cases hi : i = id
  · subst hi
    obtain rfl : e = x := Option.some.inj (he.symm.trans hx)
    exact keptIn_of_interpose_self hg h h' he hbound hinput hsources
  · obtain ⟨rfl, -⟩ := Graph.freeze_ok h
    have hx' : f'.graph.entry? i = some x := by
      rw [(Graph.freeze_ok h').1, Graph.entry?_interpose_of_ne hi]
      exact Graph.extends_snoc _ _ _ _ hx
    refine ⟨x, hx', rfl, ?_⟩
    rw [answers_eq h hx, answers_eq h' hx']
    exact (hg.entries i x hx).answers_agreeOn fun question hadmitted =>
      hsources.answer_pull hg hx rfl hadmitted rfl

/-- **Run**: with a module in front of an input, all modules are kept. -/
theorem keptIn_interpose (hx : g.entry? i = some x) : f.KeptIn f' i x := by
  have hgraph := (Graph.freeze_ok h).1
  refine induction_reads h (P := f.KeptIn f') (fun i x hx hsources => ?_) (hgraph ▸ hx)
  exact keptIn_of_sourcesKeptIn hg h h' he hbound hinput (hgraph ▸ hx) hsources

/-- **Evaluations are kept**: with a module in front of an input that goes on to find what it has
found, all evaluations of the other modules yield what they have yielded. -/
theorem evaluate_interpose {t : Target} (ht : t.module ≠ ⟨g.next⟩) (evaluation : Evaluation)
    (q : Query α) : f'.evaluate evaluation t q = f.evaluate evaluation t q := by
  have hgraph := (Graph.freeze_ok h).1
  have hgraph' := (Graph.freeze_ok h').1
  refine evaluate_eq_of_keptIn (fun hmissing => ?_) (fun x hx => ?_) evaluation q
  · rw [hgraph] at hmissing
    have hne : t.module ≠ id := by
      rintro hid
      rw [hid, he] at hmissing
      cases hmissing
    rw [hgraph', Graph.entry?_interpose_of_ne hne, Option.eq_none_iff_forall_ne_some]
    intro r hr
    rcases Graph.entry?_snoc_eq_some_iff.mp hr with hold | ⟨-, hnext, -⟩
    · rw [hmissing] at hold
      cases hold
    · exact ht hnext
  · exact keptIn_interpose hg h h' he hbound hinput (hgraph ▸ hx)

end Interpose

end FrozenGraph

end TextureGraph
