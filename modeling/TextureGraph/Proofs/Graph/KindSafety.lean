import TextureGraph.Proofs.Graph.Consistency
import TextureGraph.Proofs.Graph.Evaluation
import TextureGraph.Proofs.Inquiry.Catalog

/-!
# Kind safety of evaluation

`evaluation_kind_safe`: whatever is evaluated in a graph of modules of the catalog, every call that is
made on the way is in order (`SafeCall`), so that nothing is ever answered by falling back to zero.

* A module asks questions (`questions`), and a question about an input that is bound makes a call of
  the module bound to it (`Graph.call?`); `Graph.answer_of_call?` says that the result of this call is
  the answer to the question.
* An evaluation begins with a sound call (`sound_of_firstCall`), and a sound call makes only sound
  calls (`Sound.nested`): a module asks only what it may ask (`Inquiring`), and what is bound to an
  input feeds it (`Graph.Consistent.exists_feeds`).
-/

namespace TextureGraph

variable {M α : Type}

/-! ### Calls -/

/-- A call for an operation of a module in a graph. -/
structure Call (M α : Type) where
  /-- The module. -/
  entry : Entry M α
  /-- What is asked for. -/
  operation : Operation
  /-- The number of the output. -/
  output : Nat
  /-- Where it is asked for. -/
  query : Query α

/-- A call is well kinded when the module has the output, and the operation suits the kind of it. -/
def Call.WellKinded (c : Call M α) : Prop :=
  ∃ kind, c.entry.signature.outputKind? c.output = some kind ∧ c.operation.Suits kind

/-- The result of a call as a color: a number is gray. -/
def Call.asColor [Arith α] (c : Call M α) (answers : Entry M α → Answers α) : Color α :=
  if c.operation = .color then (answers c.entry).color c.output c.query
  else Color.gray ((answers c.entry).value c.output c.query)

namespace Graph

/-- The call that a question about an input makes, if another module is bound to the input. -/
def call? (g : Graph M α) (e : Entry M α) : Question α → Option (Call M α)
  | .isBound _ => none
  | .value i q => (g.source? e i).map fun (source, output) => ⟨source, .value, output, q⟩
  | .color i q => (g.source? e i).map fun (source, output) =>
      if source.signature.outputKind? output == some .color then ⟨source, .color, output, q⟩
      else ⟨source, .value, output, q⟩
  | .error i q => (g.source? e i).map fun (source, output) => ⟨source, .error, output, q⟩
  | .gradient i q => (g.source? e i).map fun (source, output) => ⟨source, .gradient, output, q⟩

/-- What is called is bound to an input. -/
theorem source?_of_call? {g : Graph M α} {e : Entry M α} {question : Question α} {c : Call M α}
    (h : g.call? e question = some c) : ∃ i, g.source? e i = some (c.entry, c.output) := by
  cases question with
  | isBound i => cases h
  | value i q | error i q | gradient i q =>
    obtain ⟨s, hs, rfl⟩ := Option.map_eq_some_iff.mp h
    exact ⟨i, hs⟩
  | color i q =>
    obtain ⟨s, hs, rfl⟩ := Option.map_eq_some_iff.mp h
    refine ⟨i, ?_⟩
    dsimp only
    split <;> exact hs

/-- The answer to a question from the result of the call that it makes. -/
def answerFrom [Arith α] (answers : Entry M α → Answers α) (c : Call M α) :
    (question : Question α) → question.Answer
  | .isBound _ => true
  | .value .. => (answers c.entry).value c.output c.query
  | .color .. => c.asColor answers
  | .error .. => (answers c.entry).error c.output c.query
  | .gradient .. => (answers c.entry).gradient c.output c.query

/-- A module finds the answer to a question in the result of the call that the question makes. -/
theorem answer_of_call? [Arith α] {g : Graph M α} (answers : Entry M α → Answers α)
    {e : Entry M α} {question : Question α} {c : Call M α} (h : g.call? e question = some c) :
    (g.pull answers e).answer question = answerFrom answers c question := by
  cases question with
  | isBound i => cases h
  | value i q | error i q | gradient i q =>
    obtain ⟨s, hs, rfl⟩ := Option.map_eq_some_iff.mp h
    simp only [Inputs.answer, pull, hs, answerFrom]
  | color i q =>
    obtain ⟨s, hs, rfl⟩ := Option.map_eq_some_iff.mp h
    simp only [Inputs.answer, pull, hs, answerFrom, Call.asColor]
    split <;> rfl

/-- What is bound to an input is an output that is there and that feeds the input. -/
theorem Consistent.exists_feeds [TextureModule M α] {g : Graph M α} (hg : g.Consistent)
    {id : ModuleId} {e source : Entry M α} {input output : Nat} (he : g.entry? id = some e)
    (h : g.source? e input = some (source, output)) :
    (∃ id, g.entry? id = some source) ∧
      ∃ kind, source.signature.outputKind? output = some kind ∧
        ∃ inputKind, e.signature.inputKind? input = some inputKind ∧
          kind.feeds inputKind = true := by
  obtain ⟨b, hb, hsource, rfl⟩ := source?_eq_some_iff.mp h
  obtain ⟨signature, hsignature, hfits⟩ := hg.bindings id e he input b hb
  rw [signature?, hsource, Option.map_some, Option.some.injEq] at hsignature
  subst hsignature
  exact ⟨⟨b.source, hsource⟩, hfits⟩

/-- A binding is never without the output that it reads. -/
theorem Consistent.exists_source [TextureModule M α] {g : Graph M α} (hg : g.Consistent)
    {id : ModuleId} {e : Entry M α} {input : Nat} {b : Binding} (he : g.entry? id = some e)
    (hb : e.binding? input = some b) :
    ∃ source, g.source? e input = some (source, b.output) ∧
      ∃ kind, source.signature.outputKind? b.output = some kind := by
  obtain ⟨signature, hsignature, kind, hkind, -⟩ := hg.bindings id e he input b hb
  obtain ⟨source, hsource, rfl⟩ := Option.map_eq_some_iff.mp hsignature
  exact ⟨source, source?_eq_some_iff.mpr ⟨b, hb, hsource, rfl⟩, kind, hkind⟩

/-- What is read is the module that the binding names. -/
theorem Consistent.exists_read [TextureModule M α] {g : Graph M α} (hg : g.Consistent)
    {id : ModuleId} {e : Entry M α} {input : Nat} {b : Binding} (he : g.entry? id = some e)
    (hb : e.binding? input = some b) :
    ∃ source, g.entry? b.source = some source ∧ g.source? e input = some (source, b.output) := by
  obtain ⟨source, hs, -⟩ := hg.exists_source he hb
  obtain ⟨b', hb', hsource, -⟩ := source?_eq_some_iff.mp hs
  obtain rfl : b = b' := Option.some.inj (hb.symm.trans hb')
  exact ⟨source, hsource, hs⟩

/-- Whatever changes have led to a graph that is validated, it is consistent, and validating it again
yields the same. -/
theorem freeze_ofEdits [Arith α] [TextureModule M α] {name : String} {edits : List (Edit M α)}
    {f : FrozenGraph M α} (h : (ofEdits name edits).freeze = .ok f) :
    f.graph.Consistent ∧ f.graph.freeze = .ok f := by
  obtain ⟨hgraph, -⟩ := freeze_ok h
  rw [hgraph]
  exact ⟨consistent_ofEdits name edits, h⟩

end Graph

namespace FrozenGraph

/-! ### Evaluations -/

/-- What a graph is evaluated for. -/
inductive Evaluation where
  /-- The mean as a number. -/
  | scalar
  /-- The mean as a color. -/
  | color
  /-- The error. -/
  | error
  /-- The gradient. -/
  | gradient

/-- What an evaluation yields. -/
abbrev Evaluation.Result (α : Type) : Evaluation → Type
  | .scalar | .error => α
  | .color => Color α
  | .gradient => Vec α

/-- The call with which an evaluation begins, unless it is refused. -/
def firstCall [Arith α] (f : FrozenGraph M α) (evaluation : Evaluation) (t : Target)
    (q : Query α) : Except (EvaluationError α) (Call M α) := do
  let (e, kind) ← f.target t q.blur
  match evaluation with
  | .scalar =>
    if kind = .color then .error (.notScalar t.module t.output)
    else return ⟨e, .value, t.output, q⟩
  | .color =>
    if kind = .color then return ⟨e, .color, t.output, q⟩ else return ⟨e, .value, t.output, q⟩
  | .error => return ⟨e, .error, t.output, q⟩
  | .gradient =>
    if kind = .color then .error (.notScalar t.module t.output)
    else return ⟨e, .gradient, t.output, q⟩

section Questions

variable [Arith α] [TextureModule M α] (f : FrozenGraph M α)

/-- The four evaluations. -/
def evaluate : (evaluation : Evaluation) → Target → Query α →
    Except (EvaluationError α) (evaluation.Result α)
  | .scalar, t, q => f.evaluateScalar t q
  | .color, t, q => f.evaluateColor t q
  | .error, t, q => f.estimateError t q
  | .gradient, t, q => f.evaluateGradient t q

/-- What an evaluation makes of the result of the call with which it begins. -/
def conclude (first : Call M α) : (evaluation : Evaluation) → evaluation.Result α
  | .scalar => (f.answers first.entry).value first.output first.query
  | .color => first.asColor f.answers
  | .error => reportedError ((f.answers first.entry).error first.output first.query)
  | .gradient => (f.answers first.entry).gradient first.output first.query

/-- An evaluation comes down to the call with which it begins. -/
theorem evaluate_eq (evaluation : Evaluation) (t : Target) (q : Query α) :
    f.evaluate evaluation t q
      = (f.firstCall evaluation t q).map fun first => f.conclude first evaluation := by
  cases htarget : f.target t q.blur with
  | error e =>
    cases evaluation <;>
      simp only [evaluate, evaluateScalar, evaluateColor, estimateError, evaluateGradient,
        firstCall, htarget] <;>
      rfl
  | ok r =>
    obtain ⟨e, kind⟩ := r
    -- The kind of the output decides between a number and a color.
    cases evaluation <;> cases kind <;>
      simp only [evaluate, evaluateScalar, evaluateColor, estimateError, evaluateGradient,
        firstCall, htarget] <;>
      rfl

variable [Inquiring M α]

/-- The questions that are asked in a call. -/
def questions (c : Call M α) : List (Question α) :=
  (Inquiring.inquiry c.entry.module c.operation c.output c.query).questions
    (f.graph.pull f.answers c.entry)

/-- The calls that are made in the course of a call: the call itself, and the calls that the questions
asked in one of them make. -/
inductive Makes (first : Call M α) : Call M α → Prop where
  /-- The call itself. -/
  | first : Makes first first
  /-- A question that is asked makes a call. -/
  | nested {c nested : Call M α} {question : Question α} (made : Makes first c)
      (asked : question ∈ f.questions c) (call : f.graph.call? c.entry question = some nested) :
      Makes first nested

variable {f} in
/-- What is called in the course of a call that is made is called in the course of the first one. -/
theorem Makes.trans {first second third : Call M α} (h : f.Makes first second)
    (h' : f.Makes second third) : f.Makes first third := by
  induction h' with
  | first => exact h
  | nested _ asked call ih => exact .nested ih asked call

end Questions

/-! ### Sound calls -/

/-- A call that may be made: it is for an output that a module of the graph has, and suits its kind. -/
structure Sound (f : FrozenGraph M α) (c : Call M α) : Prop where
  /-- The module is in the graph. -/
  present : ∃ id, f.graph.entry? id = some c.entry
  /-- The output is there, and the operation suits it. -/
  wellKinded : c.WellKinded

section Sound

variable {f : FrozenGraph M α} {c : Call M α}

/-- **Step**: the call that an admitted question of a sound call makes is sound. -/
theorem Sound.nested [TextureModule M α] (hc : f.Sound c) (hf : f.graph.Consistent)
    {question : Question α} {nested : Call M α}
    (hquestion : question.AdmittedBy c.entry.signature)
    (hcall : f.graph.call? c.entry question = some nested) : f.Sound nested := by
  obtain ⟨⟨id, he⟩, -⟩ := hc
  cases question with
  | isBound i => cases hcall
  | value i q | gradient i q =>
    obtain ⟨⟨source, output⟩, hs, rfl⟩ := Option.map_eq_some_iff.mp hcall
    obtain ⟨hsource, kind, hkind, inputKind, hinput, hfeeds⟩ := hf.exists_feeds he hs
    obtain ⟨declared, hdeclared, hnumber⟩ := hquestion
    rw [hinput, Option.some.injEq] at hdeclared
    subst hdeclared
    exact ⟨hsource, kind, hkind, SocketKind.ne_color_of_feeds hfeeds hnumber⟩
  | color i q =>
    obtain ⟨⟨source, output⟩, hs, rfl⟩ := Option.map_eq_some_iff.mp hcall
    obtain ⟨hsource, kind, hkind, -⟩ := hf.exists_feeds he hs
    -- An input for colors may be bound to numbers, and then the call is one for a number.
    dsimp only
    split
    · rename_i hcolor
      rw [hkind] at hcolor
      exact ⟨hsource, kind, hkind, SocketKind.eq_of_beq hcolor⟩
    · rename_i hnumber
      refine ⟨hsource, kind, hkind, ?_⟩
      rintro rfl
      exact hnumber (by rw [hkind]; rfl)
  | error i q =>
    obtain ⟨⟨source, output⟩, hs, rfl⟩ := Option.map_eq_some_iff.mp hcall
    obtain ⟨hsource, kind, hkind, -⟩ := hf.exists_feeds he hs
    exact ⟨hsource, kind, hkind, trivial⟩

variable [Arith α]

/-- An evaluation begins with a sound call. -/
theorem sound_of_firstCall {evaluation : Evaluation} {t : Target} {q : Query α}
    (h : f.firstCall evaluation t q = .ok c) : f.Sound c := by
  unfold firstCall at h
  rw [bind_eq_ok_iff] at h
  obtain ⟨⟨e, kind⟩, htarget, h⟩ := h
  obtain ⟨he, hkind⟩ := target_ok htarget
  cases evaluation with
  | scalar | gradient =>
    dsimp only at h
    split at h
    · cases h
    · rename_i hcolor
      cases h
      exact ⟨⟨_, he⟩, ⟨kind, hkind, hcolor⟩⟩
  | color =>
    dsimp only at h
    split at h
    · rename_i hcolor
      cases h
      exact ⟨⟨_, he⟩, ⟨kind, hkind, hcolor⟩⟩
    · rename_i hcolor
      cases h
      exact ⟨⟨_, he⟩, ⟨kind, hkind, hcolor⟩⟩
  | error =>
    cases h
    exact ⟨⟨_, he⟩, ⟨kind, hkind, trivial⟩⟩

variable [TextureModule M α] [Inquiring M α]

/-- A sound call asks only what its module may ask. -/
theorem Sound.admittedBy (hc : f.Sound c) (hf : f.graph.Consistent) {question : Question α}
    (h : question ∈ f.questions c) : question.AdmittedBy c.entry.signature := by
  obtain ⟨⟨id, he⟩, kind, hkind, hsuits⟩ := hc
  have hcoherent : c.entry.Coherent := hf.entries id c.entry he
  -- The module goes by the sockets that it has, and the graph by those that it knows.
  have hasks := Inquiring.asks_inquiry c.entry.module c.operation c.output c.query kind
    ((hcoherent.outputKind?_eq c.output).trans hkind) hsuits
  exact (hasks.of_mem_questions h).congr fun i => (hcoherent.inputKind?_eq i).symm

/-- All calls that a sound call makes are sound. -/
theorem Sound.makes {first : Call M α} (hfirst : f.Sound first) (hf : f.graph.Consistent)
    (h : f.Makes first c) : f.Sound c := by
  induction h with
  | first => exact hfirst
  | nested made asked call ih => exact ih.nested hf (ih.admittedBy hf asked) call

end Sound

/-! ### Safety -/

section Safety

variable [Arith α] {f : FrozenGraph (Catalog α) α}

/-- A call that is in order, and is what its questions make of it. -/
structure SafeCall (f : FrozenGraph (Catalog α) α) (c : Call (Catalog α) α) : Prop
    extends f.Sound c where
  /-- The module has something to compute for the output, rather than to fall back to zero. -/
  computes : c.entry.module.Computes c.operation c.output
  /-- Only inputs that are there are asked for, each one for what it carries. -/
  declared : ∀ question ∈ f.questions c, question.AdmittedBy c.entry.signature
  /-- What is bound to an input is there. -/
  attached : ∀ input b, c.entry.binding? input = some b →
    ∃ source, f.graph.source? c.entry input = some (source, b.output) ∧
      ∃ kind, source.signature.outputKind? b.output = some kind
  /-- The answers to the questions that are asked determine the result, whatever else the inputs might
  yield. -/
  determined : ∀ inputs : Inputs α,
    (∀ question ∈ f.questions c,
      inputs.answer question = (f.graph.pull f.answers c.entry).answer question) →
    (TextureModule.answers c.entry.module inputs).result c.operation c.output c.query
      = (f.answers c.entry).result c.operation c.output c.query
  /-- A question about an input that is bound is answered by the call that it makes. -/
  answered : ∀ question nested, f.graph.call? c.entry question = some nested →
    (f.graph.pull f.answers c.entry).answer question
      = Graph.answerFrom f.answers nested question

theorem Sound.safeCall {g : Graph (Catalog α) α} (h : g.freeze = .ok f)
    (hf : f.graph.Consistent) {c : Call (Catalog α) α} (hc : f.Sound c) : f.SafeCall c := by
  obtain ⟨id, he⟩ := hc.present
  obtain ⟨kind, hkind, hsuits⟩ := hc.wellKinded
  have hown : c.entry.module.signature.outputKind? c.output = some kind :=
    ((hf.entries id c.entry he).outputKind?_eq c.output).trans hkind
  refine { toSound := hc, computes := ?_, declared := ?_, attached := ?_, determined := ?_,
           answered := ?_ }
  · exact c.entry.module.computes_of_suits hown hsuits
  · exact fun question hquestion => hc.admittedBy hf hquestion
  · exact fun input b hb => hf.exists_source he hb
  · intro inputs hinputs
    rw [answers_eq h he, ← Inquiring.run_inquiry, ← Inquiring.run_inquiry]
    exact Inquiry.run_congr hinputs
  · exact fun question nested hcall => Graph.answer_of_call? f.answers hcall

/-- **Evaluations are kind safe**: in a graph of modules of the catalog that has been found to be
without cycles, whatever changes have led to it, an evaluation comes down to the call with which it
begins, and all calls that are made in the course of it are in order. -/
theorem evaluation_kind_safe (name : String) (edits : List (Edit (Catalog α) α))
    (h : (Graph.ofEdits name edits).freeze = .ok f) (evaluation : Evaluation) (t : Target)
    (q : Query α) :
    f.evaluate evaluation t q
        = (f.firstCall evaluation t q).map (fun first => f.conclude first evaluation) ∧
      ∀ first, f.firstCall evaluation t q = .ok first → ∀ c, f.Makes first c → f.SafeCall c := by
  refine ⟨f.evaluate_eq evaluation t q, fun first hfirst c hc => ?_⟩
  have hf : f.graph.Consistent := by
    rw [(Graph.freeze_ok h).1]
    exact Graph.consistent_ofEdits name edits
  exact ((sound_of_firstCall hfirst).makes hf hc).safeCall h hf

end Safety

/-- A request at the origin, without blur. -/
def atOrigin : Query Float :=
  ⟨⟨Vec.zero, Vec.zero, 0.0, []⟩, 0.0⟩

/-- The call with which `onePlus` is evaluated at the origin. -/
def sumCall : Call (Catalog Float) Float :=
  ⟨{ Entry.ofModule (.operator .sum) with bindings := [some ⟨⟨0⟩, 0⟩, none] }, .value, 0, atOrigin⟩

/-- The call that the sum makes for its first input. -/
def oneCall : Call (Catalog Float) Float :=
  ⟨.ofModule (.source (.number 1.0)), .value, 0, atOrigin⟩

theorem firstCall_onePlus (s : Schedule) :
    (⟨onePlus, s⟩ : FrozenGraph _ _).firstCall .scalar ⟨⟨1⟩, 0⟩ atOrigin = .ok sumCall := by
  have htarget : (⟨onePlus, s⟩ : FrozenGraph _ _).target ⟨⟨1⟩, 0⟩ (0.0 : Float)
      = .ok (sumCall.entry, .scalar) := target_unblurred rfl rfl
  rw [firstCall, atOrigin, htarget]
  rfl

theorem evaluation_kind_safe_onePlus :
    ∃ f, onePlus.freeze = .ok f ∧
      f.evaluateScalar ⟨⟨1⟩, 0⟩ atOrigin = .ok ((f.answers sumCall.entry).value 0 atOrigin) ∧
      f.Makes sumCall oneCall ∧ f.SafeCall sumCall ∧ f.SafeCall oneCall := by
  obtain ⟨heval, hsafe⟩ := evaluation_kind_safe _ _ freeze_onePlus .scalar ⟨⟨1⟩, 0⟩ atOrigin
  rw [firstCall_onePlus] at heval
  have hmakes := fun c => hsafe sumCall (firstCall_onePlus _) c
  exact ⟨_, freeze_onePlus, heval, .nested .first (.head _) rfl, hmakes _ .first,
    hmakes _ (.nested .first (.head _) rfl)⟩

end FrozenGraph

end TextureGraph
