import TextureGraph.Graph.Schedule

/-!
# Evaluation

An output is evaluated by asking its module, which asks for its inputs, which asks the modules bound
to them, and so on.  Nothing is remembered between requests.  A graph is evaluated only after it has
been found to be without cycles; then the length of its longest chain bounds how far requests nest.

Evaluation is that of a build that does not check what it computes.  A build that does so stops where a check
fails (`Checks`), and yields the same answers wherever it does not.
-/

namespace TextureGraph

variable {M α : Type}

/-- What a module answers about its outputs. -/
structure Answers (α : Type) where
  /-- The mean of an output. -/
  value : Nat → Query α → α
  /-- The mean of an output as a color. -/
  color : Nat → Query α → Color α
  /-- How far an output may vary across the blurred footprint. -/
  error : Nat → Query α → α
  /-- The gradient of an output in space. -/
  gradient : Nat → Query α → Vec α

/-- The answers of a module that finds its inputs as given. -/
def TextureModule.answers [TextureModule M α] (m : M) (inputs : Inputs α) : Answers α where
  value output q := TextureModule.averageValue m output inputs q
  color output q := TextureModule.colorValue m output inputs q
  error output q := TextureModule.valueError m output inputs q
  gradient output q := TextureModule.valueGradient m output inputs q

namespace Graph

/-- The module and the output that an input reads. -/
def source? (g : Graph M α) (e : Entry M α) (input : Nat) : Option (Entry M α × Nat) := do
  let b ← e.binding? input
  return (← g.entry? b.source, b.output)

/-- The inputs of a module, where `answers` gives the answers of the modules bound to it.  An input that
nothing is bound to yields its fallback. -/
def pull [Arith α] (g : Graph M α) (answers : Entry M α → Answers α) (e : Entry M α) :
    Inputs α where
  count := e.signature.inputs.length
  isBound i := (g.source? e i).isSome
  value i q :=
    match g.source? e i with
    | some (source, output) => (answers source).value output q
    | none => (e.signature.fallback i).value q
  color i q :=
    match g.source? e i with
    | some (source, output) =>
      if source.signature.outputKind? output == some .color then (answers source).color output q
      else Color.gray ((answers source).value output q)
    | none => (e.signature.fallback i).toColor q
  error i q :=
    match g.source? e i with
    | some (source, output) => (answers source).error output q
    | none => (e.signature.fallback i).error q
  gradient i q :=
    match g.source? e i with
    | some (source, output) => (answers source).gradient output q
    | none => (e.signature.fallback i).gradient

/-- The answers of a module, where at most `levels` modules are under evaluation at the same time, this
one included.  A module that is reached when no level is left answers as `exhausted` says. -/
def answersWithin [Arith α] [TextureModule M α] (g : Graph M α)
    (exhausted : Entry M α → Answers α) : Nat → Entry M α → Answers α
  | 0, e => exhausted e
  | levels + 1, e =>
    TextureModule.answers e.module (g.pull (g.answersWithin exhausted levels) e)

end Graph

/-- A graph without cycles, ready for evaluation. -/
structure FrozenGraph (M α : Type) where
  /-- The graph. -/
  graph : Graph M α
  /-- Its order of evaluation. -/
  schedule : Schedule

/-- Checks a graph for cycles. -/
def Graph.freeze (g : Graph M α) : Except (GraphError α) (FrozenGraph M α) := do
  return ⟨g, ← g.schedule⟩

/-- An output of a module. -/
structure Target where
  /-- The module. -/
  module : ModuleId
  /-- The number of the output. -/
  output : Nat
deriving DecidableEq, Repr

namespace FrozenGraph

variable [Arith α]

/-- The module and the kind of an output, if the graph has it and the blur is acceptable. -/
def target (f : FrozenGraph M α) (t : Target) (blur : α) :
    Except (EvaluationError α) (Entry M α × SocketKind) :=
  if !Arith.isFinite blur || blur < 0.0 then .error (.invalidBlur blur)
  else
    match f.graph.entry? t.module with
    | none => .error (.moduleNotFound t.module)
    | some e =>
      match e.signature.outputKind? t.output with
      | none => .error (.outputOutOfRange t.module t.output e.signature.outputs.length)
      | some kind => .ok (e, kind)

variable [TextureModule M α]

/-- The answers of a module of the graph.  Requests nest no deeper than the longest chain is long, so it
does not matter what a module answers when no level is left. -/
def answers (f : FrozenGraph M α) (e : Entry M α) : Answers α :=
  f.graph.answersWithin (fun e => TextureModule.answers e.module (.unbound e.signature))
    f.schedule.depth e

/-- The mean of an output that carries numbers or truth values. -/
def evaluateScalar (f : FrozenGraph M α) (t : Target) (q : Query α)
    (answers : Entry M α → Answers α := f.answers) : Except (EvaluationError α) α := do
  let (e, kind) ← f.target t q.blur
  if kind = .color then .error (.notScalar t.module t.output)
  else return (answers e).value t.output q

/-- The mean of an output as a color. -/
def evaluateColor (f : FrozenGraph M α) (t : Target) (q : Query α)
    (answers : Entry M α → Answers α := f.answers) : Except (EvaluationError α) (Color α) := do
  let (e, kind) ← f.target t q.blur
  if kind = .color then return (answers e).color t.output q
  else return Color.gray ((answers e).value t.output q)

/-- The error that is reported for the error that a module gives: never negative, and
`Bound.poleError` for one that is not a finite number. -/
def reportedError (error : α) : α :=
  if Arith.isFinite error then Arith.max error 0.0 else Bound.poleError

/-- How far an output may vary across the blurred footprint.  A build that checks errors stops instead where a
module gives a negative one (`Checks.errors`). -/
def estimateError (f : FrozenGraph M α) (t : Target) (q : Query α)
    (answers : Entry M α → Answers α := f.answers) : Except (EvaluationError α) α := do
  let (e, _) ← f.target t q.blur
  return reportedError ((answers e).error t.output q)

/-- The gradient in space of an output that carries numbers or truth values. -/
def evaluateGradient (f : FrozenGraph M α) (t : Target) (q : Query α)
    (answers : Entry M α → Answers α := f.answers) : Except (EvaluationError α) (Vec α) := do
  let (e, kind) ← f.target t q.blur
  if kind = .color then .error (.notScalar t.module t.output)
  else return (answers e).gradient t.output q

end FrozenGraph

end TextureGraph
