import TextureGraph.Graph.Evaluation
import TextureGraph.Proofs.Socket.Signature

/-!
# Inquiries

A module learns about its inputs only by asking.  An *inquiry* is a computation with its questions
laid open: it is done, or it asks a question and goes on by the answer.

* `run` answers the questions from given inputs and yields the result; `questions` lists the questions
  that are then asked.
* `Asks P` says that the inquiry asks only questions with `P`, whatever the answers.
* `Question.AdmittedBy`: a question that a module with a given signature may ask.  It is about an
  input that the module has, it takes numbers only from inputs that carry numbers or truth values, and
  colors only from inputs that carry colors.
-/

namespace TextureGraph

variable {α β γ : Type}

/-! ### Questions -/

/-- What a module may ask about an input. -/
inductive Question (α : Type) where
  /-- Whether another module is bound to the input. -/
  | isBound (input : Nat)
  /-- The input as a number. -/
  | value (input : Nat) (q : Query α)
  /-- The input as a color. -/
  | color (input : Nat) (q : Query α)
  /-- How far the input varies across the footprint. -/
  | error (input : Nat) (q : Query α)
  /-- The gradient of the input in space. -/
  | gradient (input : Nat) (q : Query α)

namespace Question

/-- The answers to a question. -/
abbrev Answer : Question α → Type
  | .isBound _ => Bool
  | .value .. | .error .. => α
  | .color .. => Color α
  | .gradient .. => Vec α

/-- Whether a module with the given signature may ask a question. -/
def AdmittedBy (s : Signature α) : Question α → Prop
  | .isBound i | .error i _ => ∃ kind, s.inputKind? i = some kind
  | .value i _ | .gradient i _ => ∃ kind, s.inputKind? i = some kind ∧ kind ≠ .color
  | .color i _ => s.inputKind? i = some .color

/-- Only the kinds of the inputs matter. -/
theorem AdmittedBy.congr {s s' : Signature α} (h : ∀ i, s'.inputKind? i = s.inputKind? i)
    {question : Question α} (hquestion : question.AdmittedBy s) : question.AdmittedBy s' := by
  cases question <;> simpa only [AdmittedBy, h] using hquestion

/-- Questions about the first few inputs that take them for numbers. -/
def OnNumbers (count : Nat) : Question α → Prop
  | .isBound i | .value i _ | .error i _ | .gradient i _ => i < count
  | .color .. => False

/-- A module whose first inputs carry numbers may ask for these numbers. -/
theorem OnNumbers.admittedBy {s : Signature α} {count : Nat}
    (hs : ∀ i < count, s.inputKind? i = some .scalar) {question : Question α}
    (h : question.OnNumbers count) : question.AdmittedBy s := by
  cases question with
  | isBound i => exact ⟨_, hs i h⟩
  | value i q => exact ⟨_, hs i h, by decide⟩
  | color i q => exact h.elim
  | error i q => exact ⟨_, hs i h⟩
  | gradient i q => exact ⟨_, hs i h, by decide⟩

end Question

/-- The answer to a question. -/
def Inputs.answer (inputs : Inputs α) : (question : Question α) → question.Answer
  | .isBound i => inputs.isBound i
  | .value i q => inputs.value i q
  | .color i q => inputs.color i q
  | .error i q => inputs.error i q
  | .gradient i q => inputs.gradient i q

/-! ### Inquiries -/

/-- A computation that asks about inputs. -/
inductive Inquiry (α β : Type) where
  /-- Nothing more is asked. -/
  | done (result : β)
  /-- A question is asked, and the answer decides how to go on. -/
  | ask (question : Question α) (next : question.Answer → Inquiry α β)

namespace Inquiry

/-- One inquiry after another. -/
def bind : Inquiry α β → (β → Inquiry α γ) → Inquiry α γ
  | .done b, f => f b
  | .ask question next, f => .ask question fun a => (next a).bind f

instance : Monad (Inquiry α) where
  pure := .done
  bind := .bind

theorem bind_done (x : Inquiry α β) : x.bind .done = x := by
  induction x with
  | done b => rfl
  | ask question next ih => exact congrArg (Inquiry.ask question) (funext ih)

theorem bind_bind {δ : Type} (x : Inquiry α β) (f : β → Inquiry α γ) (g : γ → Inquiry α δ) :
    (x.bind f).bind g = x.bind fun b => (f b).bind g := by
  induction x with
  | done b => rfl
  | ask question next ih => exact congrArg (Inquiry.ask question) (funext ih)

instance : LawfulMonad (Inquiry α) :=
  .mk' _ bind_done (fun _ _ => rfl) bind_bind

/-- The result when the questions are answered from the inputs. -/
def run (inputs : Inputs α) : Inquiry α β → β
  | .done b => b
  | .ask question next => (next (inputs.answer question)).run inputs

/-- The questions that are asked, in order, when they are answered from the inputs. -/
def questions (inputs : Inputs α) : Inquiry α β → List (Question α)
  | .done _ => []
  | .ask question next => question :: (next (inputs.answer question)).questions inputs

/-- Only questions with `P` are asked, whatever the answers. -/
def Asks (P : Question α → Prop) : Inquiry α β → Prop
  | .done _ => True
  | .ask question next => P question ∧ ∀ a, (next a).Asks P

/-! ### Single questions -/

/-- Asks whether another module is bound to an input. -/
def isBound (i : Nat) : Inquiry α Bool :=
  .ask (.isBound i) .done

/-- Asks whether the first two inputs are bound; about the second one only when the first one is. -/
def bothBound : Inquiry α Bool := do
  if ← isBound 0 then isBound 1 else return false

/-- Asks for an input as a number. -/
def value (i : Nat) (q : Query α) : Inquiry α α :=
  .ask (.value i q) .done

/-- Asks for an input as a color. -/
def color (i : Nat) (q : Query α) : Inquiry α (Color α) :=
  .ask (.color i q) .done

/-- Asks for the error of an input. -/
def error (i : Nat) (q : Query α) : Inquiry α α :=
  .ask (.error i q) .done

/-- Asks for the gradient of an input. -/
def gradient (i : Nat) (q : Query α) : Inquiry α (Vec α) :=
  .ask (.gradient i q) .done

/-- Asks for the position that the first three inputs give. -/
def position (q : Query α) : Inquiry α (Vec α) :=
  return ⟨← value 0 q, ← value 1 q, ← value 2 q⟩

/-- Asks for the errors of the position. -/
def positionError (q : Query α) : Inquiry α (Vec α) :=
  return ⟨← error 0 q, ← error 1 q, ← error 2 q⟩

/-- Asks for the gradients of the position. -/
def positionGradients (q : Query α) : Inquiry α (Vec (Vec α)) :=
  return ⟨← gradient 0 q, ← gradient 1 q, ← gradient 2 q⟩

/-! ### Results -/

variable (inputs : Inputs α)

@[simp]
theorem run_pure (b : β) : (pure b : Inquiry α β).run inputs = b :=
  rfl

@[simp]
theorem run_bind (x : Inquiry α β) (f : β → Inquiry α γ) :
    (x >>= f).run inputs = (f (x.run inputs)).run inputs := by
  induction x with
  | done b => rfl
  | ask question next ih => exact ih _

@[simp]
theorem run_map (f : β → γ) (x : Inquiry α β) : (f <$> x).run inputs = f (x.run inputs) :=
  run_bind inputs x fun b => pure (f b)

@[simp]
theorem run_ite (c : Prop) [Decidable c] (x y : Inquiry α β) :
    (if c then x else y).run inputs = if c then x.run inputs else y.run inputs :=
  apply_ite (run inputs) c x y

@[simp]
theorem run_isBound (i : Nat) : (isBound i).run inputs = inputs.isBound i :=
  rfl

@[simp]
theorem run_bothBound :
    bothBound.run inputs = (inputs.isBound 0 && inputs.isBound 1) := by
  rw [bothBound, run_bind, run_isBound]
  cases inputs.isBound 0 <;> rfl

@[simp]
theorem run_value (i : Nat) (q : Query α) : (value i q).run inputs = inputs.value i q :=
  rfl

@[simp]
theorem run_color (i : Nat) (q : Query α) : (color i q).run inputs = inputs.color i q :=
  rfl

@[simp]
theorem run_error (i : Nat) (q : Query α) : (error i q).run inputs = inputs.error i q :=
  rfl

@[simp]
theorem run_gradient (i : Nat) (q : Query α) : (gradient i q).run inputs = inputs.gradient i q :=
  rfl

/-! ### Lists of questions -/

@[simp]
theorem questions_pure (b : β) : (pure b : Inquiry α β).questions inputs = [] :=
  rfl

@[simp]
theorem questions_bind (x : Inquiry α β) (f : β → Inquiry α γ) :
    (x >>= f).questions inputs
      = x.questions inputs ++ (f (x.run inputs)).questions inputs := by
  induction x with
  | done b => rfl
  | ask question next ih => exact congrArg (question :: ·) (ih _)

@[simp]
theorem questions_map (f : β → γ) (x : Inquiry α β) :
    (f <$> x).questions inputs = x.questions inputs :=
  (questions_bind inputs x fun b => pure (f b)).trans (List.append_nil _)

@[simp]
theorem questions_isBound (i : Nat) : (isBound i).questions inputs = [.isBound i] :=
  rfl

@[simp]
theorem questions_value (i : Nat) (q : Query α) :
    (value i q).questions inputs = [.value i q] :=
  rfl

@[simp]
theorem questions_color (i : Nat) (q : Query α) :
    (color i q).questions inputs = [.color i q] :=
  rfl

@[simp]
theorem questions_error (i : Nat) (q : Query α) :
    (error i q).questions inputs = [.error i q] :=
  rfl

@[simp]
theorem questions_gradient (i : Nat) (q : Query α) :
    (gradient i q).questions inputs = [.gradient i q] :=
  rfl

/-! ### Questions that are asked -/

variable {inputs} {P : Question α → Prop}

@[simp]
theorem asks_pure (b : β) : (pure b : Inquiry α β).Asks P :=
  trivial

theorem Asks.bind {x : Inquiry α β} {f : β → Inquiry α γ} (hx : x.Asks P)
    (hf : ∀ b, (f b).Asks P) : (x >>= f).Asks P := by
  induction x with
  | done b => exact hf b
  | ask question next ih => exact ⟨hx.1, fun a => ih a (hx.2 a)⟩

@[simp]
theorem asks_map (f : β → γ) (x : Inquiry α β) : (f <$> x).Asks P ↔ x.Asks P := by
  induction x with
  | done b => exact Iff.rfl
  | ask question next ih => exact and_congr_right fun _ => forall_congr' ih

theorem Asks.imp {Q : Question α → Prop} (h : ∀ question, P question → Q question)
    {x : Inquiry α β} (hx : x.Asks P) : x.Asks Q := by
  induction x with
  | done b => trivial
  | ask question next ih => exact ⟨h question hx.1, fun a => ih a (hx.2 a)⟩

@[simp]
theorem asks_ite (c : Prop) [Decidable c] (x y : Inquiry α β) :
    (if c then x else y).Asks P ↔ (c → x.Asks P) ∧ (¬ c → y.Asks P) := by
  by_cases h : c <;> simp [h]

@[simp]
theorem asks_isBound_bind (i : Nat) (f : Bool → Inquiry α γ) :
    (isBound i >>= f).Asks P ↔ P (.isBound i) ∧ ∀ b, (f b).Asks P :=
  Iff.rfl

@[simp]
theorem asks_value_bind (i : Nat) (q : Query α) (f : α → Inquiry α γ) :
    (value i q >>= f).Asks P ↔ P (.value i q) ∧ ∀ a, (f a).Asks P :=
  Iff.rfl

@[simp]
theorem asks_color_bind (i : Nat) (q : Query α) (f : Color α → Inquiry α γ) :
    (color i q >>= f).Asks P ↔ P (.color i q) ∧ ∀ c, (f c).Asks P :=
  Iff.rfl

@[simp]
theorem asks_error_bind (i : Nat) (q : Query α) (f : α → Inquiry α γ) :
    (error i q >>= f).Asks P ↔ P (.error i q) ∧ ∀ a, (f a).Asks P :=
  Iff.rfl

@[simp]
theorem asks_gradient_bind (i : Nat) (q : Query α) (f : Vec α → Inquiry α γ) :
    (gradient i q >>= f).Asks P ↔ P (.gradient i q) ∧ ∀ v, (f v).Asks P :=
  Iff.rfl

@[simp]
theorem asks_isBound (i : Nat) : (isBound i : Inquiry α Bool).Asks P ↔ P (.isBound i) :=
  and_iff_left fun _ => trivial

@[simp]
theorem asks_value (i : Nat) (q : Query α) : (value i q).Asks P ↔ P (.value i q) :=
  and_iff_left fun _ => trivial

@[simp]
theorem asks_color (i : Nat) (q : Query α) : (color i q).Asks P ↔ P (.color i q) :=
  and_iff_left fun _ => trivial

@[simp]
theorem asks_error (i : Nat) (q : Query α) : (error i q).Asks P ↔ P (.error i q) :=
  and_iff_left fun _ => trivial

@[simp]
theorem asks_gradient (i : Nat) (q : Query α) : (gradient i q).Asks P ↔ P (.gradient i q) :=
  and_iff_left fun _ => trivial

theorem asks_bothBound (h : ∀ i < 2, P (.isBound i)) : (bothBound : Inquiry α Bool).Asks P := by
  simp [bothBound, h]

theorem asks_position {q : Query α} (h : ∀ i < 3, P (.value i q)) : (position q).Asks P := by
  simp [position, h]

theorem asks_positionError {q : Query α} (h : ∀ i < 3, P (.error i q)) :
    (positionError q).Asks P := by
  simp [positionError, h]

theorem asks_positionGradients {q : Query α} (h : ∀ i < 3, P (.gradient i q)) :
    (positionGradients q).Asks P := by
  simp [positionGradients, h]

/-- A question that is asked has what all questions of the inquiry have. -/
theorem Asks.of_mem_questions {x : Inquiry α β} (hx : x.Asks P) {question : Question α}
    (h : question ∈ x.questions inputs) : P question := by
  induction x with
  | done b => cases h
  | ask first next ih =>
    rcases List.mem_cons.mp h with rfl | h
    · exact hx.1
    · exact ih _ (hx.2 _) h

/-- The result rests on the answers to the questions that are asked, and on nothing else. -/
theorem run_congr {x : Inquiry α β} {inputs' : Inputs α}
    (h : ∀ question ∈ x.questions inputs, inputs'.answer question = inputs.answer question) :
    x.run inputs' = x.run inputs := by
  induction x with
  | done b => rfl
  | ask question next ih =>
    -- The first answer is the same, so both runs go on with the same inquiry.
    have hanswer : inputs'.answer question = inputs.answer question :=
      h question List.mem_cons_self
    rw [run, run, hanswer]
    exact ih _ fun other hother => h other (List.mem_cons_of_mem question hother)

end Inquiry

/-! ### Operations -/

/-- What a module may be asked about an output. -/
inductive Operation where
  /-- Its mean as a number. -/
  | value
  /-- Its mean as a color. -/
  | color
  /-- Its error. -/
  | error
  /-- Its gradient. -/
  | gradient
deriving DecidableEq

namespace Operation

/-- The results of an operation. -/
abbrev Result (α : Type) : Operation → Type
  | .value | .error => α
  | .color => Color α
  | .gradient => Vec α

/-- Whether an operation may be asked of an output of a kind: numbers and gradients of numbers and truth
values, colors of colors, errors of everything. -/
def Suits (kind : SocketKind) : Operation → Prop
  | .value | .gradient => kind ≠ .color
  | .color => kind = .color
  | .error => True

end Operation

/-- The result of an operation. -/
def Answers.result (answers : Answers α) : (operation : Operation) → Nat → Query α →
    operation.Result α
  | .value => answers.value
  | .color => answers.color
  | .error => answers.error
  | .gradient => answers.gradient

/-- Types of modules whose questions are known. -/
class Inquiring (M α : Type) [TextureModule M α] where
  /-- The questions behind an operation. -/
  inquiry : M → (operation : Operation) → Nat → Query α → Inquiry α (operation.Result α)
  /-- The answers lead to the result of the operation. -/
  run_inquiry : ∀ m operation output q inputs, (inquiry m operation output q).run inputs
    = (TextureModule.answers m inputs).result operation output q
  /-- An operation that suits the output asks only what its module may ask. -/
  asks_inquiry : ∀ m operation output q kind,
    (TextureModule.signature m : Signature α).outputKind? output = some kind →
    operation.Suits kind →
    (inquiry m operation output q).Asks (Question.AdmittedBy (TextureModule.signature m))

namespace Inquiry

/-- The questions of a module whose outputs are numbers: as colors they are gray. -/
def ofNumbers [Arith α] (value error : Inquiry α α) (gradient : Inquiry α (Vec α)) :
    (operation : Operation) → Inquiry α (operation.Result α)
  | .value => value
  | .color => Color.gray <$> value
  | .error => error
  | .gradient => gradient

theorem run_ofNumbers [Arith α] {value error : Inquiry α α} {gradient : Inquiry α (Vec α)}
    {inputs : Inputs α} {answers : Answers α} {output : Nat} {q : Query α}
    (hvalue : value.run inputs = answers.value output q)
    (hcolor : answers.color output q = Color.gray (answers.value output q))
    (herror : error.run inputs = answers.error output q)
    (hgradient : gradient.run inputs = answers.gradient output q) (operation : Operation) :
    (ofNumbers value error gradient operation).run inputs = answers.result operation output q := by
  cases operation with
  | value => exact hvalue
  | color =>
    rw [ofNumbers, run_map, hvalue]
    exact hcolor.symm
  | error => exact herror
  | gradient => exact hgradient

theorem asks_ofNumbers [Arith α] {P : Question α → Prop} {value error : Inquiry α α}
    {gradient : Inquiry α (Vec α)} (hvalue : value.Asks P) (herror : error.Asks P)
    (hgradient : gradient.Asks P) (operation : Operation) :
    (ofNumbers value error gradient operation).Asks P := by
  cases operation with
  | value => exact hvalue
  | color => exact (asks_map Color.gray value).mpr hvalue
  | error => exact herror
  | gradient => exact hgradient

end Inquiry

end TextureGraph
