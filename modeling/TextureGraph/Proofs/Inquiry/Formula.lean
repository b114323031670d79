import TextureGraph.Catalog.Formula
import TextureGraph.Proofs.Inquiry.Basic
import Mathlib.Tactic.IntervalCases

/-!
# Questions of expressions

Whatever an expression is asked for, it asks for the value, the error and the gradient of every input
that is written in it.
-/

namespace TextureGraph

variable {α : Type} [Arith α] (q : Query α)

namespace Expr

/-- The questions behind the estimate of an expression. -/
def inquiry : Expr α → Inquiry α (Estimate α)
  | .number a => return .constant a
  | .coordinate axis => return .coordinate axis q
  | .input i => return ⟨← .value i q, ← .error i q, ← .gradient i q⟩
  | .unary op e => return op.apply (← e.inquiry)
  | .binary op l r => return op.apply (← l.inquiry) (← r.inquiry)

theorem run_inquiry (inputs : Inputs α) (e : Expr α) :
    (e.inquiry q).run inputs = e.estimate inputs q := by
  induction e with
  | number a => rfl
  | coordinate axis => rfl
  | input i => rfl
  | unary op e ih => simp [inquiry, estimate, ih]
  | binary op l r ihl ihr => simp [inquiry, estimate, ihl, ihr]

/-- An expression has no way to name an input beyond the third. -/
theorem asks_inquiry (e : Expr α) : (e.inquiry q).Asks (Question.OnNumbers 3) := by
  induction e with
  | number a => exact Inquiry.asks_pure _
  | coordinate axis => exact Inquiry.asks_pure _
  | input i => simp [inquiry, Question.OnNumbers, i.isLt]
  | unary op e ih => exact ih.bind fun a => Inquiry.asks_pure _
  | binary op l r ihl ihr => exact ihl.bind fun a => ihr.bind fun b => Inquiry.asks_pure _

end Expr

namespace Expression

theorem inputKind?_signature (e : Expression α) :
    ∀ i < 3, e.signature.inputKind? i = some .scalar := by
  intro i hi
  interval_cases i <;> rfl

instance : Inquiring (Expression α) α where
  inquiry e operation _ q :=
    .ofNumbers (Estimate.value <$> e.root.inquiry q) (Estimate.error <$> e.root.inquiry q)
      (Estimate.gradient <$> e.root.inquiry q) operation
  run_inquiry e operation _ q inputs := by
    refine Inquiry.run_ofNumbers ?_ rfl ?_ ?_ operation
    all_goals
      rw [Inquiry.run_map, Expr.run_inquiry]
      rfl
  asks_inquiry e operation _ q _ _ _ := by
    have h : (e.root.inquiry q).Asks (Question.AdmittedBy e.signature) :=
      (e.root.asks_inquiry q).imp fun _ h => h.admittedBy (inputKind?_signature e)
    exact Inquiry.asks_ofNumbers ((Inquiry.asks_map _ _).mpr h) ((Inquiry.asks_map _ _).mpr h)
      ((Inquiry.asks_map _ _).mpr h) operation

end Expression

end TextureGraph
