import TextureGraph.Catalog.Mapping
import TextureGraph.Proofs.Inquiry.Basic
import Mathlib.Tactic.IntervalCases

/-!
# Questions of affine maps

An affine map asks for the position, for its errors or for its gradients, by what it is asked for
itself.
-/

namespace TextureGraph.Mapping

variable {α : Type} [Arith α] (q : Query α) (f : AffineForm α)

/-- The questions behind the value of an affine form. -/
def valueInquiry : Inquiry α α :=
  return f.coefficients.dot (← .position q) + f.offset

/-- The questions behind the error of an affine form. -/
def errorInquiry : Inquiry α α :=
  return f.coefficients.abs.dot (← .positionError q)

/-- The questions behind the gradient of an affine form. -/
def gradientInquiry : Inquiry α (Vec α) :=
  return f.coefficients.combine (← .positionGradients q)

theorem asks_valueInquiry : (valueInquiry q f).Asks (Question.OnNumbers 3) :=
  (Inquiry.asks_position fun _ hi => hi).bind fun _ => Inquiry.asks_pure _

theorem asks_errorInquiry : (errorInquiry q f).Asks (Question.OnNumbers 3) :=
  (Inquiry.asks_positionError fun _ hi => hi).bind fun _ => Inquiry.asks_pure _

theorem asks_gradientInquiry : (gradientInquiry q f).Asks (Question.OnNumbers 3) :=
  (Inquiry.asks_positionGradients fun _ hi => hi).bind fun _ => Inquiry.asks_pure _

theorem inputKind?_signature (m : Mapping α) :
    ∀ i < 3, m.signature.inputKind? i = some .scalar := by
  intro i hi
  cases m <;> interval_cases i <;> rfl

instance : Inquiring (Mapping α) α where
  inquiry m operation output q :=
    .ofNumbers (valueInquiry q (m.row output)) (errorInquiry q (m.row output))
      (gradientInquiry q (m.row output)) operation
  run_inquiry _ operation _ _ _ := Inquiry.run_ofNumbers rfl rfl rfl rfl operation
  asks_inquiry m operation _ q _ _ _ :=
    (Inquiry.asks_ofNumbers (asks_valueInquiry q _) (asks_errorInquiry q _)
      (asks_gradientInquiry q _) operation).imp fun _ h => h.admittedBy (inputKind?_signature m)

end TextureGraph.Mapping
