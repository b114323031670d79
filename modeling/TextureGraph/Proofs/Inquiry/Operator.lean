import TextureGraph.Catalog.Operator
import TextureGraph.Proofs.Inquiry.Basic
import Mathlib.Tactic.IntervalCases

/-!
# Questions of arithmetic

Operators ask about their two operands, which are numbers.
-/

namespace TextureGraph.Operator

variable {α : Type} (q : Query α) (inputs : Inputs α)

/-! ### Operands -/

/-- Asks for both operands and selects one of them, the second one if `second` holds. -/
def selectInquiry (second : α → α → Prop) [∀ a b, Decidable (second a b)] : Inquiry α Nat := do
  let a ← .value 0 q
  let b ← .value 1 q
  return if second a b then 1 else 0

/-- What is asked of the selected operand is asked of one of the two. -/
theorem asks_selectInquiry_bind {β : Type} {second : α → α → Prop}
    [∀ a b, Decidable (second a b)] {f : Nat → Inquiry α β}
    (hf : ∀ i < 2, (f i).Asks (Question.OnNumbers 2)) :
    (selectInquiry q second >>= f).Asks (Question.OnNumbers 2) := by
  simp only [selectInquiry, bind_assoc, pure_bind, Inquiry.asks_value_bind, Question.OnNumbers]
  refine ⟨by decide, fun a => ⟨by decide, fun b => hf _ ?_⟩⟩
  split <;> decide

variable [Arith α]

/-- Asks for the divisor. -/
def divisorInquiry : Inquiry α (Option α) := do
  let b ← .value 1 q
  let eb ← .error 1 q
  return if Bound.reachesZero b eb then none else some b

/-- Asks for the base and the exponent of a power. -/
def baseAndExponentInquiry : Inquiry α (Option (α × α)) := do
  let x ← .value 0 q
  let e ← .value 1 q
  let ex ← .error 0 q
  return if Power.hasPole x ex e then none else some (x, e)

/-- Asks which operand is the smaller one. -/
def smallerInquiry : Inquiry α Nat :=
  selectInquiry q fun a b => b < a

/-- Asks which operand is the larger one. -/
def largerInquiry : Inquiry α Nat :=
  selectInquiry q fun a b => a < b

theorem run_divisorInquiry : (divisorInquiry q).run inputs = divisor? inputs q :=
  rfl

theorem run_baseAndExponentInquiry :
    (baseAndExponentInquiry q).run inputs = baseAndExponent? inputs q :=
  rfl

/-! ### Operations -/

/-- The questions behind the result of an operation. -/
def valueInquiry : Operator → Inquiry α α
  | .sum => return (← .value 0 q) + (← .value 1 q)
  | .difference => return (← .value 0 q) - (← .value 1 q)
  | .product => do
    if ← .bothBound then return (← .value 0 q) * (← .value 1 q) else return 0.0
  | .ratio => do
    match ← divisorInquiry q with
    | some b => return (← .value 0 q) / b
    | none => return 0.0
  | .power => do
    match ← baseAndExponentInquiry q with
    | some (x, e) => return Power.apply x e
    | none => return 0.0
  | .min => return Arith.min (← .value 0 q) (← .value 1 q)
  | .max => return Arith.max (← .value 0 q) (← .value 1 q)

/-- The questions behind the error of an operation. -/
def errorInquiry : Operator → Inquiry α α
  | .sum | .difference => return (← .error 0 q) + (← .error 1 q)
  | .product => do
    if ← .bothBound then
      let a ← .value 0 q
      let b ← .value 1 q
      return Bound.product a (← .error 0 q) b (← .error 1 q)
    else return 0.0
  | .ratio => do
    match ← divisorInquiry q with
    | some b => return Bound.ratio (← .value 0 q) (← .error 0 q) b (← .error 1 q)
    | none => return Bound.poleError
  | .power => do
    match ← baseAndExponentInquiry q with
    | some (x, e) => return Power.error x (← .error 0 q) e (← .error 1 q)
    | none => return Bound.poleError
  | .min => do .error (← smallerInquiry q) q
  | .max => do .error (← largerInquiry q) q

/-- The questions behind the gradient of an operation. -/
def gradientInquiry : Operator → Inquiry α (Vec α)
  | .sum => return (← .gradient 0 q) + (← .gradient 1 q)
  | .difference => return (← .gradient 0 q) - (← .gradient 1 q)
  | .product => do
    if ← .bothBound then
      let a ← .value 0 q
      let b ← .value 1 q
      return (← .gradient 1 q).scale a + (← .gradient 0 q).scale b
    else return Vec.zero
  | .ratio => do
    match ← divisorInquiry q with
    | some b =>
      let a ← .value 0 q
      return ((← .gradient 0 q).scale b - (← .gradient 1 q).scale a).scale (1.0 / (b * b))
    | none => return Vec.zero
  | .power => do
    match ← baseAndExponentInquiry q with
    | some (x, e) =>
      return ((← .gradient 0 q).scale (Power.baseSlope x e)
        + (← .gradient 1 q).scale (Power.exponentSlope x e)).finiteOrZero
    | none => return Vec.zero
  | .min => do .gradient (← smallerInquiry q) q
  | .max => do .gradient (← largerInquiry q) q

theorem run_valueInquiry (op : Operator) : (valueInquiry q op).run inputs = op.value inputs q := by
  cases op with
  | sum | difference | min | max => rfl
  | product =>
    rw [valueInquiry, Inquiry.run_bind, Inquiry.run_bothBound, Inquiry.run_ite]
    rfl
  | ratio =>
    simp only [valueInquiry, Operator.value, Inquiry.run_bind, run_divisorInquiry]
    cases divisor? inputs q <;> rfl
  | power =>
    simp only [valueInquiry, Operator.value, Inquiry.run_bind, run_baseAndExponentInquiry]
    cases baseAndExponent? inputs q <;> rfl

theorem run_errorInquiry (op : Operator) : (errorInquiry q op).run inputs = op.error inputs q := by
  cases op with
  | sum | difference | min | max => rfl
  | product =>
    rw [errorInquiry, Inquiry.run_bind, Inquiry.run_bothBound, Inquiry.run_ite]
    rfl
  | ratio =>
    simp only [errorInquiry, Operator.error, Inquiry.run_bind, run_divisorInquiry]
    cases divisor? inputs q <;> rfl
  | power =>
    simp only [errorInquiry, Operator.error, Inquiry.run_bind, run_baseAndExponentInquiry]
    cases baseAndExponent? inputs q <;> rfl

theorem run_gradientInquiry (op : Operator) :
    (gradientInquiry q op).run inputs = op.gradient inputs q := by
  cases op with
  | sum | difference | min | max => rfl
  | product =>
    rw [gradientInquiry, Inquiry.run_bind, Inquiry.run_bothBound, Inquiry.run_ite]
    rfl
  | ratio =>
    simp only [gradientInquiry, Operator.gradient, Inquiry.run_bind, run_divisorInquiry]
    cases divisor? inputs q <;> rfl
  | power =>
    simp only [gradientInquiry, Operator.gradient, Inquiry.run_bind, run_baseAndExponentInquiry]
    cases baseAndExponent? inputs q <;> rfl

/-! ### Only the operands are asked for -/

theorem asks_divisorInquiry : (divisorInquiry q).Asks (Question.OnNumbers 2) := by
  simp [divisorInquiry, Question.OnNumbers]

theorem asks_baseAndExponentInquiry :
    (baseAndExponentInquiry q).Asks (Question.OnNumbers 2) := by
  simp [baseAndExponentInquiry, Question.OnNumbers]

theorem asks_valueInquiry (op : Operator) :
    (valueInquiry q op).Asks (Question.OnNumbers 2) := by
  cases op with
  | sum | difference | min | max => simp [valueInquiry, Question.OnNumbers]
  | product =>
    refine (Inquiry.asks_bothBound fun _ hi => hi).bind fun both => ?_
    simp [Question.OnNumbers]
  | ratio =>
    refine (asks_divisorInquiry q).bind fun b => ?_
    cases b <;> simp [Question.OnNumbers]
  | power =>
    refine (asks_baseAndExponentInquiry q).bind fun xe => ?_
    cases xe <;> simp

theorem asks_errorInquiry (op : Operator) :
    (errorInquiry q op).Asks (Question.OnNumbers 2) := by
  cases op with
  | sum | difference => simp [errorInquiry, Question.OnNumbers]
  | product =>
    refine (Inquiry.asks_bothBound fun _ hi => hi).bind fun both => ?_
    simp [Question.OnNumbers]
  | ratio =>
    refine (asks_divisorInquiry q).bind fun b => ?_
    cases b <;> simp [Question.OnNumbers]
  | power =>
    refine (asks_baseAndExponentInquiry q).bind fun xe => ?_
    cases xe <;> simp [Question.OnNumbers]
  | min | max => exact asks_selectInquiry_bind q fun i hi => (Inquiry.asks_error i q).mpr hi

theorem asks_gradientInquiry (op : Operator) :
    (gradientInquiry q op).Asks (Question.OnNumbers 2) := by
  cases op with
  | sum | difference => simp [gradientInquiry, Question.OnNumbers]
  | product =>
    refine (Inquiry.asks_bothBound fun _ hi => hi).bind fun both => ?_
    simp [Question.OnNumbers]
  | ratio =>
    refine (asks_divisorInquiry q).bind fun b => ?_
    cases b <;> simp [Question.OnNumbers]
  | power =>
    refine (asks_baseAndExponentInquiry q).bind fun xe => ?_
    cases xe <;> simp [Question.OnNumbers]
  | min | max => exact asks_selectInquiry_bind q fun i hi => (Inquiry.asks_gradient i q).mpr hi

theorem inputKind?_signature (op : Operator) :
    ∀ i < 2, (op.signature : Signature α).inputKind? i = some .scalar := by
  intro i hi
  interval_cases i <;> cases op <;> rfl

instance : Inquiring Operator α where
  inquiry op operation _ q :=
    .ofNumbers (valueInquiry q op) (errorInquiry q op) (gradientInquiry q op) operation
  run_inquiry op operation _ q inputs :=
    Inquiry.run_ofNumbers (run_valueInquiry q inputs op) rfl (run_errorInquiry q inputs op)
      (run_gradientInquiry q inputs op) operation
  asks_inquiry op operation _ q _ _ _ :=
    (Inquiry.asks_ofNumbers (asks_valueInquiry q op) (asks_errorInquiry q op)
      (asks_gradientInquiry q op) operation).imp fun _ h => h.admittedBy (inputKind?_signature op)

end TextureGraph.Operator
