import TextureGraph.Catalog.Shaping
import TextureGraph.Proofs.Inquiry.Basic
import Mathlib.Tactic.IntervalCases

/-!
# Questions of functions, mixes and blurs

All of them ask for numbers, except that a tap passes on a color from its second input.
-/

namespace TextureGraph.Shaping

variable {α : Type} [Arith α] (q : Query α) (inputs : Inputs α) (output : Nat)

/-! ### Operations -/

/-- Asks for the mean weight of the second of two mixed values. -/
def fractionInquiry : Inquiry α α := do
  let f ← .value 2 q
  let e ← .error 2 q
  return Mean.fraction f e

/-- Asks for an end of a mix; one that has no weight is not asked for. -/
def endInquiry (i : Nat) (weightless : Bool) : Inquiry α α :=
  if weightless then pure 0.0 else .value i q

/-- Adds the weighted gradient of an end of a mix; one that has no weight is not asked for. -/
def addGradientInquiry (i : Nat) (weightless : Bool) (weight : α) (sum : Vec α) :
    Inquiry α (Vec α) :=
  if weightless then pure sum else (fun g => sum + g.scale weight) <$> .gradient i q

/-- Asks for the blur that is added to the request. -/
def widenedInquiry : Inquiry α (Query α) := do
  let extra ← .value 0 q
  return { q with blur := q.blur + Arith.max extra 0.0 }

/-- The questions behind the number that a module yields. -/
def valueInquiry : Shaping → Inquiry α α
  | .abs => return Mean.abs (← .value 0 q) (← .error 0 q)
  | .exp => return Mean.exp (← .value 0 q) (← .error 0 q)
  | .sine => return Mean.sin (← .value 0 q) (← .error 0 q)
  | .cosine => return Mean.cos (← .value 0 q) (← .error 0 q)
  | .interpolate => do
    let f ← fractionInquiry q
    let a ← endInquiry q 0 (f == 1.0)
    let b ← endInquiry q 1 (f == 0.0)
    return (1.0 - f) * a + f * b
  | .blur => do .value 1 (← widenedInquiry q)
  | .tap => if output = 1 then Color.brightness <$> .color 1 q else .value 0 q

/-- The questions behind the color that a module yields. -/
def colorInquiry : Shaping → Inquiry α (Color α)
  | .tap => if output = 0 then Color.gray <$> .value 0 q else .color 1 q
  | m => Color.gray <$> valueInquiry q output m

/-- The questions behind the error of a module. -/
def errorInquiry : Shaping → Inquiry α α
  | .abs => .error 0 q
  | .exp => return (← .error 0 q) * Mean.exp (← .value 0 q) (← .error 0 q)
  | .sine => return Bound.periodic (Arith.cos (← .value 0 q)) (← .error 0 q)
  | .cosine => return Bound.periodic (Arith.sin (← .value 0 q)) (← .error 0 q)
  | .interpolate => do
    let f ← fractionInquiry q
    return (1.0 - f) * (← .error 0 q) + f * (← .error 1 q)
  | .blur => do .error 1 (← widenedInquiry q)
  | .tap => if output = 0 then .error 0 q else .error 1 q

/-- The questions behind the gradient of a module. -/
def gradientInquiry : Shaping → Inquiry α (Vec α)
  | .abs => do
    let slope := Mean.absSlope (← .value 0 q) (← .error 0 q)
    return (← .gradient 0 q).scale slope
  | .exp => return (← .gradient 0 q).scale (Arith.exp (← .value 0 q))
  | .sine => return (← .gradient 0 q).scale (Arith.cos (← .value 0 q))
  | .cosine => return (← .gradient 0 q).scale (-Arith.sin (← .value 0 q))
  | .interpolate => do
    let f ← fractionInquiry q
    let first ← addGradientInquiry q 0 (f == 1.0) (1.0 - f) Vec.zero
    addGradientInquiry q 1 (f == 0.0) f first
  | .blur => do .gradient 1 (← widenedInquiry q)
  | .tap => if output = 0 then .gradient 0 q else return Vec.zero

theorem run_fractionInquiry : (fractionInquiry q).run inputs = fraction inputs q :=
  rfl

theorem run_endInquiry (i : Nat) (weightless : Bool) :
    (endInquiry q i weightless).run inputs = if weightless then 0.0 else inputs.value i q := by
  cases weightless <;> rfl

theorem run_addGradientInquiry (i : Nat) (weightless : Bool) (weight : α) (sum : Vec α) :
    (addGradientInquiry q i weightless weight sum).run inputs
      = if weightless then sum else sum + (inputs.gradient i q).scale weight := by
  cases weightless <;> rfl

theorem run_valueInquiry (m : Shaping) :
    (valueInquiry q output m).run inputs = m.value inputs q output := by
  cases m with
  | abs | exp | sine | cosine | blur => rfl
  | interpolate =>
    simp only [valueInquiry, value, Inquiry.run_bind, Inquiry.run_pure, run_fractionInquiry,
      run_endInquiry]
  | tap => simp [valueInquiry, value]

theorem run_colorInquiry (m : Shaping) :
    (colorInquiry q output m).run inputs = TextureModule.colorValue m output inputs q := by
  cases m with
  | tap => simp [colorInquiry, TextureModule.colorValue]
  | abs | exp | sine | cosine | interpolate | blur =>
    -- The equation of `colorInquiry` for these modules holds of all modules but `tap`.
    rw [colorInquiry, Inquiry.run_map, run_valueInquiry]
    · rfl
    · rintro ⟨⟩

theorem run_errorInquiry (m : Shaping) :
    (errorInquiry q output m).run inputs = m.error inputs q output := by
  cases m with
  | abs | exp | sine | cosine | interpolate | blur => rfl
  | tap => simp [errorInquiry, error]

theorem run_gradientInquiry (m : Shaping) :
    (gradientInquiry q output m).run inputs = m.gradient inputs q output := by
  cases m with
  | abs | exp | sine | cosine | blur => rfl
  | interpolate =>
    simp only [gradientInquiry, gradient, Inquiry.run_bind, run_fractionInquiry,
      run_addGradientInquiry]
  | tap => simp [gradientInquiry, gradient]

/-! ### Only what the inputs carry is asked for -/

/-- How many of the inputs, from the first one on, carry numbers. -/
def numberInputs : Shaping → Nat
  | .abs | .exp | .sine | .cosine | .tap => 1
  | .interpolate => 3
  | .blur => 2

theorem inputKind?_signature (m : Shaping) :
    ∀ i < m.numberInputs, (m.signature : Signature α).inputKind? i = some .scalar := by
  intro i hi
  cases m <;> simp only [numberInputs] at hi <;> interval_cases i <;> rfl

theorem asks_fractionInquiry : (fractionInquiry q).Asks (Question.OnNumbers 3) := by
  simp [fractionInquiry, Question.OnNumbers]

theorem asks_endInquiry {i : Nat} (hi : i < 3) (weightless : Bool) :
    (endInquiry q i weightless).Asks (Question.OnNumbers 3) := by
  simp [endInquiry, Question.OnNumbers, hi]

theorem asks_addGradientInquiry {i : Nat} (hi : i < 3) (weightless : Bool) (weight : α)
    (sum : Vec α) :
    (addGradientInquiry q i weightless weight sum).Asks (Question.OnNumbers 3) := by
  simp [addGradientInquiry, Question.OnNumbers, hi]

theorem asks_widenedInquiry : (widenedInquiry q).Asks (Question.OnNumbers 2) := by
  simp [widenedInquiry, Question.OnNumbers]

theorem asks_valueInquiry {m : Shaping} (hm : m ≠ .tap) :
    (valueInquiry q output m).Asks (Question.OnNumbers m.numberInputs) := by
  cases m with
  | abs | exp | sine | cosine => simp [valueInquiry, numberInputs, Question.OnNumbers]
  | interpolate =>
    refine (asks_fractionInquiry q).bind fun f => ?_
    refine (asks_endInquiry q (by decide) _).bind fun a => ?_
    exact (asks_endInquiry q (by decide) _).bind fun b => Inquiry.asks_pure _
  | blur =>
    refine (asks_widenedInquiry q).bind fun wide => ?_
    simp [Question.OnNumbers]
  | tap => exact absurd rfl hm

theorem asks_errorInquiry {m : Shaping} (hm : m ≠ .tap) :
    (errorInquiry q output m).Asks (Question.OnNumbers m.numberInputs) := by
  cases m with
  | abs | exp | sine | cosine => simp [errorInquiry, numberInputs, Question.OnNumbers]
  | interpolate =>
    refine (asks_fractionInquiry q).bind fun f => ?_
    simp [Question.OnNumbers]
  | blur =>
    refine (asks_widenedInquiry q).bind fun wide => ?_
    simp [Question.OnNumbers]
  | tap => exact absurd rfl hm

theorem asks_gradientInquiry {m : Shaping} (hm : m ≠ .tap) :
    (gradientInquiry q output m).Asks (Question.OnNumbers m.numberInputs) := by
  cases m with
  | abs | exp | sine | cosine => simp [gradientInquiry, numberInputs, Question.OnNumbers]
  | interpolate =>
    refine (asks_fractionInquiry q).bind fun f => ?_
    refine (asks_addGradientInquiry q (by decide) _ _ _).bind fun first => ?_
    exact asks_addGradientInquiry q (by decide) _ _ _
  | blur =>
    refine (asks_widenedInquiry q).bind fun wide => ?_
    simp [Question.OnNumbers]
  | tap => exact absurd rfl hm

/-- The questions behind an operation. -/
def inquiry (m : Shaping) : (operation : Operation) → Inquiry α (operation.Result α)
  | .value => valueInquiry q output m
  | .color => colorInquiry q output m
  | .error => errorInquiry q output m
  | .gradient => gradientInquiry q output m

/-- A tap asks its first input for numbers, and its second one for colors. -/
theorem asks_inquiry_tap {kind : SocketKind} {operation : Operation}
    (hkind : (signature .tap : Signature α).outputKind? output = some kind)
    (hsuits : operation.Suits kind) :
    (inquiry q output .tap operation).Asks (Question.AdmittedBy (signature .tap)) := by
  have hnumber : (signature .tap : Signature α).inputKind? 0 = some .scalar := rfl
  have hcolor : (signature .tap : Signature α).inputKind? 1 = some .color := rfl
  match output, hkind with
  | 0, rfl => cases operation with
    | value => exact (Inquiry.asks_value 0 q).mpr ⟨_, hnumber, hsuits⟩
    | color => cases hsuits
    | error => exact (Inquiry.asks_error 0 q).mpr ⟨_, hnumber⟩
    | gradient => exact (Inquiry.asks_gradient 0 q).mpr ⟨_, hnumber, hsuits⟩
  | 1, rfl => cases operation with
    | value => exact absurd rfl hsuits
    | color => exact (Inquiry.asks_color 1 q).mpr hcolor
    | error => exact (Inquiry.asks_error 1 q).mpr ⟨_, hcolor⟩
    | gradient => exact absurd rfl hsuits

/-- The other modules ask for numbers only. -/
theorem asks_inquiry {m : Shaping} (hm : m ≠ .tap) (operation : Operation) :
    (inquiry q output m operation).Asks (Question.OnNumbers m.numberInputs) := by
  have hvalue := asks_valueInquiry q output hm
  cases operation with
  | value => exact hvalue
  | color =>
    rw [inquiry, colorInquiry]
    · exact (Inquiry.asks_map _ _).mpr hvalue
    · exact hm
  | error => exact asks_errorInquiry q output hm
  | gradient => exact asks_gradientInquiry q output hm

instance : Inquiring Shaping α where
  inquiry m operation output q := inquiry q output m operation
  run_inquiry m operation output q inputs := by
    cases operation with
    | value => exact run_valueInquiry q inputs output m
    | color => exact run_colorInquiry q inputs output m
    | error => exact run_errorInquiry q inputs output m
    | gradient => exact run_gradientInquiry q inputs output m
  asks_inquiry m operation output q kind hkind hsuits := by
    by_cases hm : m = .tap
    · subst hm
      exact asks_inquiry_tap q output hkind hsuits
    · exact (asks_inquiry q output hm operation).imp fun _ h =>
        h.admittedBy (inputKind?_signature m)

end TextureGraph.Shaping
