import TextureGraph.Catalog.Composition
import TextureGraph.Proofs.Inquiry.Basic
import Mathlib.Tactic.IntervalCases

/-!
# Questions of compositions

Sums, products, mixes and choices of colors ask their first two inputs for colors, or the second one
for a factor; the modules that make a color from numbers, or take one apart, ask for three numbers.
-/

namespace TextureGraph.Composition

variable {α : Type} (q : Query α) (inputs : Inputs α) (output : Nat)

/-! ### Parts -/

/-- Asks for two colors and chooses one of them, the second one if `second` holds. -/
def pickInquiry (second : Color α → Color α → Prop) [∀ a b, Decidable (second a b)] :
    Inquiry α (Nat × Color α) := do
  let a ← .color 0 q
  let b ← .color 1 q
  return if second a b then (1, b) else (0, a)

/-- What is asked of the chosen color is asked of one of the two. -/
theorem asks_pickInquiry_bind {β : Type} {P : Question α → Prop}
    {second : Color α → Color α → Prop} [∀ a b, Decidable (second a b)]
    {f : Nat × Color α → Inquiry α β} (hcolor : ∀ i < 2, P (.color i q))
    (hf : ∀ i < 2, ∀ c, (f (i, c)).Asks P) : (pickInquiry q second >>= f).Asks P := by
  simp only [pickInquiry, bind_assoc, pure_bind, Inquiry.asks_color_bind]
  refine ⟨hcolor 0 (by decide), fun a => ⟨hcolor 1 (by decide), fun b => ?_⟩⟩
  split
  · exact hf 1 (by decide) b
  · exact hf 0 (by decide) a

variable [Arith α]

/-- Asks for the mean weight of the second color of a blend. -/
def fractionInquiry : Inquiry α α := do
  let f ← .value 2 q
  let e ← .error 2 q
  return Mean.fraction f e

/-- Asks for the hue, the saturation and the value of a color; the saturation is kept between zero
and one. -/
def hsvInquiry : Inquiry α (α × α × α) := do
  let hue ← .value 0 q
  let s ← .value 1 q
  let v ← .value 2 q
  return (hue, Arith.clamp 0.0 1.0 s, v)

/-- Asks for the channels of a color. -/
def channelsInquiry : Inquiry α (Color α) :=
  return ⟨← .value 0 q, ← .value 1 q, ← .value 2 q⟩

/-- Asks for the input of lower brightness and its color. -/
def darkerInquiry : Inquiry α (Nat × Color α) :=
  pickInquiry q fun a b => b.brightness < a.brightness

/-- Asks for the input of higher brightness and its color. -/
def lighterInquiry : Inquiry α (Nat × Color α) :=
  pickInquiry q fun a b => a.brightness < b.brightness

/-- Asks for the color with a given hue, saturation and value. -/
def hsvColorInquiry : Inquiry α (Color α) := do
  let (hue, s, v) ← hsvInquiry q
  let e ← .error 0 q
  let spread := Arith.min (0.5 * e) maxHueSpread
  return if spread == 0.0 then ofTurns hue s v
    else (ofTurns (hue - spread) s v).lerp (ofTurns (hue + spread) s v) 0.5

/-- Asks for the largest error of the three channels. -/
def channelErrorInquiry : Inquiry α α := do
  let a ← .error 0 q
  let b ← .error 1 q
  let c ← .error 2 q
  return [a, b, c].foldl Arith.max 0.0

/-! ### Operations -/

/-- The questions behind the color that a module yields. -/
def colorInquiry : Composition → Inquiry α (Color α)
  | .sum => return (← .color 0 q) + (← .color 1 q)
  | .difference => return (← .color 0 q) - (← .color 1 q)
  | .product => return (← .color 0 q) * (← .color 1 q)
  | .scale => return (← .color 0 q).scale (← .value 1 q)
  | .blend => do
    let f ← fractionInquiry q
    if f == 0.0 then .color 0 q
    else if f == 1.0 then .color 1 q
    else return (← .color 0 q).lerp (← .color 1 q) f
  | .darker => Prod.snd <$> darkerInquiry q
  | .lighter => Prod.snd <$> lighterInquiry q
  | .ofHsv => hsvColorInquiry q
  | .ofRgb => channelsInquiry q
  | .toHsv => return Color.gray (hsvCoordinate (← channelsInquiry q) output)

/-- The questions behind the number that a module yields; only `toHsv` has any. -/
def valueInquiry : Composition → Inquiry α α
  | .toHsv => return hsvCoordinate (← channelsInquiry q) output
  | _ => return 0.0

/-- The questions behind the error of a module. -/
def errorInquiry : Composition → Inquiry α α
  | .sum | .difference => return (← .error 0 q) + (← .error 1 q)
  | .product => do
    let a ← .color 0 q
    let b ← .color 1 q
    return a.maxAbsChannel * (← .error 1 q) + b.maxAbsChannel * (← .error 0 q)
  | .scale => do
    let color ← .color 0 q
    let scale ← .value 1 q
    return color.maxAbsChannel * (← .error 1 q) + Arith.abs scale * (← .error 0 q)
  | .blend => do
    let f ← fractionInquiry q
    let second ← .color 1 q
    let first ← .color 0 q
    let spread := (second - first).maxAbsChannel
    return (1.0 - f) * (← .error 0 q) + f * (← .error 1 q)
      + spread * Arith.min (← .error 2 q) 1.0
  | .darker => do .error (← darkerInquiry q).1 q
  | .lighter => do .error (← lighterInquiry q).1 q
  | .ofHsv => do
    let (_, s, v) ← hsvInquiry q
    let hue := 6.0 * s * Arith.abs v * Arith.min (← .error 0 q) maxHueSpread
    return hue + Arith.abs v * (← .error 1 q) + (← .error 2 q)
  | .ofRgb | .toHsv => channelErrorInquiry q

theorem run_fractionInquiry : (fractionInquiry q).run inputs = fraction inputs q :=
  rfl

theorem run_colorInquiry (m : Composition) :
    (colorInquiry q output m).run inputs = m.color inputs q output := by
  cases m with
  | blend =>
    rw [colorInquiry, Inquiry.run_bind, run_fractionInquiry]
    simp [color]
  | sum | difference | product | scale | darker | lighter | ofHsv | ofRgb | toHsv => rfl

theorem run_valueInquiry (m : Composition) :
    (valueInquiry q output m).run inputs = m.value inputs q output := by
  cases m <;> rfl

theorem run_errorInquiry (m : Composition) :
    (errorInquiry q m).run inputs = m.error inputs q := by
  cases m <;> rfl

/-! ### Only what the inputs carry is asked for -/

/-- The kinds of the inputs. -/
def inputKinds : Composition → List SocketKind
  | .sum | .difference | .product | .darker | .lighter => [.color, .color]
  | .scale => [.color, .scalar]
  | .blend => [.color, .color, .scalar]
  | .ofHsv | .ofRgb | .toHsv => [.scalar, .scalar, .scalar]

theorem inputKind?_signature (m : Composition) (input : Nat) :
    (m.signature : Signature α).inputKind? input = m.inputKinds[input]? :=
  Signature.inputKind?_eq (by cases m <;> rfl) input

theorem asks_fractionInquiry :
    (fractionInquiry q).Asks (Question.AdmittedBy (signature .blend)) := by
  simp [fractionInquiry, Question.AdmittedBy, inputKind?_signature, inputKinds]

/-- The two modules that choose a color may ask for both. -/
theorem inputKind?_of_lt_two {m : Composition} (hm : m = .darker ∨ m = .lighter) :
    ∀ i < 2, (m.signature : Signature α).inputKind? i = some .color := by
  intro i hi
  rcases hm with rfl | rfl <;> interval_cases i <;> rfl

theorem asks_colorInquiry (m : Composition) :
    (colorInquiry q output m).Asks (Question.AdmittedBy m.signature) := by
  cases m with
  | sum | difference | product | scale =>
    simp [colorInquiry, Question.AdmittedBy, inputKind?_signature, inputKinds]
  | blend =>
    refine (asks_fractionInquiry q).bind fun f => ?_
    simp [Question.AdmittedBy, inputKind?_signature, inputKinds]
  | darker =>
    exact asks_pickInquiry_bind q (inputKind?_of_lt_two (.inl rfl)) fun i hi c =>
      Inquiry.asks_pure c
  | lighter =>
    exact asks_pickInquiry_bind q (inputKind?_of_lt_two (.inr rfl)) fun i hi c =>
      Inquiry.asks_pure c
  | ofHsv =>
    simp [colorInquiry, hsvColorInquiry, hsvInquiry, Question.AdmittedBy, inputKind?_signature,
      inputKinds]
  | ofRgb | toHsv =>
    simp [colorInquiry, channelsInquiry, Question.AdmittedBy, inputKind?_signature, inputKinds]

theorem asks_valueInquiry (m : Composition) :
    (valueInquiry q output m).Asks (Question.AdmittedBy m.signature) := by
  cases m with
  | toHsv =>
    simp [valueInquiry, channelsInquiry, Question.AdmittedBy, inputKind?_signature, inputKinds]
  | sum | difference | product | scale | blend | darker | lighter | ofHsv | ofRgb =>
    exact Inquiry.asks_pure _

theorem asks_errorInquiry (m : Composition) :
    (errorInquiry q m).Asks (Question.AdmittedBy m.signature) := by
  cases m with
  | sum | difference | product | scale =>
    simp [errorInquiry, Question.AdmittedBy, inputKind?_signature, inputKinds]
  | blend =>
    refine (asks_fractionInquiry q).bind fun f => ?_
    simp [Question.AdmittedBy, inputKind?_signature, inputKinds]
  | darker =>
    have hcolor := inputKind?_of_lt_two (α := α) (m := .darker) (.inl rfl)
    exact asks_pickInquiry_bind q hcolor fun i hi c =>
      (Inquiry.asks_error i q).mpr ⟨_, hcolor i hi⟩
  | lighter =>
    have hcolor := inputKind?_of_lt_two (α := α) (m := .lighter) (.inr rfl)
    exact asks_pickInquiry_bind q hcolor fun i hi c =>
      (Inquiry.asks_error i q).mpr ⟨_, hcolor i hi⟩
  | ofHsv =>
    simp [errorInquiry, hsvInquiry, Question.AdmittedBy, inputKind?_signature, inputKinds]
  | ofRgb | toHsv =>
    simp [errorInquiry, channelErrorInquiry, Question.AdmittedBy, inputKind?_signature, inputKinds]

/-- The questions behind an operation; gradients are zero and take no questions. -/
def inquiry (m : Composition) : (operation : Operation) → Inquiry α (operation.Result α)
  | .value => valueInquiry q output m
  | .color => colorInquiry q output m
  | .error => errorInquiry q m
  | .gradient => return Vec.zero

instance : Inquiring Composition α where
  inquiry m operation output q := inquiry q output m operation
  run_inquiry m operation output q inputs := by
    cases operation with
    | value => exact run_valueInquiry q inputs output m
    | color => exact run_colorInquiry q inputs output m
    | error => exact run_errorInquiry q inputs m
    | gradient => rfl
  asks_inquiry m operation output q _ _ _ := by
    cases operation with
    | value => exact asks_valueInquiry q output m
    | color => exact asks_colorInquiry q output m
    | error => exact asks_errorInquiry q m
    | gradient => exact Inquiry.asks_pure _

end TextureGraph.Composition
