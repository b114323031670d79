import TextureGraph.Catalog.Texture
import TextureGraph.Proofs.Inquiry.Basic
import Mathlib.Tactic.IntervalCases

/-!
# Questions of patterns

Patterns ask for their position; all but cells ask at once for all that is to be known of it, and for
the persistence, whatever they are asked for themselves.
-/

namespace TextureGraph.Texture

variable {α : Type} (q : Query α) (inputs : Inputs α) (output : Nat)

/-! ### Fractals -/

/-- What a fractal asks for: the position, its errors and gradients, and the persistence. -/
structure Surroundings (α : Type) where
  /-- The position. -/
  position : Vec α
  /-- The errors of the position. -/
  error : Vec α
  /-- The gradients of the position. -/
  gradients : Vec (Vec α)
  /-- The persistence. -/
  persistence : α

/-- Asks for all of it. -/
def surroundingsInquiry : Inquiry α (Surroundings α) :=
  return ⟨← .position q, ← .positionError q, ← .positionGradients q, ← .value 3 q⟩

theorem asks_surroundingsInquiry : (surroundingsInquiry q).Asks (Question.OnNumbers 4) := by
  have hlt : ∀ i < 3, i < 4 := fun i hi => Nat.lt_succ_of_lt hi
  refine (Inquiry.asks_position hlt).bind fun p => ?_
  refine (Inquiry.asks_positionError hlt).bind fun e => ?_
  refine (Inquiry.asks_positionGradients hlt).bind fun g => ?_
  simp [Question.OnNumbers]

variable [Arith α]

/-- The octaves at a position, as `Octaves.estimate` finds them from the inputs. -/
def Surroundings.estimate (s : Surroundings α) (o : Octaves α) (mode : Pattern.Mode) (share : α) :
    Estimate α :=
  Pattern.fractal mode o.count (share * o.amplitude) s.persistence s.position s.error

/-- What is known of wood at a position. -/
def Surroundings.wood (s : Surroundings α) (o : Octaves α) (spacing : α) (fractionOnly : Bool) :
    Estimate α :=
  Pattern.wood spacing fractionOnly (s.estimate o .absolute 0.5) s.position s.error s.gradients

/-! ### Cells -/

/-- Asks for the two nearest feature points and for the error of the distances. -/
def nearestInquiry (metric : Metric) :
    Inquiry α ((Pattern.Feature α × Pattern.Feature α) × α) := do
  let (first, second) := Pattern.nearestTwo metric (← .position q)
  let error := metric.spread (← .positionError q)
  return ((Pattern.orFar first, Pattern.orFar second), error)

/-- Asks for the gradient in space of a distance. -/
def distanceGradientInquiry (feature : Pattern.Feature α) : Inquiry α (Vec α) := do
  return feature.gradient.combine (← .positionGradients q)

/-! ### Operations -/

/-- The questions behind the value of a pattern. -/
def valueInquiry : Texture α → Inquiry α α
  | .cells metric => do
    let ((first, second), error) ← nearestInquiry q metric
    return match output with
      | 0 => Pattern.cellValue first second error
      | 1 => first.distance
      | 2 => second.distance
      | _ => 0.0
  | .noise o => return 0.5 + ((← surroundingsInquiry q).estimate o .signed 0.5).value
  | .turbulence o => return ((← surroundingsInquiry q).estimate o .absolute 1.0).value
  | .wood o spacing fractionOnly =>
    return ((← surroundingsInquiry q).wood o spacing fractionOnly).value

/-- The questions behind the error of a pattern. -/
def errorInquiry : Texture α → Inquiry α α
  | .cells metric => do
    let ((first, second), error) ← nearestInquiry q metric
    return if output = cellOutput then Pattern.cellError first second error else error
  | .noise o => return ((← surroundingsInquiry q).estimate o .signed 0.5).error
  | .turbulence o => return ((← surroundingsInquiry q).estimate o .absolute 1.0).error
  | .wood o spacing fractionOnly =>
    return ((← surroundingsInquiry q).wood o spacing fractionOnly).error

/-- The questions behind the gradient of a pattern. -/
def gradientInquiry : Texture α → Inquiry α (Vec α)
  | .cells metric => do
    let ((first, second), _) ← nearestInquiry q metric
    match output with
    | 1 => distanceGradientInquiry q first
    | 2 => distanceGradientInquiry q second
    | _ => return Vec.zero
  | .noise o => do
    let s ← surroundingsInquiry q
    return (s.estimate o .signed 0.5).gradient.combine s.gradients
  | .turbulence o => do
    let s ← surroundingsInquiry q
    return (s.estimate o .absolute 1.0).gradient.combine s.gradients
  | .wood o spacing fractionOnly =>
    return ((← surroundingsInquiry q).wood o spacing fractionOnly).gradient

theorem run_valueInquiry (m : Texture α) :
    (valueInquiry q output m).run inputs = m.value output inputs q := by
  cases m <;> rfl

theorem run_errorInquiry (m : Texture α) :
    (errorInquiry q output m).run inputs = m.error output inputs q := by
  cases m <;> rfl

theorem run_gradientInquiry (m : Texture α) :
    (gradientInquiry q output m).run inputs = m.gradient output inputs q := by
  cases m with
  | noise | turbulence | wood => rfl
  | cells metric =>
    match output with
    | 0 | 1 | 2 | _ + 3 => rfl

/-! ### Only numbers are asked for -/

/-- How many inputs a pattern has. -/
def inputCount : Texture α → Nat
  | .noise _ | .turbulence _ | .wood .. => 4
  | .cells _ => 3

theorem inputKind?_signature (m : Texture α) :
    ∀ i < m.inputCount, m.signature.inputKind? i = some .scalar := by
  intro i hi
  cases m <;> simp only [inputCount] at hi <;> interval_cases i <;> rfl

theorem asks_nearestInquiry (metric : Metric) :
    (nearestInquiry q metric).Asks (Question.OnNumbers 3) := by
  refine (Inquiry.asks_position fun _ hi => hi).bind fun p => ?_
  exact (Inquiry.asks_positionError fun _ hi => hi).bind fun e => Inquiry.asks_pure _

theorem asks_distanceGradientInquiry (feature : Pattern.Feature α) :
    (distanceGradientInquiry q feature).Asks (Question.OnNumbers 3) :=
  (Inquiry.asks_positionGradients fun _ hi => hi).bind fun _ => Inquiry.asks_pure _

theorem asks_valueInquiry (m : Texture α) :
    (valueInquiry q output m).Asks (Question.OnNumbers m.inputCount) := by
  cases m with
  | noise | turbulence | wood =>
    exact (asks_surroundingsInquiry q).bind fun s => Inquiry.asks_pure _
  | cells metric => exact (asks_nearestInquiry q metric).bind fun near => Inquiry.asks_pure _

theorem asks_errorInquiry (m : Texture α) :
    (errorInquiry q output m).Asks (Question.OnNumbers m.inputCount) := by
  cases m with
  | noise | turbulence | wood =>
    exact (asks_surroundingsInquiry q).bind fun s => Inquiry.asks_pure _
  | cells metric => exact (asks_nearestInquiry q metric).bind fun near => Inquiry.asks_pure _

theorem asks_gradientInquiry (m : Texture α) :
    (gradientInquiry q output m).Asks (Question.OnNumbers m.inputCount) := by
  cases m with
  | noise | turbulence | wood =>
    exact (asks_surroundingsInquiry q).bind fun s => Inquiry.asks_pure _
  | cells metric =>
    refine (asks_nearestInquiry q metric).bind fun near => ?_
    match output with
    | 0 | _ + 3 => exact Inquiry.asks_pure _
    | 1 | 2 => exact asks_distanceGradientInquiry q _

instance : Inquiring (Texture α) α where
  inquiry m operation output q :=
    .ofNumbers (valueInquiry q output m) (errorInquiry q output m) (gradientInquiry q output m)
      operation
  run_inquiry m operation output q inputs :=
    Inquiry.run_ofNumbers (run_valueInquiry q inputs output m) rfl
      (run_errorInquiry q inputs output m) (run_gradientInquiry q inputs output m) operation
  asks_inquiry m operation output q _ _ _ :=
    (Inquiry.asks_ofNumbers (asks_valueInquiry q output m) (asks_errorInquiry q output m)
      (asks_gradientInquiry q output m) operation).imp fun _ h =>
        h.admittedBy (inputKind?_signature m)

end TextureGraph.Texture
