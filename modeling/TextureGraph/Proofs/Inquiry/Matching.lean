import TextureGraph.Catalog.Matching
import TextureGraph.Proofs.Inquiry.Basic
import Mathlib.Tactic.IntervalCases

/-!
# Questions of tests for equality

`select` goes through its pairs of inputs one after another, leaves out those whose first input is not
bound, and stops at the first pair that is not equal.  Then it asks the input that it passes on.
-/

namespace TextureGraph.Matching

variable {α : Type} [Arith α] (q : Query α) (inputs : Inputs α)

/-! ### Pairs -/

/-- Asks whether the two inputs of a pair are equal within the tolerance. -/
def Pair.equalInquiry : Pair → Inquiry α Bool
  | .color => return (← .color 2 q).isClose standardTolerance (← .color 7 q)
  | .scalar i =>
    return Arith.abs ((← .value (3 + i) q) - (← .value (8 + i) q)) ≤ (standardTolerance : α)

/-- Asks whether all pairs that take part are equal.  `compared` says whether one has taken part
before. -/
def pairsInquiry : List Pair → Bool → Inquiry α Bool
  | [], compared => return compared
  | p :: rest, compared => do
    if ← .isBound p.first then
      if ← p.equalInquiry q then pairsInquiry rest true else return false
    else pairsInquiry rest compared

/-- Asks which input `select` passes on. -/
def selectedInquiry : Inquiry α Nat :=
  (fun equal => if equal then trueInput else falseInput) <$> pairsInquiry q Pair.all false

theorem Pair.run_equalInquiry (p : Pair) :
    (p.equalInquiry q).run inputs = p.isEqual inputs q := by
  cases p <;> rfl

/-- The walk over the pairs finds whether one of them takes part, and all that do are equal. -/
theorem run_pairsInquiry (pairs : List Pair) (compared : Bool) :
    (pairsInquiry q pairs compared).run inputs
      = let taking := pairs.filter fun p => inputs.isBound p.first
        (compared || !taking.isEmpty) && taking.all (Pair.isEqual inputs q) := by
  induction pairs generalizing compared with
  | nil => simp [pairsInquiry]
  | cons p rest ih =>
    rw [pairsInquiry, Inquiry.run_bind, Inquiry.run_isBound, Inquiry.run_ite]
    by_cases hbound : inputs.isBound p.first = true
    · rw [if_pos hbound, Inquiry.run_bind, Pair.run_equalInquiry, Inquiry.run_ite, ih]
      -- A pair that is not equal ends the walk, and makes all of them not equal.
      by_cases hequal : p.isEqual inputs q = true
      · simp [hbound, hequal]
      · simp [hbound, hequal]
    · rw [if_neg hbound, ih]
      simp [hbound]

theorem run_selectedInquiry : (selectedInquiry q).run inputs = selected inputs q := by
  rw [selectedInquiry, Inquiry.run_map, run_pairsInquiry]
  simp [selected, allEqual]

/-! ### Operations -/

/-- The questions behind the result of a test. -/
def valueInquiry : Matching α → Inquiry α α
  | .select => do .value (← selectedInquiry q) q
  | .numbers tolerance => do
    if ← .bothBound then
      return Arith.ofBool (Arith.abs ((← .value 0 q) - (← .value 1 q)) < tolerance)
    else return 0.0
  | .colors => return Arith.ofBool ((← .color 0 q).isClose standardTolerance (← .color 1 q))

/-- The questions behind the gradient of a test. -/
def gradientInquiry : Matching α → Inquiry α (Vec α)
  | .select => do .gradient (← selectedInquiry q) q
  | _ => return Vec.zero

theorem run_valueInquiry (m : Matching α) :
    (valueInquiry q m).run inputs = m.value inputs q := by
  cases m with
  | select => simp [valueInquiry, value, run_selectedInquiry]
  | numbers tolerance =>
    rw [valueInquiry, Inquiry.run_bind, Inquiry.run_bothBound, Inquiry.run_ite]
    rfl
  | colors => rfl

theorem run_gradientInquiry (m : Matching α) :
    (gradientInquiry q m).run inputs = m.gradient inputs q := by
  cases m with
  | select => simp [gradientInquiry, gradient, run_selectedInquiry]
  | numbers tolerance => rfl
  | colors => rfl

/-! ### Only what the inputs carry is asked for -/

/-- The kinds of the inputs. -/
def inputKinds : Matching α → List SocketKind
  | .select =>
    [.scalar, .scalar, .color, .scalar, .scalar, .scalar, .scalar, .color, .scalar, .scalar,
      .scalar, .scalar]
  | .numbers _ => [.scalar, .scalar]
  | .colors => [.color, .color]

theorem inputKind?_signature (m : Matching α) (input : Nat) :
    m.signature.inputKind? input = m.inputKinds[input]? :=
  Signature.inputKind?_eq (by cases m <;> rfl) input

theorem Pair.asks_equalInquiry (p : Pair) :
    (p.equalInquiry q).Asks (Question.AdmittedBy (signature .select)) := by
  cases p with
  | color => simp [equalInquiry, Question.AdmittedBy, inputKind?_signature, inputKinds]
  | scalar i =>
    have hkinds : ∀ i : Fin 4, (signature .select : Signature α).inputKind? (3 + i) = some .scalar ∧
        (signature .select : Signature α).inputKind? (8 + i) = some .scalar := by
      rintro ⟨i, hi⟩
      rw [inputKind?_signature, inputKind?_signature]
      interval_cases i <;> exact ⟨rfl, rfl⟩
    simp [equalInquiry, Question.AdmittedBy, hkinds]

theorem Pair.admittedBy_isBound (p : Pair) :
    (Question.isBound p.first : Question α).AdmittedBy (signature .select) := by
  rw [Question.AdmittedBy, inputKind?_signature]
  cases p with
  | color => exact ⟨_, rfl⟩
  | scalar i =>
    obtain ⟨i, hi⟩ := i
    interval_cases i <;> exact ⟨_, rfl⟩

theorem asks_pairsInquiry (pairs : List Pair) (compared : Bool) :
    (pairsInquiry q pairs compared).Asks (Question.AdmittedBy (signature .select)) := by
  induction pairs generalizing compared with
  | nil => exact Inquiry.asks_pure _
  | cons p rest ih =>
    rw [pairsInquiry, Inquiry.asks_isBound_bind]
    refine ⟨p.admittedBy_isBound, fun bound => ?_⟩
    rw [Inquiry.asks_ite]
    refine ⟨fun _ => (p.asks_equalInquiry q).bind fun equal => ?_, fun _ => ih compared⟩
    rw [Inquiry.asks_ite]
    exact ⟨fun _ => ih true, fun _ => Inquiry.asks_pure _⟩

/-- What is asked of the selected input is asked of one of the first two, which carry numbers. -/
theorem asks_selectedInquiry_bind {β : Type} {f : Nat → Inquiry α β}
    (hf : ∀ i, (signature .select : Signature α).inputKind? i = some .scalar →
      (f i).Asks (Question.AdmittedBy (signature .select))) :
    (selectedInquiry q >>= f).Asks (Question.AdmittedBy (signature .select)) := by
  rw [selectedInquiry, map_eq_pure_bind, bind_assoc]
  refine (asks_pairsInquiry q Pair.all false).bind fun equal => ?_
  cases equal
  · exact hf falseInput (inputKind?_signature .select falseInput)
  · exact hf trueInput (inputKind?_signature .select trueInput)

theorem asks_valueInquiry (m : Matching α) :
    (valueInquiry q m).Asks (Question.AdmittedBy m.signature) := by
  cases m with
  | select =>
    exact asks_selectedInquiry_bind q fun i hi =>
      (Inquiry.asks_value i q).mpr ⟨_, hi, by decide⟩
  | numbers tolerance =>
    have hbound : ∀ i < 2,
        (Question.isBound i : Question α).AdmittedBy (signature (.numbers tolerance)) := by
      intro i hi
      interval_cases i <;> exact ⟨_, rfl⟩
    refine (Inquiry.asks_bothBound hbound).bind fun both => ?_
    simp [Question.AdmittedBy, inputKind?_signature, inputKinds]
  | colors => simp [valueInquiry, Question.AdmittedBy, inputKind?_signature, inputKinds]

theorem asks_gradientInquiry (m : Matching α) :
    (gradientInquiry q m).Asks (Question.AdmittedBy m.signature) := by
  cases m with
  | select =>
    exact asks_selectedInquiry_bind q fun i hi =>
      (Inquiry.asks_gradient i q).mpr ⟨_, hi, by decide⟩
  | numbers | colors => exact Inquiry.asks_pure _

instance : Inquiring (Matching α) α where
  inquiry m operation _ q :=
    .ofNumbers (valueInquiry q m) (return m.error) (gradientInquiry q m) operation
  run_inquiry m operation _ q inputs :=
    Inquiry.run_ofNumbers (run_valueInquiry q inputs m) rfl rfl (run_gradientInquiry q inputs m)
      operation
  asks_inquiry m operation _ q _ _ _ :=
    Inquiry.asks_ofNumbers (asks_valueInquiry q m) (Inquiry.asks_pure _)
      (asks_gradientInquiry q m) operation

end TextureGraph.Matching
