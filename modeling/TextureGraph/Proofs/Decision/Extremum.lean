import TextureGraph.Proofs.Graph.Evaluation
import TextureGraph.Proofs.Number.Unpacked

/-!
# Extrema follow one operand

A minimum or a maximum is to have the error and the gradient of the operand that it has the value of.
`FrozenGraph.extremum_follows`: in floating point it does, unless the first operand alone is
undefined.  The value and the operand to follow are found in two ways: the value gives way to the
second operand where the first one is undefined, while a comparison with an undefined operand is
false and leaves the first one in its place (`FrozenGraph.extremum_maskedMinimum`).
-/

namespace TextureGraph

namespace Binary64

variable {x y : Float}

/-- There is only one undefined value. -/
theorem eq_of_isNaN (hx : x.isNaN = true) (hy : y.isNaN = true) : x = y := by
  rw [← ofUnpacked_unpacked x, ← ofUnpacked_unpacked y, isNaN_iff.mp hx, isNaN_iff.mp hy]

theorem max_of_isNaN_left (hx : x.isNaN = true) (y : Float) : Arith.max x y = y :=
  if_neg (Bool.eq_false_iff.mp (beq_of_isNaN_left hx x))

/-- Of two numbers, an extremum has the one that a comparison chooses, unless the first one alone is
undefined. -/
theorem extremum_eq {better : Prop} [Decidable better] (numbers : Nat → Float)
    (hbetter : better → (numbers 0).isNaN = false)
    (h : (numbers 0).isNaN = true → (numbers 1).isNaN = true) :
    (if numbers 0 == numbers 0 then (if better then numbers 1 else numbers 0) else numbers 1)
      = numbers (if better then 1 else 0) := by
  cases hfirst : (numbers 0).isNaN with
  | false =>
    rw [if_pos (beq_self hfirst)]
    split_ifs <;> rfl
  | true =>
    have hworse : ¬ better := fun hb => Bool.noConfusion ((hbetter hb).symm.trans hfirst)
    rw [beq_of_isNaN_left hfirst, if_neg Bool.false_ne_true, if_neg hworse]
    exact eq_of_isNaN (h hfirst) hfirst

end Binary64

open Binary64

/-! ### Operators -/

namespace Operator

variable {inputs : Inputs Float} {q : Query Float}

theorem value_min (h : (inputs.value 0 q).isNaN = true → (inputs.value 1 q).isNaN = true) :
    Operator.min.value inputs q = inputs.value (smallerInput inputs q) q := by
  refine extremum_eq (fun i => inputs.value i q) (fun hlt => ?_) h
  exact Bool.eq_false_iff.mpr fun hfirst => not_lt_of_isNaN_right hfirst _ hlt

theorem value_max (h : (inputs.value 0 q).isNaN = true → (inputs.value 1 q).isNaN = true) :
    Operator.max.value inputs q = inputs.value (largerInput inputs q) q := by
  refine extremum_eq (fun i => inputs.value i q) (fun hlt => ?_) h
  exact Bool.eq_false_iff.mpr fun hfirst => not_lt_of_isNaN_left hfirst _ hlt

theorem smallerInput_lt_two : smallerInput inputs q < 2 := by
  unfold smallerInput
  split_ifs <;> decide

theorem largerInput_lt_two : largerInput inputs q < 2 := by
  unfold largerInput
  split_ifs <;> decide

theorem smallerInput_of_isNaN (h : (inputs.value 0 q).isNaN = true) : smallerInput inputs q = 0 :=
  if_neg (not_lt_of_isNaN_right h _)

theorem largerInput_of_isNaN (h : (inputs.value 0 q).isNaN = true) : largerInput inputs q = 0 :=
  if_neg (not_lt_of_isNaN_left h _)

end Operator

/-! ### Graphs -/

/-- An output has the value, the error and the gradient of an input. -/
structure Answers.Follows {α : Type} (answers : Answers α) (output : Nat) (inputs : Inputs α)
    (i : Nat) (q : Query α) : Prop where
  /-- The value of the input. -/
  value : answers.value output q = inputs.value i q
  /-- The error of the input. -/
  error : answers.error output q = inputs.error i q
  /-- The gradient of the input. -/
  gradient : answers.gradient output q = inputs.gradient i q

namespace FrozenGraph

variable {f : FrozenGraph (Catalog Float) Float}

/-- **Extrema follow one operand**: in floating point, take a minimum or a maximum in a graph without
cycles, and any request.

* Unless the first operand alone is undefined, it has the value, the error and the gradient of one of
  its two operands, be they infinite, equal or both undefined.
* If the first operand alone is undefined, it has the value of the second operand, but the error and
  the gradient of the first one. -/
theorem extremum_follows {g : Graph (Catalog Float) Float} (h : g.freeze = .ok f) {id : ModuleId}
    {e : Entry (Catalog Float) Float} (he : f.graph.entry? id = some e)
    (hmodule : e.module = .operator .min ∨ e.module = .operator .max) (output : Nat)
    (q : Query Float) :
    ((((f.graph.pull f.answers e).value 0 q).isNaN = true →
        ((f.graph.pull f.answers e).value 1 q).isNaN = true) →
      ∃ i < 2, (f.answers e).Follows output (f.graph.pull f.answers e) i q) ∧
    (((f.graph.pull f.answers e).value 0 q).isNaN = true →
      ((f.graph.pull f.answers e).value 1 q).isNaN = false →
      (f.answers e).value output q = (f.graph.pull f.answers e).value 1 q ∧
        (f.answers e).error output q = (f.graph.pull f.answers e).error 0 q ∧
        (f.answers e).gradient output q = (f.graph.pull f.answers e).gradient 0 q) := by
  have hanswers := answers_eq h he
  generalize f.graph.pull f.answers e = inputs at hanswers ⊢
  rw [hanswers]
  rcases hmodule with hmodule | hmodule <;> rw [hmodule]
  · refine ⟨fun hdefined => ?_, fun hfirst _ => ⟨min_of_isNaN_left hfirst _, ?_, ?_⟩⟩
    · exact ⟨_, Operator.smallerInput_lt_two, Operator.value_min hdefined, rfl, rfl⟩
    · exact congrArg (inputs.error · q) (Operator.smallerInput_of_isNaN hfirst)
    · exact congrArg (inputs.gradient · q) (Operator.smallerInput_of_isNaN hfirst)
  · refine ⟨fun hdefined => ?_, fun hfirst _ => ⟨max_of_isNaN_left hfirst _, ?_, ?_⟩⟩
    · exact ⟨_, Operator.largerInput_lt_two, Operator.value_max hdefined, rfl, rfl⟩
    · exact congrArg (inputs.error · q) (Operator.largerInput_of_isNaN hfirst)
    · exact congrArg (inputs.gradient · q) (Operator.largerInput_of_isNaN hfirst)

/-- The larger of the first coordinate and one. -/
def raised : Graph (Catalog Float) Float :=
  Graph.ofEdits "raised" [.add (.source (.coordinate .x)), .add (.source (.number 1.0)),
    .add (.operator .max), .bind ⟨2⟩ 0 ⟨⟨0⟩, 0⟩, .bind ⟨2⟩ 1 ⟨⟨1⟩, 0⟩]

/-- The graph as it is evaluated. -/
def frozenRaised : FrozenGraph (Catalog Float) Float :=
  ⟨raised, ⟨[⟨0⟩, ⟨1⟩, ⟨2⟩], 2⟩⟩

/-- The maximum. -/
def raisedMaximum : Entry (Catalog Float) Float :=
  { Entry.ofModule (.operator .max) with bindings := [some ⟨⟨0⟩, 0⟩, some ⟨⟨1⟩, 0⟩] }

/-- A box in front of the origin. -/
def inFront : Query Float :=
  ⟨⟨⟨0.5, 0.0, 0.0⟩, ⟨0.2, 0.2, 0.2⟩, 0.0, []⟩, 0.0⟩

theorem extremum_follows_raised :
    raised.freeze = .ok frozenRaised ∧ ∃ i < 2, (frozenRaised.answers raisedMaximum).Follows 0
      (frozenRaised.graph.pull frozenRaised.answers raisedMaximum) i inFront := by
  have hfreeze : raised.freeze = .ok frozenRaised := Graph.freeze_eq_ok (by decide +kernel)
  have hdefined : ((frozenRaised.graph.pull frozenRaised.answers raisedMaximum).value 0
      inFront).isNaN = false := by
    decide +kernel
  have hentry : frozenRaised.graph.entry? ⟨2⟩ = some raisedMaximum := rfl
  obtain ⟨hfollows, -⟩ := extremum_follows hfreeze hentry (.inr rfl) 0 inFront
  exact ⟨hfreeze, hfollows fun hfirst => Bool.noConfusion (hdefined.symm.trans hfirst)⟩

/-- A number that overflows, the difference of the overflow and itself, which is undefined, the first
coordinate, and the smaller of the two. -/
def masked : Graph (Catalog Float) Float :=
  Graph.ofEdits "masked" [.add (.source (.number 1e308)), .add (.operator .sum),
    .bind ⟨1⟩ 0 ⟨⟨0⟩, 0⟩, .bind ⟨1⟩ 1 ⟨⟨0⟩, 0⟩, .add (.operator .difference),
    .bind ⟨2⟩ 0 ⟨⟨1⟩, 0⟩, .bind ⟨2⟩ 1 ⟨⟨1⟩, 0⟩, .add (.source (.coordinate .x)),
    .add (.operator .min), .bind ⟨4⟩ 0 ⟨⟨2⟩, 0⟩, .bind ⟨4⟩ 1 ⟨⟨3⟩, 0⟩]

/-- The graph as it is evaluated. -/
def frozenMasked : FrozenGraph (Catalog Float) Float :=
  ⟨masked, ⟨[⟨0⟩, ⟨1⟩, ⟨2⟩, ⟨3⟩, ⟨4⟩], 4⟩⟩

/-- The minimum. -/
def maskedMinimum : Entry (Catalog Float) Float :=
  { Entry.ofModule (.operator .min) with bindings := [some ⟨⟨2⟩, 0⟩, some ⟨⟨3⟩, 0⟩] }

/-- **Extrema may follow no operand**: the minimum has the value of the coordinate, but no error and
no gradient, so that nothing tells that it varies. -/
theorem extremum_maskedMinimum :
    masked.freeze = .ok frozenMasked ∧ frozenMasked.graph.entry? ⟨4⟩ = some maskedMinimum ∧
      (frozenMasked.answers maskedMinimum).value 0 inFront = 0.5 ∧
      (frozenMasked.answers maskedMinimum).error 0 inFront = 0.0 ∧
      ¬ ∃ i < 2, (frozenMasked.answers maskedMinimum).Follows 0
        (frozenMasked.graph.pull frozenMasked.answers maskedMinimum) i inFront := by
  have hvalue : (frozenMasked.answers maskedMinimum).value 0 inFront = 0.5 := by decide +kernel
  have herror : (frozenMasked.answers maskedMinimum).error 0 inFront = 0.0 := by decide +kernel
  have hfirst : (frozenMasked.graph.pull frozenMasked.answers maskedMinimum).value 0 inFront
      ≠ 0.5 := by
    decide +kernel
  have hsecond : (frozenMasked.graph.pull frozenMasked.answers maskedMinimum).error 1 inFront
      ≠ 0.0 := by
    decide +kernel
  refine ⟨Graph.freeze_eq_ok (by decide +kernel), rfl, hvalue, herror, ?_⟩
  rintro ⟨i, hi, hfollows⟩
  obtain rfl | rfl : i = 0 ∨ i = 1 := by omega
  · exact hfirst (hfollows.value.symm.trans hvalue)
  · exact hsecond (hfollows.error.symm.trans herror)

end FrozenGraph

end TextureGraph
