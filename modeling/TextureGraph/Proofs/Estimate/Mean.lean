import TextureGraph.Estimate.Mean
import TextureGraph.Estimate.Power
import TextureGraph.Proofs.Number.Rounding

/-!
# Bounds and means are not negative

Bounds are made of magnitudes.  Means are quotients of differences, of which rounding must not exchange
the operands:

* `Mean.notNegative_fraction`: the mean of what is confined to the interval from zero to one.  The ends
  of the interval are rounded, so that the mean may well be above one (`Mean.IsWeight`).
* `Mean.notNegative_exp`: the mean of an exponential that rises (`Mean.ExpRises`).
-/

namespace TextureGraph

open Binary64

/-- The constants of bounds and means. -/
theorem notNegative_constants :
    NotNegative 0.0 ∧ NotNegative 0.5 ∧ NotNegative 1.0 ∧ (0.0 : Float) < 2.0 ∧
      NotNegative Bound.poleError := by
  decide +kernel

theorem notNegative_zero : NotNegative 0.0 :=
  notNegative_constants.1

theorem notNegative_half : NotNegative 0.5 :=
  notNegative_constants.2.1

theorem notNegative_one : NotNegative 1.0 :=
  notNegative_constants.2.2.1

theorem unsigned_two : Unsigned 2.0 :=
  unsigned_of_pos notNegative_constants.2.2.2.1

section Bounds

variable {a ea b eb x e f : Float}

/-! ### Bounds -/

theorem Bound.notNegative_product : NotNegative (Bound.product a ea b eb) :=
  (notNegative_abs _).add (notNegative_abs _)

theorem Bound.notNegative_ratio : NotNegative (Bound.ratio a ea b eb) :=
  (notNegative_abs _).add (notNegative_abs _)

theorem Bound.notNegative_poleError : NotNegative Bound.poleError :=
  notNegative_constants.2.2.2.2

theorem Bound.notNegative_periodic : NotNegative (Bound.periodic a e) :=
  (notNegative_abs _).min notNegative_half

theorem Power.notNegative_error : NotNegative (Power.error x ea e eb) := by
  unfold Power.error
  dsimp only
  split
  · exact (notNegative_abs _).add (notNegative_abs _)
  · exact Bound.notNegative_poleError

/-! ### Means -/

/-- An error of zero leaves both ends of an interval together, or at zero. -/
theorem add_eq_sub_of_zero {s : Float.Model.UnpackedFloat.Sign} (he : unpacked e = .zero s) :
    x + e = x - e ∨ x + e ≤ 0.0 := by
  have hadd : x + e = ofUnpacked (.add .binary64 (unpacked x) (unpacked e)) := rfl
  have hsub : x - e = ofUnpacked (.sub .binary64 (unpacked x) (unpacked e)) := rfl
  rw [hadd, hsub, he]
  cases unpacked x with
  | notANumber | infinity | finite => exact .inl rfl
  | zero t =>
    refine .inr ?_
    cases s <;> cases t <;> decide +kernel

theorem le_of_lt {x y : Float} (h : x < y) : x ≤ y := by
  rw [lt_iff] at h
  rw [le_iff]
  exact ⟨.lt, h, rfl⟩

/-- The ends of an interval, moved into the interval from zero to one, are not exchanged by rounding. -/
theorem Mean.notNegative_width (he : NotNegative e) (hhighest : ¬ x + e ≤ 0.0)
    (hlowest : ¬ 1.0 ≤ x - e) :
    NotNegative (Arith.min (x + e) 1.0 - Arith.max (x - e) 0.0) := by
  intro hneg
  have hlt := lt_of_sub_lt_zero hneg
  have hhigh : NotNegative (Arith.min (x + e) 1.0) :=
    (unsigned_of_not_le_zero hhighest).notNegative.min notNegative_one
  have hlow : Arith.max (x - e) 0.0 = x - e ∨ Arith.max (x - e) 0.0 = 0.0 := by
    unfold Arith.max
    split <;> try split
    all_goals simp
  have hmin : Arith.min (x + e) 1.0 = x + e ∨ Arith.min (x + e) 1.0 = 1.0 := by
    unfold Arith.min
    split <;> try split
    all_goals simp
  rcases hlow with hlow | hlow
  · rw [hlow] at hlt
    rcases hmin with hmin | hmin
    · rw [hmin] at hlt
      exact not_add_lt_sub he hlt
    · rw [hmin] at hlt
      exact hlowest (le_of_lt hlt)
  · rw [hlow] at hlt
    exact hhigh hlt

/-- An interval that crosses zero or one has an error that is not zero. -/
theorem Mean.unsigned_of_beyond (he : NotNegative e) (hhighest : ¬ x + e ≤ 0.0)
    (hlowest : ¬ 1.0 ≤ x - e) (hbeyond : x - e < 0.0 ∨ 1.0 < x + e) : Unsigned e := by
  refine (not_isNegative_iff.mp (notNegative_iff.mp he)).resolve_right fun hzero => ?_
  rcases add_eq_sub_of_zero (x := x) hzero with heq | hle
  · rcases hbeyond with hneg | hone
    · rw [← heq] at hneg
      exact hhighest (le_of_lt hneg)
    · rw [heq] at hone
      exact hlowest (le_of_lt hone)
  · exact hhighest hle

/-- The mean of what is confined to the interval from zero to one is not negative, unless it is
nowhere confined because the error is undefined. -/
theorem Mean.notNegative_fraction (he : NotNegative e) (hx : e.isNaN = true → NotNegative x) :
    NotNegative (Mean.fraction x e) := by
  unfold Mean.fraction
  dsimp only
  split
  · exact notNegative_zero
  rename_i hhighest
  split
  · exact notNegative_one
  rename_i hlowest
  split
  · rename_i hbeyond
    rw [Bool.or_eq_true, decide_eq_true_eq, decide_eq_true_eq] at hbeyond
    have hhigh : NotNegative (Arith.min (x + e) 1.0) :=
      (unsigned_of_not_le_zero hhighest).notNegative.min notNegative_one
    have hlow : NotNegative (Arith.max (x - e) 0.0) := notNegative_max_zero _
    have hwidth := Mean.notNegative_width he hhighest hlowest
    have hdivisor : Unsigned e := Mean.unsigned_of_beyond he hhighest hlowest hbeyond
    exact ((notNegative_max_zero _).add
      ((notNegative_half.mul (hhigh.add hlow)).mul hwidth)).div (unsigned_two.mul hdivisor)
  · rename_i hwithin
    rw [Bool.or_eq_true, decide_eq_true_eq, decide_eq_true_eq, not_or] at hwithin
    cases hundefined : e.isNaN with
    | true => exact hx hundefined
    | false => exact fun hneg => hwithin.1 (sub_lt_zero hneg he hundefined)

/-- What is left of one. -/
theorem notNegative_one_sub (hf : ¬ 1.0 < f) : NotNegative (1.0 - f) :=
  fun hneg => hf (lt_of_sub_lt_zero hneg)

/-- A weight that a mean confines to the interval from zero to one. -/
structure Mean.IsWeight (x e : Float) : Prop where
  /-- With an undefined error it is taken as it is. -/
  notNegative : e.isNaN = true → NotNegative x
  /-- Rounding does not take it above one. -/
  le_one : ¬ 1.0 < Mean.fraction x e

/-- Two errors mixed by a weight. -/
theorem Mean.IsWeight.notNegative_mix (h : Mean.IsWeight x e) (he : NotNegative e)
    (hea : NotNegative ea) (heb : NotNegative eb) :
    NotNegative ((1.0 - Mean.fraction x e) * ea + Mean.fraction x e * eb) :=
  ((notNegative_one_sub h.le_one).mul hea).add ((Mean.notNegative_fraction he h.notNegative).mul heb)

/-- The exponential function is not negative at `x`, and does not fall between the ends of the interval
around it. -/
structure Mean.ExpRises (x e : Float) : Prop where
  /-- It is not negative. -/
  notNegative : NotNegative (Arith.exp x)
  /-- It does not fall. -/
  rises : ¬ Arith.exp (x + e) < Arith.exp (x - e)

theorem Mean.notNegative_exp (he : NotNegative e) (h : Mean.ExpRises x e) :
    NotNegative (Mean.exp x e) := by
  unfold Mean.exp
  split
  · exact h.notNegative
  · rename_i hne
    have hrise : NotNegative (Arith.exp (x + e) - Arith.exp (x - e)) :=
      fun hneg => h.rises (lt_of_sub_lt_zero hneg)
    exact hrise.div (unsigned_two.mul (he.unsigned (Bool.eq_false_iff.mpr hne)))

end Bounds

end TextureGraph
