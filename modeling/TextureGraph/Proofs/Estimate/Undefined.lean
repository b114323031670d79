import TextureGraph.Proofs.Graph.KindSafety
import TextureGraph.Proofs.Number.Sign

/-!
# Undefined errors are not taken for convergence

The error of an input may be undefined, for instance when it is infinity times zero.  An output that
rests on it must not be reported to have no error, since it would look converged.

* `FrozenGraph.estimateError_of_undefined`: where a module asks for the error of an input that it
  *heeds*, and finds it undefined, a positive error is reported.
* `Catalog.Heeds` lists what modules do not heed: the error of the weight of a mix, the error of the
  hue of a color, the errors of the channels of a color, which are combined by their maximum, and
  those of a position that leaves no octave of a pattern, or none of its cells.
* `FrozenGraph.estimateError_ofRgb` shows such an error that is reported as none at all.
-/

namespace TextureGraph

open Binary64

/-! ### Alarming errors -/

/-- An error that is reported as a positive one. -/
def Alarming (error : Float) : Prop :=
  0.0 < FrozenGraph.reportedError error

instance (error : Float) : Decidable (Alarming error) :=
  inferInstanceAs (Decidable (0.0 < FrozenGraph.reportedError error))

theorem alarming_of_isNaN {error : Float} (h : error.isNaN = true) : Alarming error := by
  have hinfinite : ¬ Arith.isFinite error = true := Bool.eq_false_iff.mp (isFinite_of_isNaN h)
  unfold Alarming FrozenGraph.reportedError
  rw [if_neg hinfinite]
  decide +kernel

theorem alarming_of_pos {error : Float} (h : 0.0 < error) : Alarming error := by
  have hdefined : error.isNaN = false :=
    Bool.eq_false_iff.mpr fun hundefined => not_lt_of_isNaN_right hundefined _ h
  unfold Alarming FrozenGraph.reportedError
  split
  · unfold Arith.max
    rw [if_pos (beq_self hdefined), if_neg (unsigned_of_pos h).notNegative]
    exact h
  · decide +kernel

theorem alarming_abs {x : Float} (h : (x == 0.0) = false) : Alarming x.abs := by
  cases hx : x.isNaN with
  | true => exact alarming_of_isNaN (isNaN_abs hx)
  | false => exact alarming_of_pos (pos_abs h hx)

namespace Bound

variable {a ea b eb : Float}

theorem isNaN_product (h : ea.isNaN = true ∨ eb.isNaN = true) :
    (product a ea b eb).isNaN = true := by
  rcases h with h | h
  · exact isNaN_add_right (isNaN_abs (isNaN_mul_right h b)) _
  · exact isNaN_add_left (isNaN_abs (isNaN_mul_right h a)) _

theorem isNaN_ratio (h : ea.isNaN = true ∨ eb.isNaN = true) :
    (ratio a ea b eb).isNaN = true := by
  rcases h with h | h
  · exact isNaN_add_left (isNaN_abs (isNaN_div_left h b)) _
  · exact isNaN_add_right (isNaN_abs (isNaN_div_left (isNaN_mul_right h a) _)) _

theorem alarming_poleError : Alarming poleError := by
  decide +kernel

theorem alarming_periodic {e : Float} (h : e.isNaN = true) (slope : Float) :
    Alarming (periodic slope e) := by
  have hcap : periodic slope e = periodicCap :=
    min_of_isNaN_left (isNaN_abs (isNaN_mul_right h slope)) _
  rw [hcap]
  decide +kernel

end Bound

theorem Power.alarming_error {x ex e ee : Float} (h : ex.isNaN = true ∨ ee.isNaN = true) :
    Alarming (Power.error x ex e ee) := by
  have hundefined : (Arith.abs (Power.baseSlope x e * ex)
      + Arith.abs (Power.exponentSlope x e * ee) : Float).isNaN = true := by
    rcases h with h | h
    · exact isNaN_add_left (isNaN_abs (isNaN_mul_right h _)) _
    · exact isNaN_add_right (isNaN_abs (isNaN_mul_right h _)) _
  have hpole : Power.error x ex e ee = Bound.poleError :=
    if_neg (Bool.eq_false_iff.mp (isFinite_of_isNaN hundefined))
  rw [hpole]
  exact Bound.alarming_poleError

/-! ### Expressions -/

/-- Whether the error of an expression is undefined when the error of the input `i` is.  Of a minimum or
a maximum, the operand that is chosen counts. -/
def Expr.Keeps (inputs : Inputs Float) (q : Query Float) (i : Nat) : Expr Float → Prop
  | .number _ | .coordinate _ => False
  | .input j => j = i
  | .unary op e =>
    match op with
    | .negate | .abs | .exp | .log => e.Keeps inputs q i
    | .sin | .cos | .sqrt => False
  | .binary op l r =>
    match op with
    | .add | .subtract | .multiply => l.Keeps inputs q i ∨ r.Keeps inputs q i
    | .min =>
      if (r.estimate inputs q).value < (l.estimate inputs q).value then r.Keeps inputs q i
      else l.Keeps inputs q i
    | .max =>
      if (l.estimate inputs q).value < (r.estimate inputs q).value then r.Keeps inputs q i
      else l.Keeps inputs q i
    | .divide | .modulo | .power | .angle => False

/-- Whether the error of an expression is undefined or positive when the error of the input `i` is
undefined. -/
def Expr.Heeds (inputs : Inputs Float) (q : Query Float) (i : Nat) : Expr Float → Prop
  | .number _ | .coordinate _ => False
  | .input j => j = i
  | .unary op e =>
    match op with
    | .negate | .abs => e.Heeds inputs q i
    | .exp | .sin | .cos | .log => e.Keeps inputs q i
    | .sqrt => False
  | .binary op l r =>
    match op with
    | .min =>
      if (r.estimate inputs q).value < (l.estimate inputs q).value then r.Heeds inputs q i
      else l.Heeds inputs q i
    | .max =>
      if (l.estimate inputs q).value < (r.estimate inputs q).value then r.Heeds inputs q i
      else l.Heeds inputs q i
    | .add | .subtract | .multiply | .divide | .modulo | .power | .angle =>
      l.Keeps inputs q i ∨ r.Keeps inputs q i

section Expressions

variable {inputs : Inputs Float} {q : Query Float} {i : Nat}

theorem UnaryOp.isNaN_log {a : Estimate Float} (h : a.error.isNaN = true) :
    (UnaryOp.apply .log a).error.isNaN = true := by
  unfold UnaryOp.apply
  dsimp only
  rw [if_neg (not_le_of_isNaN_left (isNaN_sub_right h _) _)]
  exact isNaN_div_left h _

/-- What holds of the operand that is chosen holds of a minimum or maximum. -/
theorem of_chosen {P : Estimate Float → Prop} {c : Prop} [Decidable c]
    {a b : Estimate Float} {ka kb : Prop} (ha : ka → P a) (hb : kb → P b)
    (h : if c then kb else ka) : P (if c then b else a) := by
  split at h
  · rw [if_pos (by assumption)]
    exact hb h
  · rw [if_neg (by assumption)]
    exact ha h

/-- The divisor of a remainder is not zero, and is the error where the quotient is not known. -/
theorem BinaryOp.alarming_moduloBy {a b : Estimate Float}
    (hdivisor : (b.value == 0.0) = false) (h : a.error.isNaN = true ∨ b.error.isNaN = true) :
    Alarming (BinaryOp.moduloBy a b).error := by
  unfold BinaryOp.moduloBy
  dsimp only
  split
  · rename_i hwhole
    rcases h with h | h
    · -- The quotient is not known, so it does not seem to be a whole number.
      have hlow : (a.value / b.value - a.error / b.value.abs).isNaN = true :=
        isNaN_sub_right (isNaN_div_left h _) _
      have hnot : (Arith.floor (a.value / b.value - a.error / b.value.abs)
          == Arith.floor (a.value / b.value + a.error / b.value.abs)) = false := by
        change (floor _ == floor _) = false
        rw [floor_of_isNaN hlow]
        exact beq_of_isNaN_left hlow _
      exact absurd hwhole (Bool.eq_false_iff.mp hnot)
    · exact alarming_of_isNaN (isNaN_add_right (isNaN_mul_right h _) _)
  · exact alarming_abs hdivisor

theorem BinaryOp.alarming_angleOf {a b : Estimate Float}
    (h : a.error.isNaN = true ∨ b.error.isNaN = true) :
    Alarming (BinaryOp.angleOf a b).error := by
  unfold BinaryOp.angleOf
  dsimp only
  split
  · have hpi : Alarming Arith.pi := by decide +kernel
    exact hpi
  · refine alarming_of_isNaN (isNaN_div_left ?_ _)
    rcases h with h | h
    · exact isNaN_add_left (isNaN_mul_right h _) _
    · exact isNaN_add_right (isNaN_mul_right h _) _

/-- An operation with two operands of which one has an undefined error. -/
theorem BinaryOp.alarming_apply {a b : Estimate Float} {op : BinaryOp}
    (hop : op ≠ .min ∧ op ≠ .max) (h : a.error.isNaN = true ∨ b.error.isNaN = true) :
    Alarming (op.apply a b).error := by
  cases op with
  | add | subtract =>
    rcases h with h | h
    · exact alarming_of_isNaN (isNaN_add_left h _)
    · exact alarming_of_isNaN (isNaN_add_right h _)
  | multiply => exact alarming_of_isNaN (Bound.isNaN_product h)
  | divide =>
    unfold BinaryOp.apply
    dsimp only
    split
    · exact Bound.alarming_poleError
    · exact alarming_of_isNaN (Bound.isNaN_ratio h)
  | modulo =>
    unfold BinaryOp.apply
    dsimp only
    split
    · exact Bound.alarming_poleError
    · rename_i hreaches
      exact BinaryOp.alarming_moduloBy
        (Bool.or_eq_false_iff.mp (Bool.eq_false_iff.mpr hreaches)).1 h
  | power =>
    unfold BinaryOp.apply
    dsimp only
    split
    · exact Bound.alarming_poleError
    · exact Power.alarming_error h
  | angle => exact BinaryOp.alarming_angleOf h
  | min => exact absurd rfl hop.1
  | max => exact absurd rfl hop.2

theorem Expr.isNaN_error_estimate (hundefined : (inputs.error i q).isNaN = true) {e : Expr Float}
    (h : e.Keeps inputs q i) : (e.estimate inputs q).error.isNaN = true := by
  induction e with
  | number a => exact h.elim
  | coordinate axis => exact h.elim
  | input j =>
    obtain rfl : (j : Nat) = i := h
    exact hundefined
  | unary op e ih =>
    cases op with
    | negate | abs => exact ih h
    | exp => exact isNaN_mul_left (ih h) _
    | log => exact UnaryOp.isNaN_log (ih h)
    | sin | cos | sqrt => exact h.elim
  | binary op l r ihl ihr =>
    cases op with
    | add | subtract =>
      rcases h with h | h
      · exact isNaN_add_left (ihl h) _
      · exact isNaN_add_right (ihr h) _
    | multiply => exact Bound.isNaN_product (h.imp ihl ihr)
    | min | max => exact of_chosen (P := fun a => a.error.isNaN = true) ihl ihr h
    | divide | modulo | power | angle => exact h.elim

theorem Expr.alarming_error_estimate (hundefined : (inputs.error i q).isNaN = true)
    {e : Expr Float} (h : e.Heeds inputs q i) : Alarming (e.estimate inputs q).error := by
  induction e with
  | number a => exact h.elim
  | coordinate axis => exact h.elim
  | input j =>
    obtain rfl : (j : Nat) = i := h
    exact alarming_of_isNaN hundefined
  | unary op e ih =>
    cases op with
    | negate | abs => exact ih h
    | exp => exact alarming_of_isNaN (isNaN_mul_left (Expr.isNaN_error_estimate hundefined h) _)
    | sin | cos => exact Bound.alarming_periodic (Expr.isNaN_error_estimate hundefined h) _
    | log => exact alarming_of_isNaN (UnaryOp.isNaN_log (Expr.isNaN_error_estimate hundefined h))
    | sqrt => exact h.elim
  | binary op l r ihl ihr =>
    have hkeeps : l.Keeps inputs q i ∨ r.Keeps inputs q i → (l.estimate inputs q).error.isNaN = true ∨
        (r.estimate inputs q).error.isNaN = true :=
      Or.imp (Expr.isNaN_error_estimate hundefined) (Expr.isNaN_error_estimate hundefined)
    cases op with
    | min | max => exact of_chosen (P := fun a => Alarming a.error) ihl ihr h
    | add | subtract | multiply | divide | modulo | power | angle =>
      exact BinaryOp.alarming_apply (by decide) (hkeeps h)

end Expressions

/-! ### Patterns -/

/-- Some component is undefined. -/
def Vec.IsUndefined (v : Vec Float) : Prop :=
  v.x.isNaN = true ∨ v.y.isNaN = true ∨ v.z.isNaN = true

theorem isNaN_add_add {a b c : Float}
    (h : a.isNaN = true ∨ b.isNaN = true ∨ c.isNaN = true) : (a + b + c).isNaN = true := by
  rcases h with h | h | h
  · exact isNaN_add_left (isNaN_add_left h _) _
  · exact isNaN_add_left (isNaN_add_right h _) _
  · exact isNaN_add_right h _

theorem Vec.IsUndefined.isNaN_dot {v : Vec Float} (h : v.IsUndefined) (c : Vec Float) :
    (c.dot v).isNaN = true :=
  isNaN_add_add (h.imp (fun h => isNaN_mul_right h _)
    (Or.imp (fun h => isNaN_mul_right h _) fun h => isNaN_mul_right h _))

theorem Vec.IsUndefined.abs {v : Vec Float} (h : v.IsUndefined) : v.abs.IsUndefined :=
  h.imp isNaN_abs (Or.imp isNaN_abs isNaN_abs)

namespace Pattern

variable {size : Vec Float}

theorem isNaN_spread (h : size.IsUndefined) (slope : Vec Float) :
    (spread size slope).isNaN = true :=
  isNaN_add_add (h.imp (fun h => isNaN_abs (isNaN_mul_left h _))
    (Or.imp (fun h => isNaN_abs (isNaN_mul_left h _)) fun h => isNaN_abs (isNaN_mul_left h _)))

/-- More octaves do not make an undefined error a defined one. -/
theorem isNaN_error_addOctaves {mode : Mode} {p : Vec Float} {persistence : Float}
    {limit : Option Float} {n : Nat} {frequency amplitude : Float} {sum : Estimate Float}
    (h : sum.error.isNaN = true) :
    (addOctaves mode p size persistence limit n frequency amplitude sum).error.isNaN = true := by
  induction n generalizing frequency amplitude sum with
  | zero => exact h
  | succ n ih =>
    unfold addOctaves
    split
    · exact h
    · exact ih (isNaN_add_left h _)

/-- An octave that is not left out has an undefined error over an undefined extent. -/
theorem isNaN_error_fractal {mode : Mode} {octaves : Nat} {amplitude persistence : Float}
    {p : Vec Float} (hoctaves : 0 < octaves)
    (hkept : isDropped (frequencyLimit size.maxComponent) 1.0 = false) (h : size.IsUndefined) :
    (fractal mode octaves amplitude persistence p size).error.isNaN = true := by
  obtain ⟨n, rfl⟩ := Nat.exists_eq_succ_of_ne_zero hoctaves.ne'
  unfold fractal addOctaves
  rw [if_neg (Bool.eq_false_iff.mp hkept)]
  exact isNaN_error_addOctaves (isNaN_add_right (isNaN_spread h _) _)

theorem alarming_error_sawtooth {rings : Estimate Float} (h : rings.error.isNaN = true) :
    Alarming (sawtooth rings).error := by
  have hlow : (rings.value - rings.error
      - Arith.floor (rings.value - rings.error)).isNaN = true :=
    isNaN_sub_left (isNaN_sub_right h _) _
  unfold sawtooth
  dsimp only
  rw [if_neg (Bool.eq_false_iff.mp (beq_of_isNaN_left h _)), if_neg (not_le_of_isNaN_right h _),
    if_neg (not_lt_of_isNaN_left hlow _)]
  have hhalf : Alarming 0.5 := by decide +kernel
  exact hhalf

theorem alarming_error_wood {spacing : Float} {fractionOnly : Bool} {turbulence : Estimate Float}
    {p : Vec Float} {columns : Vec (Vec Float)} (h : size.IsUndefined) :
    Alarming (wood spacing fractionOnly turbulence p size columns).error := by
  unfold wood
  cases hrings : rings spacing turbulence p size columns with
  | none =>
    have haxis : Alarming axisError := by decide +kernel
    exact haxis
  | some rings =>
    have hundefined : rings.error.isNaN = true := by
      unfold Pattern.rings at hrings
      dsimp only at hrings
      split at hrings
      · cases hrings
      · cases hrings
        exact isNaN_spread h _
    dsimp only
    split
    · exact alarming_error_sawtooth hundefined
    · exact alarming_of_isNaN hundefined

end Pattern

/-- The largest of the distances along the axes passes over an undefined one. -/
theorem Metric.isNaN_spread {metric : Metric} (hmetric : metric ≠ .chessBoard) {error : Vec Float}
    (h : error.IsUndefined) : (metric.spread error).isNaN = true := by
  cases metric with
  | euclidean =>
    refine isNaN_sqrt (isNaN_add_add ?_)
    exact h.abs.imp (fun h => isNaN_mul_left h _)
      (Or.imp (fun h => isNaN_mul_left h _) fun h => isNaN_mul_left h _)
  | cityBlock => exact isNaN_add_add h.abs
  | chessBoard => exact absurd rfl hmetric

/-! ### Modules -/

/-- Whether the error of a composition is undefined when the error of the input `i` is.  The weight
of a blend is confined to numbers between zero and one, the spread of a hue is limited, and of the
errors of three channels the largest is taken. -/
def Composition.Heeds (i : Nat) : Composition → Prop
  | .sum | .difference | .product | .scale | .darker | .lighter => True
  | .blend => i ≠ 2
  | .ofHsv => i ≠ 0
  | .ofRgb | .toHsv => False

/-- Whether the error of an output of a pattern is undefined or positive when the error of one
coordinate of the position is undefined.  Of a fractal there must be an octave left, which the other
coordinates decide. -/
def Texture.Heeds (output : Nat) (inputs : Inputs Float) (q : Query Float) : Texture Float → Prop
  | .noise o | .turbulence o =>
    0 < o.count ∧
      Pattern.isDropped (Pattern.frequencyLimit (inputs.positionError q).maxComponent) 1.0 = false
  | .wood .. => True
  | .cells metric => output ≠ Texture.cellOutput ∧ metric ≠ .chessBoard

/-- Whether the error of an output is undefined or positive when the module finds the error of the
input `i` undefined. -/
def Catalog.Heeds (output i : Nat) (inputs : Inputs Float) (q : Query Float) :
    Catalog Float → Prop
  | .source _ | .channel _ | .operator _ | .matching _ | .mapping _ => True
  | .shaping m => m = .interpolate → i ≠ 2
  | .expression e => e.root.Heeds inputs q i
  | .composition m => m.Heeds i
  | .texture m => m.Heeds output inputs q

section Modules

variable {inputs : Inputs Float} {q q' : Query Float} {i output : Nat}

/-- One of the first two inputs has an undefined error when the one that is asked for has. -/
theorem Inputs.undefined_of_asked (hundefined : (inputs.error i q').isNaN = true)
    (h : i = 0 ∧ q' = q ∨ i = 1 ∧ q' = q) :
    (inputs.error 0 q).isNaN = true ∨ (inputs.error 1 q).isNaN = true := by
  rcases h with ⟨rfl, rfl⟩ | ⟨rfl, rfl⟩
  · exact .inl hundefined
  · exact .inr hundefined

theorem alarming_add {a b : Float} (h : a.isNaN = true ∨ b.isNaN = true) : Alarming (a + b) := by
  rcases h with h | h
  · exact alarming_of_isNaN (isNaN_add_left h _)
  · exact alarming_of_isNaN (isNaN_add_right h _)

theorem Inquiry.error_not_mem_questions_bothBound :
    Question.error i q ∉ (Inquiry.bothBound : Inquiry Float Bool).questions inputs := by
  have hasks : (Inquiry.bothBound : Inquiry Float Bool).Asks (· ≠ .error i q) :=
    Inquiry.asks_bothBound fun _ _ => nofun
  exact fun hmem => hasks.of_mem_questions hmem rfl

theorem Operator.alarming_product
    (hasked : Question.error i q' ∈ (errorInquiry q .product).questions inputs)
    (hundefined : (inputs.error i q').isNaN = true) :
    Alarming (Operator.error inputs q .product) := by
  rw [errorInquiry, Inquiry.questions_bind, List.mem_append, Inquiry.run_bothBound] at hasked
  replace hasked := hasked.resolve_left Inquiry.error_not_mem_questions_bothBound
  unfold Operator.error bothBound
  -- The errors of the factors are asked for when both of them are bound.
  split at hasked
  · have h : i = 0 ∧ q' = q ∨ i = 1 ∧ q' = q := by
      simpa using hasked
    rw [if_pos (by assumption)]
    exact alarming_of_isNaN (Bound.isNaN_product (inputs.undefined_of_asked hundefined h))
  · cases hasked

theorem Operator.alarming_ratio
    (hasked : Question.error i q' ∈ (errorInquiry q .ratio).questions inputs)
    (hundefined : (inputs.error i q').isNaN = true) :
    Alarming (Operator.error inputs q .ratio) := by
  rw [errorInquiry, Inquiry.questions_bind, List.mem_append, run_divisorInquiry] at hasked
  unfold Operator.error
  cases hdivisor : divisor? inputs q with
  | none => exact Bound.alarming_poleError
  | some b =>
    rw [hdivisor] at hasked
    have h : i = 0 ∧ q' = q ∨ i = 1 ∧ q' = q := by
      simpa [divisorInquiry, or_comm, or_left_comm] using hasked
    exact alarming_of_isNaN (Bound.isNaN_ratio (inputs.undefined_of_asked hundefined h))

theorem Operator.alarming_power
    (hasked : Question.error i q' ∈ (errorInquiry q .power).questions inputs)
    (hundefined : (inputs.error i q').isNaN = true) :
    Alarming (Operator.error inputs q .power) := by
  rw [errorInquiry, Inquiry.questions_bind, List.mem_append, run_baseAndExponentInquiry] at hasked
  unfold Operator.error
  cases hoperands : baseAndExponent? inputs q with
  | none => exact Bound.alarming_poleError
  | some operands =>
    rw [hoperands] at hasked
    have h : i = 0 ∧ q' = q ∨ i = 1 ∧ q' = q := by
      simpa [baseAndExponentInquiry] using hasked
    exact Power.alarming_error (inputs.undefined_of_asked hundefined h)

theorem Operator.alarming_error {op : Operator}
    (hasked : Question.error i q' ∈ (errorInquiry q op).questions inputs)
    (hundefined : (inputs.error i q').isNaN = true) : Alarming (op.error inputs q) := by
  cases op with
  | sum | difference =>
    have h : i = 0 ∧ q' = q ∨ i = 1 ∧ q' = q := by
      simpa [errorInquiry] using hasked
    exact alarming_add (inputs.undefined_of_asked hundefined h)
  | product => exact alarming_product hasked hundefined
  | ratio => exact alarming_ratio hasked hundefined
  | power => exact alarming_power hasked hundefined
  | min =>
    have hquestions : (errorInquiry q .min).questions inputs
        = [.value 0 q, .value 1 q, .error (smallerInput inputs q) q] := rfl
    obtain ⟨rfl, rfl⟩ : i = smallerInput inputs q ∧ q' = q := by
      simpa [hquestions] using hasked
    exact alarming_of_isNaN hundefined
  | max =>
    have hquestions : (errorInquiry q .max).questions inputs
        = [.value 0 q, .value 1 q, .error (largerInput inputs q) q] := rfl
    obtain ⟨rfl, rfl⟩ : i = largerInput inputs q ∧ q' = q := by
      simpa [hquestions] using hasked
    exact alarming_of_isNaN hundefined

theorem Shaping.alarming_error {m : Shaping} (hheeds : m = .interpolate → i ≠ 2)
    (hasked : Question.error i q' ∈ (errorInquiry q output m).questions inputs)
    (hundefined : (inputs.error i q').isNaN = true) :
    Alarming (m.error inputs q output) := by
  cases m with
  | abs =>
    obtain ⟨rfl, rfl⟩ : i = 0 ∧ q' = q := by
      simpa [errorInquiry] using hasked
    exact alarming_of_isNaN hundefined
  | exp =>
    obtain ⟨rfl, rfl⟩ : i = 0 ∧ q' = q := by
      simpa [errorInquiry] using hasked
    exact alarming_of_isNaN (isNaN_mul_left hundefined _)
  | sine | cosine =>
    obtain ⟨rfl, rfl⟩ : i = 0 ∧ q' = q := by
      simpa [errorInquiry] using hasked
    exact Bound.alarming_periodic hundefined _
  | interpolate =>
    have h : i = 0 ∧ q' = q ∨ i = 1 ∧ q' = q := by
      simpa [errorInquiry, fractionInquiry, hheeds] using hasked
    exact alarming_add ((inputs.undefined_of_asked hundefined h).imp (isNaN_mul_right · _)
      (isNaN_mul_right · _))
  | blur =>
    obtain ⟨rfl, rfl⟩ : i = 1 ∧ q' = widened inputs q := by
      simpa [errorInquiry, widenedInquiry, widened] using hasked
    exact alarming_of_isNaN hundefined
  | tap =>
    unfold errorInquiry at hasked
    unfold Shaping.error
    dsimp only at hasked ⊢
    split at hasked
    · obtain ⟨rfl, rfl⟩ : i = 0 ∧ q' = q := by
        simpa using hasked
      rw [if_pos (by assumption)]
      exact alarming_of_isNaN hundefined
    · obtain ⟨rfl, rfl⟩ : i = 1 ∧ q' = q := by
        simpa using hasked
      rw [if_neg (by assumption)]
      exact alarming_of_isNaN hundefined

theorem Composition.alarming_error {m : Composition} (hheeds : m.Heeds i)
    (hasked : Question.error i q' ∈ (errorInquiry q m).questions inputs)
    (hundefined : (inputs.error i q').isNaN = true) : Alarming (m.error inputs q) := by
  cases m with
  | sum | difference =>
    have h : i = 0 ∧ q' = q ∨ i = 1 ∧ q' = q := by
      simpa [errorInquiry] using hasked
    exact alarming_add (inputs.undefined_of_asked hundefined h)
  | product | scale =>
    have h : i = 0 ∧ q' = q ∨ i = 1 ∧ q' = q := by
      simpa [errorInquiry, or_comm] using hasked
    exact alarming_add ((inputs.undefined_of_asked hundefined h).symm.imp (isNaN_mul_right · _)
      (isNaN_mul_right · _))
  | blend =>
    have hweight : i ≠ 2 := hheeds
    have h : i = 0 ∧ q' = q ∨ i = 1 ∧ q' = q := by
      simpa [errorInquiry, fractionInquiry, hweight] using hasked
    refine alarming_of_isNaN (isNaN_add_left ?_ _)
    rcases inputs.undefined_of_asked hundefined h with h | h
    · exact isNaN_add_left (isNaN_mul_right h _) _
    · exact isNaN_add_right (isNaN_mul_right h _) _
  | darker =>
    have hquestions : (errorInquiry q .darker).questions inputs
        = [.color 0 q, .color 1 q, .error (darkerInput inputs q).1 q] := rfl
    obtain ⟨rfl, rfl⟩ : i = (darkerInput inputs q).1 ∧ q' = q := by
      simpa [hquestions] using hasked
    exact alarming_of_isNaN hundefined
  | lighter =>
    have hquestions : (errorInquiry q .lighter).questions inputs
        = [.color 0 q, .color 1 q, .error (lighterInput inputs q).1 q] := rfl
    obtain ⟨rfl, rfl⟩ : i = (lighterInput inputs q).1 ∧ q' = q := by
      simpa [hquestions] using hasked
    exact alarming_of_isNaN hundefined
  | ofHsv =>
    have hhue : i ≠ 0 := hheeds
    have h : i = 1 ∧ q' = q ∨ i = 2 ∧ q' = q := by
      simpa [errorInquiry, hsvInquiry, hhue] using hasked
    rcases h with ⟨rfl, rfl⟩ | ⟨rfl, rfl⟩
    · exact alarming_of_isNaN (isNaN_add_left (isNaN_add_right (isNaN_mul_right hundefined _) _) _)
    · exact alarming_of_isNaN (isNaN_add_right hundefined _)
  | ofRgb | toHsv => exact hheeds.elim

/-- The position has an undefined error when the coordinate that is asked for has. -/
theorem Inputs.isUndefined_positionError (hundefined : (inputs.error i q').isNaN = true)
    (h : i = 0 ∧ q' = q ∨ i = 1 ∧ q' = q ∨ i = 2 ∧ q' = q) :
    (inputs.positionError q).IsUndefined := by
  rcases h with ⟨rfl, rfl⟩ | ⟨rfl, rfl⟩ | ⟨rfl, rfl⟩
  · exact .inl hundefined
  · exact .inr (.inl hundefined)
  · exact .inr (.inr hundefined)

theorem Texture.alarming_error {m : Texture Float} (hheeds : m.Heeds output inputs q)
    (hasked : Question.error i q' ∈ (errorInquiry q output m).questions inputs)
    (hundefined : (inputs.error i q').isNaN = true) :
    Alarming (m.error output inputs q) := by
  have hposition : (inputs.positionError q).IsUndefined := by
    refine inputs.isUndefined_positionError hundefined ?_
    cases m with
    | noise | turbulence | wood =>
      simpa [errorInquiry, surroundingsInquiry, Inquiry.position, Inquiry.positionError,
        Inquiry.positionGradients] using hasked
    | cells =>
      simpa [errorInquiry, nearestInquiry, Inquiry.position, Inquiry.positionError] using hasked
  cases m with
  | noise o | turbulence o =>
    exact alarming_of_isNaN (Pattern.isNaN_error_fractal hheeds.1 hheeds.2 hposition)
  | wood => exact Pattern.alarming_error_wood hposition
  | cells metric =>
    have herror : Texture.error output inputs q (.cells metric)
        = metric.spread (inputs.positionError q) := if_neg hheeds.1
    rw [herror]
    exact alarming_of_isNaN (metric.isNaN_spread hheeds.2 hposition)

theorem Mapping.alarming_error (f : AffineForm Float)
    (hasked : Question.error i q' ∈ (errorInquiry q f).questions inputs)
    (hundefined : (inputs.error i q').isNaN = true) : Alarming (f.error inputs q) := by
  have h : i = 0 ∧ q' = q ∨ i = 1 ∧ q' = q ∨ i = 2 ∧ q' = q := by
    simpa [errorInquiry, Inquiry.positionError] using hasked
  exact alarming_of_isNaN ((inputs.isUndefined_positionError hundefined h).isNaN_dot _)

/-- An expression asks for errors only where it is asked itself. -/
theorem Expr.eq_of_asked {e : Expr Float}
    (hasked : Question.error i q' ∈ (e.inquiry q).questions inputs) : q' = q := by
  induction e with
  | number | coordinate => cases hasked
  | input j =>
    have h : i = j ∧ q' = q := by
      simpa [inquiry] using hasked
    exact h.2
  | unary op e ih =>
    rw [inquiry, Inquiry.questions_bind, List.mem_append] at hasked
    rcases hasked with hasked | hasked
    · exact ih hasked
    · cases hasked
  | binary op l r ihl ihr =>
    rw [inquiry, Inquiry.questions_bind, List.mem_append, Inquiry.questions_bind,
      List.mem_append] at hasked
    rcases hasked with hasked | hasked | hasked
    · exact ihl hasked
    · exact ihr hasked
    · cases hasked

/-- A module that heeds an input of which it finds the error undefined reports a positive error. -/
theorem Catalog.alarming_valueError {m : Catalog Float} (hheeds : m.Heeds output i inputs q)
    (hasked : Question.error i q' ∈ (m.inquiry .error output q).questions inputs)
    (hundefined : (inputs.error i q').isNaN = true) :
    Alarming (m.valueError output inputs q) := by
  cases m with
  | source m | matching m => cases hasked
  | channel m =>
    have hquestions : (Catalog.inquiry (.channel m) .error output q).questions inputs
        = [.error 0 q] := rfl
    obtain ⟨rfl, rfl⟩ : i = 0 ∧ q' = q := by
      simpa [hquestions] using hasked
    exact alarming_of_isNaN hundefined
  | operator m => exact Operator.alarming_error hasked hundefined
  | shaping m => exact Shaping.alarming_error hheeds hasked hundefined
  | expression m =>
    have hasked : Question.error i q' ∈ (m.root.inquiry q).questions inputs := by
      rw [← Inquiry.questions_map]
      exact hasked
    obtain rfl := Expr.eq_of_asked hasked
    exact Expr.alarming_error_estimate hundefined hheeds
  | composition m => exact Composition.alarming_error hheeds hasked hundefined
  | texture m => exact Texture.alarming_error hheeds hasked hundefined
  | mapping m => exact Mapping.alarming_error _ hasked hundefined

end Modules

/-! ### Graphs -/

namespace FrozenGraph

variable {f : FrozenGraph (Catalog Float) Float}

/-- **An undefined error is not taken for convergence**: in a graph without cycles, where a module is
asked for the error of an output, asks for the error of an input that it heeds, and finds it undefined,
the error that is reported is positive. -/
theorem estimateError_of_undefined {g : Graph (Catalog Float) Float} (h : g.freeze = .ok f)
    {t : Target} {q : Query Float} {e : Entry (Catalog Float) Float} {kind : SocketKind}
    (htarget : f.target t q.blur = .ok (e, kind)) {i : Nat} {q' : Query Float}
    (hasked : Question.error i q' ∈ f.questions ⟨e, .error, t.output, q⟩)
    (hundefined : ((f.graph.pull f.answers e).error i q').isNaN = true)
    (hheeds : e.module.Heeds t.output i (f.graph.pull f.answers e) q) :
    ∃ error, f.estimateError t q = .ok error ∧ 0.0 < error := by
  have halarming : Alarming ((f.answers e).error t.output q) := by
    rw [answers_eq h (target_ok htarget).1]
    exact Catalog.alarming_valueError hheeds hasked hundefined
  refine ⟨_, ?_, halarming⟩
  rw [estimateError, htarget]
  rfl

/-- A number that overflows, its product with a number, of which the error is infinity times zero, the
sum of the product and nothing, and the color that has the product for a channel. -/
def overflown : Graph (Catalog Float) Float :=
  Graph.ofEdits "overflow" [.add (.source (.number 1e308)), .add (.operator .sum),
    .bind ⟨1⟩ 0 ⟨⟨0⟩, 0⟩, .bind ⟨1⟩ 1 ⟨⟨0⟩, 0⟩, .add (.operator .product), .bind ⟨2⟩ 0 ⟨⟨1⟩, 0⟩,
    .bind ⟨2⟩ 1 ⟨⟨0⟩, 0⟩, .add (.operator .sum), .bind ⟨3⟩ 0 ⟨⟨2⟩, 0⟩, .add (.composition .ofRgb),
    .bind ⟨4⟩ 0 ⟨⟨2⟩, 0⟩]

theorem freeze_overflown :
    overflown.freeze = .ok ⟨overflown, ⟨[⟨0⟩, ⟨1⟩, ⟨2⟩, ⟨3⟩, ⟨4⟩], 4⟩⟩ :=
  Graph.freeze_eq_ok (by decide +kernel)

/-- The graph as it is evaluated. -/
def frozenOverflown : FrozenGraph (Catalog Float) Float :=
  ⟨overflown, ⟨[⟨0⟩, ⟨1⟩, ⟨2⟩, ⟨3⟩, ⟨4⟩], 4⟩⟩

/-- The sum of the product and nothing. -/
def overflownSum : Entry (Catalog Float) Float :=
  { Entry.ofModule (.operator .sum) with bindings := [some ⟨⟨2⟩, 0⟩, none] }

/-- The color that has the product for a channel. -/
def overflownColor : Entry (Catalog Float) Float :=
  { Entry.ofModule (.composition .ofRgb) with bindings := [some ⟨⟨2⟩, 0⟩, none, none] }

theorem estimateError_of_undefined_overflown :
    ((frozenOverflown.graph.pull frozenOverflown.answers overflownSum).error 0 atOrigin).isNaN
        = true ∧
      ∃ error, frozenOverflown.estimateError ⟨⟨3⟩, 0⟩ atOrigin = .ok error ∧ 0.0 < error := by
  have htarget : frozenOverflown.target ⟨⟨3⟩, 0⟩ atOrigin.blur = .ok (overflownSum, .scalar) :=
    target_unblurred rfl rfl
  have hasked : Question.error 0 atOrigin
      ∈ frozenOverflown.questions ⟨overflownSum, .error, 0, atOrigin⟩ := .head _
  have hundefined : ((frozenOverflown.graph.pull frozenOverflown.answers overflownSum).error 0
      atOrigin).isNaN = true := by
    decide +kernel
  exact ⟨hundefined,
    estimateError_of_undefined freeze_overflown htarget hasked hundefined trivial⟩

/-- **An undefined error may be taken for convergence**: the error of a channel is undefined, and no
error is reported for the color. -/
theorem estimateError_ofRgb :
    overflown.freeze = .ok frozenOverflown ∧
      frozenOverflown.target ⟨⟨4⟩, 0⟩ atOrigin.blur = .ok (overflownColor, .color) ∧
      Question.error 0 atOrigin ∈ frozenOverflown.questions ⟨overflownColor, .error, 0, atOrigin⟩ ∧
      ((frozenOverflown.graph.pull frozenOverflown.answers overflownColor).error 0
        atOrigin).isNaN = true ∧
      frozenOverflown.estimateError ⟨⟨4⟩, 0⟩ atOrigin = .ok 0.0 := by
  have htarget : frozenOverflown.target ⟨⟨4⟩, 0⟩ atOrigin.blur = .ok (overflownColor, .color) :=
    target_unblurred rfl rfl
  have hreported :
      reportedError ((frozenOverflown.answers overflownColor).error 0 atOrigin) = 0.0 := by
    decide +kernel
  refine ⟨freeze_overflown, htarget, .head _, by decide +kernel, ?_⟩
  rw [estimateError, htarget]
  exact congrArg Except.ok hreported

end FrozenGraph

end TextureGraph
