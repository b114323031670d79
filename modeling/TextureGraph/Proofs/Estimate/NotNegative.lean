import TextureGraph.Proofs.Estimate.Mean
import TextureGraph.Proofs.Graph.Upstream
import TextureGraph.Proofs.Module.Configuration

/-!
# Errors are not negative

The error that a module gives is a sum of magnitudes and of products of what is not negative, with two
exceptions (`Catalog.IsRegular`):

* the error of a mix counts the first end with what the mean weight leaves of one, so it needs a weight
  that is not above one, though rounding may take the mean above it;
* the error of an exponential counts the mean of the exponential, so it needs an exponential function
  that does not fall.

`FrozenGraph.error_notNegative`: where the modules that are called on the way are regular, no error is
negative.
`FrozenGraph.error_negative_mix` shows a mix with a negative error.
-/

namespace TextureGraph

open Binary64

/-- The constants of the modules. -/
theorem notNegative_moduleConstants :
    NotNegative Arith.pi ∧ NotNegative Pattern.axisError ∧ NotNegative 6.0 ∧
      NotNegative Composition.maxHueSpread ∧ NotNegative Matching.standardTolerance := by
  decide +kernel

/-! ### Samples -/

/-- A footprint that does not extend backwards. -/
structure Footprint.IsSized (p : Footprint Float) : Prop where
  /-- Along the first axis. -/
  x : NotNegative p.size.x
  /-- Along the second axis. -/
  y : NotNegative p.size.y
  /-- Along the third axis. -/
  z : NotNegative p.size.z

/-- A sample over which errors are not negative. -/
structure Query.IsSized (q : Query Float) : Prop where
  /-- The footprint does not extend backwards. -/
  footprint : q.footprint.IsSized
  /-- Nor does the blur. -/
  blur : NotNegative q.blur

section Samples

variable {q : Query Float}

theorem Axis.notNegative_error (hq : q.IsSized) (axis : Axis) : NotNegative (axis.error q) := by
  cases axis with
  | x => exact (notNegative_half.mul hq.footprint.x).add hq.blur
  | y => exact (notNegative_half.mul hq.footprint.y).add hq.blur
  | z => exact (notNegative_half.mul hq.footprint.z).add hq.blur
  | time => exact notNegative_zero

theorem Fallback.notNegative_error (hq : q.IsSized) (d : Fallback Float) :
    NotNegative (d.error q) := by
  cases d with
  | coordinate axis => exact Axis.notNegative_error hq axis
  | scalar | boolean | color => exact notNegative_zero

/-- What a blur is asked for is asked of its input over a wider sample. -/
theorem Shaping.isSized_widened (hq : q.IsSized) (extra : Float) :
    Query.IsSized { q with blur := q.blur + Arith.max extra 0.0 } :=
  ⟨hq.footprint, hq.blur.add (notNegative_max_zero _)⟩

end Samples

/-- The errors of inputs are not negative where an inquiry asks for them. -/
def Inquiry.FindsErrors {β : Type} (inputs : Inputs Float) (x : Inquiry Float β) : Prop :=
  ∀ i q, .error i q ∈ x.questions inputs → NotNegative (inputs.error i q)

/-! ### Expressions -/

/-- The exponentials of an expression rise over the intervals around their operands. -/
def Expr.IsRegular (inputs : Inputs Float) (q : Query Float) : Expr Float → Prop
  | .number _ | .coordinate _ | .input _ => True
  | .unary op e =>
    e.IsRegular inputs q ∧
      (op = .exp → Mean.ExpRises (e.estimate inputs q).value (e.estimate inputs q).error)
  | .binary _ l r => l.IsRegular inputs q ∧ r.IsRegular inputs q

section Expressions

variable {a b : Estimate Float}

theorem UnaryOp.notNegative_error_apply {op : UnaryOp} (ha : NotNegative a.error)
    (hexp : op = .exp → Mean.ExpRises a.value a.error) : NotNegative (op.apply a).error := by
  cases op with
  | negate | abs => exact ha
  | exp => exact ha.mul (Mean.notNegative_exp ha (hexp rfl))
  | sin | cos => exact Bound.notNegative_periodic
  | sqrt =>
    unfold apply
    dsimp only
    split
    · rename_i hpos
      exact ha.div (unsigned_two.mul (unsigned_of_pos hpos).sqrt)
    · exact notNegative_sqrt _
  | log =>
    unfold apply
    dsimp only
    split
    · exact Bound.notNegative_poleError
    · rename_i hpos
      exact ha.div (unsigned_of_not_le_zero hpos)

/-- A minimum or maximum is one of the two estimates. -/
theorem BinaryOp.apply_of_choice {P : Estimate Float → Prop} {a b : Estimate Float} (ha : P a)
    (hb : P b) : P (BinaryOp.apply .min a b) ∧ P (BinaryOp.apply .max a b) := by
  constructor
  · unfold BinaryOp.apply
    dsimp only
    split
    · exact hb
    · exact ha
  · unfold BinaryOp.apply
    dsimp only
    split
    · exact hb
    · exact ha

theorem BinaryOp.notNegative_error_moduloBy (ha : NotNegative a.error) (hb : NotNegative b.error) :
    NotNegative (moduloBy a b).error := by
  unfold moduloBy
  dsimp only
  split
  · exact ha.add ((notNegative_abs _).mul hb)
  · exact notNegative_abs _

theorem BinaryOp.notNegative_error_angleOf (ha : NotNegative a.error) (hb : NotNegative b.error) :
    NotNegative (angleOf a b).error := by
  unfold angleOf
  dsimp only
  split
  · have hpi : NotNegative Arith.pi := notNegative_moduleConstants.1
    exact hpi
  · have hsquare : Unsigned (a.value * a.value + b.value * b.value) :=
      (unsigned_mul_self _).add (unsigned_mul_self _)
    exact (((notNegative_abs _).mul ha).add ((notNegative_abs _).mul hb)).div hsquare

theorem BinaryOp.notNegative_error_apply (op : BinaryOp) (ha : NotNegative a.error)
    (hb : NotNegative b.error) : NotNegative (op.apply a b).error := by
  cases op with
  | add | subtract => exact ha.add hb
  | multiply => exact Bound.notNegative_product
  | divide =>
    unfold apply
    dsimp only
    split
    · exact Bound.notNegative_poleError
    · exact Bound.notNegative_ratio
  | modulo =>
    unfold apply
    dsimp only
    split
    · exact Bound.notNegative_poleError
    · exact notNegative_error_moduloBy ha hb
  | power =>
    unfold apply
    dsimp only
    split
    · exact Bound.notNegative_poleError
    · exact Power.notNegative_error
  | min => exact (apply_of_choice (P := fun a => NotNegative a.error) ha hb).1
  | max => exact (apply_of_choice (P := fun a => NotNegative a.error) ha hb).2
  | angle => exact notNegative_error_angleOf ha hb

theorem Expr.notNegative_error_estimate {inputs : Inputs Float} {q : Query Float} (hq : q.IsSized)
    {e : Expr Float} (h : e.IsRegular inputs q) (hfinds : (e.inquiry q).FindsErrors inputs) :
    NotNegative (e.estimate inputs q).error := by
  induction e with
  | number => exact notNegative_zero
  | coordinate axis => exact Axis.notNegative_error hq axis
  | input i => exact hfinds i q (by simp [inquiry])
  | unary op e ih =>
    refine UnaryOp.notNegative_error_apply (ih h.1 fun i q' hasked => hfinds i q' ?_) h.2
    rw [inquiry, Inquiry.questions_bind]
    exact List.mem_append_left _ hasked
  | binary op l r ihl ihr =>
    have hl : NotNegative (l.estimate inputs q).error := by
      refine ihl h.1 fun i q' hasked => hfinds i q' ?_
      rw [inquiry, Inquiry.questions_bind]
      exact List.mem_append_left _ hasked
    have hr : NotNegative (r.estimate inputs q).error := by
      refine ihr h.2 fun i q' hasked => hfinds i q' ?_
      rw [inquiry, Inquiry.questions_bind, Inquiry.questions_bind]
      exact List.mem_append_right _ (List.mem_append_left _ hasked)
    exact BinaryOp.notNegative_error_apply op hl hr

end Expressions

/-! ### Patterns -/

namespace Pattern

variable {p size slope : Vec Float}

theorem notNegative_spread : NotNegative (spread size slope) :=
  ((notNegative_abs _).add (notNegative_abs _)).add (notNegative_abs _)

theorem notNegative_error_addOctaves {mode : Mode} {persistence : Float} {limit : Option Float}
    {n : Nat} {frequency amplitude : Float} {sum : Estimate Float} (h : NotNegative sum.error) :
    NotNegative (addOctaves mode p size persistence limit n frequency amplitude sum).error := by
  induction n generalizing frequency amplitude sum with
  | zero => exact h
  | succ n ih =>
    unfold addOctaves
    split
    · exact h
    · exact ih (h.add notNegative_spread)

theorem notNegative_error_sawtooth {rings : Estimate Float} (h : NotNegative rings.error) :
    NotNegative (sawtooth rings).error := by
  unfold sawtooth
  dsimp only
  split
  · exact h
  split
  · exact notNegative_half
  split
  · exact h
  · exact notNegative_half

theorem notNegative_error_wood {spacing : Float} {fractionOnly : Bool} {turbulence : Estimate Float}
    {columns : Vec (Vec Float)} :
    NotNegative (wood spacing fractionOnly turbulence p size columns).error := by
  unfold wood
  cases hrings : rings spacing turbulence p size columns with
  | none =>
    have haxis : NotNegative axisError := notNegative_moduleConstants.2.1
    exact haxis
  | some rings =>
    have herror : NotNegative rings.error := by
      unfold Pattern.rings at hrings
      dsimp only at hrings
      split at hrings
      · cases hrings
      · cases hrings
        exact notNegative_spread
    dsimp only
    split
    · exact notNegative_error_sawtooth herror
    · exact herror

theorem notNegative_cellError (first second : Feature Float) (error : Float) :
    NotNegative (cellError first second error) := by
  unfold cellError
  split
  · exact notNegative_half.mul (notNegative_abs _)
  · exact notNegative_zero

end Pattern

theorem Metric.notNegative_spread (metric : Metric) (error : Vec Float) :
    NotNegative (metric.spread error) := by
  cases metric with
  | euclidean => exact notNegative_sqrt _
  | cityBlock => exact ((notNegative_abs _).add (notNegative_abs _)).add (notNegative_abs _)
  | chessBoard => exact ((notNegative_abs _).max (notNegative_abs _)).max (notNegative_abs _)

/-! ### Modules -/

/-- The weights that a module mixes with lie between zero and one, and the exponentials that it averages
rise. -/
def Catalog.IsRegular (inputs : Inputs Float) (q : Query Float) : Catalog Float → Prop
  | .shaping .interpolate | .composition .blend =>
    Mean.IsWeight (inputs.value 2 q) (inputs.error 2 q)
  | .shaping .exp => Mean.ExpRises (inputs.value 0 q) (inputs.error 0 q)
  | .expression e => e.root.IsRegular inputs q
  | _ => True

/-- The tolerance of a comparison is not negative. -/
def Catalog.IsTolerant : Catalog Float → Prop
  | .matching (.numbers tolerance) => NotNegative tolerance
  | _ => True

section Modules

variable {inputs : Inputs Float} {q : Query Float}

theorem Operator.notNegative_error {op : Operator}
    (hfinds : (errorInquiry q op).FindsErrors inputs) : NotNegative (op.error inputs q) := by
  cases op with
  | sum | difference =>
    exact (hfinds 0 q (by simp [errorInquiry])).add (hfinds 1 q (by simp [errorInquiry]))
  | product =>
    unfold error
    dsimp only
    split
    · exact Bound.notNegative_product
    · exact notNegative_zero
  | ratio =>
    unfold error
    dsimp only
    split
    · exact Bound.notNegative_ratio
    · exact Bound.notNegative_poleError
  | power =>
    unfold error
    dsimp only
    split
    · exact Power.notNegative_error
    · exact Bound.notNegative_poleError
  | min =>
    have hquestions : (errorInquiry q .min).questions inputs
        = [.value 0 q, .value 1 q, .error (smallerInput inputs q) q] := rfl
    exact hfinds _ q (by simp [hquestions])
  | max =>
    have hquestions : (errorInquiry q .max).questions inputs
        = [.value 0 q, .value 1 q, .error (largerInput inputs q) q] := rfl
    exact hfinds _ q (by simp [hquestions])

theorem Shaping.notNegative_error {m : Shaping} (hm : Catalog.IsRegular inputs q (.shaping m))
    {output : Nat} (hfinds : (errorInquiry q output m).FindsErrors inputs) :
    NotNegative (m.error inputs q output) := by
  cases m with
  | abs => exact hfinds 0 q (by simp [errorInquiry])
  | exp =>
    have herror := hfinds 0 q (by simp [errorInquiry])
    exact herror.mul (Mean.notNegative_exp herror hm)
  | sine | cosine => exact Bound.notNegative_periodic
  | interpolate =>
    exact hm.notNegative_mix (hfinds 2 q (by simp [errorInquiry, fractionInquiry]))
      (hfinds 0 q (by simp [errorInquiry])) (hfinds 1 q (by simp [errorInquiry]))
  | blur => exact hfinds 1 _ (by simp [errorInquiry, widenedInquiry, widened])
  | tap =>
    unfold errorInquiry at hfinds
    unfold error
    dsimp only at hfinds ⊢
    split
    · rw [if_pos (by assumption)] at hfinds
      exact hfinds 0 q (by simp)
    · rw [if_neg (by assumption)] at hfinds
      exact hfinds 1 q (by simp)

theorem Composition.notNegative_saturation (inputs : Inputs Float) (q : Query Float) :
    NotNegative (saturation inputs q) := by
  unfold saturation Arith.clamp
  split
  · exact notNegative_zero
  · split
    · exact notNegative_one
    · assumption

theorem Composition.notNegative_error {m : Composition}
    (hm : Catalog.IsRegular inputs q (.composition m))
    (hfinds : (errorInquiry q m).FindsErrors inputs) : NotNegative (m.error inputs q) := by
  have hchannel : ∀ c : Color Float, NotNegative c.maxAbsChannel := fun c =>
    ((notNegative_abs _).max (notNegative_abs _)).max (notNegative_abs _)
  cases m with
  | sum | difference =>
    exact (hfinds 0 q (by simp [errorInquiry])).add (hfinds 1 q (by simp [errorInquiry]))
  | product =>
    exact ((hchannel _).mul (hfinds 1 q (by simp [errorInquiry]))).add
      ((hchannel _).mul (hfinds 0 q (by simp [errorInquiry])))
  | scale =>
    exact ((hchannel _).mul (hfinds 1 q (by simp [errorInquiry]))).add
      ((notNegative_abs _).mul (hfinds 0 q (by simp [errorInquiry])))
  | blend =>
    have hweight := hfinds 2 q (by simp [errorInquiry])
    exact (hm.notNegative_mix hweight (hfinds 0 q (by simp [errorInquiry]))
      (hfinds 1 q (by simp [errorInquiry]))).add ((hchannel _).mul (hweight.min notNegative_one))
  | darker =>
    have hquestions : (errorInquiry q .darker).questions inputs
        = [.color 0 q, .color 1 q, .error (darkerInput inputs q).1 q] := rfl
    exact hfinds _ q (by simp [hquestions])
  | lighter =>
    have hquestions : (errorInquiry q .lighter).questions inputs
        = [.color 0 q, .color 1 q, .error (lighterInput inputs q).1 q] := rfl
    exact hfinds _ q (by simp [hquestions])
  | ofHsv =>
    have hsix : NotNegative 6.0 := notNegative_moduleConstants.2.2.1
    have hspread : NotNegative maxHueSpread := notNegative_moduleConstants.2.2.2.1
    have hhue := ((hsix.mul (notNegative_saturation inputs q)).mul
      (notNegative_abs (inputs.value 2 q))).mul
      ((hfinds 0 q (by simp [errorInquiry])).min hspread)
    exact (hhue.add ((notNegative_abs _).mul (hfinds 1 q (by simp [errorInquiry])))).add
      (hfinds 2 q (by simp [errorInquiry]))
  | ofRgb | toHsv =>
    exact ((notNegative_zero.max (hfinds 0 q (by simp [errorInquiry, channelErrorInquiry]))).max
      (hfinds 1 q (by simp [errorInquiry, channelErrorInquiry]))).max
      (hfinds 2 q (by simp [errorInquiry, channelErrorInquiry]))

theorem Texture.notNegative_error (m : Texture Float) (output : Nat) :
    NotNegative (m.error output inputs q) := by
  cases m with
  | noise | turbulence => exact Pattern.notNegative_error_addOctaves notNegative_zero
  | wood => exact Pattern.notNegative_error_wood
  | cells metric =>
    unfold error cellsError
    dsimp only
    split
    · exact Pattern.notNegative_cellError _ _ _
    · exact metric.notNegative_spread _

theorem Mapping.notNegative_error {f : AffineForm Float}
    (hfinds : (errorInquiry q f).FindsErrors inputs) : NotNegative (f.error inputs q) := by
  have herror : ∀ i < 3, NotNegative (inputs.error i q) := by
    intro i hi
    refine hfinds i q ?_
    interval_cases i <;> simp [errorInquiry, Inquiry.positionError]
  exact (((notNegative_abs _).mul (herror 0 (by decide))).add
    ((notNegative_abs _).mul (herror 1 (by decide)))).add
    ((notNegative_abs _).mul (herror 2 (by decide)))

/-- **Step**: a regular module gives no negative error when it finds none. -/
theorem Catalog.notNegative_valueError (hq : q.IsSized) {m : Catalog Float}
    (htolerant : m.IsTolerant) (hm : m.IsRegular inputs q) {output : Nat}
    (hfinds : (m.inquiry .error output q).FindsErrors inputs) :
    NotNegative (m.valueError output inputs q) := by
  cases m with
  | source m =>
    cases m with
    | number | color | parameter => exact notNegative_zero
    | coordinate axis => exact Axis.notNegative_error hq axis
  | channel m => exact hfinds 0 q (.head _)
  | operator m => exact Operator.notNegative_error hfinds
  | shaping m => exact Shaping.notNegative_error hm hfinds
  | expression m =>
    refine Expr.notNegative_error_estimate hq hm fun i q' hasked => hfinds i q' ?_
    exact (Inquiry.questions_map inputs Estimate.error (m.root.inquiry q)).symm ▸ hasked
  | matching m =>
    have hstandard : NotNegative Matching.standardTolerance :=
      notNegative_moduleConstants.2.2.2.2
    cases m with
    | numbers => exact htolerant
    | select | colors => exact hstandard
  | composition m => exact Composition.notNegative_error hm hfinds
  | texture m => exact Texture.notNegative_error m output
  | mapping m => exact Mapping.notNegative_error hfinds

/-! ### Questions for errors -/

/-- Errors are only asked for over samples that do not extend backwards. -/
def Question.IsSized : Question Float → Prop
  | .error _ q => q.IsSized
  | .isBound _ | .value .. | .color .. | .gradient .. => True

theorem Operator.asks_isSized (hq : q.IsSized) (op : Operator) :
    (errorInquiry q op).Asks Question.IsSized := by
  cases op with
  | sum | difference => simp [errorInquiry, Question.IsSized, hq]
  | product =>
    refine (Inquiry.asks_bothBound fun _ _ => trivial).bind fun both => ?_
    simp [Question.IsSized, hq]
  | ratio =>
    refine Inquiry.Asks.bind (by simp [divisorInquiry, Question.IsSized, hq]) fun b => ?_
    cases b <;> simp [Question.IsSized, hq]
  | power =>
    refine Inquiry.Asks.bind (by simp [baseAndExponentInquiry, Question.IsSized, hq]) fun xe => ?_
    cases xe <;> simp [Question.IsSized, hq]
  | min => simp [errorInquiry, smallerInquiry, selectInquiry, Question.IsSized, hq]
  | max => simp [errorInquiry, largerInquiry, selectInquiry, Question.IsSized, hq]

theorem Shaping.asks_isSized (hq : q.IsSized) (output : Nat) (m : Shaping) :
    (errorInquiry q output m).Asks Question.IsSized := by
  cases m with
  | abs | exp | sine | cosine | tap => simp [errorInquiry, Question.IsSized, hq]
  | interpolate => simp [errorInquiry, fractionInquiry, Question.IsSized, hq]
  | blur => simp [errorInquiry, widenedInquiry, Question.IsSized, isSized_widened hq]

theorem Composition.asks_isSized (hq : q.IsSized) (m : Composition) :
    (errorInquiry q m).Asks Question.IsSized := by
  cases m with
  | sum | difference | product | scale => simp [errorInquiry, Question.IsSized, hq]
  | blend => simp [errorInquiry, fractionInquiry, Question.IsSized, hq]
  | darker | lighter =>
    refine asks_pickInquiry_bind q (fun _ _ => trivial) fun i _ _ => ?_
    exact (Inquiry.asks_error i q).mpr hq
  | ofHsv => simp [errorInquiry, hsvInquiry, Question.IsSized, hq]
  | ofRgb | toHsv => simp [errorInquiry, channelErrorInquiry, Question.IsSized, hq]

theorem Texture.asks_isSized (hq : q.IsSized) (output : Nat) (m : Texture Float) :
    (errorInquiry q output m).Asks Question.IsSized := by
  have hsurroundings : (surroundingsInquiry q).Asks Question.IsSized := by
    refine (Inquiry.asks_position fun _ _ => trivial).bind fun p => ?_
    refine (Inquiry.asks_positionError fun _ _ => hq).bind fun e => ?_
    refine (Inquiry.asks_positionGradients fun _ _ => trivial).bind fun g => ?_
    simp [Question.IsSized]
  cases m with
  | noise | turbulence | wood => exact hsurroundings.bind fun _ => Inquiry.asks_pure _
  | cells metric =>
    refine Inquiry.Asks.bind ?_ fun _ => Inquiry.asks_pure _
    refine (Inquiry.asks_position fun _ _ => trivial).bind fun p => ?_
    exact (Inquiry.asks_positionError fun _ _ => hq).bind fun _ => Inquiry.asks_pure _

theorem Expr.asks_isSized (hq : q.IsSized) (e : Expr Float) :
    (e.inquiry q).Asks Question.IsSized := by
  induction e with
  | number | coordinate => exact Inquiry.asks_pure _
  | input i => simp [inquiry, Question.IsSized, hq]
  | unary op e ih => exact ih.bind fun _ => Inquiry.asks_pure _
  | binary op l r ihl ihr => exact ihl.bind fun _ => ihr.bind fun _ => Inquiry.asks_pure _

theorem Catalog.asks_isSized (hq : q.IsSized) (output : Nat) (m : Catalog Float) :
    (m.inquiry .error output q).Asks Question.IsSized := by
  cases m with
  | source | matching => exact Inquiry.asks_pure _
  | channel => exact (Inquiry.asks_error 0 q).mpr hq
  | operator op => exact op.asks_isSized hq
  | shaping m => exact m.asks_isSized hq output
  | expression m => exact (Inquiry.asks_map _ _).mpr (m.root.asks_isSized hq)
  | composition m => exact m.asks_isSized hq
  | texture m => exact m.asks_isSized hq output
  | mapping m =>
    exact (Inquiry.asks_positionError fun _ _ => hq).bind fun _ => Inquiry.asks_pure _

end Modules

/-- The tolerance can only be set to numbers above zero. -/
theorem Catalog.IsRegistered.isTolerant {m : Catalog Float} (hm : m.IsRegistered) :
    m.IsTolerant := by
  refine hm.induction (p := IsTolerant) ?_ ?_
  · intro m hmem
    cases m with
    | matching m =>
      cases m with
      | numbers tolerance =>
        have htolerance : tolerance = Matching.standardTolerance := by
          simpa [registry] using hmem
        have hstandard : NotNegative Matching.standardTolerance :=
          notNegative_moduleConstants.2.2.2.2
        rw [htolerance]
        exact hstandard
      | select | colors => trivial
    | source | channel | operator | shaping | expression | composition | texture | mapping => trivial
  · intro m name v changed _ hset
    cases m with
    | matching m =>
      obtain ⟨changed, hchanged, hset⟩ := bind_eq_ok_iff.mp hset
      cases hset
      change m.setParameter name v = .ok changed at hchanged
      unfold Matching.setParameter at hchanged
      split at hchanged
      · obtain ⟨tolerance, htolerance, hchanged⟩ := bind_eq_ok_iff.mp hchanged
        cases hchanged
        exact (unsigned_of_pos (ParameterValue.asPositive_eq_ok_iff.mp htolerance).2).notNegative
      · cases hchanged
    | operator | shaping | composition => cases hset
    | source | channel | expression | texture | mapping =>
      obtain ⟨_, -, hset⟩ := bind_eq_ok_iff.mp hset
      cases hset
      trivial

/-! ### Graphs -/

namespace FrozenGraph

variable {f : FrozenGraph (Catalog Float) Float}

/-- All modules that give an error in the course of a call are regular where they give it. -/
def Regular (f : FrozenGraph (Catalog Float) Float) (first : Call (Catalog Float) Float) : Prop :=
  ∀ c, f.Makes first c → c.operation = .error →
    c.entry.module.IsRegular (f.graph.pull f.answers c.entry) c.query

/-- **Run**: no error is negative when the modules that are called for errors are regular. -/
theorem notNegative_answers {g : Graph (Catalog Float) Float} (h : g.freeze = .ok f)
    (htolerant : ∀ id e, f.graph.entry? id = some e → e.module.IsTolerant) {id : ModuleId}
    {e : Entry (Catalog Float) Float} (he : f.graph.entry? id = some e) {output : Nat}
    {q : Query Float} (hq : q.IsSized) (hregular : f.Regular ⟨e, .error, output, q⟩) :
    NotNegative ((f.answers e).error output q) := by
  let holds (_ : ModuleId) (e : Entry (Catalog Float) Float) : Prop :=
    ∀ output q, q.IsSized → f.Regular ⟨e, .error, output, q⟩ →
      NotNegative ((f.answers e).error output q)
  suffices hrun : holds id e from hrun output q hq hregular
  refine induction_reads h (P := holds) (fun id e he ih output q hq hregular => ?_) he
  rw [answers_eq h he]
  refine Catalog.notNegative_valueError hq (htolerant id e he) (hregular _ .first rfl) ?_
  intro i q' hasked
  have hq' : q'.IsSized := (e.module.asks_isSized hq output).of_mem_questions hasked
  unfold Graph.pull
  dsimp only
  cases hs : f.graph.source? e i with
  | none => exact Fallback.notNegative_error hq' _
  | some source =>
    obtain ⟨b, hb, hentry, -⟩ := Graph.source?_eq_some_iff.mp hs
    have hcall : f.graph.call? e (.error i q') = some ⟨source.1, .error, source.2, q'⟩ := by
      simp only [Graph.call?, hs, Option.map_some]
    -- what is called for the input is called in the course of this call
    have hmakes : f.Makes ⟨e, .error, output, q⟩ ⟨source.1, .error, source.2, q'⟩ :=
      .nested .first hasked hcall
    refine ih b.source source.1 (Graph.reads_of_binding? he hb) hentry source.2 q' hq' ?_
    exact fun c hc => hregular c (hmakes.trans hc)

/-- **No error is negative**, up to what rounding does to the weight of a mix: in a graph without cycles
that modules of the registry were added to and configured in, over a footprint and a blur that are not
negative, the error that a module gives is at least zero or undefined, where the weights by which errors
are mixed on the way lie between zero and one and the exponentials rise. -/
theorem error_notNegative (name : String) (edits : List (Edit (Catalog Float) Float))
    (hadd : ∀ m, .add m ∈ edits → m.IsRegistered) (h : (Graph.ofEdits name edits).freeze = .ok f)
    {id : ModuleId} {e : Entry (Catalog Float) Float} (he : f.graph.entry? id = some e)
    {output : Nat} {q : Query Float} (hq : q.IsSized)
    (hregular : f.Regular ⟨e, .error, output, q⟩) :
    0.0 ≤ (f.answers e).error output q ∨ ((f.answers e).error output q).isNaN = true := by
  obtain ⟨hgraph, -⟩ := Graph.freeze_ok h
  have htolerant : ∀ id e, f.graph.entry? id = some e → e.module.IsTolerant := fun id e he =>
    (Graph.isRegistered_of_ofEdits name edits hadd (hgraph ▸ he)).isTolerant
  exact notNegative_iff_le.mp (notNegative_answers h htolerant he hq hregular)

/-- A mix of the second coordinate and zero, by the first coordinate. -/
def mixEdits : List (Edit (Catalog Float) Float) :=
  [.add (.shaping .interpolate), .add (.source (.coordinate .x)),
    .setParameter ⟨1⟩ "axis" (.choice 1), .add (.source (.number 0.0)),
    .add (.source (.coordinate .x)), .bind ⟨0⟩ 0 ⟨⟨1⟩, 0⟩, .bind ⟨0⟩ 1 ⟨⟨2⟩, 0⟩,
    .bind ⟨0⟩ 2 ⟨⟨3⟩, 0⟩]

theorem isRegistered_of_mem_mixEdits (m : Catalog Float) (hm : .add m ∈ mixEdits) :
    m.IsRegistered := by
  have hm : m = .shaping .interpolate ∨ m = .source (.coordinate .x) ∨
      m = .source (.number 0.0) ∨ m = .source (.coordinate .x) := by
    simpa [mixEdits] using hm
  refine ⟨m, ?_, [], rfl⟩
  rcases hm with rfl | rfl | rfl | rfl <;> simp [Catalog.registry]

/-- The graph of the mix as it is evaluated. -/
def frozenMix : FrozenGraph (Catalog Float) Float :=
  ⟨Graph.ofEdits "mix" mixEdits, ⟨[⟨1⟩, ⟨2⟩, ⟨3⟩, ⟨0⟩], 2⟩⟩

theorem freeze_mix : (Graph.ofEdits "mix" mixEdits).freeze = .ok frozenMix :=
  Graph.freeze_eq_ok (by decide +kernel)

/-- The mix. -/
def mix : Entry (Catalog Float) Float :=
  { Entry.ofModule (.shaping .interpolate) with
    bindings := [some ⟨⟨1⟩, 0⟩, some ⟨⟨2⟩, 0⟩, some ⟨⟨3⟩, 0⟩] }

theorem exists_source_of_source?_mix {e : Entry (Catalog Float) Float} {i output : Nat}
    (h : frozenMix.graph.source? mix i = some (e, output)) : ∃ m, e.module = .source m := by
  obtain ⟨b, hb, he, -⟩ := Graph.source?_eq_some_iff.mp h
  match i, hb with
  | 0, hb | 1, hb | 2, hb =>
    cases hb
    cases he
    exact ⟨_, rfl⟩

/-- The mix calls nothing but sources, which make no further calls. -/
theorem eq_or_exists_source_of_makes_mix {first c : Call (Catalog Float) Float}
    (hfirst : first.entry = mix) (h : frozenMix.Makes first c) :
    c = first ∨ ∃ m, c.entry.module = .source m := by
  induction h with
  | first => exact .inl rfl
  | nested made asked call ih =>
    rcases ih with rfl | ⟨m, hm⟩
    · obtain ⟨i, hi⟩ := Graph.source?_of_call? call
      rw [hfirst] at hi
      exact .inr (exists_source_of_source?_mix hi)
    · rw [questions, hm] at asked
      cases asked

/-- A sample between zero and one. -/
def inside : Query Float :=
  { footprint := { position := ⟨0.25, 0.0, 0.0⟩, size := ⟨0.25, 1.0, 0.0⟩, time := 0.0 },
    blur := 0.0 }

theorem error_notNegative_mix :
    ∃ f e, (Graph.ofEdits "mix" mixEdits).freeze = .ok f ∧ f.graph.entry? ⟨0⟩ = some e ∧
      (0.0 ≤ (f.answers e).error 0 inside ∨ ((f.answers e).error 0 inside).isNaN = true) := by
  have hsized : inside.IsSized :=
    ⟨⟨by decide +kernel, by decide +kernel, by decide +kernel⟩, by decide +kernel⟩
  have hweight : Mean.IsWeight ((frozenMix.graph.pull frozenMix.answers mix).value 2 inside)
      ((frozenMix.graph.pull frozenMix.answers mix).error 2 inside) :=
    ⟨by decide +kernel, by decide +kernel⟩
  have hregular : frozenMix.Regular ⟨mix, .error, 0, inside⟩ := by
    intro c hc _
    rcases eq_or_exists_source_of_makes_mix rfl hc with rfl | ⟨m, hm⟩
    · exact hweight
    · rw [hm]
      trivial
  have hentry : frozenMix.graph.entry? ⟨0⟩ = some mix := rfl
  exact ⟨frozenMix, mix, freeze_mix, hentry,
    error_notNegative "mix" mixEdits isRegistered_of_mem_mixEdits freeze_mix hentry hsized hregular⟩

/-- A sample that is narrow along the first axis. -/
def narrow : Query Float :=
  { footprint := { position := ⟨1.0, 0.0, 0.0⟩, size := ⟨2.4e-16, 1.0, 0.0⟩, time := 0.0 },
    blur := 0.0 }

theorem isSized_narrow : narrow.IsSized :=
  ⟨⟨by decide +kernel, by decide +kernel, by decide +kernel⟩, by decide +kernel⟩

/-- **An error may be negative**: over an interval around one that is as narrow as values are there, the
mean weight is above one. -/
theorem error_negative_mix :
    (∀ m, .add m ∈ mixEdits → m.IsRegistered) ∧
      (Graph.ofEdits "mix" mixEdits).freeze = .ok frozenMix ∧
      frozenMix.graph.entry? ⟨0⟩ = some mix ∧ narrow.IsSized ∧
      (frozenMix.answers mix).error 0 narrow < 0.0 :=
  ⟨isRegistered_of_mem_mixEdits, freeze_mix, rfl, isSized_narrow, by decide +kernel⟩

end FrozenGraph

end TextureGraph
