import Mathlib.Data.Real.Basic
import TextureGraph.Catalog.Basic
import TextureGraph.Proofs.Estimate.Sawtooth
import TextureGraph.Proofs.Graph.ExactEvaluation
import TextureGraph.Proofs.Graph.KindSafety
import TextureGraph.Proofs.Pattern.GradientNoise
import TextureGraph.Proofs.Pointwise.Pattern

/-!
# Rings of wood

Wood counts rings around an axis; it may keep the fractional part of the number of rings only.

* `sawtoothMeans_agree`: in real arithmetic, off the axis, this is the mean of the fractional part over the
  error of the rings, as it is for a remainder in an expression.
* `FrozenGraph.wood_range`: so it lies between zero and one, unless the position is on the axis.  There the
  value is the turbulence, of which the whole part is not taken away; `FrozenGraph.wood_exceeds_one` is a
  position where it is larger than one.
-/

namespace TextureGraph

namespace Pattern

/-! ### The rings off the axis -/

/-- The position is not on the axis of the rings. -/
def OffAxis (p : Vec ℝ) : Prop :=
  p.x ≠ 0 ∨ p.y ≠ 0

theorem sqrt_eq_zero_iff_not_offAxis (p : Vec ℝ) : √(p.x ^ 2 + p.y ^ 2) = 0 ↔ ¬ OffAxis p := by
  rw [Real.sqrt_eq_zero (by positivity), add_eq_zero_iff_of_nonneg (sq_nonneg _) (sq_nonneg _),
    sq_eq_zero_iff, sq_eq_zero_iff, OffAxis, not_or, not_not, not_not]

theorem hypot_eq_sqrt (x y : ℝ) : Arith.hypot x y = √(x ^ 2 + y ^ 2) := by
  rw [sq, sq]
  rfl

/-- How the number of rings changes in space. -/
noncomputable def ringSlope (spacing : ℝ) (p slope : Vec ℝ) : Vec ℝ :=
  ⟨p.x / √(p.x ^ 2 + p.y ^ 2) / spacing, p.y / √(p.x ^ 2 + p.y ^ 2) / spacing, 0⟩ + slope

theorem spread_nonneg (size slope : Vec ℝ) : 0 ≤ spread size slope :=
  add_nonneg (add_nonneg (abs_nonneg _) (abs_nonneg _)) (abs_nonneg _)

section Position

variable {p : Vec ℝ} (spacing : ℝ) (turbulence : Estimate ℝ) (size : Vec ℝ) (columns : Vec (Vec ℝ))

theorem rings_of_offAxis (hp : OffAxis p) :
    rings spacing turbulence p size columns
      = some ⟨√(p.x ^ 2 + p.y ^ 2) / spacing + turbulence.value,
        spread size (ringSlope spacing p turbulence.gradient),
        (ringSlope spacing p turbulence.gradient).combine columns⟩ := by
  have hradius : √(p.x ^ 2 + p.y ^ 2) ≠ 0 := (sqrt_eq_zero_iff_not_offAxis p).not.mpr (not_not.mpr hp)
  unfold rings ringSlope
  simp only [hypot_eq_sqrt, ExactOrder.beq_iff, ExactArith.zero_eq, ExactArith.one_eq, mul_one_div]
  exact if_neg hradius

theorem wood_of_onAxis (hp : ¬ OffAxis p) (fractionOnly : Bool) :
    wood spacing fractionOnly turbulence p size columns = ⟨turbulence.value, axisError, Vec.zero⟩ := by
  have hrings : rings spacing turbulence p size columns = none := by
    unfold rings
    simp only [hypot_eq_sqrt, ExactOrder.beq_iff, ExactArith.zero_eq]
    exact if_pos ((sqrt_eq_zero_iff_not_offAxis p).mpr hp)
  rw [wood, hrings]

/-! ### The range of the sawtooth -/

/-- **The sawtooth keeps its range**, with every error. -/
theorem sawtooth_mem {rings : Estimate ℝ} (herror : 0 ≤ rings.error) :
    (sawtooth rings).value ∈ Set.Icc 0 1 := by
  rcases herror.eq_or_lt with hzero | hpos
  · have hvalue : (sawtooth rings).value = Int.fract rings.value := by
      rw [sawtooth, if_pos (ExactOrder.beq_iff.mpr (hzero.symm.trans ExactArith.zero_eq.symm))]
      rfl
    rw [hvalue]
    exact ⟨Int.fract_nonneg _, (Int.fract_lt_one _).le⟩
  rcases lt_or_ge rings.error (1 / 2) with hlt | hge
  · rw [sawtooth_value rings hpos hlt]
    exact sawtoothMean_mem (by linarith)
  -- A footprint as wide as a ring has the mean of a whole ring.
  · have hvalue : (sawtooth rings).value = 1 / 2 := by
      unfold sawtooth
      simp only [ExactOrder.beq_iff, ExactArith.zero_eq, ExactArith.half_eq]
      rw [if_neg hpos.ne', if_pos hge]
    rw [hvalue]
    norm_num

/-- Only on the axis, the range of the pattern depends on the turbulence. -/
theorem wood_mem_iff (hturbulence : 0 ≤ turbulence.value) :
    (wood spacing true turbulence p size columns).value ∈ Set.Icc 0 1
      ↔ OffAxis p ∨ turbulence.value ≤ 1 := by
  by_cases hp : OffAxis p
  · rw [wood, rings_of_offAxis spacing turbulence size columns hp]
    exact iff_of_true (sawtooth_mem (spread_nonneg _ _)) (.inl hp)
  · rw [wood_of_onAxis spacing turbulence size columns hp, or_iff_right hp]
    exact and_iff_right hturbulence

end Position

end Pattern

/-! ### Modules -/

/-- The value of wood off the axis, with the sawtooth, is a mean of the fractional part. -/
theorem Texture.woodEstimate_value (o : Octaves ℝ) (spacing : ℝ) (inputs : Inputs ℝ) (q : Query ℝ) :
    let p := inputs.position q
    let turbulence := o.estimate .absolute (1 / 2) inputs q
    let rings := √(p.x ^ 2 + p.y ^ 2) / spacing + turbulence.value
    let error := Pattern.spread (inputs.positionError q)
      (Pattern.ringSlope spacing p turbulence.gradient)
    Pattern.OffAxis p → 0 < error → error < 1 / 2 →
      (woodEstimate o spacing true inputs q).value = sawtoothMean (rings - error) (rings + error) := by
  intro p turbulence rings error hp hpos hlt
  rw [woodEstimate, ExactArith.half_eq, Pattern.wood, Pattern.rings_of_offAxis _ _ _ _ hp]
  exact Pattern.sawtooth_value _ hpos hlt

/-- **The two sawtooth means agree**: in real arithmetic, let the mean of the fractional part over an interval
be found from its integral.

* A remainder in an expression, of a number with an error by a number that is larger than its own error, is
  the divisor times the mean over the interval of the quotient.
* Wood that keeps the fractional part only, off the axis and with an error of less than half a ring, is the
  mean over the interval of the rings.

Both hold whether or not the interval holds the end of a tooth. -/
theorem sawtoothMeans_agree :
    (∀ u, sawtoothArea u = ∫ t in (0 : ℝ)..u, Int.fract t) ∧
    (∀ (left right : Expr ℝ) (inputs : Inputs ℝ) (q : Query ℝ),
      let a := left.estimate inputs q
      let b := right.estimate inputs q
      0 < a.error → b.error < |b.value| →
        ((Expr.binary .modulo left right).estimate inputs q).value = b.value *
          sawtoothMean (a.value / b.value - a.error / |b.value|)
            (a.value / b.value + a.error / |b.value|)) ∧
    ∀ (o : Octaves ℝ) (spacing : ℝ) (inputs : Inputs ℝ) (q : Query ℝ) (output : Nat),
      let p := inputs.position q
      let turbulence := o.estimate .absolute (1 / 2) inputs q
      let rings := √(p.x ^ 2 + p.y ^ 2) / spacing + turbulence.value
      let error := Pattern.spread (inputs.positionError q)
        (Pattern.ringSlope spacing p turbulence.gradient)
      Pattern.OffAxis p → 0 < error → error < 1 / 2 →
        (TextureModule.answers (Texture.wood o spacing true) inputs).value output q
          = sawtoothMean (rings - error) (rings + error) := by
  refine ⟨fun u => (integral_fract u).symm, fun left right inputs q hpos hlt => ?_,
    fun o spacing inputs q output hp hpos hlt => ?_⟩
  · exact BinaryOp.modulo_value _ _ hpos hlt
  · exact Texture.woodEstimate_value o spacing inputs q hp hpos hlt

/-- A place on the first axis that is known up to a quarter; how high it lies is not known. -/
noncomputable def acrossRing : Inputs ℝ where
  count := 4
  isBound _ := true
  value i _ := if i = 0 then 1 else 0
  color _ _ := Color.gray 0
  error i _ := if i = 0 then 1 / 4 else if i = 2 then 1 else 0
  gradient _ _ := Vec.zero

/-- A point, which is evaluated without a blur. -/
noncomputable def pointQuery (p : Vec ℝ) : Query ℝ :=
  ⟨⟨p, Vec.zero, 0, []⟩, 0⟩

/-- Across the end of a ring and of a unit interval. -/
theorem sawtoothMeans_agree_across :
    let remainder := (Expr.binary .modulo (.input 0) (.number (-1))).estimate acrossRing
      (pointQuery Vec.zero)
    let wood := TextureModule.answers (Texture.wood ⟨2, 1⟩ (1 : ℝ) true) acrossRing
    remainder.value = -1 * sawtoothMean (-(5 / 4)) (-(3 / 4)) ∧
      wood.value 0 (pointQuery Vec.zero) = sawtoothMean (3 / 4) (5 / 4) := by
  obtain ⟨-, hremainder, hwood⟩ := sawtoothMeans_agree
  have hdividend : (Expr.input 0).estimate acrossRing (pointQuery Vec.zero) = ⟨1, 1 / 4, Vec.zero⟩ := by
    simp [Expr.estimate, Inputs.estimate, acrossRing]
  have hdivisor : (Expr.number (-1)).estimate acrossRing (pointQuery Vec.zero) = ⟨-1, 0, Vec.zero⟩ := by
    rw [Expr.estimate, Estimate.constant, ExactArith.zero_eq]
  have hplace : acrossRing.position (pointQuery Vec.zero) = ⟨1, 0, 0⟩ := by
    simp [Inputs.position, acrossRing]
  have hextent : acrossRing.positionError (pointQuery Vec.zero) = ⟨1 / 4, 0, 1⟩ := by
    simp [Inputs.positionError, acrossRing]
  -- The height is so uncertain that there is no turbulence.
  have hturbulence : (⟨2, 1⟩ : Octaves ℝ).estimate .absolute (1 / 2) acrossRing (pointQuery Vec.zero)
      = .constant 0 := by
    rw [Octaves.estimate, hextent]
    exact Pattern.fractal_of_half_le _ _ _ _ _ _ (by norm_num)
  have hslope : Pattern.ringSlope 1 ⟨1, 0, 0⟩ Vec.zero = ⟨1, 0, 0⟩ := by
    refine Vec.toFun_injective ?_
    rw [Pattern.ringSlope, Vec.toFun_add, Vec.toFun_zero, add_zero]
    norm_num
  have herror : Pattern.spread ⟨1 / 4, 0, 1⟩ ⟨1, 0, 0⟩ = (1 / 4 : ℝ) := by
    norm_num [Pattern.spread]
  constructor
  · have hmean := hremainder (.input 0) (.number (-1)) acrossRing (pointQuery Vec.zero)
    rw [hdividend, hdivisor] at hmean
    norm_num at hmean
    rw [hmean, neg_one_mul]
  · have hmean := hwood ⟨2, 1⟩ 1 acrossRing (pointQuery Vec.zero) 0
    rw [hplace, hextent, hturbulence] at hmean
    norm_num [Estimate.constant, hslope, herror, Pattern.OffAxis] at hmean
    exact hmean

/-! ### Turbulence on the axis -/

namespace Pattern

/-- A place on the axis.  It is between the lattice points in the first two directions only. -/
noncomputable def onAxis : Vec ℝ :=
  ⟨0, 0, 818 / 125⟩

/-- The slopes that the lattice points around it carry make the noise negative. -/
theorem noiseAt_onAxis : noiseAt onAxis 1 = -57 / 125 - fade (57 / 125) * (11 / 125) := by
  have hslopes : (latticeHash 123 123 130 % 12).toNat = 9 ∧ (latticeHash 124 123 130 % 12).toNat = 9 ∧
      (latticeHash 123 124 130 % 12).toNat = 8 ∧ (latticeHash 124 124 130 % 12).toNat = 8 := by
    decide +kernel
  have hplace : onAxis.scale 1 + Vec.splat latticeOffset = ⟨15432 / 125, 15432 / 125, 130⟩ := by
    have hoffset : (latticeOffset : ℝ) = 15432 / 125 := by
      rw [latticeOffset, ExactArith.literal_eq]
      norm_num
    show (⟨0 * 1 + latticeOffset, 0 * 1 + latticeOffset, 818 / 125 * 1 + latticeOffset⟩ : Vec ℝ) = _
    rw [hoffset]
    norm_num
  have hfloor : (⟨15432 / 125, 15432 / 125, 130⟩ : Vec ℝ).map (⌊·⌋) = ⟨123, 123, 130⟩ := by
    simp only [Vec.map]
    norm_num
  have hfract : (⟨15432 / 125, 15432 / 125, 130⟩ : Vec ℝ).map Int.fract = ⟨57 / 125, 57 / 125, 0⟩ := by
    simp only [Vec.map, Int.fract]
    norm_num
  have hfade : fade (0 : ℝ) = 0 := by
    rw [fade, zero_mul, zero_mul, zero_mul]
  have hsub : ∀ v w : Vec ℝ, v - w = ⟨v.x - w.x, v.y - w.y, v.z - w.z⟩ := fun _ _ => rfl
  have hofBool : ∀ b : Bool, (Arith.ofBool b : ℝ) = if b then 1 else 0 := by
    intro b
    rw [Arith.ofBool, ExactArith.zero_eq, ExactArith.one_eq]
  rw [noiseAt, gradientNoise_fst, hplace, hfloor, hfract]
  simp only [corners, List.map, List.sum_cons, List.sum_nil, cornerTerm, latticeSlope]
  simp [endWeight, Vec.zipWith, Vec.map, hfade, hslopes, edgeDirection, hsub, hofBool]
  ring

/-- **Turbulence on the axis**: its first octave alone is larger than one. -/
theorem one_lt_turbulence_onAxis (octaves : ℕ) (persistence : ℝ) :
    1 < (fractal .absolute (octaves + 1) 3 persistence onAxis ⟨0, 0, 0⟩).value := by
  have hfade : 0 ≤ fade (57 / 125 : ℝ) := by
    norm_num [fade, ExactArith.literal_eq]
  have hfirst : 1 < |3 * persistence ^ 0 * noiseAt onAxis (2 ^ 0 : ℕ)| := by
    rw [pow_zero, pow_zero, Nat.cast_one, noiseAt_onAxis, lt_abs]
    exact .inr (by linarith)
  rw [(fractal_atPoint .absolute (octaves + 1) 3 persistence onAxis).1, octaveSum]
  refine hfirst.trans_le (Finset.single_le_sum (f := fun i => Mode.absolute.apply
    (3 * persistence ^ i * noiseAt onAxis (2 ^ i : ℕ))) (fun i _ => ?_) ?_)
  · exact abs_nonneg _
  · exact Finset.mem_range.mpr octaves.succ_pos

end Pattern

/-! ### Graphs -/

/-- The graph has wood of this number. -/
def Graph.HasWood (g : Graph (Catalog ℝ) ℝ) (id : ModuleId) (e : Entry (Catalog ℝ) ℝ) (o : Octaves ℝ)
    (spacing : ℝ) (fractionOnly : Bool) : Prop :=
  g.entry? id = some e ∧ e.module = .texture (.wood o spacing fractionOnly)

namespace FrozenGraph

variable {f : FrozenGraph (Catalog ℝ) ℝ} {id : ModuleId} {e : Entry (Catalog ℝ) ℝ} {o : Octaves ℝ}
  {spacing : ℝ} {fractionOnly : Bool} {q : Query ℝ}

/-- The output of wood can be asked for with every blur that is not negative. -/
theorem evaluate_wood (hg : f.graph.Consistent) (h : f.graph.freeze = .ok f)
    (hwood : f.graph.HasWood id e o spacing fractionOnly) (hblur : 0 ≤ q.blur) :
    let inputs := f.graph.pull f.answers e
    f.evaluateScalar ⟨id, 0⟩ q
      = .ok (Pattern.wood spacing fractionOnly (o.estimate .absolute (1 / 2) inputs q)
        (inputs.position q) (inputs.positionError q) (inputs.positionGradients q)).value := by
  intro inputs
  have hkind : (TextureModule.signature e.module : Signature ℝ).outputKind? 0 = some .scalar := by
    rw [hwood.2]
    rfl
  rw [(evaluate_module (t := ⟨id, 0⟩) hg h hwood.1 hkind (by decide) hblur).1, hwood.2,
    ← ExactArith.half_eq]
  rfl

/-- **Wood keeps only the fraction, off the axis**: in real arithmetic, whatever changes have led to a graph
without cycles, wood that keeps the fractional part only is found at every position, over every footprint and
with every blur.

* It lies between zero and one if the position is off the axis or the turbulence there is at most one, and
  only then.
* On the axis, it is the turbulence. -/
theorem wood_range (name : String) (edits : List (Edit (Catalog ℝ) ℝ))
    (h : (Graph.ofEdits name edits).freeze = .ok f) (hwood : f.graph.HasWood id e o spacing true)
    (hblur : 0 ≤ q.blur) :
    let p := (f.graph.pull f.answers e).position q
    let turbulence := (o.estimate .absolute (1 / 2) (f.graph.pull f.answers e) q).value
    ∃ v, f.evaluateScalar ⟨id, 0⟩ q = .ok v ∧
      (v ∈ Set.Icc 0 1 ↔ Pattern.OffAxis p ∨ turbulence ≤ 1) ∧
      (¬ Pattern.OffAxis p → v = turbulence ∧ 0 ≤ turbulence) := by
  intro p turbulence
  obtain ⟨hg, hf⟩ := Graph.freeze_ofEdits h
  have hturbulence : 0 ≤ turbulence := Pattern.fractal_absolute_nonneg _ _ _ _ _
  refine ⟨_, evaluate_wood hg hf hwood hblur, Pattern.wood_mem_iff _ _ _ _ hturbulence, fun hp => ?_⟩
  rw [Pattern.wood_of_onAxis _ _ _ _ hp]
  exact ⟨rfl, hturbulence⟩

end FrozenGraph

/-- Wood of its own, with a large amplitude. -/
noncomputable def onlyWood : Graph (Catalog ℝ) ℝ :=
  Graph.ofEdits "wood" [.add (.texture (.wood ⟨2, 6⟩ (1 / 4) true))]

theorem freeze_onlyWood : onlyWood.freeze = .ok ⟨onlyWood, ⟨[⟨0⟩], 1⟩⟩ :=
  Graph.freeze_eq_ok (by decide +kernel)

/-- Next to the axis, the range is kept. -/
theorem FrozenGraph.wood_range_offAxis :
    ∃ f v, onlyWood.freeze = .ok f ∧
      f.evaluateScalar ⟨⟨0⟩, 0⟩ (pointQuery ⟨1 / 1000, 0, 818 / 125⟩) = .ok v ∧ v ∈ Set.Icc 0 1 := by
  obtain ⟨v, hv, hrange, -⟩ := @wood_range _ ⟨0⟩ _ ⟨2, 6⟩ (1 / 4) (pointQuery ⟨1 / 1000, 0, 818 / 125⟩)
    "wood" _ freeze_onlyWood ⟨rfl, rfl⟩ le_rfl
  have hoff : Pattern.OffAxis ⟨1 / 1000, 0, 818 / 125⟩ := .inl (by norm_num)
  exact ⟨_, v, freeze_onlyWood, hv, hrange.mpr (.inl hoff)⟩

/-- **On the axis, the range is left**: an amplitude that wood takes makes it larger than one. -/
theorem FrozenGraph.wood_exceeds_one :
    (Texture.wood ⟨2, 1⟩ (1 / 4 : ℝ) true).setParameter "amplitude" (.number 6)
        = .ok (.wood ⟨2, 6⟩ (1 / 4) true) ∧
      ∃ f e v, onlyWood.freeze = .ok f ∧ f.graph.HasWood ⟨0⟩ e ⟨2, 6⟩ (1 / 4) true ∧
        f.evaluateScalar ⟨⟨0⟩, 0⟩ (pointQuery Pattern.onAxis) = .ok v ∧ 1 < v := by
  obtain ⟨hg, hf⟩ := Graph.freeze_ofEdits freeze_onlyWood
  let f : FrozenGraph (Catalog ℝ) ℝ := ⟨onlyWood, ⟨[⟨0⟩], 1⟩⟩
  let e : Entry (Catalog ℝ) ℝ := .ofModule (.texture (.wood ⟨2, 6⟩ (1 / 4) true))
  have hplace : (f.graph.pull f.answers e).position (pointQuery Pattern.onAxis) = Pattern.onAxis := rfl
  have hextent : (f.graph.pull f.answers e).positionError (pointQuery Pattern.onAxis) = ⟨0, 0, 0⟩ := by
    have hzero : (Arith.toOfScientific.ofScientific 5 true 1 : ℝ)
        * Arith.toOfScientific.ofScientific 0 true 1 + 0 = 0 := by norm_num
    exact congrArg (fun a => (⟨a, a, a⟩ : Vec ℝ)) hzero
  have haxis : ¬ Pattern.OffAxis Pattern.onAxis := fun hoff => hoff.elim (· rfl) (· rfl)
  have hamplitude : (1 / 2 : ℝ) * 6 = 3 := by norm_num
  refine ⟨rfl, f, e, _, freeze_onlyWood, ⟨rfl, rfl⟩, evaluate_wood hg hf ⟨rfl, rfl⟩ le_rfl, ?_⟩
  rw [Octaves.estimate, hplace, hextent, Pattern.wood_of_onAxis _ _ _ _ haxis, hamplitude]
  exact Pattern.one_lt_turbulence_onAxis 1 _

end TextureGraph
