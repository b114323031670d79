import TextureGraph.Proofs.Graph.ExactEvaluation
import TextureGraph.Proofs.Pointwise.Agreement

/-!
# How far the errors of selections and blends reach

`mixing_errors`: in real arithmetic, let the inputs of a minimum, a maximum or an interpolation vary
within their errors.

* The error of a minimum is that of the operand it selects.  It bounds how far the minimum rises; it
  bounds how far the minimum falls exactly when the operand that is not selected does not fall farther.
  A maximum is the mirror image.
* The error of an interpolation is the blend of the errors by the mean weight (`Mean.fraction`).  It
  bounds how far the blend strays as far as the weight stays at its mean; what a change of the weight
  adds is proportional to this change (`abs_blend_sub_blend_le`), and the weight does not leave the
  interval of its ends (`Mean.fraction_mem`).
-/

namespace TextureGraph

/-! ### Selections -/

section Selections

variable {a b ea eb : ℝ}

/-- No selection of the smaller one rises above what the error of the selected one allows. -/
theorem min_le_min_add {c d : ℝ} (hc : |c - a| ≤ ea) (hd : |d - b| ≤ eb) :
    min c d ≤ min a b + if b < a then eb else ea := by
  split_ifs with hselect
  · rw [min_eq_right hselect.le]
    exact (min_le_right c d).trans (sub_le_iff_le_add'.mp (abs_le.mp hd).2)
  · rw [min_eq_left (not_lt.mp hselect)]
    exact (min_le_left c d).trans (sub_le_iff_le_add'.mp (abs_le.mp hc).2)

/-- The smaller one does not fall below the lower ends. -/
theorem min_sub_le_min {c d : ℝ} (hc : |c - a| ≤ ea) (hd : |d - b| ≤ eb) :
    min (a - ea) (b - eb) ≤ min c d :=
  min_le_min (sub_le_comm.mp (abs_sub_le_iff.mp hc).2) (sub_le_comm.mp (abs_sub_le_iff.mp hd).2)

/-- **Selections**: the error of the selected one bounds how far the smaller one strays exactly when the
other one does not fall farther. -/
theorem forall_abs_min_sub_le_iff (ha : 0 ≤ ea) (hb : 0 ≤ eb) :
    (∀ c d, |c - a| ≤ ea → |d - b| ≤ eb → |min c d - min a b| ≤ if b < a then eb else ea) ↔
      (min a b - if b < a then eb else ea) ≤ min (a - ea) (b - eb) := by
  constructor
  · intro h
    -- The lower ends are themselves within reach.
    have hends := h (a - ea) (b - eb) (by simp [abs_of_nonneg ha]) (by simp [abs_of_nonneg hb])
    exact sub_le_comm.mp (abs_sub_le_iff.mp hends).2
  · intro h c d hc hd
    refine abs_sub_le_iff.mpr ⟨sub_le_iff_le_add'.mpr (min_le_min_add hc hd), ?_⟩
    exact sub_le_comm.mp (h.trans (min_sub_le_min hc hd))

/-- No selection of the larger one falls below what the error of the selected one allows. -/
theorem max_sub_le_max {c d : ℝ} (hc : |c - a| ≤ ea) (hd : |d - b| ≤ eb) :
    (max a b - if a < b then eb else ea) ≤ max c d := by
  have hmin : min (-c) (-d) ≤ min (-a) (-b) + if -b < -a then eb else ea :=
    min_le_min_add (by rwa [neg_sub_neg, abs_sub_comm]) (by rwa [neg_sub_neg, abs_sub_comm])
  simp only [min_neg_neg, neg_lt_neg_iff] at hmin
  linarith

/-- The larger one does not rise above the upper ends. -/
theorem max_le_max_add {c d : ℝ} (hc : |c - a| ≤ ea) (hd : |d - b| ≤ eb) :
    max c d ≤ max (a + ea) (b + eb) :=
  max_le_max (sub_le_iff_le_add'.mp (abs_le.mp hc).2) (sub_le_iff_le_add'.mp (abs_le.mp hd).2)

theorem forall_abs_max_sub_le_iff (ha : 0 ≤ ea) (hb : 0 ≤ eb) :
    (∀ c d, |c - a| ≤ ea → |d - b| ≤ eb → |max c d - max a b| ≤ if a < b then eb else ea) ↔
      max (a + ea) (b + eb) ≤ max a b + if a < b then eb else ea := by
  constructor
  · intro h
    have hends := h (a + ea) (b + eb) (by simp [abs_of_nonneg ha]) (by simp [abs_of_nonneg hb])
    exact sub_le_iff_le_add'.mp (abs_sub_le_iff.mp hends).1
  · intro h c d hc hd
    refine abs_sub_le_iff.mpr ⟨?_, sub_le_comm.mp (max_sub_le_max hc hd)⟩
    exact sub_le_iff_le_add'.mpr ((max_le_max_add hc hd).trans h)

end Selections

/-! ### Weights -/

section Weights

theorem unitClamp_nonneg (a : ℝ) : 0 ≤ unitClamp a :=
  le_max_left _ _

theorem unitClamp_le_one (a : ℝ) : unitClamp a ≤ 1 :=
  max_le zero_le_one (min_le_left _ _)

theorem unitClamp_mono : Monotone unitClamp :=
  fun _ _ h => max_le_max_left _ (min_le_min_left _ h)

theorem unitClamp_of_nonneg {a : ℝ} (h : 0 ≤ a) : unitClamp a = min a 1 := by
  rw [unitClamp, min_comm, max_eq_right (le_min h zero_le_one)]

theorem unitClamp_of_le_one {a : ℝ} (h : a ≤ 1) : unitClamp a = max a 0 := by
  rw [unitClamp, min_eq_right h, max_comm]

/-- The mean over an interval of what is cut off below at `low` and above at `high`, where the parts that
are cut off count as zero and as one, lies between `low` and `high`. -/
theorem cut_mean_mem {lowest highest low high : ℝ} (hlow : lowest ≤ low) (hinside : low ≤ high)
    (hhigh : high ≤ highest) (hnonneg : 0 ≤ low) (hle_one : high ≤ 1)
    (hcut_low : (low - lowest) * low = 0) (hcut_high : (highest - high) * high = highest - high) :
    highest - high + 1 / 2 * (high + low) * (high - low)
      ∈ Set.Icc (low * (highest - lowest)) (high * (highest - lowest)) := by
  have habove : 0 ≤ highest - high := sub_nonneg.mpr hhigh
  have hbelow : 0 ≤ low - lowest := sub_nonneg.mpr hlow
  have hsquare : 0 ≤ (high - low) ^ 2 / 2 := by positivity
  constructor
  · have hrest : highest - high + 1 / 2 * (high + low) * (high - low) - low * (highest - lowest)
        = (highest - high) * (1 - low) + (high - low) ^ 2 / 2 := by
      linear_combination -hcut_low
    have hfirst : 0 ≤ (highest - high) * (1 - low) :=
      mul_nonneg habove (sub_nonneg.mpr (hinside.trans hle_one))
    linarith
  · have hrest : high * (highest - lowest) - (highest - high + 1 / 2 * (high + low) * (high - low))
        = high * (low - lowest) + (high - low) ^ 2 / 2 := by
      linear_combination hcut_high
    have hfirst : 0 ≤ high * (low - lowest) := mul_nonneg (hnonneg.trans hinside) hbelow
    linarith

/-- The mean of the weight lies between the weights at the ends of the interval. -/
theorem Mean.fraction_mem (x : ℝ) {e : ℝ} (he : 0 ≤ e) :
    Mean.fraction x e ∈ Set.Icc (unitClamp (x - e)) (unitClamp (x + e)) := by
  have hends : x - e ≤ x + e := (sub_le_self x he).trans (le_add_of_nonneg_right he)
  unfold Mean.fraction
  simp only [ExactArith.zero_eq, ExactArith.one_eq, ExactArith.half_eq, ExactArith.two_eq,
    ExactArith.max_real, ExactArith.min_real, Bool.or_eq_true, decide_eq_true_eq]
  split_ifs with hbelow habove hbeyond
  · exact ⟨by rw [unitClamp_of_le_one (by linarith), max_eq_right (by linarith)],
      unitClamp_nonneg _⟩
  · exact ⟨unitClamp_le_one _, by rw [unitClamp_of_nonneg (by linarith), min_eq_right (by linarith)]⟩
  · have hlength : x + e - (x - e) = 2 * e := by ring
    have hpos : 0 < 2 * e := by
      rcases hbeyond with h | h <;> linarith
    have hover : max (x + e - 1) 0 = x + e - min (x + e) 1 := by
      rw [← max_sub_sub_left, sub_self, max_comm]
    have hcut_low : (max (x - e) 0 - (x - e)) * max (x - e) 0 = 0 := by
      rcases max_choice (x - e) 0 with h | h <;> simp [h]
    have hcut_high : (x + e - min (x + e) 1) * min (x + e) 1 = x + e - min (x + e) 1 := by
      rcases min_choice (x + e) 1 with h | h <;> simp [h]
    have hinside : max (x - e) 0 ≤ min (x + e) 1 :=
      max_le (le_min hends (not_le.mp habove).le) (le_min (not_le.mp hbelow).le zero_le_one)
    have hmean := cut_mean_mem (le_max_left _ _) hinside (min_le_left _ _) (le_max_right _ _)
      (min_le_right _ _) hcut_low hcut_high
    rw [hlength] at hmean
    rw [unitClamp_of_le_one (not_le.mp habove).le, unitClamp_of_nonneg (not_le.mp hbelow).le, hover]
    exact ⟨(le_div_iff₀ hpos).mpr hmean.1, (div_le_iff₀ hpos).mpr hmean.2⟩
  · rw [not_or, not_lt, not_lt] at hbeyond
    rw [unitClamp_of_nonneg hbeyond.1, unitClamp_of_nonneg (hbeyond.1.trans hends)]
    exact ⟨(min_le_left _ _).trans (sub_le_self x he),
      le_min (le_add_of_nonneg_right he) ((le_add_of_nonneg_right he).trans hbeyond.2)⟩

/-- **Blends**: what a change of the weight adds to the blend of the errors is proportional to the
change. -/
theorem abs_blend_sub_blend_le {f g a b c d ea eb : ℝ} (hg : 0 ≤ g) (hg' : g ≤ 1)
    (hc : |c - a| ≤ ea) (hd : |d - b| ≤ eb) :
    |blend g c d - blend f a b| ≤ blend f ea eb + ((g - f) * (eb - ea) + |g - f| * |b - a|) := by
  have hparts : blend g c d - blend f a b
      = (1 - g) * (c - a) + g * (d - b) + (g - f) * (b - a) := by
    unfold blend
    ring
  have hfirst : |(1 - g) * (c - a)| ≤ (1 - g) * ea := by
    rw [abs_mul, abs_of_nonneg (sub_nonneg.mpr hg')]
    exact mul_le_mul_of_nonneg_left hc (sub_nonneg.mpr hg')
  have hsecond : |g * (d - b)| ≤ g * eb := by
    rw [abs_mul, abs_of_nonneg hg]
    exact mul_le_mul_of_nonneg_left hd hg
  calc |blend g c d - blend f a b|
      ≤ |(1 - g) * (c - a)| + |g * (d - b)| + |(g - f) * (b - a)| := by
        rw [hparts]
        exact abs_add_three _ _ _
    _ ≤ (1 - g) * ea + g * eb + |g - f| * |b - a| := by
        rw [abs_mul (g - f)]
        gcongr
    _ = blend f ea eb + ((g - f) * (eb - ea) + |g - f| * |b - a|) := by
        unfold blend
        ring

end Weights

/-! ### Modules -/

section Modules

variable (inputs : Inputs ℝ) (q : Query ℝ) (output : Nat)

theorem answers_min :
    (TextureModule.answers Operator.min inputs).value output q
        = min (inputs.value 0 q) (inputs.value 1 q) ∧
      (TextureModule.answers Operator.min inputs).error output q
        = if inputs.value 1 q < inputs.value 0 q then inputs.error 1 q else inputs.error 0 q :=
  ⟨ExactArith.min_real _ _, apply_ite (inputs.error · q) _ _ _⟩

theorem answers_max :
    (TextureModule.answers Operator.max inputs).value output q
        = max (inputs.value 0 q) (inputs.value 1 q) ∧
      (TextureModule.answers Operator.max inputs).error output q
        = if inputs.value 0 q < inputs.value 1 q then inputs.error 1 q else inputs.error 0 q :=
  ⟨ExactArith.max_real _ _, apply_ite (inputs.error · q) _ _ _⟩

theorem answers_interpolate :
    (TextureModule.answers Shaping.interpolate inputs).value output q
        = blend (Shaping.fraction inputs q) (inputs.value 0 q) (inputs.value 1 q) ∧
      (TextureModule.answers Shaping.interpolate inputs).error output q
        = blend (Shaping.fraction inputs q) (inputs.error 0 q) (inputs.error 1 q) := by
  refine ⟨blend_skipping _ _ _, ?_⟩
  show (1.0 - Shaping.fraction inputs q) * _ + _ = _
  rw [ExactArith.one_eq]
  rfl

/-- **The errors of selections and blends**: in real arithmetic, let the inputs of a module vary within
errors that are not negative.

* The minimum does not rise above its value by more than its error; it stays within its error of its
  value, wherever the inputs are, if and only if neither input reaches below the value less the error.
* The maximum does not fall below its value by more than its error; it stays within its error of its
  value, wherever the inputs are, if and only if neither input reaches above the value plus the error.
* The blend of the inputs is off the value of an interpolation by no more than the error and a multiple
  of how far the weight is from its mean, which is no more than the weight differs between the ends of
  its interval.  So it is off by no more than the error where the weight is the same at both ends, and
  where both values and both errors are the same. -/
theorem mixing_errors (h0 : 0 ≤ inputs.error 0 q) (h1 : 0 ≤ inputs.error 1 q) :
    (let least := TextureModule.answers Operator.min inputs;
      (∀ c d, |c - inputs.value 0 q| ≤ inputs.error 0 q → |d - inputs.value 1 q| ≤ inputs.error 1 q →
        min c d ≤ least.value output q + least.error output q) ∧
      ((∀ c d, |c - inputs.value 0 q| ≤ inputs.error 0 q → |d - inputs.value 1 q| ≤ inputs.error 1 q →
          |min c d - least.value output q| ≤ least.error output q) ↔
        least.value output q - least.error output q
          ≤ min (inputs.value 0 q - inputs.error 0 q) (inputs.value 1 q - inputs.error 1 q))) ∧
    (let greatest := TextureModule.answers Operator.max inputs;
      (∀ c d, |c - inputs.value 0 q| ≤ inputs.error 0 q → |d - inputs.value 1 q| ≤ inputs.error 1 q →
        greatest.value output q - greatest.error output q ≤ max c d) ∧
      ((∀ c d, |c - inputs.value 0 q| ≤ inputs.error 0 q → |d - inputs.value 1 q| ≤ inputs.error 1 q →
          |max c d - greatest.value output q| ≤ greatest.error output q) ↔
        max (inputs.value 0 q + inputs.error 0 q) (inputs.value 1 q + inputs.error 1 q)
          ≤ greatest.value output q + greatest.error output q)) ∧
    (let mixed := TextureModule.answers Shaping.interpolate inputs;
      let mean := Shaping.fraction inputs q;
      let lowest := unitClamp (inputs.value 2 q - inputs.error 2 q);
      let highest := unitClamp (inputs.value 2 q + inputs.error 2 q);
      ∀ c d w, |c - inputs.value 0 q| ≤ inputs.error 0 q → |d - inputs.value 1 q| ≤ inputs.error 1 q →
        |w - inputs.value 2 q| ≤ inputs.error 2 q →
        |blend (unitClamp w) c d - mixed.value output q|
            ≤ mixed.error output q
              + ((unitClamp w - mean) * (inputs.error 1 q - inputs.error 0 q)
                + |unitClamp w - mean| * |inputs.value 1 q - inputs.value 0 q|) ∧
          |unitClamp w - mean| ≤ highest - lowest ∧
          (lowest = highest ∨
              inputs.value 0 q = inputs.value 1 q ∧ inputs.error 0 q = inputs.error 1 q →
            |blend (unitClamp w) c d - mixed.value output q| ≤ mixed.error output q)) := by
  refine ⟨?_, ?_, ?_⟩
  · obtain ⟨hvalue, herror⟩ := answers_min inputs q output
    dsimp only
    rw [hvalue, herror]
    exact ⟨fun c d => min_le_min_add, forall_abs_min_sub_le_iff h0 h1⟩
  · obtain ⟨hvalue, herror⟩ := answers_max inputs q output
    dsimp only
    rw [hvalue, herror]
    exact ⟨fun c d => max_sub_le_max, forall_abs_max_sub_le_iff h0 h1⟩
  · intro mixed mean lowest highest c d w hc hd hw
    obtain ⟨hvalue, herror⟩ := answers_interpolate inputs q output
    have hbound := abs_blend_sub_blend_le (f := mean) (unitClamp_nonneg w) (unitClamp_le_one w) hc hd
    rw [← hvalue, ← herror] at hbound
    have hmean : mean ∈ Set.Icc lowest highest := Mean.fraction_mem _ ((abs_nonneg _).trans hw)
    have hweight : unitClamp w ∈ Set.Icc lowest highest :=
      ⟨unitClamp_mono (sub_le_comm.mp (abs_sub_le_iff.mp hw).2),
        unitClamp_mono (sub_le_iff_le_add'.mp (abs_sub_le_iff.mp hw).1)⟩
    have hchange : |unitClamp w - mean| ≤ highest - lowest :=
      abs_sub_le_of_le_of_le hweight.1 hweight.2 hmean.1 hmean.2
    refine ⟨hbound, hchange, fun hsteady => hbound.trans_eq ?_⟩
    rcases hsteady with hends | ⟨hvalues, herrors⟩
    · rw [hends, sub_self, abs_nonpos_iff] at hchange
      rw [hchange, zero_mul, abs_zero, zero_mul, add_zero, add_zero]
    · rw [hvalues, herrors, sub_self, sub_self, mul_zero, abs_zero, mul_zero, add_zero, add_zero]

end Modules

/-- A footprint that reaches as far as one to either side of the origin. -/
noncomputable def acrossOrigin : Query ℝ :=
  ⟨⟨⟨0, 0, 0⟩, ⟨1 + 1, 0, 0⟩, 0, []⟩, 0⟩

/-- Inputs that are their numbers, give or take one. -/
noncomputable def unitSteps : Inputs ℝ where
  count := 3
  isBound _ := true
  value i _ := i
  color i _ := Color.gray i
  error _ _ := 1
  gradient _ _ := Vec.zero

/-- Neither the input with the lowest end nor the weight is in doubt. -/
theorem mixing_errors_unitSteps :
    let least := TextureModule.answers Operator.min unitSteps
    let mixed := TextureModule.answers Shaping.interpolate unitSteps
    (0 ≤ unitSteps.error 0 acrossOrigin ∧ 0 ≤ unitSteps.error 1 acrossOrigin) ∧
      ∀ c d w, |c - unitSteps.value 0 acrossOrigin| ≤ unitSteps.error 0 acrossOrigin →
        |d - unitSteps.value 1 acrossOrigin| ≤ unitSteps.error 1 acrossOrigin →
        |w - unitSteps.value 2 acrossOrigin| ≤ unitSteps.error 2 acrossOrigin →
          |min c d - least.value 0 acrossOrigin| ≤ least.error 0 acrossOrigin ∧
            |blend (unitClamp w) c d - mixed.value 0 acrossOrigin| ≤ mixed.error 0 acrossOrigin := by
  intro least mixed
  have hnonneg : 0 ≤ unitSteps.error 0 acrossOrigin ∧ 0 ≤ unitSteps.error 1 acrossOrigin :=
    ⟨zero_le_one, zero_le_one⟩
  have hinputs : unitSteps.value 0 acrossOrigin = 0 ∧ unitSteps.value 1 acrossOrigin = 1 ∧
      unitSteps.value 2 acrossOrigin = 2 :=
    ⟨Nat.cast_zero, Nat.cast_one, Nat.cast_ofNat⟩
  have herrors : ∀ i, unitSteps.error i acrossOrigin = 1 := fun _ => rfl
  obtain ⟨hleast, -, hmixed⟩ := mixing_errors unitSteps acrossOrigin 0 hnonneg.1 hnonneg.2
  have hlowest : least.value 0 acrossOrigin - least.error 0 acrossOrigin
      ≤ min (unitSteps.value 0 acrossOrigin - unitSteps.error 0 acrossOrigin)
        (unitSteps.value 1 acrossOrigin - unitSteps.error 1 acrossOrigin) := by
    rw [(answers_min unitSteps acrossOrigin 0).1, (answers_min unitSteps acrossOrigin 0).2]
    norm_num [hinputs, herrors]
  have hsteady : unitClamp (unitSteps.value 2 acrossOrigin - unitSteps.error 2 acrossOrigin)
      = unitClamp (unitSteps.value 2 acrossOrigin + unitSteps.error 2 acrossOrigin) := by
    norm_num [hinputs, herrors, unitClamp]
  exact ⟨hnonneg, fun c d w hc hd hw =>
    ⟨hleast.2.mpr hlowest c d hc hd, (hmixed c d w hc hd hw).2.2 (.inl hsteady)⟩⟩

/-- A constant and a coordinate, the smaller and the larger of them, and their interpolation with the
coordinate for a weight. -/
noncomputable def mixtures : Graph (Catalog ℝ) ℝ :=
  Graph.ofEdits "mixtures" [.add (.source (.number 0)), .add (.source (.coordinate .x)),
    .add (.operator .min), .add (.operator .max), .add (.shaping .interpolate),
    .bind ⟨2⟩ 0 ⟨⟨0⟩, 0⟩, .bind ⟨2⟩ 1 ⟨⟨1⟩, 0⟩, .bind ⟨3⟩ 0 ⟨⟨0⟩, 0⟩, .bind ⟨3⟩ 1 ⟨⟨1⟩, 0⟩,
    .bind ⟨4⟩ 0 ⟨⟨0⟩, 0⟩, .bind ⟨4⟩ 1 ⟨⟨1⟩, 0⟩, .bind ⟨4⟩ 2 ⟨⟨1⟩, 0⟩]

theorem freeze_mixtures :
    mixtures.freeze = .ok ⟨mixtures, ⟨[⟨0⟩, ⟨1⟩, ⟨2⟩, ⟨3⟩, ⟨4⟩], 2⟩⟩ :=
  Graph.freeze_eq_ok (by decide +kernel)

theorem evaluate_mixtures {f : FrozenGraph (Catalog ℝ) ℝ} (hf : f.graph = mixtures) {id : ModuleId}
    {e : Entry (Catalog ℝ) ℝ} {value error : ℝ} (he : mixtures.entry? id = some e)
    (hkind : e.signature.outputKind? 0 = some .scalar)
    (hvalue : (f.answers e).value 0 acrossOrigin = value)
    (herror : (f.answers e).error 0 acrossOrigin = error) (hnonneg : 0 ≤ error) :
    f.evaluateScalar ⟨id, 0⟩ acrossOrigin = .ok value ∧
      f.estimateError ⟨id, 0⟩ acrossOrigin = .ok error := by
  obtain ⟨hscalar, hestimate, -⟩ := FrozenGraph.evaluate_of_nonneg (f := f) (t := ⟨id, 0⟩)
    (q := acrossOrigin) le_rfl (hf ▸ he) hkind (by decide)
  rw [hscalar, hestimate, hvalue, herror, max_eq_left hnonneg]
  exact ⟨rfl, rfl⟩

/-- The coordinate takes the values from `-1` to `1`, which the errors of the selections and of the blend
do not know of. -/
theorem mixing_errors_exceeded :
    ∃ f, mixtures.freeze = .ok f ∧
      (f.evaluateScalar ⟨⟨0⟩, 0⟩ acrossOrigin = .ok 0 ∧
        f.estimateError ⟨⟨0⟩, 0⟩ acrossOrigin = .ok 0) ∧
      (f.evaluateScalar ⟨⟨1⟩, 0⟩ acrossOrigin = .ok 0 ∧
        f.estimateError ⟨⟨1⟩, 0⟩ acrossOrigin = .ok 1) ∧
      (f.evaluateScalar ⟨⟨2⟩, 0⟩ acrossOrigin = .ok 0 ∧
        f.estimateError ⟨⟨2⟩, 0⟩ acrossOrigin = .ok 0 ∧ ¬ |min 0 (-1 : ℝ) - 0| ≤ 0) ∧
      (f.evaluateScalar ⟨⟨3⟩, 0⟩ acrossOrigin = .ok 0 ∧
        f.estimateError ⟨⟨3⟩, 0⟩ acrossOrigin = .ok 0 ∧ ¬ |max 0 (1 : ℝ) - 0| ≤ 0) ∧
      f.evaluateScalar ⟨⟨4⟩, 0⟩ acrossOrigin = .ok 0 ∧
        f.estimateError ⟨⟨4⟩, 0⟩ acrossOrigin = .ok (1 / 4) ∧
        ¬ |blend (unitClamp 1) 0 1 - 0| ≤ 1 / 4 := by
  let f : FrozenGraph (Catalog ℝ) ℝ := ⟨mixtures, ⟨[⟨0⟩, ⟨1⟩, ⟨2⟩, ⟨3⟩, ⟨4⟩], 2⟩⟩
  have hzero : (Arith.toOfScientific.ofScientific 0 true 1 : ℝ) = 0 := ExactArith.zero_eq
  have hextent : (Arith.toOfScientific.ofScientific 5 true 1 : ℝ) * (1 + 1) + 0 = 1 := by
    norm_num
  have hconstant : f.evaluateScalar ⟨⟨0⟩, 0⟩ acrossOrigin = .ok 0 ∧
      f.estimateError ⟨⟨0⟩, 0⟩ acrossOrigin = .ok 0 :=
    evaluate_mixtures rfl rfl rfl rfl hzero le_rfl
  have hcoordinate : f.evaluateScalar ⟨⟨1⟩, 0⟩ acrossOrigin = .ok 0 ∧
      f.estimateError ⟨⟨1⟩, 0⟩ acrossOrigin = .ok 1 :=
    evaluate_mixtures rfl rfl rfl rfl hextent zero_le_one
  have hleast : f.evaluateScalar ⟨⟨2⟩, 0⟩ acrossOrigin = .ok 0 ∧
      f.estimateError ⟨⟨2⟩, 0⟩ acrossOrigin = .ok 0 :=
    evaluate_mixtures rfl rfl rfl ((answers_min _ _ 0).1.trans (min_self 0))
      ((answers_min _ _ 0).2.trans ((if_neg (lt_irrefl 0)).trans hzero)) le_rfl
  have hgreatest : f.evaluateScalar ⟨⟨3⟩, 0⟩ acrossOrigin = .ok 0 ∧
      f.estimateError ⟨⟨3⟩, 0⟩ acrossOrigin = .ok 0 :=
    evaluate_mixtures rfl rfl rfl ((answers_max _ _ 0).1.trans (max_self 0))
      ((answers_max _ _ 0).2.trans ((if_neg (lt_irrefl 0)).trans hzero)) le_rfl
  have hquarter : ∀ a b : ℝ, a = 0 → b = 1 → blend (Mean.fraction 0 b) a b = 1 / 4 := by
    rintro _ _ rfl rfl
    norm_num [blend, Mean.fraction, ExactArith.max_real, ExactArith.min_real]
  have hmixed : f.evaluateScalar ⟨⟨4⟩, 0⟩ acrossOrigin = .ok 0 ∧
      f.estimateError ⟨⟨4⟩, 0⟩ acrossOrigin = .ok (1 / 4) := by
    refine evaluate_mixtures rfl rfl rfl ((answers_interpolate _ _ 0).1.trans ?_)
      ((answers_interpolate _ _ 0).2.trans ?_) (by norm_num)
    · show blend _ 0 0 = 0
      rw [blend, mul_zero, mul_zero, add_zero]
    · exact hquarter _ _ hzero hextent
  refine ⟨f, freeze_mixtures, hconstant, hcoordinate, ⟨hleast.1, hleast.2, ?_⟩,
    ⟨hgreatest.1, hgreatest.2, ?_⟩, hmixed.1, hmixed.2, ?_⟩
  · norm_num
  · norm_num
  · norm_num [blend, unitClamp]

end TextureGraph
