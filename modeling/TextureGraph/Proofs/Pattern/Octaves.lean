import Mathlib.Data.ENNReal.Inv
import Mathlib.Algebra.Order.BigOperators.Group.Finset
import Mathlib.Tactic.IntervalCases
import TextureGraph.Pattern.Fractal
import TextureGraph.Proofs.Number.ExactOrder
import TextureGraph.Proofs.Space.Inverse

/-!
# Octaves add up to a closed sum

`Pattern.fractal_closedForm`: in real arithmetic, a fractal over a footprint is a weighted sum of the octaves
below a cutoff that the largest extent of the footprint sets.  The octaves are given by their numbers
(`octaveTerm`), and so are their weights (`octaveWeight`).

The value, the error and the gradient are followed side by side (`Estimate.parts`): a step adds what one octave
contributes (`addOctaves_succ`), and a run the contributions of all octaves that are not left out
(`parts_addOctaves`).  Octaves that come after one that is left out are left out, too, since their frequencies
are higher.
-/

namespace TextureGraph

/-! ### Parts of an estimate -/

/-- The value, the error and the gradient side by side, where estimates can be added. -/
def Estimate.parts (e : Estimate ℝ) : ℝ × ℝ × (Fin 3 → ℝ) :=
  (e.value, e.error, e.gradient.toFun)

theorem Estimate.parts_injective : Function.Injective Estimate.parts := by
  rintro ⟨value, error, gradient⟩ ⟨value', error', gradient'⟩ h
  simp only [Estimate.parts, Prod.mk.injEq] at h
  obtain ⟨rfl, rfl, h⟩ := h
  rw [Vec.toFun_injective h]

theorem Estimate.parts_constant_zero : (Estimate.constant (0 : ℝ)).parts = 0 := by
  simp [Estimate.constant, Estimate.parts, Vec.toFun_zero]

namespace Pattern

open scoped ENNReal

/-! ### Terms -/

/-- The noise of one octave of the given frequency. -/
noncomputable def noiseAt (p : Vec ℝ) (frequency : ℝ) : ℝ :=
  (gradientNoise (p.scale frequency + Vec.splat latticeOffset)).1

/-- The gradient of that noise with respect to the position that is scaled. -/
noncomputable def noiseGradientAt (p : Vec ℝ) (frequency : ℝ) : Vec ℝ :=
  (gradientNoise (p.scale frequency + Vec.splat latticeOffset)).2

/-- A term and its gradient as they are, or negated together where the term is negative. -/
noncomputable def Mode.orient (mode : Mode) (s : ℝ) (g : Vec ℝ) : ℝ × Vec ℝ :=
  match mode with
  | .signed => (s, g)
  | .absolute => if s < 0 then (-s, -g) else (s, g)

theorem Mode.orient_absolute_nonneg (s : ℝ) (g : Vec ℝ) : 0 ≤ (Mode.absolute.orient s g).1 := by
  rw [Mode.orient]
  split_ifs with hneg
  · exact (neg_pos.mpr hneg).le
  · exact not_lt.mp hneg

/-- An octave by its number: its value and its gradient. -/
noncomputable def octaveTerm (mode : Mode) (amplitude persistence : ℝ) (p : Vec ℝ) (i : ℕ) : ℝ × Vec ℝ :=
  mode.orient (amplitude * persistence ^ i * noiseAt p (2 ^ i : ℕ))
    ((noiseGradientAt p (2 ^ i : ℕ)).scale (amplitude * persistence ^ i * (2 ^ i : ℕ)))

theorem octave_eq_orient (mode : Mode) (p : Vec ℝ) (frequency amplitude : ℝ) :
    octave mode p frequency amplitude
      = mode.orient (amplitude * noiseAt p frequency)
        ((noiseGradientAt p frequency).scale (amplitude * frequency)) := by
  unfold octave noiseAt noiseGradientAt
  generalize gradientNoise (p.scale frequency + Vec.splat latticeOffset) = noise
  cases mode with
  | signed => rfl
  | absolute =>
    refine if_congr ?_ rfl rfl
    rw [Bool.and_eq_true, decide_eq_true_eq, ExactArith.zero_eq]
    exact and_iff_right rfl

theorem octaveTerm_eq_octave (mode : Mode) (amplitude persistence : ℝ) (p : Vec ℝ) (i : ℕ) :
    octaveTerm mode amplitude persistence p i
      = octave mode p (2 ^ i) (amplitude * persistence ^ i) := by
  rw [octave_eq_orient, octaveTerm, Nat.cast_pow, Nat.cast_ofNat]

/-! ### The loop -/

/-- The share of an octave that is kept, below a limit. -/
noncomputable def share (limit : Option ℝ) (frequency : ℝ) : ℝ :=
  (kept limit frequency).getD 1

/-- What an octave adds. -/
noncomputable def contribution (mode : Mode) (p size : Vec ℝ) (limit : Option ℝ)
    (frequency amplitude : ℝ) : ℝ × ℝ × (Fin 3 → ℝ) :=
  let term := octave mode p frequency amplitude
  (share limit frequency * term.1, spread size term.2, share limit frequency • term.2.toFun)

theorem isDropped_mono {limit : Option ℝ} {f f' : ℝ} (h : isDropped limit f = true) (hle : f ≤ f') :
    isDropped limit f' = true := by
  cases limit with
  | none => exact h
  | some limit =>
    rw [isDropped, decide_eq_true_eq] at h ⊢
    exact h.trans hle

section Loop

variable (mode : Mode) (p size : Vec ℝ) (persistence : ℝ) (limit : Option ℝ)

/-- **Step**: an octave that is not left out adds its contribution, and the next one has twice the
frequency. -/
theorem addOctaves_succ (octaves : ℕ) (frequency amplitude : ℝ) (sum : Estimate ℝ) :
    ∃ next : Estimate ℝ,
      next.parts = sum.parts + contribution mode p size limit frequency amplitude ∧
      addOctaves mode p size persistence limit (octaves + 1) frequency amplitude sum
        = if isDropped limit frequency then sum
          else addOctaves mode p size persistence limit octaves (frequency * 2)
            (amplitude * persistence) next := by
  have hparts : ∀ (term : ℝ × Vec ℝ) (shared : Option ℝ),
      (⟨sum.value + (match shared with
          | none => term
          | some share => (term.1 * share, term.2.scale share)).1,
        sum.error + spread size term.2,
        sum.gradient + (match shared with
          | none => term
          | some share => (term.1 * share, term.2.scale share)).2⟩ : Estimate ℝ).parts
        = sum.parts + (shared.getD 1 * term.1, spread size term.2, shared.getD 1 • term.2.toFun) := by
    rintro term (_ | share)
    · simp [Estimate.parts, Vec.toFun_add]
    · simp [Estimate.parts, Vec.toFun_add, Vec.toFun_scale, mul_comm]
  refine ⟨_, hparts (octave mode p frequency amplitude) (kept limit frequency), ?_⟩
  rw [addOctaves, ← ExactArith.two_eq]
  cases kept limit frequency <;> rfl

/-- **Run**: octaves add their contributions, as long as they are not left out. -/
theorem parts_addOctaves (octaves : ℕ) {frequency : ℝ} (hfrequency : 0 ≤ frequency) (amplitude : ℝ)
    (sum : Estimate ℝ) :
    (addOctaves mode p size persistence limit octaves frequency amplitude sum).parts
      = sum.parts + ∑ i ∈ Finset.range octaves,
        if isDropped limit (frequency * 2 ^ i) then 0
        else contribution mode p size limit (frequency * 2 ^ i) (amplitude * persistence ^ i) := by
  induction octaves generalizing frequency amplitude sum with
  | zero => rw [addOctaves, Finset.sum_range_zero, add_zero]
  | succ octaves ih =>
    obtain ⟨next, hnext, hstep⟩ :=
      addOctaves_succ mode p size persistence limit octaves frequency amplitude sum
    rw [hstep]
    by_cases hdropped : isDropped limit frequency = true
    · -- The frequencies grow, so all later octaves are left out, too.
      have hlater : ∀ i, isDropped limit (frequency * 2 ^ i) = true := fun i =>
        isDropped_mono hdropped (le_mul_of_one_le_right hfrequency (one_le_pow₀ one_le_two))
      rw [if_pos hdropped, Finset.sum_eq_zero fun i _ => if_pos (hlater i), add_zero]
    · rw [if_neg hdropped, ih (by positivity), hnext, Finset.sum_range_succ', pow_zero, pow_zero,
        mul_one, mul_one, if_neg hdropped, add_assoc, add_comm (Finset.sum _ _)]
      simp only [mul_assoc, pow_succ']

end Loop

/-! ### The frequencies that are kept -/

/-- The frequency that octaves stay below over a footprint with the given largest extent; infinite for a
point. -/
noncomputable def cutoff (m : ℝ) : ℝ≥0∞ :=
  1 / ((2 : ℕ) * ENNReal.ofReal m)

/-- The octaves whose frequencies lie below the cutoff. -/
noncomputable def octavesBelow (m : ℝ) (octaves : ℕ) : Finset ℕ :=
  {i ∈ Finset.range octaves | (2 ^ i : ℕ) < cutoff m}

/-- The share of an octave that is kept. -/
noncomputable def octaveWeight (m : ℝ) (i : ℕ) : ℝ :=
  min 1 ((2 : ℕ) * (1 - ((2 ^ i : ℕ) / cutoff m).toReal))

theorem mem_octavesBelow {m : ℝ} {octaves i : ℕ} :
    i ∈ octavesBelow m octaves ↔ i < octaves ∧ 2 ^ i < cutoff m := by
  rw [octavesBelow, Finset.mem_filter, Finset.mem_range, Nat.cast_pow, Nat.cast_ofNat]

theorem octaveWeight_eq (m : ℝ) (i : ℕ) :
    octaveWeight m i = min 1 (2 * (1 - (2 ^ i / cutoff m).toReal)) := by
  rw [octaveWeight, Nat.cast_pow, Nat.cast_ofNat, Nat.cast_ofNat]

theorem share_none (frequency : ℝ) : share none frequency = 1 :=
  rfl

theorem share_some {limit : ℝ} (hlimit : 0 < limit) (frequency : ℝ) :
    share (some limit) frequency = min 1 (2 * (1 - frequency / limit)) := by
  have hfades : frequency / limit ≤ 1 / 2 ↔ ¬ 1 / 2 * limit < frequency := by
    rw [div_le_iff₀ hlimit, not_lt]
  rw [share, kept, apply_ite (Option.getD · 1)]
  simp only [Option.getD_some, Option.getD_none, ExactArith.half_eq, ExactArith.two_eq,
    ExactArith.one_eq]
  split_ifs with hfade
  · have hratio := mt hfades.mp (not_not.mpr hfade)
    exact (min_eq_right (by linarith)).symm
  · have hratio := hfades.mpr hfade
    exact (min_eq_left (by linarith)).symm

/-- An octave that is not left out has a share. -/
theorem share_pos {limit : Option ℝ} {frequency : ℝ} (hpos : 0 < frequency)
    (hkept : isDropped limit frequency ≠ true) : 0 < share limit frequency := by
  cases limit with
  | none => exact one_pos
  | some limit =>
    rw [isDropped, ne_eq, decide_eq_true_eq, not_le] at hkept
    have hlimit : 0 < limit := hpos.trans hkept
    have hratio : frequency / limit < 1 := (div_lt_one hlimit).mpr hkept
    rw [share_some hlimit]
    exact lt_min one_pos (by linarith)

theorem frequencyLimit_zero : frequencyLimit (0 : ℝ) = none := by
  have hpositive : (0 : ℝ) < Arith.signum 0 := by
    show (0 : ℝ) < if (0 : ℝ) < 0 then -1 else 1
    rw [if_neg (lt_irrefl _)]
    exact one_pos
  unfold frequencyLimit
  rw [ExactArith.zero_eq]
  exact if_pos (by simpa [ExactOrder.beq_iff] using hpositive)

theorem frequencyLimit_of_ne_zero {m : ℝ} (hm : m ≠ 0) :
    frequencyLimit m = some (1 / (2 * m)) := by
  unfold frequencyLimit
  rw [ExactArith.zero_eq, ExactArith.half_eq, if_neg (by simp [hm]), div_div]

theorem cutoff_zero : cutoff 0 = ∞ := by
  simp [cutoff]

theorem cutoff_of_pos {m : ℝ} (hm : 0 < m) : cutoff m = ENNReal.ofReal (1 / (2 * m)) := by
  rw [cutoff, Nat.cast_ofNat, ENNReal.ofReal_div_of_pos (by positivity),
    ENNReal.ofReal_mul zero_le_two, ENNReal.ofReal_one, ENNReal.ofReal_ofNat]

theorem two_pow_eq (i : ℕ) : (2 : ℝ≥0∞) ^ i = ENNReal.ofReal (2 ^ i) := by
  rw [ENNReal.ofReal_pow zero_le_two, ENNReal.ofReal_ofNat]

theorem cutoff_le_iff {m : ℝ} (hm : 0 < m) (i : ℕ) : cutoff m ≤ 2 ^ i ↔ 1 / (2 * m) ≤ 2 ^ i := by
  rw [cutoff_of_pos hm, two_pow_eq, ENNReal.ofReal_le_ofReal_iff (by positivity)]

theorem octaveWeight_of_pos {m : ℝ} (hm : 0 < m) (i : ℕ) :
    octaveWeight m i = min 1 (2 * (1 - 2 ^ i / (1 / (2 * m)))) := by
  rw [octaveWeight_eq, cutoff_of_pos hm, two_pow_eq, ← ENNReal.ofReal_div_of_pos (by positivity),
    ENNReal.toReal_ofReal (by positivity)]

/-- An octave is left out if its frequency is not below the cutoff. -/
theorem isDropped_frequencyLimit_iff {m : ℝ} (hm : 0 ≤ m) (i : ℕ) :
    isDropped (frequencyLimit m) (2 ^ i) = true ↔ cutoff m ≤ 2 ^ i := by
  rcases hm.eq_or_lt with rfl | hpos
  · rw [frequencyLimit_zero, cutoff_zero, top_le_iff]
    simp [isDropped]
  · rw [frequencyLimit_of_ne_zero hpos.ne', cutoff_le_iff hpos, isDropped, decide_eq_true_eq]

/-- Below the cutoff, the share of an octave is its weight. -/
theorem share_frequencyLimit {m : ℝ} (hm : 0 ≤ m) (i : ℕ) :
    share (frequencyLimit m) (2 ^ i) = octaveWeight m i := by
  rcases hm.eq_or_lt with rfl | hpos
  · rw [frequencyLimit_zero, share_none, octaveWeight_eq, cutoff_zero]
    norm_num
  · rw [frequencyLimit_of_ne_zero hpos.ne', share_some (by positivity), octaveWeight_of_pos hpos]

/-! ### The closed form -/

variable (mode : Mode) (octaves : ℕ) (amplitude persistence : ℝ) (p size : Vec ℝ)

theorem maxComponent_eq : size.maxComponent = max (max size.x size.y) size.z := by
  rw [Vec.maxComponent, ExactArith.max_real, ExactArith.max_real]

/-- A fractal is the sum of the contributions of its octaves. -/
theorem parts_fractal :
    (fractal mode octaves amplitude persistence p size).parts
      = ∑ i ∈ Finset.range octaves,
        if isDropped (frequencyLimit size.maxComponent) (2 ^ i) then 0
        else contribution mode p size (frequencyLimit size.maxComponent) (2 ^ i)
          (amplitude * persistence ^ i) := by
  rw [fractal, ExactArith.one_eq, ExactArith.zero_eq, parts_addOctaves mode p size persistence _ octaves
    zero_le_one, Estimate.parts_constant_zero, zero_add]
  simp only [one_mul]

/-- **A sum of absolute values is not negative**, whatever the footprint. -/
theorem fractal_absolute_nonneg :
    0 ≤ (fractal .absolute octaves amplitude persistence p size).value := by
  have hparts := congrArg Prod.fst (parts_fractal .absolute octaves amplitude persistence p size)
  rw [Prod.fst_sum] at hparts
  refine (Finset.sum_nonneg fun i _ => ?_).trans_eq hparts.symm
  split_ifs with hdropped
  · exact le_rfl
  · rw [contribution, octave_eq_orient]
    exact mul_nonneg (share_pos (by positivity) hdropped).le (Mode.orient_absolute_nonneg _ _)

/-- A fractal is the sum of the contributions of the octaves below the cutoff. -/
theorem parts_fractal_below (hsize : 0 ≤ max (max size.x size.y) size.z) :
    let m := max (max size.x size.y) size.z
    let term := octaveTerm mode amplitude persistence p
    (fractal mode octaves amplitude persistence p size).parts
      = ∑ i ∈ octavesBelow m octaves,
        (octaveWeight m i * (term i).1, spread size (term i).2, octaveWeight m i • (term i).2.toFun) := by
  intro m term
  rw [parts_fractal, maxComponent_eq, octavesBelow, Finset.sum_filter]
  refine Finset.sum_congr rfl fun i _ => ?_
  rw [contribution, share_frequencyLimit hsize, ← octaveTerm_eq_octave]
  simp only [isDropped_frequencyLimit_iff hsize, ← not_lt, ite_not, Nat.cast_pow, Nat.cast_ofNat]
  rfl

theorem fractal_value (hsize : 0 ≤ max (max size.x size.y) size.z) :
    let m := max (max size.x size.y) size.z
    (fractal mode octaves amplitude persistence p size).value
      = ∑ i ∈ octavesBelow m octaves,
        octaveWeight m i * (octaveTerm mode amplitude persistence p i).1 :=
  (congrArg Prod.fst (parts_fractal_below mode octaves amplitude persistence p size hsize)).trans
    Prod.fst_sum

/-- Beyond an octave at or above the cutoff there is none below. -/
theorem octavesBelow_eq {m : ℝ} {octaves more : ℕ} (hcutoff : cutoff m ≤ 2 ^ octaves)
    (hmore : octaves ≤ more) : octavesBelow m more = octavesBelow m octaves := by
  ext i
  rw [mem_octavesBelow, mem_octavesBelow]
  refine and_congr_left fun hbelow => ⟨fun _ => ?_, fun hi => hi.trans_le hmore⟩
  by_contra hge
  have hpow : (2 : ℝ≥0∞) ^ octaves ≤ 2 ^ i := pow_le_pow_right₀ one_le_two (not_lt.mp hge)
  exact (hcutoff.trans hpow).not_gt hbelow

/-- A footprint as wide as the waves of the first octave leaves out all octaves. -/
theorem fractal_of_half_le (hsize : 1 / 2 ≤ max (max size.x size.y) size.z) :
    fractal mode octaves amplitude persistence p size = .constant 0 := by
  have hpos : 0 < max (max size.x size.y) size.z := one_half_pos.trans_le hsize
  have hcutoff : cutoff (max (max size.x size.y) size.z) ≤ 2 ^ 0 := by
    rw [cutoff_le_iff hpos, pow_zero, div_le_one (by positivity)]
    linarith
  refine Estimate.parts_injective ?_
  rw [parts_fractal_below mode octaves amplitude persistence p size hpos.le,
    octavesBelow_eq hcutoff octaves.zero_le]
  exact Estimate.parts_constant_zero.symm

theorem spread_eq_sum (size slope : Vec ℝ) :
    spread size slope = ∑ k, |size.toFun k * slope.toFun k| := by
  rw [Fin.sum_univ_three]
  rfl

/-- **Octaves in closed form**: in real arithmetic, take a fractal over a footprint whose largest extent is not
negative, and the cutoff that this extent sets.

* Its value is the sum of the octaves below the cutoff, each with its weight: an octave has its full weight up
  to half the cutoff, and from there on it fades.  Its gradient is the sum of the gradients with the same
  weights.  Its error is the sum of how far the octaves vary over the footprint, without weights.
* So octaves at or above the cutoff make no difference, however many there are.
* A sum of absolute values is not negative, whatever the signs of the amplitude and of the persistence. -/
theorem fractal_closedForm (hsize : 0 ≤ max (max size.x size.y) size.z) :
    let m := max (max size.x size.y) size.z
    let term := octaveTerm mode amplitude persistence p
    let estimate := fractal mode octaves amplitude persistence p size
    estimate.value = ∑ i ∈ octavesBelow m octaves, octaveWeight m i * (term i).1 ∧
    estimate.gradient.toFun = ∑ i ∈ octavesBelow m octaves, octaveWeight m i • (term i).2.toFun ∧
    estimate.error
      = ∑ i ∈ octavesBelow m octaves, ∑ k, |size.toFun k * (term i).2.toFun k| ∧
    (∀ more, cutoff m ≤ 2 ^ octaves → octaves ≤ more →
      fractal mode more amplitude persistence p size = estimate) ∧
    (mode = .absolute → 0 ≤ estimate.value) := by
  intro m term estimate
  have hparts : ∀ n, (fractal mode n amplitude persistence p size).parts
      = ∑ i ∈ octavesBelow m n,
        (octaveWeight m i * (term i).1, spread size (term i).2, octaveWeight m i • (term i).2.toFun) :=
    fun n => parts_fractal_below mode n amplitude persistence p size hsize
  refine ⟨?_, ?_, ?_, fun more hcutoff hmore => Estimate.parts_injective ?_, ?_⟩
  · exact fractal_value mode octaves amplitude persistence p size hsize
  · refine (congrArg (fun parts => parts.2.2) (hparts octaves)).trans ?_
    rw [Prod.snd_sum, Prod.snd_sum]
  · refine (congrArg (fun parts => parts.2.1) (hparts octaves)).trans ?_
    rw [Prod.snd_sum, Prod.fst_sum]
    exact Finset.sum_congr rfl fun i _ => spread_eq_sum size _
  · rw [hparts more, octavesBelow_eq hcutoff hmore, hparts octaves]
  · rintro rfl
    exact fractal_absolute_nonneg octaves amplitude persistence p size

/-- With a cutoff of `5 / 2`, the first octave is kept in full and the second one in part. -/
theorem fractal_closedForm_fading :
    let term := octaveTerm .absolute 1 (1 / 2) Vec.zero
    let estimate (octaves : ℕ) := fractal .absolute octaves 1 (1 / 2) Vec.zero ⟨1 / 5, 1 / 5, 0⟩
    (0 : ℝ) ≤ max (max (1 / 5) (1 / 5)) 0 ∧
      (estimate 4).value = (term 0).1 + 2 / 5 * (term 1).1 ∧ 0 ≤ (estimate 4).value ∧
      estimate 16 = estimate 4 := by
  intro term estimate
  have hlargest : (0 : ℝ) < max (max (1 / 5) (1 / 5)) 0 := by norm_num
  obtain ⟨hvalue, -, -, hmore, hnonneg⟩ :=
    fractal_closedForm .absolute 4 1 (1 / 2) Vec.zero ⟨1 / 5, 1 / 5, 0⟩ hlargest.le
  have hbelow : octavesBelow (max (max (1 / 5) (1 / 5)) 0) 4 = {0, 1} := by
    ext i
    have hkept : i < 4 → (2 ^ i < cutoff (max (max (1 / 5) (1 / 5)) 0) ↔ i < 2) := by
      intro hi
      rw [← not_le, cutoff_le_iff hlargest]
      interval_cases i <;> norm_num
    rw [mem_octavesBelow, and_congr_right hkept, Finset.mem_insert, Finset.mem_singleton]
    omega
  refine ⟨hlargest.le, hvalue.trans ?_, hnonneg rfl, hmore 16 ?_ (by norm_num)⟩
  · rw [hbelow, Finset.sum_pair zero_ne_one, octaveWeight_of_pos hlargest,
      octaveWeight_of_pos hlargest]
    norm_num [term]
  · rw [cutoff_le_iff hlargest]
    norm_num

end Pattern

end TextureGraph
