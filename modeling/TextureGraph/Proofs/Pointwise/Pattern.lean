import TextureGraph.Pattern.Cells
import TextureGraph.Proofs.Pattern.Octaves

/-!
# Patterns at points

At a point, where the position is known exactly, no octave of a fractal is left out or faded, and no
two cells are mixed.

* `Pattern.fractal_atPoint`: a fractal is the sum of all its octaves (`Pattern.octaveSum`), without
  an error.
* `Pattern.nearestTwo_eq`: the search for the two nearest feature points finds the first two when
  all those nearby are sorted by distance (`Pattern.byDistance`).
-/

namespace TextureGraph

namespace Pattern

/-! ### Octaves -/

/-- An octave with its sign, or by its absolute value. -/
noncomputable def Mode.apply : Mode → ℝ → ℝ
  | .signed, a => a
  | .absolute, a => |a|

/-- The sum of all octaves at doubled frequencies, each with `persistence` times the amplitude of
the one before. -/
noncomputable def octaveSum (mode : Mode) (octaves : Nat) (amplitude persistence : ℝ) (p : Vec ℝ) :
    ℝ :=
  ∑ i ∈ Finset.range octaves, mode.apply (amplitude * persistence ^ i * noiseAt p (2 ^ i : Nat))

theorem octave_fst (mode : Mode) (p : Vec ℝ) (frequency amplitude : ℝ) :
    (octave mode p frequency amplitude).1 = mode.apply (amplitude * noiseAt p frequency) := by
  rw [octave_eq_orient]
  cases mode with
  | signed => rfl
  | absolute =>
    rw [Mode.orient, Mode.apply]
    split_ifs with hneg
    · exact (abs_of_neg hneg).symm
    · exact (abs_of_nonneg (not_lt.mp hneg)).symm

theorem spread_zero (slope : Vec ℝ) : spread ⟨0, 0, 0⟩ slope = 0 := by
  simp only [spread, zero_mul, ExactArith.abs_real, abs_zero, add_zero]

/-- **Octaves at a point**: where the position is known exactly, all octaves are added in full, and
there is no error. -/
theorem fractal_atPoint (mode : Mode) (octaves : Nat) (amplitude persistence : ℝ) (p : Vec ℝ) :
    (fractal mode octaves amplitude persistence p ⟨0, 0, 0⟩).value
        = octaveSum mode octaves amplitude persistence p ∧
      (fractal mode octaves amplitude persistence p ⟨0, 0, 0⟩).error = 0 := by
  have hlimit : frequencyLimit (⟨0, 0, 0⟩ : Vec ℝ).maxComponent = none := by
    rw [maxComponent_eq, max_self, max_self, frequencyLimit_zero]
  have hparts := parts_fractal mode octaves amplitude persistence p ⟨0, 0, 0⟩
  have hkept : ∀ frequency : ℝ, ¬ isDropped none frequency = true := fun _ => Bool.false_ne_true
  rw [hlimit, Finset.sum_congr rfl fun i _ => if_neg (hkept _)] at hparts
  refine ⟨(congrArg Prod.fst hparts).trans ?_, (congrArg (fun parts => parts.2.1) hparts).trans ?_⟩
  · rw [Prod.fst_sum, octaveSum]
    simp only [contribution, share_none, one_mul, octave_fst, Nat.cast_pow, Nat.cast_ofNat]
  · rw [Prod.snd_sum, Prod.fst_sum]
    exact Finset.sum_eq_zero fun i _ => spread_zero _

/-! ### Feature points -/

/-- The feature points of the cell around `p` and of its neighbours, the nearest ones first; of
equally near ones, those that are seen first come first. -/
noncomputable def byDistance (metric : Metric) (p : Vec ℝ) : List (Feature ℝ) :=
  (nearbyFeatures metric p).insertionSort fun f g => f.distance ≤ g.distance

theorem length_byDistance (metric : Metric) (p : Vec ℝ) : (byDistance metric p).length = 27 := by
  rw [byDistance, List.length_insertionSort]
  rfl

/-- A sorted list with one more feature, which comes after equally near ones. -/
noncomputable def insertAfter (sorted : List (Feature ℝ)) (f : Feature ℝ) : List (Feature ℝ) :=
  sorted.orderedInsert (fun f g => f.distance < g.distance) f

/-- **Step**: seeing one more feature keeps the first two of a sorted list. -/
theorem insertNearest_eq (sorted : List (Feature ℝ)) (f : Feature ℝ) :
    insertNearest (sorted[0]?, sorted[1]?) f
      = ((insertAfter sorted f)[0]?, (insertAfter sorted f)[1]?) := by
  have hfinite : isNearer f none = true := rfl
  unfold insertNearest insertAfter
  match sorted with
  | [] => simp [hfinite]
  | [a] =>
    by_cases hfirst : f.distance < a.distance
    · simp [isNearer, hfirst]
    · simp [isNearer, hfirst]
  | a :: b :: sorted =>
    by_cases hfirst : f.distance < a.distance
    · simp [isNearer, hfirst]
    · by_cases hsecond : f.distance < b.distance
      · simp [isNearer, hfirst, hsecond]
      · simp [isNearer, hfirst, hsecond]

/-- A feature that is seen before all others may as well be inserted last, before equally near
ones. -/
theorem insertAfter_orderedInsert (sorted : List (Feature ℝ)) (a f : Feature ℝ) :
    insertAfter (sorted.orderedInsert (fun f g => f.distance ≤ g.distance) a) f
      = (insertAfter sorted f).orderedInsert (fun f g => f.distance ≤ g.distance) a := by
  unfold insertAfter
  induction sorted with
  | nil =>
    by_cases h : f.distance < a.distance
    · simp [h, h.not_ge]
    · simp [h, not_lt.mp h]
  | cons b sorted ih =>
    by_cases ha : a.distance ≤ b.distance
    · by_cases hf : f.distance < b.distance
      · by_cases h : f.distance < a.distance
        · simp [ha, hf, h, h.not_ge]
        · simp [ha, hf, h, not_lt.mp h]
      · have h : ¬ f.distance < a.distance := fun h => hf (h.trans_le ha)
        simp [ha, hf, h]
    · by_cases hf : f.distance < b.distance
      · have h : ¬ a.distance ≤ f.distance := fun h => ha (h.trans hf.le)
        simp [ha, hf, h]
      · simp [ha, hf, ih]

theorem foldl_insertAfter (features sorted : List (Feature ℝ)) (a : Feature ℝ) :
    features.foldl insertAfter (sorted.orderedInsert (fun f g => f.distance ≤ g.distance) a)
      = (features.foldl insertAfter sorted).orderedInsert (fun f g => f.distance ≤ g.distance) a := by
  induction features generalizing sorted with
  | nil => rfl
  | cons f features ih => rw [List.foldl_cons, List.foldl_cons, insertAfter_orderedInsert, ih]

/-- Seeing features one after another sorts them. -/
theorem foldl_insertAfter_nil (features : List (Feature ℝ)) :
    features.foldl insertAfter []
      = features.insertionSort fun f g => f.distance ≤ g.distance := by
  induction features with
  | nil => rfl
  | cons a features ih =>
    rw [List.insertionSort_cons, ← ih, ← foldl_insertAfter]
    rfl

/-- **Run**: the search keeps the first two of the features that it has seen, sorted by distance. -/
theorem foldl_insertNearest (features sorted : List (Feature ℝ)) :
    features.foldl insertNearest (sorted[0]?, sorted[1]?)
      = ((features.foldl insertAfter sorted)[0]?, (features.foldl insertAfter sorted)[1]?) := by
  induction features generalizing sorted with
  | nil => rfl
  | cons f features ih => rw [List.foldl_cons, List.foldl_cons, insertNearest_eq, ih]

/-- **Nearest feature points**: the search finds the first two of those nearby, sorted by distance. -/
theorem nearestTwo_eq (metric : Metric) (p : Vec ℝ) :
    nearestTwo metric p = ((byDistance metric p)[0]?, (byDistance metric p)[1]?) := by
  rw [byDistance, ← foldl_insertAfter_nil, ← foldl_insertNearest]
  rfl

theorem lt_length_byDistance (metric : Metric) (p : Vec ℝ) (i : Fin 27) :
    i.val < (byDistance metric p).length := by
  rw [length_byDistance]
  exact i.isLt

/-- One of the nearest feature points; zero is the nearest, one the second nearest. -/
noncomputable def nearest (metric : Metric) (p : Vec ℝ) (i : Fin 27) : Feature ℝ :=
  (byDistance metric p).get ⟨i, lt_length_byDistance metric p i⟩

theorem nearest_distance_le (metric : Metric) (p : Vec ℝ) :
    (nearest metric p 0).distance ≤ (nearest metric p 1).distance := by
  have : Std.Total fun f g : Feature ℝ => f.distance ≤ g.distance := ⟨fun f g => le_total _ _⟩
  have : IsTrans (Feature ℝ) fun f g => f.distance ≤ g.distance := ⟨fun f g h => le_trans⟩
  have hsorted : (byDistance metric p).Pairwise fun f g => f.distance ≤ g.distance :=
    List.pairwise_insertionSort _ _
  exact List.pairwise_iff_get.mp hsorted ⟨0, lt_length_byDistance metric p 0⟩
    ⟨1, lt_length_byDistance metric p 1⟩ Nat.zero_lt_one

/-- A way to find two feature points at a position, by a metric. -/
abbrev Search := Metric → Vec ℝ → Feature ℝ × Feature ℝ

/-- The two nearest of the feature points around a position. -/
noncomputable def searchAround : Search := fun metric p =>
  (nearest metric p 0, nearest metric p 1)

theorem nearestTwo_eq_searchAround (metric : Metric) (p : Vec ℝ) :
    nearestTwo metric p
      = (some (searchAround metric p).1, some (searchAround metric p).2) := by
  rw [nearestTwo_eq]
  exact congrArg₂ Prod.mk (List.getElem?_eq_getElem (lt_length_byDistance metric p 0))
    (List.getElem?_eq_getElem (lt_length_byDistance metric p 1))

end Pattern

end TextureGraph
