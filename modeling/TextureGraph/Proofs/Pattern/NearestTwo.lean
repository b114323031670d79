import TextureGraph.Proofs.Number.Rounding
import TextureGraph.Proofs.Pattern.Nearest

/-!
# The two nearest of the 27 cells around a position

`nearestTwo_eq_candidates`: with binary64 numbers, wherever the feature points of all cells around a position
are at finite distances, the search ends with two different ones of them.  The first one is the earliest of
the nearest ones, in the order of the search, and the second one is a nearest one of the other 26.

The candidates are counted by the cells they come from and not by their distances, so equally near ones are
told apart (`Ranked.exists_index`).  Finite numbers of binary64 compare like the places they take among all
numbers, which is a linear order (`comparedBy_place`).
-/

namespace TextureGraph.Pattern

open Binary64

/-! ### The order of the search -/

/-- The step to the `k`-th one of the cells around a position; the first coordinate changes fastest and the
last one slowest. -/
def cellStep (k : Fin 27) : Vec Int :=
  ⟨k % 3 - 1, k / 3 % 3 - 1, k / 9 - 1⟩

/-- The feature point of the `k`-th one of the cells around `p`. -/
def candidate {α : Type} [Arith α] (metric : Metric) (p : Vec α) (k : Fin 27) : Feature α :=
  featureOf metric p (stepFrom α (p.map Arith.floorInt) (cellStep k))

theorem neighbourSteps_eq_ofFn : neighbourSteps = List.ofFn cellStep :=
  rfl

theorem nearbyFeatures_eq_ofFn {α : Type} [Arith α] (metric : Metric) (p : Vec α) :
    nearbyFeatures metric p = List.ofFn (candidate metric p) := by
  rw [nearbyFeatures, neighbourSteps_eq_ofFn, List.map_ofFn]
  rfl

/-! ### Checked sums -/

section Checked

variable {α : Type} [Arith α] {metric : Metric} {p : Vec α}

/-- A cell at a step whose coordinates need not wrap around. -/
def Reaches (α : Type) [Arith α] (base step : Vec Int) : Prop :=
  stepFrom α base step = Vec.zipWith (· + ·) base step

theorem sum?_eq_some_iff {a b n : Int} :
    sum? α a b = some n ↔ Arith.wrapInt α (a + b) = a + b ∧ n = Arith.wrapInt α (a + b) := by
  unfold sum?
  dsimp only
  by_cases h : Arith.wrapInt α (a + b) = a + b
  · rw [if_pos h, h, Option.some.injEq]
    exact ⟨fun heq => ⟨rfl, heq.symm⟩, fun heq => heq.2.symm⟩
  · rw [if_neg h]
    exact ⟨fun heq => (Option.some_ne_none _ heq.symm).elim, fun heq => absurd heq.1 h⟩

theorem stepFrom?_eq_some_iff {base step cell : Vec Int} :
    stepFrom? α base step = some cell ↔ Reaches α base step ∧ cell = stepFrom α base step := by
  obtain ⟨x, y, z⟩ := cell
  simp only [stepFrom?, Option.bind_eq_bind, Option.bind_eq_some_iff, sum?_eq_some_iff, Reaches,
    stepFrom, Vec.zipWith, Vec.map, Vec.mk.injEq]
  constructor
  · rintro ⟨_, ⟨hx, rfl⟩, _, ⟨hy, rfl⟩, _, ⟨hz, rfl⟩, heq⟩
    cases heq
    exact ⟨⟨hx, hy, hz⟩, rfl, rfl, rfl⟩
  · rintro ⟨⟨hx, hy, hz⟩, rfl, rfl, rfl⟩
    exact ⟨_, ⟨hx, rfl⟩, _, ⟨hy, rfl⟩, _, ⟨hz, rfl⟩, rfl⟩

/-- A checked search over some cells finds what the search over them finds, or it is given up. -/
theorem foldlM_stepFrom?_eq_some_iff (base : Vec Int) (steps : List (Vec Int))
    {start best : Option (Feature α) × Option (Feature α)} :
    steps.foldlM (fun best step => do
        let cell ← stepFrom? α base step
        return insertNearest best (featureOf metric p cell)) start = some best ↔
      (∀ step ∈ steps, Reaches α base step) ∧
        best = (steps.map fun step => featureOf metric p (stepFrom α base step)).foldl
          insertNearest start := by
  induction steps generalizing start with
  | nil => simp [eq_comm]
  | cons step steps ih =>
    rw [List.foldlM_cons, List.map_cons, List.foldl_cons, List.forall_mem_cons]
    simp only [Option.bind_eq_bind, Option.pure_def, Option.bind_eq_some_iff,
      stepFrom?_eq_some_iff] at ih ⊢
    constructor
    · rintro ⟨_, ⟨cell, ⟨hreaches, rfl⟩, hnext⟩, hrest⟩
      cases hnext
      obtain ⟨hall, hbest⟩ := ih.mp hrest
      exact ⟨⟨hreaches, hall⟩, hbest⟩
    · rintro ⟨⟨hreaches, hall⟩, hbest⟩
      exact ⟨_, ⟨_, ⟨hreaches, rfl⟩, rfl⟩, ih.mpr ⟨hall, hbest⟩⟩

/-- The search with checked sums finds what the search finds, or it is given up at a coordinate that would
wrap around. -/
theorem nearestTwo?_eq_some_iff {best : Option (Feature α) × Option (Feature α)} :
    nearestTwo? metric p = some best ↔
      (∀ k, Reaches α (p.map Arith.floorInt) (cellStep k)) ∧ best = nearestTwo metric p := by
  rw [nearestTwo?, foldlM_stepFrom?_eq_some_iff, neighbourSteps_eq_ofFn, List.forall_mem_ofFn_iff,
    nearestTwo, nearbyFeatures, neighbourSteps_eq_ofFn]

end Checked

/-! ### Ranked candidates -/

/-- What is left of a counted list without one of its elements are the elements with all other numbers; those
before it have smaller ones. -/
theorem exists_index_of_ofFn {γ : Type} {n : Nat} {g : Fin n → γ} {before after : List γ} {a : γ}
    (h : List.ofFn g = before ++ a :: after) :
    ∃ i, a = g i ∧ (∀ k < i, g k ∈ before) ∧ ∀ b, b ∈ before ++ after ↔ ∃ k ≠ i, g k = b := by
  have hlength : n = before.length + (after.length + 1) := by
    rw [← List.length_ofFn (f := g), h, List.length_append, List.length_cons]
  have hat : ∀ k : Fin n, (before ++ a :: after)[k.val]? = some (g k) := by
    intro k
    rw [← h, List.getElem?_ofFn, dif_pos k.isLt]
  have hrest : before ++ after = (List.ofFn g).eraseIdx before.length := by
    rw [h, List.eraseIdx_append_of_length_le (Nat.le_refl _), Nat.sub_self]
    rfl
  -- The number of the element is the length of what stands before it.
  refine ⟨⟨before.length, by omega⟩, ?_, fun k hk => ?_, fun b => ?_⟩
  · have hself := hat ⟨before.length, by omega⟩
    rw [List.getElem?_append_right (Nat.le_refl _), Nat.sub_self] at hself
    exact Option.some.inj hself
  · have hbefore := hat k
    rw [List.getElem?_append_left hk] at hbefore
    exact List.mem_of_getElem? hbefore
  · rw [hrest, List.mem_eraseIdx_iff_getElem]
    constructor
    · rintro ⟨k, hk, hne, rfl⟩
      rw [List.length_ofFn] at hk
      exact ⟨⟨k, hk⟩, fun h => hne (congrArg Fin.val h), (List.getElem_ofFn _).symm⟩
    · rintro ⟨k, hne, rfl⟩
      have hk : k.val < (List.ofFn g).length := by
        rw [List.length_ofFn]
        exact k.isLt
      exact ⟨k, hk, fun h => hne (Fin.ext h), List.getElem_ofFn _⟩

/-- Of features that are counted, those that are ranked first and second have different numbers.  The first
one is nearer than all before it and no farther than all others, and the second one is no farther than all
but the first. -/
theorem Ranked.exists_index {α β : Type} [LinearOrder β] {key : Feature α → β} {n : Nat}
    {g : Fin n → Feature α} {first second : Feature α}
    (h : Ranked key (List.ofFn g) (some first, some second)) :
    ∃ i j, i ≠ j ∧ first = g i ∧ second = g j ∧ (∀ k, key (g i) ≤ key (g k)) ∧
      (∀ k < i, key (g i) < key (g k)) ∧ ∀ k ≠ i, key (g j) ≤ key (g k) := by
  have hleast := h.first_le
  obtain ⟨before, after, heq, hbefore, -, hsecond⟩ := h
  rw [Option.toList_some, List.append_assoc, List.singleton_append] at heq
  obtain ⟨i, rfl, hsmaller, hrest⟩ := exists_index_of_ofFn heq
  obtain ⟨j, hne, rfl⟩ := (hrest second).mp hsecond.1
  refine ⟨i, j, hne.symm, rfl, rfl, fun k => ?_, fun k hk => ?_, fun k hk => ?_⟩
  · exact hleast _ (List.mem_ofFn.mpr ⟨k, rfl⟩)
  · exact hbefore _ rfl _ (hsmaller k hk)
  · exact hsecond.2 _ ((hrest _).mpr ⟨k, hk, rfl⟩)

/-! ### Distances of binary64 -/

/-- The place of the distance of a feature among all numbers. -/
def distancePlace (f : Feature Float) : Int :=
  place (unpacked f.distance)

theorem comparedBy_place {features : List (Feature Float)}
    (hfinite : ∀ f ∈ features, f.distance.isFinite = true) : ComparedBy distancePlace features :=
  ⟨hfinite, fun f hf g hg =>
    lt_iff_place_lt (isNaN_of_isFinite (hfinite f hf)) (isNaN_of_isFinite (hfinite g hg))⟩

/-- **The search finds the two nearest feature points**, where those of all 27 cells around the position are
at finite distances:
* the first one is the earliest of the nearest ones;
* the second one comes from another cell, and it is a nearest one of the other 26;
* so the distances are the two smallest ones, in their order, where a distance that occurs twice counts
  twice.

Both are candidates as a whole, so each distance comes with the gradient and the random value of its own
cell.  The coordinates of the 27 cells are sums of 64 bits, which wrap around at the ends of their range.
Where the sums are checked, the search finds the same, unless it is given up at such a coordinate. -/
theorem nearestTwo_eq_candidates (metric : Metric) (p : Vec Float)
    (hfinite : ∀ k, (candidate metric p k).distance.isFinite = true) :
    (∃ i j, i ≠ j ∧ nearestTwo metric p = (some (candidate metric p i), some (candidate metric p j)) ∧
      (∀ k, (candidate metric p i).distance ≤ (candidate metric p k).distance) ∧
      (∀ k < i, (candidate metric p i).distance < (candidate metric p k).distance) ∧
      (∀ k ≠ i, (candidate metric p j).distance ≤ (candidate metric p k).distance) ∧
      (candidate metric p i).distance ≤ (candidate metric p j).distance) ∧
    ∀ best, nearestTwo? metric p = some best ↔
      (∀ k, Reaches Float (p.map Arith.floorInt) (cellStep k)) ∧ best = nearestTwo metric p := by
  refine ⟨?_, fun best => nearestTwo?_eq_some_iff⟩
  have hnumber : ∀ k, (candidate metric p k).distance.isNaN = false :=
    fun k => isNaN_of_isFinite (hfinite k)
  have hle : ∀ k l, distancePlace (candidate metric p k) ≤ distancePlace (candidate metric p l) →
      (candidate metric p k).distance ≤ (candidate metric p l).distance :=
    fun k l => (le_iff_place_le (hnumber k) (hnumber l)).mpr
  have hranked : Ranked distancePlace (nearbyFeatures metric p) (nearestTwo metric p) := by
    refine ranked_foldl_insertNearest (comparedBy_place fun f hf => ?_)
    rw [nearbyFeatures_eq_ofFn] at hf
    obtain ⟨k, rfl⟩ := List.mem_ofFn.mp hf
    exact hfinite k
  obtain ⟨first, second, hbest⟩ := hranked.exists_some (Nat.le_of_ble_eq_true rfl)
  rw [hbest, nearbyFeatures_eq_ofFn] at hranked
  -- The ranking compares places; finite distances compare the same way.
  obtain ⟨i, j, hne, rfl, rfl, hleast, hbefore, hothers⟩ := hranked.exists_index
  refine ⟨i, j, hne, hbest, fun k => hle i k (hleast k), fun k hk => ?_,
    fun k hk => hle j k (hothers k hk), hle i j (hleast j)⟩
  exact (lt_iff_place_lt (hnumber i) (hnumber k)).mpr (hbefore k hk)

/-- Around the middle of a cell, all 27 feature points are at finite distances. -/
theorem nearestTwo_eq_candidates_middle :
    let p : Vec Float := ⟨0.5, 0.5, 0.5⟩
    (∀ k, (candidate .cityBlock p k).distance.isFinite = true) ∧
      (∃ i j, i ≠ j ∧
        nearestTwo .cityBlock p = (some (candidate .cityBlock p i), some (candidate .cityBlock p j)) ∧
        (∀ k, (candidate .cityBlock p i).distance ≤ (candidate .cityBlock p k).distance) ∧
        (∀ k < i, (candidate .cityBlock p i).distance < (candidate .cityBlock p k).distance) ∧
        (∀ k ≠ i, (candidate .cityBlock p j).distance ≤ (candidate .cityBlock p k).distance) ∧
        (candidate .cityBlock p i).distance ≤ (candidate .cityBlock p j).distance) ∧
      ∀ best, nearestTwo? .cityBlock p = some best ↔
        (∀ k, Reaches Float (p.map Arith.floorInt) (cellStep k)) ∧ best = nearestTwo .cityBlock p := by
  have hfinite : ∀ k, (candidate .cityBlock (⟨0.5, 0.5, 0.5⟩ : Vec Float) k).distance.isFinite = true := by
    decide +kernel
  exact ⟨hfinite, nearestTwo_eq_candidates _ _ hfinite⟩

end TextureGraph.Pattern
