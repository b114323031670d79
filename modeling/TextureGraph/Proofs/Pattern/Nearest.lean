import Mathlib.Data.List.Count
import TextureGraph.Pattern.Cells
import TextureGraph.Proofs.Number.ExactOrder

/-!
# The search for the two nearest features

`ranked_foldl_insertNearest`: wherever distances compare like the values of a key, the search through a list of
features ends with the earliest of the nearest ones and with a nearest one of all others (`Ranked`).  One
step of the search keeps this (`Ranked.insertNearest`), and the run is an induction along the list.

The key of the second one is the second smallest, counted with multiplicity: it does not exceed `t`
exactly when two features have keys up to `t` (`Ranked.second_le_iff`).
-/

namespace TextureGraph.Pattern

variable {α β : Type} [Arith α] [LinearOrder β] {key : Feature α → β}

/-- All features have a definite distance, and distances compare like keys. -/
structure ComparedBy (key : Feature α → β) (features : List (Feature α)) : Prop where
  /-- Distances are definite. -/
  definite : ∀ f ∈ features, Arith.isFinite f.distance = true
  /-- Distances compare like keys. -/
  lt_iff : ∀ f ∈ features, ∀ g ∈ features, f.distance < g.distance ↔ key f < key g

/-- A feature with the least key; none in an empty list. -/
def IsNearest (key : Feature α → β) (features : List (Feature α)) : Option (Feature α) → Prop
  | none => features = []
  | some f => f ∈ features ∧ ∀ g ∈ features, key f ≤ key g

/-- The first feature is the earliest of those with the least key, and the second one has the least key of
all others. -/
def Ranked (key : Feature α → β) (features : List (Feature α))
    (best : Option (Feature α) × Option (Feature α)) : Prop :=
  ∃ before after, features = before ++ best.1.toList ++ after ∧
    (∀ f ∈ best.1, ∀ g ∈ before, key f < key g) ∧ IsNearest key features best.1 ∧
    IsNearest key (before ++ after) best.2

variable {features : List (Feature α)} {best : Option (Feature α) × Option (Feature α)}
  {f : Feature α} {o : Option (Feature α)}

/-! ### Steps -/

omit [Arith α] in
/-- A nearer feature is the nearest one. -/
theorem IsNearest.append_of_lt (h : IsNearest key features o) (hlt : ∀ b ∈ o, key f < key b) :
    (∀ g ∈ features, key f < key g) ∧ IsNearest key (features ++ [f]) (some f) := by
  have hall : ∀ g ∈ features, key f < key g := by
    intro g hg
    cases o with
    | none =>
      obtain rfl : features = [] := h
      cases hg
    | some b => exact (hlt b rfl).trans_le (h.2 g hg)
  refine ⟨hall, List.mem_concat_self, fun g hg => ?_⟩
  rcases List.mem_append.mp hg with hg | hg
  · exact (hall g hg).le
  · rw [List.mem_singleton.mp hg]

omit [Arith α] in
/-- A feature that is not nearer makes no difference. -/
theorem IsNearest.append_of_le (h : IsNearest key features o) {b : Feature α} (hb : b ∈ o)
    (hle : key b ≤ key f) : IsNearest key (features ++ [f]) o := by
  cases o with
  | none => cases hb
  | some c =>
    obtain rfl : c = b := Option.some.inj hb
    refine ⟨List.mem_append_left _ h.1, fun g hg => ?_⟩
    rcases List.mem_append.mp hg with hg | hg
    · exact h.2 g hg
    · rwa [List.mem_singleton.mp hg]

omit [Arith α] in
theorem IsNearest.mem (h : IsNearest key features o) : ∀ b ∈ o, b ∈ features := by
  rintro b hb
  obtain rfl : o = some b := hb
  exact h.1

theorem ComparedBy.isNearer_iff (h : ComparedBy key features) (hf : f ∈ features)
    (ho : ∀ b ∈ o, b ∈ features) : isNearer f o = true ↔ ∀ b ∈ o, key f < key b := by
  cases o with
  | none => simpa [isNearer] using h.definite f hf
  | some b =>
    rw [isNearer, decide_eq_true_iff, h.lt_iff f hf b (ho b rfl)]
    exact ⟨fun hlt c hc => Option.some.inj hc ▸ hlt, fun hall => hall b rfl⟩

/-- **Step**: the ranking takes in one more feature. -/
theorem Ranked.insertNearest (h : Ranked key features best)
    (hkey : ComparedBy key (features ++ [f])) :
    Ranked key (features ++ [f]) (insertNearest best f) := by
  obtain ⟨before, after, heq, hbefore, hfirst, hsecond⟩ := h
  have hf : f ∈ features ++ [f] := List.mem_concat_self
  have hrest : ∀ g ∈ before ++ after, g ∈ features := by
    intro g hg
    rw [heq]
    rcases List.mem_append.mp hg with hg | hg
    · exact List.mem_append_left _ (List.mem_append_left _ hg)
    · exact List.mem_append_right _ hg
  have hnearer₁ := hkey.isNearer_iff hf fun b hb => List.mem_append_left _ (hfirst.mem b hb)
  have hnearer₂ := hkey.isNearer_iff hf fun b hb =>
    List.mem_append_left _ (hrest b (hsecond.mem b hb))
  unfold Pattern.insertNearest
  split_ifs with hlt₁ hlt₂
  · -- The one that was first is now second.
    obtain ⟨hall, hnearest⟩ := hfirst.append_of_lt (hnearer₁.mp hlt₁)
    refine ⟨features, [], (List.append_nil _).symm, fun g hg => ?_, hnearest, ?_⟩
    · obtain rfl := Option.some.inj hg
      exact hall
    · rwa [List.append_nil]
  · -- An equally near one stays first, since it comes earlier.
    rw [hnearer₁] at hlt₁
    push Not at hlt₁
    obtain ⟨b, hb, hle⟩ := hlt₁
    refine ⟨before, after ++ [f], ?_, hbefore, hfirst.append_of_le hb hle, ?_⟩
    · rw [← List.append_assoc, ← heq]
    · rw [← List.append_assoc]
      exact (hsecond.append_of_lt (hnearer₂.mp hlt₂)).2
  · rw [hnearer₁] at hlt₁
    rw [hnearer₂] at hlt₂
    push Not at hlt₁ hlt₂
    obtain ⟨b, hb, hle⟩ := hlt₁
    obtain ⟨c, hc, hle'⟩ := hlt₂
    refine ⟨before, after ++ [f], ?_, hbefore, hfirst.append_of_le hb hle, ?_⟩
    · rw [← List.append_assoc, ← heq]
    · rw [← List.append_assoc]
      exact hsecond.append_of_le hc hle'

/-! ### Runs -/

omit [Arith α] in
theorem ranked_nil : Ranked key ([] : List (Feature α)) (none, none) :=
  ⟨[], [], rfl, (fun _ h => nomatch h), rfl, rfl⟩

/-- **Run**: the search through a list ranks it. -/
theorem ranked_foldl_insertNearest (hkey : ComparedBy key features) :
    Ranked key features (features.foldl Pattern.insertNearest (none, none)) := by
  induction features using List.reverseRecOn with
  | nil => exact ranked_nil
  | append_singleton features f ih =>
    have hprefix : ComparedBy key features :=
      ⟨fun g hg => hkey.definite g (List.mem_append_left _ hg), fun g hg g' hg' =>
        hkey.lt_iff g (List.mem_append_left _ hg) g' (List.mem_append_left _ hg')⟩
    rw [List.foldl_concat]
    exact (ih hprefix).insertNearest hkey

/-! ### What a ranking tells -/

section Ranked

variable {second : Feature α}

omit [Arith α]

theorem Ranked.first_mem (h : Ranked key features (some f, o)) : f ∈ features := by
  obtain ⟨-, -, -, -, hfirst, -⟩ := h
  exact hfirst.1

/-- No feature is nearer than the first one. -/
theorem Ranked.first_le (h : Ranked key features (some f, o)) : ∀ g ∈ features, key f ≤ key g := by
  obtain ⟨-, -, -, -, hfirst, -⟩ := h
  exact hfirst.2

/-- The first one is within `t` if one feature is. -/
theorem Ranked.first_le_iff (h : Ranked key features (some f, o)) (t : β) :
    key f ≤ t ↔ 1 ≤ features.countP (key · ≤ t) := by
  rw [Nat.one_le_iff_ne_zero, ← Nat.pos_iff_ne_zero, List.countP_pos_iff]
  constructor
  · exact fun hle => ⟨f, h.first_mem, decide_eq_true hle⟩
  · rintro ⟨g, hg, hle⟩
    exact (h.first_le g hg).trans (of_decide_eq_true hle)

/-- The second one is within `t` if two features are. -/
theorem Ranked.second_le_iff (h : Ranked key features (some f, some second)) (t : β) :
    key second ≤ t ↔ 2 ≤ features.countP (key · ≤ t) := by
  obtain ⟨before, after, heq, -, hfirst, hsecond⟩ := h
  have hcount : features.countP (key · ≤ t)
      = (before ++ after).countP (key · ≤ t) + if key f ≤ t then 1 else 0 := by
    rw [heq]
    simp only [Option.toList_some, List.countP_append, List.countP_singleton, decide_eq_true_eq]
    omega
  rw [hcount]
  constructor
  · intro hle
    have hmem : second ∈ features := by
      rw [heq, Option.toList_some, List.append_assoc]
      rcases List.mem_append.mp hsecond.1 with hmem | hmem
      · exact List.mem_append_left _ hmem
      · exact List.mem_append_right _ (List.mem_append_right _ hmem)
    have hpos : 0 < (before ++ after).countP (key · ≤ t) :=
      List.countP_pos_iff.mpr ⟨second, hsecond.1, decide_eq_true hle⟩
    rw [if_pos ((hfirst.2 second hmem).trans hle)]
    exact Nat.succ_le_succ hpos
  · intro htwo
    have hpos : 0 < (before ++ after).countP (key · ≤ t) := by
      split_ifs at htwo <;> omega
    obtain ⟨g, hg, hle⟩ := List.countP_pos_iff.mp hpos
    exact (hsecond.2 g hg).trans (of_decide_eq_true hle)

/-- Two features of a list with two or more are ranked. -/
theorem Ranked.exists_some (h : Ranked key features best) (hlength : 2 ≤ features.length) :
    ∃ f second, best = (some f, some second) := by
  obtain ⟨before, after, heq, -, hfirst, hsecond⟩ := h
  obtain ⟨first?, second?⟩ := best
  cases first? with
  | none =>
    obtain rfl : features = [] := hfirst
    cases hlength
  | some f =>
    cases second? with
    | none =>
      have hnil : before ++ after = [] := hsecond
      obtain ⟨rfl, rfl⟩ := List.append_eq_nil_iff.mp hnil
      rw [heq] at hlength
      exact absurd hlength (Nat.not_succ_le_self 1)
    | some second => exact ⟨f, second, rfl⟩

end Ranked

end TextureGraph.Pattern
