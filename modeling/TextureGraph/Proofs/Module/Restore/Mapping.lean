import TextureGraph.Catalog.Mapping
import TextureGraph.Proofs.Module.Restore.Basic

/-!
# Restoring maps

The numbers of a map are set one by one, each under a name of its own, and its rows are computed anew
each time.  Once all numbers are set, the rows are those of the map that they come from.
-/

namespace TextureGraph

open TextureModule ParameterValue

variable {M α : Type} {v : ParameterValue Float} {name : String}

theorem Vec.mem_toList_component (v : Vec α) (i : Nat) : v.component i ∈ v.toList := by
  unfold component toList
  split
  · exact .head _
  · exact .tail _ (.head _)
  · exact .tail _ (.tail _ (.head _))

theorem Vec.eq_or_mem_of_mem_setComponent {w : Vec α} {i : Nat} {a b : α}
    (h : b ∈ (w.setComponent i a).toList) : b = a ∨ b ∈ w.toList := by
  unfold setComponent at h
  split at h
  all_goals
    simp only [toList, List.mem_cons, List.not_mem_nil, or_false] at h ⊢
    tauto

/-- The numbers of three vectors, of which one number is replaced. -/
theorem Vec.eq_or_mem_of_mem_setComponents {rows : Vec (Vec α)} {i j : Nat} {a b : α}
    (h : b ∈ (rows.setComponent i ((rows.component i).setComponent j a)).toList.flatMap toList) :
    b = a ∨ b ∈ rows.toList.flatMap toList := by
  obtain ⟨row, hrow, hb⟩ := List.mem_flatMap.mp h
  rcases eq_or_mem_of_mem_setComponent hrow with rfl | hrow
  · rcases eq_or_mem_of_mem_setComponent hb with rfl | hb
    · exact .inl rfl
    · exact .inr (List.mem_flatMap.mpr ⟨_, rows.mem_toList_component i, hb⟩)
  · exact .inr (List.mem_flatMap.mpr ⟨row, hrow, hb⟩)

section Numbers

variable {N : Type} [TextureModule M Float] {P : N → M} (put : Nat → Float → N → N)
  (names : List String) {values : List Float}

/-- Numbers that are set under their names, where `put i` is what the name with the number `i` does
to the part `n` of a module `P n`, and the names are counted from `k`. -/
theorem restore_numbers_from (k : Nat)
    (hset : ∀ i name a n, names[i]? = some name → a.isFinite = true →
      setParameter (P n) name (.number a) = .ok (P (put (k + i) a n)))
    (hvalues : ∀ a ∈ values, a.isFinite = true) (hlength : values.length ≤ names.length) (n : N) :
    restore (P n) (List.zipWith .number names values)
      = .ok (P ((values.zipIdx k).foldl (fun n p => put p.2 p.1 n) n)) := by
  induction values generalizing names k n with
  | nil =>
    rw [List.zipWith_nil_right]
    rfl
  | cons a values ih =>
    cases names with
    | nil => exact absurd hlength (Nat.not_succ_le_zero _)
    | cons name names =>
      have hfirst : setParameter (P n) name (.number a) = .ok (P (put k a n)) :=
        hset 0 name a n rfl (hvalues a (.head _))
      refine (restore_cons hfirst _).trans ?_
      -- the names that remain are counted from `k + 1`
      refine ih names (k + 1) (fun i name b n hname hb => ?_) (fun b hb => hvalues b (.tail _ hb))
        (Nat.le_of_succ_le_succ hlength) _
      rw [show k + 1 + i = k + (i + 1) by omega]
      exact hset (i + 1) name b n hname hb

theorem restore_numbers
    (hset : ∀ i name a n, names[i]? = some name → a.isFinite = true →
      setParameter (P n) name (.number a) = .ok (P (put i a n)))
    (hvalues : ∀ a ∈ values, a.isFinite = true) (hlength : values.length ≤ names.length) (n : N) :
    restore (P n) (List.zipWith .number names values)
      = .ok (P (values.zipIdx.foldl (fun n p => put p.2 p.1 n) n)) := by
  refine restore_numbers_from put names 0 (fun i name a n hname ha => ?_) hvalues hlength n
  rw [Nat.zero_add]
  exact hset i name a n hname ha

end Numbers

theorem Mapping.setParameter_transform {t changed : Transform Float}
    (h : t.setParameter name v = .ok changed) :
    Mapping.setParameter (.transform t) name v = .ok (.transform changed) :=
  bind_eq_ok_iff.mpr ⟨changed, h, rfl⟩

theorem Mapping.setParameter_barycentric {t changed : Triangle Float}
    (h : t.setParameter name v = .ok changed) :
    Mapping.setParameter (.barycentric t) name v = .ok (.barycentric changed) :=
  bind_eq_ok_iff.mpr ⟨changed, h, rfl⟩

/-! ### Transforms -/

/-- The transform with an entry of its matrix replaced. -/
def Transform.withEntry (i : Nat) (a : Float) (t : Transform Float) : Transform Float :=
  solved (t.matrix.setEntry (i / 3) (i % 3) a) t.offset t.inverse t.solver

/-- The transform with a component of its offset replaced. -/
def Transform.withOffset (i : Nat) (a : Float) (t : Transform Float) : Transform Float :=
  solved t.matrix (t.offset.setComponent i a) t.inverse t.solver

theorem Transform.setParameter_entry {t : Transform Float} {i : Nat} {a : Float}
    (hname : entryNames[i]? = some name) (ha : a.isFinite = true) :
    t.setParameter name (.number a) = .ok (t.withEntry i a) := by
  have hlookup : ∀ i : Fin 9, entryNames.idxOf? entryNames[i] = some i.val := by decide
  have hother : ∀ name ∈ entryNames, name ≠ "inverse" := by decide
  obtain ⟨hi, rfl⟩ := List.getElem?_eq_some_iff.mp hname
  have hindex : entryNames.idxOf? entryNames[i] = some i := hlookup ⟨i, hi⟩
  unfold Transform.setParameter
  rw [if_neg (hother _ (List.getElem_mem hi)), hindex]
  simp only [asNumber_number ha]
  rfl

theorem Transform.setParameter_offset {t : Transform Float} {i : Nat} {a : Float}
    (hname : offsetNames[i]? = some name) (ha : a.isFinite = true) :
    t.setParameter name (.number a) = .ok (t.withOffset i a) := by
  have hlookup : ∀ i : Fin 3, entryNames.idxOf? offsetNames[i] = none ∧
      offsetNames.idxOf? offsetNames[i] = some i.val := by decide
  have hother : ∀ name ∈ offsetNames, name ≠ "inverse" := by decide
  obtain ⟨hi, rfl⟩ := List.getElem?_eq_some_iff.mp hname
  obtain ⟨hentry, hindex⟩ : entryNames.idxOf? offsetNames[i] = none ∧
      offsetNames.idxOf? offsetNames[i] = some i := hlookup ⟨i, hi⟩
  unfold Transform.setParameter
  rw [if_neg (hother _ (List.getElem_mem hi)), hentry, hindex]
  simp only [asNumber_number ha]
  rfl

theorem Transform.restore_entries {m : Mat Float} (hm : ∀ a ∈ m.entries, a.isFinite = true)
    (t : Transform Float) :
    restore (Mapping.transform t) (List.zipWith .number entryNames m.entries)
      = .ok (.transform (solved m t.offset t.inverse t.solver)) := by
  have hfold : m.entries.zipIdx.foldl (fun t p => withEntry p.2 p.1 t) t
      = solved m t.offset t.inverse t.solver := by
    simp only [Mat.entries, Vec.toList, List.flatMap_cons, List.flatMap_nil, List.cons_append,
      List.nil_append, List.zipIdx_cons, List.zipIdx_nil, List.foldl_cons, List.foldl_nil]
    rfl
  rw [← hfold]
  exact restore_numbers withEntry entryNames
    (fun _ _ _ _ hname ha => Mapping.setParameter_transform (setParameter_entry hname ha)) hm
    (Nat.le_refl 9) t

theorem Transform.restore_offset {w : Vec Float} (hw : ∀ a ∈ w.toList, a.isFinite = true)
    (t : Transform Float) :
    restore (Mapping.transform t) (List.zipWith .number offsetNames w.toList)
      = .ok (.transform (solved t.matrix w t.inverse t.solver)) := by
  have hfold : w.toList.zipIdx.foldl (fun t p => withOffset p.2 p.1 t) t
      = solved t.matrix w t.inverse t.solver := by
    simp only [Vec.toList, List.zipIdx_cons, List.zipIdx_nil, List.foldl_cons, List.foldl_nil]
    rfl
  rw [← hfold]
  exact restore_numbers withOffset offsetNames
    (fun _ _ _ _ hname ha => Mapping.setParameter_transform (setParameter_offset hname ha)) hw
    (Nat.le_refl 3) t

/-- A transform has the solver of another one and finite numbers, and its rows follow from them. -/
structure Transform.Configures (initial t : Transform Float) : Prop where
  /-- The entries of the matrix are finite. -/
  entries : ∀ a ∈ t.matrix.entries, a.isFinite = true
  /-- The components of the offset are finite. -/
  offset : ∀ a ∈ t.offset.toList, a.isFinite = true
  /-- Both invert matrices in the same way. -/
  solver : t.solver = initial.solver
  /-- The rows are those of the matrix and the offset. -/
  isSolved : t = solved t.matrix t.offset t.inverse t.solver

theorem Transform.Configures.set {initial t changed : Transform Float}
    (h : initial.Configures t) (hv : v.IsWord) (hset : t.setParameter name v = .ok changed) :
    initial.Configures changed := by
  unfold Transform.setParameter at hset
  split at hset
  · obtain ⟨b, -, hset⟩ := bind_eq_ok_iff.mp hset
    cases hset
    exact ⟨h.entries, h.offset, h.solver, rfl⟩
  · split at hset
    · obtain ⟨a, ha, hset⟩ := bind_eq_ok_iff.mp hset
      cases hset
      refine ⟨fun b hb => ?_, h.offset, h.solver, rfl⟩
      rcases Vec.eq_or_mem_of_mem_setComponents hb with rfl | hb
      · exact isFinite_of_asNumber hv ha
      · exact h.entries b hb
    · obtain ⟨a, ha, hset⟩ := bind_eq_ok_iff.mp hset
      cases hset
      refine ⟨h.entries, fun b hb => ?_, h.solver, rfl⟩
      rcases Vec.eq_or_mem_of_mem_setComponent hb with rfl | hb
      · exact isFinite_of_asNumber hv ha
      · exact h.offset b hb
    · cases hset

theorem Transform.Configures.restore {initial t : Transform Float} (h : initial.Configures t) :
    restore (Mapping.transform initial) t.parameters = .ok (.transform t) := by
  have hinverse : Mapping.setParameter
      (.transform (solved t.matrix t.offset initial.inverse initial.solver)) "inverse"
      (.toggle t.inverse) = .ok (.transform t) := by
    rw [h.isSolved, h.solver]
    rfl
  unfold parameters
  rw [List.append_assoc]
  refine (restore_append (restore_entries h.entries _) _).trans ?_
  refine (restore_append (restore_offset h.offset _) _).trans ?_
  exact restore_cons hinverse []

/-! ### Triangles -/

/-- The triangle with a coordinate of a corner replaced. -/
def Triangle.withCoordinate (i : Nat) (a : Float) (t : Triangle Float) : Triangle Float :=
  solved (t.corners.setComponent (i / 3) ((t.corners.component (i / 3)).setComponent (i % 3) a))
    t.solver

theorem Triangle.setParameter_coordinate {t : Triangle Float} {i : Nat} {a : Float}
    (hname : coordinateNames[i]? = some name) (ha : a.isFinite = true) :
    t.setParameter name (.number a) = .ok (t.withCoordinate i a) := by
  have hlookup : ∀ i : Fin 9, coordinateNames.idxOf? coordinateNames[i] = some i.val := by decide
  obtain ⟨hi, rfl⟩ := List.getElem?_eq_some_iff.mp hname
  have hindex : coordinateNames.idxOf? coordinateNames[i] = some i := hlookup ⟨i, hi⟩
  unfold Triangle.setParameter
  rw [hindex]
  simp only [asNumber_number ha]
  rfl

theorem Triangle.restore_corners {corners : Vec (Vec Float)}
    (hcorners : ∀ a ∈ corners.toList.flatMap Vec.toList, a.isFinite = true) (t : Triangle Float) :
    restore (Mapping.barycentric t)
        (List.zipWith .number coordinateNames (corners.toList.flatMap Vec.toList))
      = .ok (.barycentric (solved corners t.solver)) := by
  have hfold : (corners.toList.flatMap Vec.toList).zipIdx.foldl
      (fun t p => withCoordinate p.2 p.1 t) t = solved corners t.solver := by
    simp only [Vec.toList, List.flatMap_cons, List.flatMap_nil, List.cons_append,
      List.nil_append, List.zipIdx_cons, List.zipIdx_nil, List.foldl_cons, List.foldl_nil]
    rfl
  rw [← hfold]
  exact restore_numbers withCoordinate coordinateNames
    (fun _ _ _ _ hname ha => Mapping.setParameter_barycentric (setParameter_coordinate hname ha))
    hcorners (Nat.le_refl 9) t

/-- A triangle has the solver of another one and finite corners, and its rows follow from them. -/
structure Triangle.Configures (initial t : Triangle Float) : Prop where
  /-- The coordinates of the corners are finite. -/
  corners : ∀ a ∈ t.corners.toList.flatMap Vec.toList, a.isFinite = true
  /-- Both invert matrices in the same way. -/
  solver : t.solver = initial.solver
  /-- The rows are those of the corners. -/
  isSolved : t = solved t.corners t.solver

theorem Triangle.Configures.set {initial t changed : Triangle Float}
    (h : initial.Configures t) (hv : v.IsWord) (hset : t.setParameter name v = .ok changed) :
    initial.Configures changed := by
  unfold Triangle.setParameter at hset
  split at hset
  · cases hset
  · obtain ⟨a, ha, hset⟩ := bind_eq_ok_iff.mp hset
    cases hset
    refine ⟨fun b hb => ?_, h.solver, rfl⟩
    rcases Vec.eq_or_mem_of_mem_setComponents hb with rfl | hb
    · exact isFinite_of_asNumber hv ha
    · exact h.corners b hb

theorem Triangle.Configures.restore {initial t : Triangle Float} (h : initial.Configures t) :
    restore (Mapping.barycentric initial) t.parameters = .ok (.barycentric t) := by
  refine (restore_corners h.corners initial).trans ?_
  rw [← h.solver, ← h.isSolved]

/-! ### Maps -/

/-- A map has the type of another one, and values that its parameters take. -/
inductive Mapping.Configures : Mapping Float → Mapping Float → Prop where
  | transform {initial t : Transform Float} (h : initial.Configures t) :
    Configures (.transform initial) (.transform t)
  | barycentric {initial t : Triangle Float} (h : initial.Configures t) :
    Configures (.barycentric initial) (.barycentric t)

theorem Mapping.Configures.set {initial m changed : Mapping Float}
    (h : initial.Configures m) (hv : v.IsWord) (hset : m.setParameter name v = .ok changed) :
    initial.Configures changed := by
  cases h with
  | transform h =>
    obtain ⟨t, ht, hset⟩ := bind_eq_ok_iff.mp hset
    cases hset
    exact .transform (h.set hv ht)
  | barycentric h =>
    obtain ⟨t, ht, hset⟩ := bind_eq_ok_iff.mp hset
    cases hset
    exact .barycentric (h.set hv ht)

theorem Mapping.Configures.self {initial m : Mapping Float} (h : initial.Configures m) :
    m.Configures m := by
  cases h with
  | transform h => exact .transform ⟨h.entries, h.offset, rfl, h.isSolved⟩
  | barycentric h => exact .barycentric ⟨h.corners, rfl, h.isSolved⟩

theorem Mapping.Configures.restore {initial m : Mapping Float} (h : initial.Configures m) :
    restore initial m.parameters = .ok m := by
  cases h with
  | transform h => exact h.restore
  | barycentric h => exact h.restore

end TextureGraph
