import TextureGraph.Proofs.Module.Setting.Basic

/-!
# Setting a parameter of a map

The numbers of a map are listed under tables of names.  The place of a name in its table is the place of
the number among the numbers of the map, row by row.
-/

namespace TextureGraph

open ParameterValue

variable {α : Type}

theorem Vec.toList_setComponent (w : Vec α) {i : Nat} (h : i < 3) (a : α) :
    (w.setComponent i a).toList = w.toList.set i a := by
  match i with
  | 0 | 1 | 2 => rfl

/-- Three rows of numbers as one list, in which one number is replaced. -/
theorem Vec.flatMap_setComponents (rows : Vec (Vec α)) {i : Nat} (h : i < 9) (a : α) :
    (rows.setComponent (i / 3) ((rows.component (i / 3)).setComponent (i % 3) a)).toList.flatMap toList
      = (rows.toList.flatMap toList).set i a := by
  match i with
  | 0 | 1 | 2 | 3 | 4 | 5 | 6 | 7 | 8 => rfl

theorem getElem?_of_idxOf? {names : List String} {name : String} {i : Nat}
    (h : names.idxOf? name = some i) : names[i]? = some name := by
  obtain ⟨hi, hname, -⟩ := List.idxOf?_eq_some_iff.mp h
  exact List.getElem?_eq_some_iff.mpr ⟨hi, hname⟩

variable [Arith α] {v : ParameterValue α} {name : String}

namespace Transform

/-- The entries of the matrix as parameters. -/
def entryParameters (t : Transform α) : List (Parameter α) :=
  List.zipWith .number entryNames t.matrix.entries

/-- The components of the offset as parameters. -/
def offsetParameters (t : Transform α) : List (Parameter α) :=
  List.zipWith .number offsetNames t.offset.toList

omit [Arith α] in
theorem names_parameters (t : Transform α) :
    Parameter.names t.parameters = entryNames ++ offsetNames ++ ["inverse"] := rfl

theorem map_receive_parameters (t : Transform α) :
    t.parameters.map (.receive name v)
      = t.entryParameters.map (.receive name v) ++ t.offsetParameters.map (.receive name v)
        ++ [(Parameter.toggle "inverse" t.inverse).receive name v] := by
  unfold parameters
  rw [List.map_append, List.map_append]
  rfl

theorem parameters_entry (t : Transform α) {i : Nat} (hname : entryNames[i]? = some name) {a : α}
    (ha : v.asNumber name = .ok a) :
    (solved (t.matrix.setEntry (i / 3) (i % 3) a) t.offset t.inverse t.solver).parameters
      = t.parameters.map (.receive name v) := by
  have hi : i < 9 := (List.getElem?_eq_some_iff.mp hname).1
  obtain ⟨hoffset, hinverse⟩ : name ∉ Parameter.names t.offsetParameters ∧ "inverse" ≠ name :=
    (by decide : ∀ name ∈ entryNames, name ∉ offsetNames ∧ "inverse" ≠ name) name
      (List.mem_of_getElem? hname)
  have hset : t.entryParameters.map (Parameter.receive name v)
      = List.zipWith Parameter.number entryNames (t.matrix.entries.set i a) :=
    Parameter.map_receive_zipWith (by decide) hname ha _
  have hentries : (t.matrix.setEntry (i / 3) (i % 3) a).entries = t.matrix.entries.set i a :=
    Vec.flatMap_setComponents t.matrix.rows hi a
  rw [map_receive_parameters, hset, Parameter.map_receive_of_not_mem hoffset,
    Parameter.receive_of_ne hinverse, ← hentries]
  rfl

theorem parameters_offset (t : Transform α) {i : Nat} (hname : offsetNames[i]? = some name) {a : α}
    (ha : v.asNumber name = .ok a) :
    (solved t.matrix (t.offset.setComponent i a) t.inverse t.solver).parameters
      = t.parameters.map (.receive name v) := by
  have hi : i < 3 := (List.getElem?_eq_some_iff.mp hname).1
  obtain ⟨hentry, hinverse⟩ : name ∉ Parameter.names t.entryParameters ∧ "inverse" ≠ name :=
    (by decide : ∀ name ∈ offsetNames, name ∉ entryNames ∧ "inverse" ≠ name) name
      (List.mem_of_getElem? hname)
  have hset : t.offsetParameters.map (Parameter.receive name v)
      = List.zipWith Parameter.number offsetNames (t.offset.toList.set i a) :=
    Parameter.map_receive_zipWith (by decide) hname ha _
  rw [map_receive_parameters, hset, Parameter.map_receive_of_not_mem hentry,
    Parameter.receive_of_ne hinverse, ← Vec.toList_setComponent t.offset hi]
  rfl

theorem parameters_inverse (t : Transform α) (b : Bool) :
    (solved t.matrix t.offset b t.solver).parameters
      = t.parameters.map (.receive "inverse" (.toggle b)) := by
  have hentry : "inverse" ∉ Parameter.names t.entryParameters :=
    (by decide : "inverse" ∉ entryNames)
  have hoffset : "inverse" ∉ Parameter.names t.offsetParameters :=
    (by decide : "inverse" ∉ offsetNames)
  rw [map_receive_parameters, Parameter.map_receive_of_not_mem hentry,
    Parameter.map_receive_of_not_mem hoffset]
  rfl

theorem takesParameters (t : Transform α) : TakesParameters parameters setParameter t where
  nodup := by
    rw [names_parameters]
    decide
  unlisted name v h := by
    rw [names_parameters, List.mem_append, List.mem_append, List.mem_singleton, not_or, not_or] at h
    obtain ⟨⟨hentry, hoffset⟩, hinverse⟩ := h
    unfold setParameter
    rw [if_neg hinverse, List.idxOf?_eq_none_iff.mpr hentry, List.idxOf?_eq_none_iff.mpr hoffset]
  listed name v h := by
    rw [names_parameters, List.mem_append, List.mem_append, List.mem_singleton] at h
    unfold setParameter
    split
    · exact (v.recognized_asToggle _).put _
    · split
      · exact (v.recognized_asNumber _).put _
      · exact (v.recognized_asNumber _).put _
      · rename_i hinverse _ _ hentry hoffset
        rcases h with (h | h) | h
        · exact absurd h (List.idxOf?_eq_none_iff.mp hentry)
        · exact absurd h (List.idxOf?_eq_none_iff.mp hoffset)
        · exact absurd h hinverse
  received name v changed h := by
    unfold setParameter at h
    split at h
    · subst name
      obtain ⟨b, hb, h⟩ := bind_eq_ok_iff.mp h
      cases h
      obtain rfl := asToggle_eq_ok hb
      exact t.parameters_inverse b
    · split at h
      · obtain ⟨a, ha, h⟩ := bind_eq_ok_iff.mp h
        cases h
        exact t.parameters_entry (getElem?_of_idxOf? (by assumption)) ha
      · obtain ⟨a, ha, h⟩ := bind_eq_ok_iff.mp h
        cases h
        exact t.parameters_offset (getElem?_of_idxOf? (by assumption)) ha
      · cases h

end Transform

theorem Triangle.takesParameters (t : Triangle α) : TakesParameters parameters setParameter t where
  nodup := (by decide : coordinateNames.Nodup)
  unlisted name v h := by
    have hname : coordinateNames.idxOf? name = none := List.idxOf?_eq_none_iff.mpr h
    unfold setParameter
    rw [hname]
  listed name v h := by
    unfold setParameter
    split
    · rename_i hname
      exact absurd h (List.idxOf?_eq_none_iff.mp hname)
    · exact (v.recognized_asNumber _).put _
  received name v changed h := by
    unfold setParameter at h
    split at h
    · cases h
    · rename_i i hindex
      obtain ⟨a, ha, h⟩ := bind_eq_ok_iff.mp h
      cases h
      have hname : coordinateNames[i]? = some name := getElem?_of_idxOf? hindex
      have hi : i < 9 := (List.getElem?_eq_some_iff.mp hname).1
      unfold parameters
      rw [Parameter.map_receive_zipWith (by decide) hname ha, ← Vec.flatMap_setComponents _ hi]
      rfl

theorem Mapping.takesParameters (m : Mapping α) : TakesParameters parameters setParameter m := by
  cases m with
  | transform t =>
    exact t.takesParameters.onPart Mapping.transform (fun _ => rfl) fun _ _ => rfl
  | barycentric t =>
    exact t.takesParameters.onPart Mapping.barycentric (fun _ => rfl) fun _ _ => rfl

end TextureGraph
