import TextureGraph.Catalog.InPlace

/-!
# Changes in place are made as a whole or not at all

`Catalog.assign_apply`: a module whose parameter is changed in place has either become the module that
`Catalog.setParameter` gives, or the change is refused for the same reason and the module is what it was
(`settle`).  No module writes anything before it has read and accepted the value, so that the changes of
the catalog are atomic.
-/

namespace TextureGraph

variable {ε σ τ α β γ : Type}

namespace InPlace

/-- What is left of an object by a change that is made as a whole or not at all. -/
def settle (m : σ) (b : β) : Except ε σ → Except ε β × σ
  | .ok changed => (.ok b, changed)
  | .error e => (.error e, m)

theorem bind_of_eq_ok {x : ExceptT ε (StateM σ) β} {m m' : σ} {b : β} (h : x m = (.ok b, m'))
    (f : β → ExceptT ε (StateM σ) γ) : (x >>= f) m = f b m' := by
  change ExceptT.bindCont f (x m).1 (x m).2 = _
  rw [h]
  rfl

theorem bind_of_eq_error {x : ExceptT ε (StateM σ) β} {m m' : σ} {e : ε} (h : x m = (.error e, m'))
    (f : β → ExceptT ε (StateM σ) γ) : (x >>= f) m = (.error e, m') := by
  change ExceptT.bindCont f (x m).1 (x m).2 = _
  rw [h]
  rfl

theorem get_bind (f : σ → ExceptT ε (StateM σ) β) (m : σ) :
    (get >>= f : ExceptT ε (StateM σ) β) m = f m m := rfl

/-- A value that is read before anything is written. -/
theorem read_set (value : Except (ParameterError α) β) (f : β → σ) (m : σ) :
    (read value >>= fun b => set (f b) : InPlace σ α PUnit) m
      = settle m () (do return f (← value)) := by
  cases value <;> rfl

theorem read_modify (value : Except (ParameterError α) β) (f : β → σ → σ) (m : σ) :
    (read value >>= fun b => modify (f b) : InPlace σ α PUnit) m
      = settle m () (do return f (← value) m) := by
  cases value <;> rfl

/-- A change that leaves a part as a whole or not at all leaves the object so. -/
theorem onPart_apply {whole : τ → σ} {part : τ} {change : InPlace τ α β} {b : β}
    {changed : Except (ParameterError α) τ} (h : change part = settle part b changed) :
    onPart whole part change (whole part) = settle (whole part) b (do return whole (← changed)) := by
  unfold onPart
  rw [h]
  cases changed <;> rfl

end InPlace

open InPlace

variable [Arith α] {name : String} {v : ParameterValue α}

theorem Source.assign_apply (m : Source α) :
    Source.assign name v m = settle m () (m.setParameter name v) := by
  unfold assign
  rw [get_bind]
  split
  · exact read_set _ _ _
  · exact read_set _ _ _
  · exact read_set _ _ _
  · exact read_set _ _ _
  · exact read_set _ _ _
  · rw [setParameter.eq_6]
    · rfl
    all_goals assumption

theorem Channel.assign_apply (c : Channel α) :
    Channel.assign name v c = settle c () (c.setParameter name v) := by
  obtain ⟨title, unbound⟩ := c
  unfold assign
  split
  · unfold setParameter
    cases v.asChoice "kind" kinds.length with
    | error e => rfl
    | ok kind =>
      -- the value is converted where the kind is not the one that the channel has
      match kind, unbound with
      | 0, .color d => rfl
      | 1, .scalar a => rfl
      | 0, .scalar a => rfl
      | 1, .color d => rfl
      | _ + 2, .scalar a => rfl
      | _ + 2, .color d => rfl
  · cases unbound with
    | scalar a => exact read_modify _ (fun a (c : Channel α) => { c with unbound := .scalar a }) _
    | color d => exact read_modify _ (fun d (c : Channel α) => { c with unbound := .color d }) _
  · rw [setParameter.eq_3]
    · rfl
    all_goals assumption

theorem Expression.assign_apply (e : Expression α) :
    Expression.assign name v e = settle e () (e.setParameter name v) := by
  unfold assign setParameter
  split
  · cases v.asText name with
    | error refusal => rfl
    | ok source =>
      have hset (read? : Except (ParameterError α) (Expression α)) :
          (read read? >>= set) e = settle e () read? := by
        cases read? <;> rfl
      exact hset _
  · rfl

theorem Matching.assign_apply (m : Matching α) :
    Matching.assign name v m = settle m () (m.setParameter name v) := by
  unfold assign
  rw [get_bind]
  split
  · exact read_set _ _ _
  · rw [setParameter.eq_2]
    · rfl
    all_goals assumption

/-! ### Patterns -/

/-- The parameters that octaves have. -/
def Octaves.Knows (name : String) : Prop :=
  name = "octaves" ∨ name = "amplitude"

theorem Octaves.assign_apply (o : Octaves α) (h : Knows name) :
    Octaves.assign name v o = settle o true (o.setParameter name v) := by
  rcases h with rfl | rfl
  · unfold assign setParameter
    cases v.asInteger "octaves" 1 maxCount <;> rfl
  · unfold assign setParameter
    cases v.asNumber "amplitude" <;> rfl

theorem Octaves.assign_apply_of_not_knows (o : Octaves α) (h : ¬Knows name) :
    Octaves.assign name v o = (.ok false, o) := by
  obtain ⟨hcount, hamplitude⟩ := not_or.mp h
  rw [assign.eq_3 name v hcount hamplitude]
  rfl

theorem Octaves.setParameter_of_not_knows (o : Octaves α) (h : ¬Knows name) :
    o.setParameter name v = .error (.unknown name) := by
  obtain ⟨hcount, hamplitude⟩ := not_or.mp h
  exact setParameter.eq_3 o name v hcount hamplitude

section Pattern

variable {P : Octaves α → Texture α} {o : Octaves α} {next : Bool → InPlace (Texture α) α Unit}

/-- A pattern first offers a parameter to its octaves. -/
theorem Octaves.onPart_assign_bind (h : Knows name) (hnext : next true = pure ()) :
    (onPart P o (Octaves.assign name v) >>= next) (P o)
      = settle (P o) () (do return P (← o.setParameter name v)) := by
  have hpart : onPart P o (Octaves.assign name v) (P o)
      = settle (P o) true (do return P (← o.setParameter name v)) :=
    onPart_apply (o.assign_apply h)
  cases hset : o.setParameter name v with
  | error e =>
    rw [hset] at hpart
    exact bind_of_eq_error hpart next
  | ok changed =>
    rw [hset] at hpart
    rw [bind_of_eq_ok hpart next, hnext]
    rfl

/-- It goes on with the parameters that its octaves do not have. -/
theorem Octaves.onPart_assign_bind_of_not_knows (h : ¬Knows name) :
    (onPart P o (Octaves.assign name v) >>= next) (P o) = next false (P o) := by
  have hpart : onPart P o (Octaves.assign name v) (P o) = (.ok false, P o) := by
    unfold onPart
    rw [o.assign_apply_of_not_knows h]
    rfl
  exact bind_of_eq_ok hpart next

end Pattern

theorem Texture.assign_apply (m : Texture α) :
    Texture.assign name v m = settle m () (m.setParameter name v) := by
  unfold assign
  rw [get_bind]
  cases m with
  | noise o =>
    by_cases h : Octaves.Knows name
    · exact Octaves.onPart_assign_bind h rfl
    · unfold setParameter
      refine (Octaves.onPart_assign_bind_of_not_knows h).trans ?_
      simp only [o.setParameter_of_not_knows h]
      rfl
  | turbulence o =>
    by_cases h : Octaves.Knows name
    · exact Octaves.onPart_assign_bind h rfl
    · unfold setParameter
      refine (Octaves.onPart_assign_bind_of_not_knows h).trans ?_
      simp only [o.setParameter_of_not_knows h]
      rfl
  | wood o spacing fractionOnly =>
    by_cases h : Octaves.Knows name
    · refine (Octaves.onPart_assign_bind h rfl).trans ?_
      rcases h with rfl | rfl <;> rfl
    · refine (Octaves.onPart_assign_bind_of_not_knows h).trans ?_
      rw [if_neg Bool.false_ne_true]
      split
      · exact read_set _ _ _
      · exact read_set _ _ _
      · rw [setParameter.eq_5]
        simp only [o.setParameter_of_not_knows h]
        rfl
        all_goals assumption
  | cells metric =>
    dsimp only
    split
    · exact read_set _ _ _
    · rw [setParameter.eq_7]
      · rfl
      all_goals assumption

/-! ### Maps -/

theorem Transform.assign_apply (t : Transform α) :
    Transform.assign name v t = settle t () (t.setParameter name v) := by
  unfold assign setParameter
  split
  · cases v.asToggle name <;> rfl
  · cases entryNames.idxOf? name with
    | some i => cases v.asNumber name <;> rfl
    | none =>
      cases offsetNames.idxOf? name with
      | some i => cases v.asNumber name <;> rfl
      | none => rfl

/-- Rows that are cleared and written one after another are those of the corners. -/
theorem Triangle.solve_eq (t : Triangle α) : t.solve = solved t.corners t.solver := by
  unfold solve solved solveRows
  dsimp only
  split
  · rfl
  · generalize t.solver.invert _ = found
    cases found <;> rfl

theorem Triangle.assign_apply (t : Triangle α) :
    Triangle.assign name v t = settle t () (t.setParameter name v) := by
  unfold assign setParameter
  cases coordinateNames.idxOf? name with
  | none => rfl
  | some i =>
    cases v.asNumber name with
    | error e => rfl
    | ok a =>
      -- what remains is to bring the rows up to date
      exact congrArg (Prod.mk (Except.ok ())) (solve_eq _)

theorem Mapping.assign_apply (m : Mapping α) :
    Mapping.assign name v m = settle m () (m.setParameter name v) := by
  cases m with
  | transform t => exact onPart_apply t.assign_apply
  | barycentric t => exact onPart_apply t.assign_apply

/-! ### The catalog -/

/-- **Changes in place.**  A module whose parameter is changed in place has become the module that
`setParameter` gives, or it is what it was, and the change is refused as `setParameter` refuses it. -/
theorem Catalog.assign_apply (m : Catalog α) :
    Catalog.assign name v m = settle m () (m.setParameter name v) := by
  cases m with
  | source m => exact onPart_apply m.assign_apply
  | channel m => exact onPart_apply m.assign_apply
  | expression m => exact onPart_apply m.assign_apply
  | matching m => exact onPart_apply m.assign_apply
  | texture m => exact onPart_apply m.assign_apply
  | mapping m => exact onPart_apply m.assign_apply
  | operator | shaping | composition => rfl

instance : InPlaceModule (Catalog α) α where
  assign := Catalog.assign
  setParameter_eq m name v := by
    unfold accepted
    rw [Catalog.assign_apply]
    show m.setParameter name v = _
    cases m.setParameter name v <;> rfl

instance : AtomicModule (Catalog α) α where
  kept {m left name v e} h := by
    have hsettle : settle m () (m.setParameter name v) = (.error e, left) :=
      m.assign_apply.symm.trans h
    cases hset : m.setParameter name v with
    | ok changed =>
      rw [hset] at hsettle
      cases hsettle
    | error refusal =>
      rw [hset] at hsettle
      cases hsettle
      rfl

end TextureGraph
