import TextureGraph.Proofs.Module.Configuration

/-!
# Setting a parameter of a module

What a caller may expect of a module with named parameters (`TakesParameters`): no name stands for two
of them, a value is refused for its name exactly if the name is not listed, and a value that is accepted
is listed afterwards, while all other parameters are what they were (`Parameter.receive`).

A parameter lists a value in the form that it takes.  Where numbers are taken a whole number is listed as
a number, and where whole numbers are taken a number without fractional digits as a whole one
(`ParameterRange.shown`).
-/

namespace TextureGraph

variable {M N α β γ : Type}

/-! ### Values that are accepted -/

namespace ParameterValue

variable {v : ParameterValue α} {name : String}

theorem asToggle_eq_ok {b : Bool} (h : v.asToggle name = .ok b) : v = .toggle b := by
  cases v with
  | toggle =>
    cases h
    rfl
  | number | integer | choice | color | text => cases h

theorem asChoice_eq_ok {count i : Nat} (h : v.asChoice name count = .ok i) :
    v = .choice i ∧ i < count := by
  cases v with
  | choice =>
    unfold asChoice at h
    dsimp only at h
    split at h
    · cases h
      exact ⟨rfl, by assumption⟩
    · cases h
  | number | integer | toggle | color | text => cases h

theorem asColor_eq_ok {c : Color α} (h : v.asColor name = .ok c) : v = .color c := by
  cases v with
  | color =>
    cases h
    rfl
  | number | integer | toggle | choice | text => cases h

theorem asText_eq_ok {s : String} (h : v.asText name = .ok s) : v = .text s := by
  cases v with
  | text =>
    cases h
    rfl
  | number | integer | toggle | choice | color => cases h

end ParameterValue

/-- A value in the form in which it is listed. -/
def ParameterRange.shown [Arith α] : ParameterRange α → ParameterValue α → ParameterValue α
  | .number _ _, .integer n => .number (Arith.ofInt n)
  | .integer _ _, .number a => .integer (Arith.floorInt a)
  | _, v => v

namespace ParameterValue

variable [Arith α] {v : ParameterValue α} {name : String}

theorem shown_of_asNumber {a : α} (h : v.asNumber name = .ok a) (min max : Option α) :
    (ParameterRange.number min max).shown v = .number a := by
  cases v with
  | number b =>
    unfold asNumber at h
    dsimp only at h
    split at h
    · cases h
      rfl
    · cases h
  | integer n =>
    cases h
    rfl
  | toggle | choice | color | text => cases h

theorem shown_of_asPositive {a : α} (h : v.asPositive name = .ok a) (min max : Option α) :
    (ParameterRange.number min max).shown v = .number a :=
  shown_of_asNumber (asPositive_eq_ok_iff.mp h).1 min max

theorem shown_of_asInteger {lo hi n : Int} (h : v.asInteger name lo hi = .ok n) (min max : Int) :
    (ParameterRange.integer min max).shown v = .integer n := by
  obtain ⟨rfl | ⟨a, rfl, -, rfl⟩, -⟩ := asInteger_eq_ok_iff.mp h
  · rfl
  · rfl

end ParameterValue

/-! ### Names that are not known -/

/-- An outcome that is no refusal of a name. -/
def Recognized (outcome : Except (ParameterError α) β) : Prop :=
  ∀ name, outcome ≠ .error (.unknown name)

theorem recognized_ok (b : β) : Recognized (.ok b : Except (ParameterError α) β) := by
  intro name h
  cases h

theorem Recognized.bind {x : Except (ParameterError α) β} (h : Recognized x)
    {f : β → Except (ParameterError α) γ} (hf : ∀ b, Recognized (f b)) : Recognized (x >>= f) := by
  intro name hname
  rcases bind_eq_error_iff.mp hname with hx | ⟨b, -, hb⟩
  · exact h name hx
  · exact hf b name hb

/-- A value that is put into a module once it has been read. -/
theorem Recognized.put {x : Except (ParameterError α) β} (h : Recognized x) (f : β → γ) :
    Recognized (do return f (← x)) :=
  h.bind fun b => recognized_ok (f b)

namespace ParameterValue

variable (v : ParameterValue α) (name : String)

theorem recognized_asToggle : Recognized (v.asToggle name) := by
  intro n h
  cases v <;> cases h

theorem recognized_asChoice (count : Nat) : Recognized (v.asChoice name count) := by
  intro n h
  cases v with
  | choice i =>
    unfold asChoice at h
    dsimp only at h
    split at h <;> cases h
  | number | integer | toggle | color | text => cases h

theorem recognized_asColor : Recognized (v.asColor name) := by
  intro n h
  cases v <;> cases h

theorem recognized_asText : Recognized (v.asText name) := by
  intro n h
  cases v <;> cases h

variable [Arith α]

theorem recognized_asNumber : Recognized (v.asNumber name) := by
  intro n h
  cases v with
  | number a =>
    unfold asNumber at h
    dsimp only at h
    split at h <;> cases h
  | integer | toggle | choice | color | text => cases h

theorem recognized_asPositive : Recognized (v.asPositive name) := by
  refine (v.recognized_asNumber name).bind fun a n h => ?_
  split at h <;> cases h

theorem recognized_asInteger (min max : Int) : Recognized (v.asInteger name min max) := by
  have hinteger : ∀ k : Int,
      Recognized ((ParameterValue.integer k : ParameterValue α).asInteger name min max) := by
    intro k n h
    change (if min ≤ k ∧ k ≤ max then .ok k else .error (.outOfRange name (.integer k))
      : Except (ParameterError α) Int) = _ at h
    split at h <;> cases h
  intro n h
  cases v with
  | integer k => exact hinteger k n h
  | number a =>
    rw [asInteger_number] at h
    split at h
    · exact hinteger _ n h
    · cases h
  | toggle | choice | color | text => cases h

end ParameterValue

/-! ### Parameters that are listed -/

/-- The names of parameters. -/
def Parameter.names (parameters : List (Parameter α)) : List String :=
  parameters.map Parameter.name

variable {name : String}

theorem Parameter.mem_of_mem_names_zipWith {names : List String} {values : List α}
    (h : name ∈ Parameter.names (List.zipWith Parameter.number names values)) : name ∈ names := by
  induction names generalizing values with
  | nil => exact h
  | cons first names ih =>
    cases values with
    | nil => exact absurd h List.not_mem_nil
    | cons a values =>
      rcases List.mem_cons.mp h with rfl | h
      · exact .head _
      · exact .tail _ (ih h)

variable [Arith α] {v : ParameterValue α}

/-- A parameter after one of its module has been set: the parameter of this name lists the value. -/
def Parameter.receive (name : String) (v : ParameterValue α) (p : Parameter α) : Parameter α :=
  if p.name = name then { p with value := p.range.shown v } else p

theorem Parameter.receive_eq {p : Parameter α} {shown : ParameterValue α} (h : p.range.shown v = shown) :
    p.receive p.name v = { p with value := shown } := by
  rw [← h]
  exact if_pos rfl

theorem Parameter.receive_of_ne {p : Parameter α} (h : p.name ≠ name) : p.receive name v = p :=
  if_neg h

theorem Parameter.map_receive_of_not_mem {parameters : List (Parameter α)}
    (h : name ∉ names parameters) : parameters.map (receive name v) = parameters := by
  refine (List.map_congr_left fun p hp => ?_).trans (List.map_id parameters)
  refine receive_of_ne fun hname => h ?_
  exact List.mem_map.mpr ⟨p, hp, hname⟩

/-- A parameter that is listed with the first parameters of a module. -/
theorem Parameter.map_receive_append_left {second : List (Parameter α)} (h : name ∉ names second)
    (first : List (Parameter α)) :
    (first ++ second).map (receive name v) = first.map (receive name v) ++ second := by
  rw [List.map_append, map_receive_of_not_mem h]

/-- A parameter that is listed after the first parameters of a module. -/
theorem Parameter.map_receive_append_right {first : List (Parameter α)} (h : name ∉ names first)
    (second : List (Parameter α)) :
    (first ++ second).map (receive name v) = first ++ second.map (receive name v) := by
  rw [List.map_append, map_receive_of_not_mem h]

theorem Parameter.receive_number {a : α} (h : v.asNumber name = .ok a) (b : α) :
    (Parameter.number name b).receive name v = .number name a :=
  receive_eq (p := .number name b) (ParameterValue.shown_of_asNumber h none none)

theorem Parameter.receive_positive {a : α} (h : v.asPositive name = .ok a) (b : α) :
    (Parameter.positive name b).receive name v = .positive name a :=
  receive_eq (p := .positive name b) (ParameterValue.shown_of_asPositive h (some 0.0) none)

theorem Parameter.receive_integer {lo hi n : Int} (h : v.asInteger name lo hi = .ok n)
    (k min max : Int) :
    (Parameter.integer name k min max : Parameter α).receive name v = .integer name n min max :=
  receive_eq (p := .integer name k min max) (ParameterValue.shown_of_asInteger h min max)

/-- Numbers that are listed under names of their own, of which one is set. -/
theorem Parameter.map_receive_zipWith {names : List String} (hnodup : names.Nodup) {i : Nat}
    (hname : names[i]? = some name) {a : α} (h : v.asNumber name = .ok a) (values : List α) :
    (List.zipWith Parameter.number names values).map (receive name v)
      = List.zipWith Parameter.number names (values.set i a) := by
  induction names generalizing i values with
  | nil => cases hname
  | cons first names ih =>
    obtain ⟨hfirst, hnodup⟩ := List.nodup_cons.mp hnodup
    cases values with
    | nil => rfl
    | cons b values =>
      cases i with
      | zero =>
        obtain rfl : first = name := Option.some.inj hname
        have hrest : (List.zipWith Parameter.number names values).map (receive first v)
            = List.zipWith Parameter.number names values :=
          map_receive_of_not_mem fun hname => hfirst (mem_of_mem_names_zipWith hname)
        exact congrArg₂ List.cons (receive_number h b) hrest
      | succ i =>
        have hne : first ≠ name := by
          rintro rfl
          exact hfirst (List.mem_of_getElem? hname)
        exact congrArg₂ List.cons (receive_of_ne hne) (ih hnodup hname values)

/-- What a caller may expect of the parameters of a module: no two have one name, a value is refused for
its name exactly if there is no parameter of this name, and one that is accepted is listed from then on,
with all other parameters as they were. -/
structure TakesParameters (parameters : M → List (Parameter α))
    (set : M → String → ParameterValue α → Except (ParameterError α) M) (m : M) : Prop where
  /-- Every parameter has a name of its own. -/
  nodup : (Parameter.names (parameters m)).Nodup
  /-- A name that is not listed is refused. -/
  unlisted : ∀ name v, name ∉ Parameter.names (parameters m) → set m name v = .error (.unknown name)
  /-- A name that is listed is not. -/
  listed : ∀ name v, name ∈ Parameter.names (parameters m) → Recognized (set m name v)
  /-- A value that is accepted is listed, and nothing else changes. -/
  received : ∀ name v changed, set m name v = .ok changed →
    parameters changed = (parameters m).map (.receive name v)

/-- A module without parameters refuses all names. -/
theorem takesParameters_nil {parameters : M → List (Parameter α)}
    {set : M → String → ParameterValue α → Except (ParameterError α) M} {m : M}
    (hparameters : parameters m = []) (hset : ∀ name v, set m name v = .error (.unknown name)) :
    TakesParameters parameters set m where
  nodup := by
    rw [hparameters]
    exact .nil
  unlisted name v _ := hset name v
  listed name v h := by
    rw [hparameters] at h
    cases h
  received name v changed h := by
    rw [hset] at h
    cases h

/-- A module takes the parameters of the part that it consists of. -/
theorem TakesParameters.onPart {parameters : M → List (Parameter α)}
    {set : M → String → ParameterValue α → Except (ParameterError α) M}
    {partParameters : N → List (Parameter α)}
    {setPart : N → String → ParameterValue α → Except (ParameterError α) N} {part : N}
    (h : TakesParameters partParameters setPart part) (whole : N → M)
    (hparameters : ∀ n, parameters (whole n) = partParameters n)
    (hset : ∀ name v, set (whole part) name v = do return whole (← setPart part name v)) :
    TakesParameters parameters set (whole part) where
  nodup := by
    rw [hparameters]
    exact h.nodup
  unlisted name v hname := by
    rw [hparameters] at hname
    rw [hset, h.unlisted name v hname]
    rfl
  listed name v hname := by
    rw [hparameters] at hname
    rw [hset]
    exact (h.listed name v hname).put whole
  received name v changed hchanged := by
    rw [hset] at hchanged
    obtain ⟨n, hn, hchanged⟩ := bind_eq_ok_iff.mp hchanged
    cases hchanged
    rw [hparameters, hparameters]
    exact h.received name v n hn

end TextureGraph
