import TextureGraph.Proofs.Module.Configuration
import TextureGraph.Proofs.Number.Integer

/-!
# Setting the parameters that a module shows

The parameters of a module list their present values, so they may be set in another module of the same
type, one after another (`TextureModule.restore`).  What a parameter accepted before, it accepts again.
-/

namespace TextureGraph

variable {M α : Type}

namespace TextureModule

variable [TextureModule M α]

/-- The module after parameters have been set to their values one after another, unless one of the
values is refused. -/
def restore (m : M) (parameters : List (Parameter α)) : Except (ParameterError α) M :=
  parameters.foldlM (fun m p => setParameter m p.name p.value) m

theorem restore_cons {m m' : M} {name : String} {range : ParameterRange α} {v : ParameterValue α}
    (h : setParameter m name v = .ok m') (parameters : List (Parameter α)) :
    restore m (⟨name, range, v⟩ :: parameters) = restore m' parameters := by
  unfold restore
  rw [List.foldlM_cons, h]
  rfl

theorem restore_cons_error {m : M} {name : String} {range : ParameterRange α} {v : ParameterValue α}
    {e : ParameterError α} (h : setParameter m name v = .error e) (parameters : List (Parameter α)) :
    restore m (⟨name, range, v⟩ :: parameters) = .error e := by
  unfold restore
  rw [List.foldlM_cons, h]
  rfl

theorem restore_append {m m' : M} {first : List (Parameter α)} (h : restore m first = .ok m')
    (second : List (Parameter α)) : restore m (first ++ second) = restore m' second := by
  unfold restore at h ⊢
  rw [List.foldlM_append, h]
  rfl

/-- A module that consists of a part, which has its parameters. -/
theorem restore_of_part {N : Type} [TextureModule N α] {P : N → M}
    (hP : ∀ n name (v : ParameterValue α),
      setParameter (P n) name v = do return P (← setParameter n name v))
    (n : N) (parameters : List (Parameter α)) :
    restore (P n) parameters = do return P (← restore n parameters) := by
  induction parameters generalizing n with
  | nil => rfl
  | cons p parameters ih =>
    unfold restore at ih ⊢
    rw [List.foldlM_cons, List.foldlM_cons, hP]
    cases setParameter n p.name p.value with
    | error e => rfl
    | ok changed => exact ih changed

theorem restore_part {N : Type} [TextureModule N α] {P : N → M}
    (hP : ∀ n name (v : ParameterValue α),
      setParameter (P n) name v = do return P (← setParameter n name v))
    {n restored : N} {parameters : List (Parameter α)} (h : restore n parameters = .ok restored) :
    restore (P n) parameters = .ok (P restored) := by
  rw [restore_of_part hP, h]
  rfl

end TextureModule

/-! ### Values of parameters -/

namespace ParameterValue

/-- Whole numbers have 64 bits. -/
def IsWord : ParameterValue Float → Prop
  | .integer n => -2 ^ 63 ≤ n ∧ n < 2 ^ 63
  | _ => True

variable {v : ParameterValue Float} {name : String}

theorem isFinite_of_asNumber {a : Float} (hv : v.IsWord) (h : v.asNumber name = .ok a) :
    a.isFinite = true := by
  cases v with
  | number b =>
    unfold asNumber at h
    dsimp only at h
    split at h
    · cases h
      assumption
    · cases h
  | integer n =>
    cases h
    exact Binary64.isFinite_ofInt hv.1 hv.2
  | toggle | choice | color | text => cases h

theorem asNumber_number {a : Float} (h : a.isFinite = true) :
    (ParameterValue.number a).asNumber name = .ok a :=
  if_pos h

theorem asInteger_integer {min max n : Int} (h : min ≤ n ∧ n ≤ max) :
    (ParameterValue.integer n : ParameterValue Float).asInteger name min max = .ok n :=
  if_pos h

theorem asPositive_number {a : Float} (h : a.isFinite = true) (hpos : 0.0 < a) :
    (ParameterValue.number a).asPositive name = .ok a :=
  asPositive_eq_ok_iff.mpr ⟨asNumber_number h, hpos⟩

end ParameterValue

end TextureGraph
