import TextureGraph.Catalog.Channel
import TextureGraph.Catalog.Source
import TextureGraph.Proofs.Module.Restore.Basic

/-!
# Restoring sources and channels

A source is restored from its parameters.  So is a channel, unless its value is a number that is not
finite (`Channel.restore_scalar`).
-/

namespace TextureGraph

open TextureModule ParameterValue

variable {v : ParameterValue Float} {name : String}

/-! ### Sources -/

theorem Source.shownIndex_of_le {i : Nat} (hi : i ≤ 63) : shownIndex i = i := by
  have hsmall : (i : Int) < (UInt64.size + 1) / 2 := by
    change (i : Int) < 9223372036854775808
    omega
  exact Int.bmod_eq_of_le (by omega) hsmall

/-- A source has the type of another one, and values that its parameters take. -/
inductive Source.Configures : Source Float → Source Float → Prop where
  | number {b a : Float} (h : a.isFinite = true) : Configures (.number b) (.number a)
  | color {d c : Color Float} : Configures (.color d) (.color c)
  | parameter {j i : Nat} {b a : Float} (hi : i ≤ 63) (h : a.isFinite = true) :
    Configures (.parameter j b) (.parameter i a)
  | coordinate {first axis : Axis} : Configures (.coordinate first) (.coordinate axis)

theorem Source.Configures.set {initial m changed : Source Float}
    (h : initial.Configures m) (hv : v.IsWord) (hset : m.setParameter name v = .ok changed) :
    initial.Configures changed := by
  unfold Source.setParameter at hset
  split at hset
  · obtain ⟨a, ha, hset⟩ := bind_eq_ok_iff.mp hset
    cases hset
    cases h with
    | number => exact .number (isFinite_of_asNumber hv ha)
  · obtain ⟨c, -, hset⟩ := bind_eq_ok_iff.mp hset
    cases hset
    cases h with
    | color => exact .color
  · obtain ⟨n, hn, hset⟩ := bind_eq_ok_iff.mp hset
    cases hset
    obtain ⟨hlow, hhigh⟩ := asInteger_eq_ok hn
    cases h with
    | parameter _ h =>
      rw [maxParameterIndex] at hhigh
      exact .parameter (by omega) h
  · obtain ⟨a, ha, hset⟩ := bind_eq_ok_iff.mp hset
    cases hset
    cases h with
    | parameter hi => exact .parameter hi (isFinite_of_asNumber hv ha)
  · obtain ⟨i, -, hset⟩ := bind_eq_ok_iff.mp hset
    cases hset
    cases h with
    | coordinate => exact .coordinate
  · cases hset

theorem Source.Configures.self {initial m : Source Float} (h : initial.Configures m) :
    m.Configures m := by
  cases h with
  | number h => exact .number h
  | color => exact .color
  | parameter hi h => exact .parameter hi h
  | coordinate => exact .coordinate

theorem Source.Configures.restore {initial m : Source Float} (h : initial.Configures m) :
    restore initial m.parameters = .ok m := by
  cases h with
  | @number b a h =>
    have hset : Source.setParameter (.number b) "value" (.number a) = .ok (.number a) := by
      simp only [Source.setParameter, asNumber_number h]
      rfl
    exact restore_cons hset []
  | color => rfl
  | @parameter j i b a hi h =>
    have hshown : shownIndex i = i := shownIndex_of_le hi
    have hrange : 0 ≤ (i : Int) ∧ (i : Int) ≤ maxParameterIndex := by
      rw [maxParameterIndex]
      omega
    have hindex : Source.setParameter (.parameter j b) "index" (.integer i)
        = .ok (.parameter i b) := by
      simp only [Source.setParameter, asInteger_integer hrange]
      rfl
    have hdefault : Source.setParameter (.parameter i b) "default" (.number a)
        = .ok (.parameter i a) := by
      simp only [Source.setParameter, asNumber_number h]
      rfl
    rw [parameters, hshown]
    exact (restore_cons hindex _).trans (restore_cons hdefault [])
  | @coordinate first axis => cases axis <;> rfl

/-! ### Channels -/

theorem Channel.name_of_setParameter {c changed : Channel Float}
    (hset : c.setParameter name v = .ok changed) : changed.name = c.name := by
  unfold Channel.setParameter at hset
  split at hset
  · obtain ⟨i, -, hset⟩ := bind_eq_ok_iff.mp hset
    split at hset
    all_goals
      cases hset
      rfl
  · split at hset
    all_goals
      obtain ⟨_, -, hset⟩ := bind_eq_ok_iff.mp hset
      cases hset
      rfl
  · cases hset

/-- A number turns into the number that a channel of the other kind had, and a color likewise; what
counts is that there is a channel of the kind that is wanted afterwards. -/
theorem Channel.setParameter_kind (c : Channel Float) :
    (∃ b, c.setParameter "kind" (.choice 0) = .ok (.scalar c.name b)) ∧
      ∃ d, c.setParameter "kind" (.choice 1) = .ok (.color c.name d) := by
  obtain ⟨name, unbound⟩ := c
  cases unbound with
  | scalar a => exact ⟨⟨a, rfl⟩, _, rfl⟩
  | color d => exact ⟨⟨_, rfl⟩, d, rfl⟩

/-- A value that is not finite is refused. -/
theorem Channel.restore_scalar {initial : Channel Float} (a : Float) :
    restore initial (Channel.scalar initial.name a).parameters
      = if a.isFinite then .ok (.scalar initial.name a)
        else .error (.outOfRange "default" (.number a)) := by
  obtain ⟨⟨b, hkind⟩, -⟩ := initial.setParameter_kind
  refine (restore_cons hkind _).trans ?_
  by_cases ha : a.isFinite = true
  · have hdefault : Channel.setParameter (.scalar initial.name b) "default" (.number a)
        = .ok (.scalar initial.name a) := by
      simp only [Channel.setParameter, Channel.scalar, asNumber_number ha]
      rfl
    rw [if_pos ha]
    exact restore_cons hdefault []
  · have hrefused : (ParameterValue.number a).asNumber "default"
        = .error (.outOfRange "default" (.number a)) := if_neg ha
    have hdefault : Channel.setParameter (.scalar initial.name b) "default" (.number a)
        = .error (.outOfRange "default" (.number a)) := by
      simp only [Channel.setParameter, Channel.scalar, hrefused]
      rfl
    rw [if_neg ha]
    exact restore_cons_error hdefault []

theorem Channel.restore_color {initial : Channel Float} (d : Color Float) :
    restore initial (Channel.color initial.name d).parameters
      = .ok (.color initial.name d) := by
  obtain ⟨-, c, hkind⟩ := initial.setParameter_kind
  refine (restore_cons hkind _).trans ?_
  rfl

end TextureGraph
