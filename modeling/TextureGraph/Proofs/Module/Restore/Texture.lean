import TextureGraph.Catalog.Texture
import TextureGraph.Proofs.Module.Restore.Basic

/-!
# Restoring patterns
-/

namespace TextureGraph

open TextureModule ParameterValue

variable {v : ParameterValue Float} {name : String}

/-- Octaves that the parameters of a pattern give. -/
structure Octaves.IsAccepted (o : Octaves Float) : Prop where
  /-- There is one at least. -/
  one_le : 1 ≤ o.count
  /-- There are not too many. -/
  le : o.count ≤ 16
  /-- The amplitude is a number. -/
  isFinite : o.amplitude.isFinite = true

theorem Octaves.IsAccepted.set {o changed : Octaves Float} (h : o.IsAccepted) (hv : v.IsWord)
    (hset : o.setParameter name v = .ok changed) : changed.IsAccepted := by
  unfold Octaves.setParameter at hset
  split at hset
  · obtain ⟨n, hn, hset⟩ := bind_eq_ok_iff.mp hset
    obtain ⟨hlow, hhigh⟩ := asInteger_eq_ok hn
    rw [maxCount] at hhigh
    cases hset
    exact ⟨by dsimp only; omega, by dsimp only; omega, h.isFinite⟩
  · obtain ⟨a, ha, hset⟩ := bind_eq_ok_iff.mp hset
    cases hset
    exact ⟨h.one_le, h.le, isFinite_of_asNumber hv ha⟩
  · cases hset

/-- Octaves are restored in every pattern that hands their parameters on to them. -/
theorem Octaves.IsAccepted.restore {P : Octaves Float → Texture Float}
    (hP : ∀ o name v, name = "octaves" ∨ name = "amplitude" →
      (P o).setParameter name v = P <$> o.setParameter name v)
    {o : Octaves Float} (h : o.IsAccepted) (initial : Octaves Float) :
    restore (P initial) o.parameters = .ok (P o) := by
  have hrange : 1 ≤ (o.count : Int) ∧ (o.count : Int) ≤ maxCount := by
    have hone := h.one_le
    have hle := h.le
    rw [maxCount]
    omega
  have hcount : (P initial).setParameter "octaves" (.integer o.count)
      = .ok (P { initial with count := o.count }) := by
    rw [hP _ _ _ (.inl rfl)]
    simp only [Octaves.setParameter, asInteger_integer hrange]
    rfl
  have hamplitude : (P { initial with count := o.count }).setParameter "amplitude"
      (.number o.amplitude) = .ok (P o) := by
    rw [hP _ _ _ (.inr rfl)]
    simp only [Octaves.setParameter, asNumber_number h.isFinite]
    rfl
  exact (restore_cons hcount _).trans (restore_cons hamplitude [])

/-- A pattern has the type of another one, and values that its parameters take. -/
inductive Texture.Configures : Texture Float → Texture Float → Prop where
  | noise {initial o : Octaves Float} (h : o.IsAccepted) : Configures (.noise initial) (.noise o)
  | turbulence {initial o : Octaves Float} (h : o.IsAccepted) :
    Configures (.turbulence initial) (.turbulence o)
  | wood {initial o : Octaves Float} {b a : Float} {wasFraction fractionOnly : Bool}
    (h : o.IsAccepted) (ha : a.isFinite = true) (hpos : 0.0 < a) :
    Configures (.wood initial b wasFraction) (.wood o a fractionOnly)
  | cells {initial metric : Metric} : Configures (.cells initial) (.cells metric)

theorem Texture.Configures.set {initial m changed : Texture Float}
    (h : initial.Configures m) (hv : v.IsWord) (hset : m.setParameter name v = .ok changed) :
    initial.Configures changed := by
  unfold Texture.setParameter at hset
  split at hset
  · obtain ⟨o, ho, hset⟩ := bind_eq_ok_iff.mp hset
    cases hset
    cases h with
    | noise h => exact .noise (h.set hv ho)
  · obtain ⟨o, ho, hset⟩ := bind_eq_ok_iff.mp hset
    cases hset
    cases h with
    | turbulence h => exact .turbulence (h.set hv ho)
  · obtain ⟨a, ha, hset⟩ := bind_eq_ok_iff.mp hset
    obtain ⟨hnumber, hpos⟩ := asPositive_eq_ok_iff.mp ha
    cases hset
    cases h with
    | wood h => exact .wood h (isFinite_of_asNumber hv hnumber) hpos
  · obtain ⟨b, -, hset⟩ := bind_eq_ok_iff.mp hset
    cases hset
    cases h with
    | wood h ha hpos => exact .wood h ha hpos
  · obtain ⟨o, ho, hset⟩ := bind_eq_ok_iff.mp hset
    cases hset
    cases h with
    | wood h ha hpos => exact .wood (h.set hv ho) ha hpos
  · obtain ⟨i, -, hset⟩ := bind_eq_ok_iff.mp hset
    cases hset
    cases h with
    | cells => exact .cells
  · cases hset

theorem Texture.Configures.self {initial m : Texture Float} (h : initial.Configures m) :
    m.Configures m := by
  cases h with
  | noise h => exact .noise h
  | turbulence h => exact .turbulence h
  | wood h ha hpos => exact .wood h ha hpos
  | cells => exact .cells

theorem Texture.Configures.restore {initial m : Texture Float} (h : initial.Configures m) :
    restore initial m.parameters = .ok m := by
  cases h with
  | @noise initial o h => exact h.restore (P := .noise) (fun _ _ _ _ => rfl) initial
  | @turbulence initial o h => exact h.restore (P := .turbulence) (fun _ _ _ _ => rfl) initial
  | @wood initial o b a wasFraction fractionOnly h ha hpos =>
    have hoctaves : TextureModule.restore (Texture.wood initial b wasFraction) o.parameters
        = .ok (.wood o b wasFraction) := by
      refine h.restore (P := (.wood · b wasFraction)) (fun o name v hname => ?_) initial
      rcases hname with rfl | rfl <;> rfl
    have hspacing : Texture.setParameter (.wood o b wasFraction) "spacing" (.number a)
        = .ok (.wood o a wasFraction) := by
      simp only [Texture.setParameter, asPositive_number ha hpos]
      rfl
    refine (restore_append hoctaves _).trans ?_
    refine (restore_cons hspacing _).trans ?_
    rfl
  | @cells initial metric => cases metric <;> rfl

end TextureGraph
