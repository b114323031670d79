import TextureGraph.Proofs.Number.Nearest

/-!
# Whole values

`exists_magnitude_of_isWhole`: a value that is tested to be whole is a whole number.  From `2^52` on all
values are; below, the value is compared with an integer that is converted, or that is subtracted from
it, and a difference of values is zero only when they are equal (`magnitude_eq_of_sub_eq_zero`).
-/

namespace TextureGraph.Binary64

open Float.Model UnpackedFloat

variable {u v : UnpackedFloat} {x y : Float} {m n : ℕ} {e f : ℤ}

/-! ### Magnitudes -/

/-- The size of a finite number. -/
def magnitude : UnpackedFloat → ℚ
  | .finite _ m e _ => m * 2 ^ e
  | _ => 0

/-- The size of a number is whole. -/
def HasWholeMagnitude (u : UnpackedFloat) : Prop :=
  ∃ n : ℕ, magnitude u = n

/-- Digits with zeros behind them spell a whole number. -/
theorem exists_mul_two_zpow (m : ℕ) (he : 0 ≤ e) : ∃ n : ℕ, (m : ℚ) * 2 ^ e = n := by
  obtain ⟨k, rfl⟩ := Int.eq_ofNat_of_zero_le he
  refine ⟨m * 2 ^ k, ?_⟩
  rw [zpow_natCast]
  push_cast
  rfl

theorem unpacked_neg (x : Float) : unpacked (-x) = (unpacked x).neg := by
  change unpacked (ofUnpacked (unpacked x).neg) = _
  cases hu : unpacked x with
  | notANumber => exact unpacked_ofUnpacked_notANumber
  | infinity s => exact unpacked_ofUnpacked_infinity (-s)
  | zero s => exact unpacked_ofUnpacked_zero (-s)
  | finite s m e hm =>
    change unpacked (ofUnpacked (.finite (-s) m e hm)) = .finite (-s) m e hm
    rw [unpacked_ofUnpacked_finite (canonical_unpacked hu), if_pos (exponent_le_of_unpacked hu)]

theorem magnitude_neg (x : Float) : magnitude (unpacked (-x)) = magnitude (unpacked x) := by
  rw [unpacked_neg]
  cases unpacked x <;> rfl

theorem unpacked_abs {s : Sign} {hm : 0 < m} (hu : unpacked x = .finite s m e hm) :
    unpacked x.abs = .finite .positive m e hm := by
  change unpacked (ofUnpacked (unpacked x).abs) = _
  rw [hu]
  change unpacked (ofUnpacked (.finite .positive m e hm)) = _
  rw [unpacked_ofUnpacked_finite (canonical_unpacked hu), if_pos (exponent_le_of_unpacked hu)]

/-! ### Equal values -/

/-- Values at the same distance from zero are equal. -/
theorem Canonical.eq_of_steps_eq (h : Canonical m e) (h' : Canonical n f)
    (heq : steps m e = steps n f) : m = n ∧ e = f := by
  have hcompare := h.compare_eq h'
  rw [heq, Int.compare_eq_eq.mpr rfl, Ordering.then_eq_eq, Int.compare_eq_eq, Nat.compare_eq_eq]
    at hcompare
  exact ⟨hcompare.2, hcompare.1⟩

theorem magnitude_eq_of_place_eq {s : Sign} {hm : 0 < m} (hu : IsCanonical (.finite s m e hm))
    (hv : IsCanonical v) (h : place (.finite s m e hm) = place v) : magnitude v = m * 2 ^ e := by
  have hpos := hu.1.steps_pos hm
  obtain ⟨hlow, hhigh⟩ := hu.place_lt
  have habs : |place (.finite s m e hm)| = steps m e := by
    cases s with
    | negative => exact (abs_neg _).trans (abs_of_pos hpos)
    | positive => exact abs_of_pos hpos
  cases v with
  | notANumber | zero =>
    rw [h, place, abs_zero] at habs
    omega
  | infinity t =>
    rw [h] at hlow hhigh
    cases t with
    | negative => exact absurd hlow (lt_irrefl _)
    | positive => exact absurd hhigh (lt_irrefl _)
  | finite t n f hn =>
    have hpos' := hv.1.steps_pos hn
    have habs' : |place (.finite t n f hn)| = steps n f := by
      cases t with
      | negative => exact (abs_neg _).trans (abs_of_pos hpos')
      | positive => exact abs_of_pos hpos'
    rw [h, habs'] at habs
    obtain ⟨rfl, rfl⟩ := hv.1.eq_of_steps_eq hu.1 habs
    rfl

theorem magnitude_eq_of_beq {s : Sign} {hm : 0 < m} (hx : unpacked x = .finite s m e hm)
    (h : (y == x) = true) : magnitude (unpacked y) = m * 2 ^ e := by
  have hcanonical := isCanonical_unpacked x
  have hy : y.isNaN = false := Bool.eq_false_iff.mpr fun hnan => by
    rw [beq_of_isNaN_left hnan] at h
    cases h
  rw [beq_iff, hx] at h
  rw [hx] at hcanonical
  rw [compare_eq_compare_place (isCanonical_unpacked y) hcanonical (unpacked_ne_notANumber hy) nofun,
    Option.some_inj, Int.compare_eq_eq] at h
  exact magnitude_eq_of_place_eq hcanonical (isCanonical_unpacked y) h.symm

/-! ### Differences of zero -/

/-- Nothing but zero is rounded to zero, down to the smallest exponent. -/
theorem roundedSteps_pos (hm : 0 < m) (he : -1074 ≤ e) : 0 < roundedSteps m e := by
  obtain ⟨-, hkept⟩ := round_eq .positive hm e
  have hsmallest := hkept.smallest
  have hdigits : lastExponent m e = -1074 → 0 < keptDigits m e := by
    intro hlast
    have hnone : (lastExponent m e - e).toNat = 0 := by omega
    have hkept' := rounded_mul_two_pow (m * 2 ^ (e - lastExponent m e).toNat) 0
    unfold keptDigits
    rw [hnone]
    rw [Nat.pow_zero, Nat.mul_one] at hkept'
    rw [hkept']
    exact Nat.mul_pos hm (Nat.two_pow_pos _)
  unfold roundedSteps infiniteSteps steps
  omega

/-- A number that is equal to zero is a zero. -/
theorem exists_zero_of_beq (h : (x == 0.0) = true) : ∃ s, unpacked x = .zero s := by
  have hzero : unpacked 0.0 = .zero .positive := rfl
  rw [beq_iff, hzero] at h
  cases hu : unpacked x with
  | notANumber =>
    rw [hu] at h
    cases h
  | infinity s | finite s =>
    rw [hu] at h
    cases s <;> cases h
  | zero s => exact ⟨s, rfl⟩

theorem apply_shiftLeft_cast (s : Sign) (m : ℕ) {e f : ℤ} (h : f ≤ e) :
    ((|s.apply (m <<< (e - f).toNat : ℕ)| : ℤ) : ℚ) * 2 ^ f = m * 2 ^ e := by
  have habs : |s.apply (m <<< (e - f).toNat : ℕ)| = (m * 2 ^ (e - f).toNat : ℕ) := by
    rw [Nat.shiftLeft_eq]
    cases s with
    | negative => exact (abs_neg _).trans (Nat.abs_cast _)
    | positive => exact Nat.abs_cast _
  rw [habs]
  push_cast
  rw [mul_assoc, ← two_zpow_add]
  congr 2
  omega

/-- A difference of values is zero only when they are equally far from zero. -/
theorem magnitude_eq_of_sub_eq_zero {s : Sign} {hm : 0 < m} (hx : unpacked x = .finite s m e hm)
    (h : (x - y == 0.0) = true) : magnitude (unpacked y) = m * 2 ^ e := by
  obtain ⟨t, ht⟩ := exists_zero_of_beq h
  have hcanonical := canonical_unpacked hx
  change unpacked (ofUnpacked (UnpackedFloat.sub .binary64 (unpacked x) (unpacked y))) = _ at ht
  rw [hx] at ht
  cases hy : unpacked y with
  | notANumber =>
    rw [hy] at ht
    exact absurd (unpacked_ofUnpacked_notANumber.symm.trans ht) nofun
  | infinity s' =>
    rw [hy] at ht
    exact absurd ((unpacked_ofUnpacked_infinity (-s')).symm.trans ht) nofun
  | zero s' =>
    rw [hy] at ht
    exact absurd ht (unpacked_ofUnpacked_finite_ne_zero hcanonical t)
  | finite s' n f hn =>
    rw [hy] at ht
    have hcanonical' := canonical_unpacked hy
    have hplace := place_normalize (s.apply ↑(m <<< (e - min e f).toNat)
      - s'.apply ↑(n <<< (f - min e f).toNat)) (min e f)
    change unpacked (ofUnpacked (UnpackedFloat.normalize .binary64 _ (min e f) .positive)) = _ at ht
    rw [ht] at hplace
    have hsmallest : -1074 ≤ min e f := le_min hcanonical.le hcanonical'.le
    have heq : s.apply ↑(m <<< (e - min e f).toNat) = s'.apply ↑(n <<< (f - min e f).toNat) := by
      by_contra hne
      have hpos := roundedSteps_pos (Int.natAbs_pos.mpr (sub_ne_zero.mpr hne)) hsmallest
      have hsign := mt Int.sign_eq_zero_iff_zero.mp (sub_ne_zero.mpr hne)
      exact mul_ne_zero hsign (Int.ne_of_gt hpos) hplace.symm
    rw [magnitude, ← apply_shiftLeft_cast s m (min_le_left e f), heq,
      apply_shiftLeft_cast s' n (min_le_right e f)]

/-! ### Integers that are converted -/

/-- Digits of a whole number are rounded to a whole number. -/
theorem hasWholeMagnitude_ofRounded (s : Sign) (h : Kept m e) (hwhole : ∃ n : ℕ, (m : ℚ) * 2 ^ e = n) :
    HasWholeMagnitude (unpacked (ofUnpacked (ofRounded s m e))) := by
  have hsmallest := h.smallest
  have hfinite : ∀ (k : ℕ) (f : ℤ) (hk : 0 < k), Canonical k f → (∃ n : ℕ, (k : ℚ) * 2 ^ f = n) →
      HasWholeMagnitude (unpacked (ofUnpacked (.finite s k f hk))) := by
    intro k f hk hc hwhole
    rw [unpacked_ofUnpacked_finite hc]
    split
    · exact hwhole
    · exact ⟨0, Nat.cast_zero.symm⟩
  unfold ofRounded
  split
  · rw [unpacked_ofUnpacked_zero]
    exact ⟨0, Nat.cast_zero.symm⟩
  split
  · rename_i hlt
    exact hfinite m e _ ⟨hlt, h.full, hsmallest⟩ hwhole
  · obtain rfl : m = 2 ^ 53 := by
      have hle := h.le
      omega
    refine hfinite _ _ _ ⟨by decide, .inl (Nat.le_refl _), by omega⟩ ?_
    obtain ⟨n, hn⟩ := hwhole
    refine ⟨n, hn ▸ ?_⟩
    rw [zpow_add₀ two_ne_zero, zpow_one]
    push_cast
    ring

/-- An integer is converted to a whole number. -/
theorem hasWholeMagnitude_toFloat (n : UInt64) : HasWholeMagnitude (unpacked n.toFloat) := by
  change HasWholeMagnitude (unpacked (ofUnpacked (UnpackedFloat.normalize .binary64 n.toNat 0 .positive)))
  rcases Nat.eq_zero_or_pos n.toNat with hzero | hpos
  · rw [hzero]
    exact ⟨0, Nat.cast_zero.symm⟩
  · obtain ⟨heq, hkept⟩ := round_eq .positive hpos 0
    unfold UnpackedFloat.normalize
    rw [Int.compare_eq_gt.mpr (Int.natCast_pos.mpr hpos)]
    dsimp only
    rw [Int.toNat_natCast, heq]
    refine hasWholeMagnitude_ofRounded _ hkept ?_
    unfold keptDigits
    generalize hlast : lastExponent n.toNat 0 = t
    rcases lt_or_ge t 0 with hneg | hnonneg
    · -- All digits are kept.
      have hkept' := rounded_mul_two_pow (n.toNat * 2 ^ (0 - t).toNat) 0
      have hnone : (t - 0).toNat = 0 := by omega
      rw [Nat.pow_zero, Nat.mul_one] at hkept'
      rw [hnone, hkept']
      refine ⟨n.toNat, ?_⟩
      have hcancel : ((0 - t).toNat : ℤ) + t = 0 := by omega
      push_cast
      rw [mul_assoc, ← two_zpow_add, hcancel, zpow_zero, mul_one]
    · exact exists_mul_two_zpow _ hnonneg

/-! ### The test for whole values -/

/-- A value from `2^52` on has no digits after the point. -/
theorem Canonical.nonneg_of_steps_le (h : Canonical m e) (hge : steps (2 ^ 52) 0 ≤ steps m e) :
    0 ≤ e := by
  have hlt := h.lt
  unfold steps at hge
  omega

/-- Rounding down gives a whole number, unless what is rounded is whole already. -/
theorem floor_cases {s : Sign} {hm : 0 < m} (hx : unpacked x = .finite s m e hm)
    (hpos : ¬ x < 0.0) :
    (∃ n : ℕ, (m : ℚ) * 2 ^ e = n) ∨ HasWholeMagnitude (unpacked (floor x)) := by
  have habs := unpacked_abs hx
  unfold floor
  split
  · dsimp only
    split
    · rename_i hequal
      obtain ⟨n, hn⟩ := hasWholeMagnitude_toFloat x.abs.toUInt64
      exact .inl ⟨n, (magnitude_eq_of_beq habs hequal).symm.trans hn⟩
    · exact .inr (hasWholeMagnitude_toFloat _)
  · rename_i hlarge
    have hwholeFrom : unpacked wholeFrom = .finite .positive (2 ^ 52) 0 (by decide) := rfl
    have hdefined : x.abs.isNaN = false := Bool.eq_false_iff.mpr fun h => by
      rw [isNaN_iff, habs] at h
      cases h
    rw [lt_iff_place_lt hdefined (by decide), habs, hwholeFrom, not_lt] at hlarge
    exact .inl (exists_mul_two_zpow m ((canonical_unpacked hx).nonneg_of_steps_le hlarge))

/-- A value that is tested to be whole is a whole number. -/
theorem exists_magnitude_of_isWhole {s : Sign} {hm : 0 < m} (hx : unpacked x = .finite s m e hm)
    (h : Arith.isWhole x = true) : ∃ n : ℕ, (m : ℚ) * 2 ^ e = n := by
  change (x - (if x < 0.0 then -floor (-x) else floor x) == 0.0) = true at h
  split at h
  · rename_i hneg
    rw [lt_zero_iff, hx] at hneg
    obtain rfl : s = .negative := hneg.hasSign
    have hneg' : unpacked (-x) = .finite .positive m e hm := by
      rw [unpacked_neg, hx]
      rfl
    have hpos : ¬ -x < 0.0 := by
      rw [lt_zero_iff, hneg']
      exact id
    rcases floor_cases hneg' hpos with hwhole | ⟨n, hn⟩
    · exact hwhole
    · have hequal := magnitude_eq_of_sub_eq_zero hx h
      rw [magnitude_neg] at hequal
      exact ⟨n, hequal.symm.trans hn⟩
  · rename_i hpos
    rcases floor_cases hx hpos with hwhole | ⟨n, hn⟩
    · exact hwhole
    · exact ⟨n, (magnitude_eq_of_sub_eq_zero hx h).symm.trans hn⟩

end TextureGraph.Binary64
