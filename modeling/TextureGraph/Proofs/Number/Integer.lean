import TextureGraph.Proofs.Number.Rounding

/-!
# Whole numbers as values

`isFinite_ofInt`: a whole number of 64 bits is converted to a finite value.  Small numbers are converted
on their own and multiplied by one, which changes nothing; larger ones are rounded, at an exponent that
is far from the largest one.
-/

namespace TextureGraph.Binary64

open Float.Model UnpackedFloat

variable {x : Float} {m n : Nat} {e : Int}

/-- Digits are rounded to a finite value below the largest exponents. -/
theorem Kept.isFinite_ofRounded (s : Sign) (h : Kept m e) (he : e ≤ 970) :
    (ofUnpacked (ofRounded s m e)).isFinite = true := by
  have hsmallest := h.smallest
  change (unpacked (ofUnpacked (ofRounded s m e))).isFinite = true
  unfold ofRounded
  split
  · rw [unpacked_ofUnpacked_zero]
    rfl
  split
  · rename_i hlt
    rw [unpacked_ofUnpacked_finite ⟨hlt, h.full, hsmallest⟩, if_pos (by omega)]
    rfl
  · rw [unpacked_ofUnpacked_finite ⟨by decide, .inl (Nat.le_refl _), by omega⟩,
      if_pos (by omega)]
    rfl

theorem isFinite_roundWithAccuracy (s : Sign) (hm : 0 < m) (hlow : e ≤ lastExponent m e)
    (hhigh : lastExponent m e ≤ 970) :
    (ofUnpacked (roundWithAccuracy .binary64 s m e .exact)).isFinite = true := by
  rw [roundWithAccuracy_eq s hm hlow]
  exact (kept_rounded hm hlow).isFinite_ofRounded s hhigh

theorem isFinite_normalize (hhigh : lastExponent n e ≤ 970) :
    (ofUnpacked (UnpackedFloat.normalize .binary64 n e .positive)).isFinite = true := by
  rcases Nat.eq_zero_or_pos n with rfl | hn
  · unfold UnpackedFloat.normalize
    rw [Int.natCast_zero, Int.compare_eq_eq.mpr rfl]
    change (unpacked (ofUnpacked (.zero .positive))).isFinite = true
    rfl
  · obtain ⟨heq, hkept⟩ := round_eq .positive hn e
    unfold UnpackedFloat.normalize
    rw [Int.compare_eq_gt.mpr (Int.natCast_pos.mpr hn)]
    dsimp only
    rw [Int.toNat_natCast, heq]
    exact hkept.isFinite_ofRounded _ hhigh

/-- A finite value times one is finite. -/
theorem isFinite_mul_one (h : x.isFinite = true) : (x * 1.0).isFinite = true := by
  have hone : unpacked 1.0 = .finite .positive (2 ^ 52) (-52) (by decide) := rfl
  have hmul : x * 1.0 = ofUnpacked (.mul .binary64 (unpacked x) (unpacked 1.0)) := rfl
  have hfinite : (unpacked x).isFinite = true := h
  rw [hmul, hone]
  cases hu : unpacked x with
  | notANumber | infinity =>
    rw [hu] at hfinite
    cases hfinite
  | zero s => cases s <;> rfl
  | finite s m e hm =>
    have hcanonical := canonical_unpacked hu
    have hlast : lastExponent (m * 2 ^ 52) (e - 52) = e := hcanonical.lastExponent_eq hm 52
    have hpos : 0 < m * 2 ^ 52 := Nat.mul_pos hm (by decide)
    have hdigits : (e - (e - 52)).toNat = 52 := by omega
    have hround := roundWithAccuracy_eq (s * .positive) hpos (e := e - 52) (by omega)
    rw [hlast, hdigits, rounded_mul_two_pow, ofRounded, dif_neg (Nat.ne_of_gt hm),
      if_pos hcanonical.lt] at hround
    change (unpacked (ofUnpacked (roundWithAccuracy .binary64 (s * .positive) (m * 2 ^ 52) (e - 52)
      .exact))).isFinite = true
    rw [hround, unpacked_ofUnpacked_finite hcanonical, if_pos (exponent_le_of_unpacked hu)]
    rfl

theorem isFinite_ofNat (hn : n < 2 ^ 64) : (Float.ofNat n).isFinite = true := by
  have hlog : n.log2 < 64 := by
    rcases Nat.eq_zero_or_pos n with rfl | hpos
    · decide
    · exact (Nat.log2_lt (Nat.ne_of_gt hpos)).mpr hn
  change (Float.ofScientific n false 0).isFinite = true
  unfold Float.ofScientific
  by_cases hsmall : n < 2 ^ 53
  · have hword : n.toUInt64.toNat = n := UInt64.toNat_ofNat_of_lt' hn
    rw [dif_pos ⟨hsmall, by decide⟩]
    refine isFinite_mul_one (x := n.toUInt64.toFloat) ?_
    change (ofUnpacked (UnpackedFloat.normalize .binary64 n.toUInt64.toNat 0 .positive)).isFinite = true
    rw [hword]
    refine isFinite_normalize ?_
    unfold lastExponent
    omega
  · have hpos : 0 < n := by omega
    rw [dif_neg fun h => hsmall h.1]
    change (ofUnpacked (.ofScientific .binary64 n 0)).isFinite = true
    have hdigits : UnpackedFloat.ofScientific .binary64 n 0
        = roundWithAccuracy .binary64 (.positive * .positive) (n * 2 ^ 53) (-53) .exact := by
      have hbits : (2 ^ Format.exponentBits .binary64 : Int) = 2048 := rfl
      have hmantissa : Format.mantissaBits .binary64 = 53 := rfl
      unfold UnpackedFloat.ofScientific
      rw [dif_neg (Nat.ne_of_gt hpos), hbits, if_neg (by decide), if_neg (by omega),
        if_pos (by decide)]
      simp only [UnpackedFloat.mul, hmantissa, Int.toNat_zero, Nat.pow_zero, Nat.mul_one,
        Int.add_zero, Nat.shiftLeft_eq]
      rfl
    rw [hdigits]
    refine isFinite_roundWithAccuracy _ (Nat.mul_pos hpos (by decide)) ?_ ?_
    all_goals
      unfold lastExponent
      rw [log2_mul_two_pow hpos]
      omega

theorem isFinite_neg (h : x.isFinite = true) : (-x).isFinite = true := by
  have hfinite : (unpacked x).isFinite = true := h
  change (unpacked (ofUnpacked (.neg (unpacked x)))).isFinite = true
  cases hu : unpacked x with
  | notANumber | infinity =>
    rw [hu] at hfinite
    cases hfinite
  | zero s => cases s <;> rfl
  | finite s m e hm =>
    change (unpacked (ofUnpacked (.finite (-s) m e hm))).isFinite = true
    rw [unpacked_ofUnpacked_finite (canonical_unpacked hu), if_pos (exponent_le_of_unpacked hu)]
    rfl

/-- Whole numbers of 64 bits are converted to finite values. -/
theorem isFinite_ofInt {n : Int} (hlow : -2 ^ 63 ≤ n) (hhigh : n < 2 ^ 63) :
    (Float.ofInt n).isFinite = true := by
  cases n with
  | ofNat n =>
    rw [Int.ofNat_eq_natCast] at hhigh
    exact isFinite_ofNat (by omega)
  | negSucc n => exact isFinite_neg (isFinite_ofNat (by omega))

end TextureGraph.Binary64
