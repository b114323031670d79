import TextureGraph.Number.Decimal
import TextureGraph.Proofs.Number.Nearest

/-!
# Decimals are read as the nearest value

* `exists_unpacked_round`: a whole number of at most 53 digits, up to zeros at the end, is a value.  So
  the powers of ten up to the twenty-second are values (`powersOfTen_eq`).
* `ofScientific_eq`: digits and a power of ten that lie in the interval of a value are read as that
  value, on either of the two ways that they can be read.
* `Decimal.toFloat_eq`: the same for decimals of any size.
-/

namespace TextureGraph

namespace Binary64

open Float.Model UnpackedFloat

variable {x : ℚ} {m n k : ℕ} {e : ℤ}

/-! ### Whole numbers that are values -/

/-- A value lies in its own interval. -/
theorem roundsTo_self (m : ℕ) (e : ℤ) : RoundsTo (m * 2 ^ e) m e := by
  have hunit := two_zpow_pos e
  have hreach := quarter_le_reach m e
  have hlow : ((m : ℚ) - reach m e) * 2 ^ e < m * 2 ^ e :=
    mul_lt_mul_of_pos_right (by linarith) hunit
  have hhigh : (m : ℚ) * 2 ^ e < (m + 1 / 2) * 2 ^ e :=
    mul_lt_mul_of_pos_right (by linarith) hunit
  exact ⟨hlow.le, hhigh.le, fun _ => ⟨hlow, hhigh⟩⟩

/-- A whole number of at most 53 digits and zeros behind them, with exactly 53 digits. -/
theorem exists_canonical (hn : 0 < n) (hn' : n < 2 ^ 53) (k : ℕ) :
    ∃ m e, Canonical m e ∧ 2 ^ 52 ≤ m ∧ (m : ℚ) * 2 ^ e = (n * 2 ^ k : ℕ) ∧ e ≤ k := by
  have hlog : n.log2 < 53 := (Nat.log2_lt (Nat.ne_of_gt hn)).mpr hn'
  have hbelow : n < 2 ^ (n.log2 + 1) := Nat.lt_log2_self
  have habove : 2 ^ n.log2 ≤ n := Nat.log2_self_le (Nat.ne_of_gt hn)
  have hfull : 2 ^ 52 ≤ n * 2 ^ (52 - n.log2) := by
    calc 2 ^ 52 = 2 ^ n.log2 * 2 ^ (52 - n.log2) := by
          rw [← Nat.pow_add]
          congr 1
          omega
      _ ≤ _ := Nat.mul_le_mul_right _ habove
  have hlt : n * 2 ^ (52 - n.log2) < 2 ^ 53 := by
    calc n * 2 ^ (52 - n.log2) < 2 ^ (n.log2 + 1) * 2 ^ (52 - n.log2) :=
          Nat.mul_lt_mul_of_pos_right hbelow (Nat.two_pow_pos _)
      _ = 2 ^ 53 := by
          rw [← Nat.pow_add]
          congr 1
          omega
  refine ⟨n * 2 ^ (52 - n.log2), (k : ℤ) - (52 - n.log2 : ℕ), ⟨hlt, .inl hfull, by omega⟩, hfull,
    ?_, by omega⟩
  push_cast
  rw [mul_assoc, ← two_zpow_add]
  congr 1
  rw [← zpow_natCast]
  congr 1
  omega

/-- A number in the interval of a value is rounded to that value. -/
theorem round_eq_of_roundsTo (s : Sign) (hn : 0 < n) {f : ℤ} (hm : 0 < m) (hc : Canonical m e)
    (h : RoundsTo (n * 2 ^ f) m e) : UnpackedFloat.round .binary64 s n f = .finite s m e hm := by
  have hlast := lastExponent_mul_two_pow hn f
  unfold UnpackedFloat.round
  rw [targetExponent_eq]
  dsimp only [decreaseExponent]
  rw [Nat.shiftLeft_eq]
  generalize hk : (f - lastExponent n f).toNat = k at hlast ⊢
  have hdigits : StandsFor (.ofMantissaAndAccuracy (n * 2 ^ k) .exact) (n * 2 ^ k : ℕ) :=
    standsFor_exactly (n * 2 ^ k)
  refine roundWithAccuracy_eq_of_roundsTo s hm hc hdigits (by omega) ?_
  have hvalue : ((n * 2 ^ k : ℕ) : ℚ) * 2 ^ (f - k) = n * 2 ^ f := by
    push_cast
    rw [mul_assoc, ← two_zpow_add]
    congr 2
    omega
  rwa [hvalue]

/-- Rounding keeps whole numbers of at most 53 digits and zeros behind them. -/
theorem exists_unpacked_round (s : Sign) (hn : 0 < n) (hn' : n < 2 ^ 53) (hk : k ≤ 900) :
    ∃ m e hm, unpacked (ofUnpacked (.round .binary64 s (n * 2 ^ k) 0)) = .finite s m e hm ∧
      2 ^ 52 ≤ m ∧ (m : ℚ) * 2 ^ e = (n * 2 ^ k : ℕ) := by
  obtain ⟨m, e, hc, hfull, hvalue, he⟩ := exists_canonical hn hn' k
  have hm : 0 < m := Nat.lt_of_lt_of_le (by decide) hfull
  have hself := roundsTo_self m e
  have hround := round_eq_of_roundsTo s (Nat.mul_pos hn (Nat.two_pow_pos k)) (f := 0) hm hc
    (by rwa [zpow_zero, mul_one, ← hvalue])
  refine ⟨m, e, hm, ?_, hfull, hvalue⟩
  rw [hround, unpacked_ofUnpacked_finite hc, if_pos (by omega)]

theorem exists_unpacked_toFloat (hn : 0 < n) (hn' : n < 2 ^ 53) :
    ∃ m e hm, unpacked n.toUInt64.toFloat = .finite .positive m e hm ∧
      2 ^ 52 ≤ m ∧ (m : ℚ) * 2 ^ e = n := by
  obtain ⟨m, e, hm, hunpacked, hfull, hvalue⟩ :=
    exists_unpacked_round .positive hn hn' (k := 0) (by decide)
  refine ⟨m, e, hm, ?_, hfull, by simpa using hvalue⟩
  have hword : n.toUInt64.toNat = n :=
    UInt64.toNat_ofNat_of_lt' (Nat.lt_trans hn' (by decide))
  have hround : UnpackedFloat.normalize .binary64 n 0 .positive
      = .round .binary64 .positive n 0 := by
    unfold UnpackedFloat.normalize
    rw [Int.compare_eq_gt.mpr (Int.natCast_pos.mpr hn)]
    rfl
  change unpacked (ofUnpacked (UnpackedFloat.normalize .binary64 n.toUInt64.toNat 0 .positive)) = _
  rw [hword, hround, ← hunpacked, Nat.pow_zero, Nat.mul_one]

/-! ### Digits with a power of ten -/

/-- The powers of ten up to the twenty-second are values. -/
theorem powersOfTen_eq : ∀ j (hj : j < Float.exactlyRepresentablePowersOfTen.size),
    Float.exactlyRepresentablePowersOfTen[j]
      = ofUnpacked (.round .binary64 .positive (5 ^ j * 2 ^ j) 0) := by
  decide +kernel

theorem exists_unpacked_powerOfTen (h : k ≤ 22)
    (hk : k < Float.exactlyRepresentablePowersOfTen.size) :
    ∃ m e hm, unpacked Float.exactlyRepresentablePowersOfTen[k] = .finite .positive m e hm ∧
      2 ^ 52 ≤ m ∧ (m : ℚ) * 2 ^ e = 10 ^ k := by
  have hfive : 5 ^ k < 2 ^ 53 :=
    Nat.lt_of_le_of_lt (Nat.pow_le_pow_right (by decide) h) (by decide)
  obtain ⟨m, e, hm, hunpacked, hfull, hvalue⟩ :=
    exists_unpacked_round .positive (Nat.pow_pos (by decide)) hfive (k := k) (by omega)
  refine ⟨m, e, hm, ?_, hfull, ?_⟩
  · rw [← hunpacked]
    exact congrArg unpacked (powersOfTen_eq k hk)
  · rw [hvalue, ← Nat.mul_pow]
    norm_num

variable {i : ℤ}

theorem ten_zpow_of_nonneg (hi : 0 ≤ i) : (10 : ℚ) ^ i = 10 ^ i.natAbs := by
  rw [← zpow_natCast, Int.natAbs_of_nonneg hi]

theorem ten_zpow_of_nonpos (hi : i ≤ 0) : (10 : ℚ) ^ i = (10 ^ i.natAbs)⁻¹ := by
  rw [← zpow_natCast, Int.ofNat_natAbs_of_nonpos hi, zpow_neg, inv_inv]

theorem div_or_mul_eq (hm : 0 < m) (hc : Canonical m e) (hn : 0 < n) (hn' : n < 2 ^ 53)
    (hi : i.natAbs ≤ 22) (hi' : i.natAbs < Float.exactlyRepresentablePowersOfTen.size)
    (h : RoundsTo (n * 10 ^ i) m e) :
    (if i < 0 then n.toUInt64.toFloat / Float.exactlyRepresentablePowersOfTen[i.natAbs]
      else n.toUInt64.toFloat * Float.exactlyRepresentablePowersOfTen[i.natAbs])
      = ofUnpacked (.finite .positive m e hm) := by
  obtain ⟨m₁, e₁, h₁, hunpacked₁, hfull₁, hvalue₁⟩ := exists_unpacked_toFloat hn hn'
  obtain ⟨m₂, e₂, h₂, hunpacked₂, hfull₂, hvalue₂⟩ := exists_unpacked_powerOfTen hi hi'
  split
  · rename_i hneg
    rw [ten_zpow_of_nonpos hneg.le, ← div_eq_mul_inv, ← hvalue₁, ← hvalue₂] at h
    change ofUnpacked (.div .binary64 (unpacked _) (unpacked _)) = _
    rw [hunpacked₁, hunpacked₂, div_eq_of_roundsTo hm hc h]
    rfl
  · rename_i hpos
    rw [ten_zpow_of_nonneg (not_lt.mp hpos), ← hvalue₁, ← hvalue₂] at h
    change ofUnpacked (.mul .binary64 (unpacked _) (unpacked _)) = _
    rw [hunpacked₁, hunpacked₂,
      mul_eq_of_roundsTo (Nat.le_trans hfull₁ (Nat.le_mul_of_pos_right _ h₂)) hm hc h]
    rfl

theorem unpacked_ofScientific_eq (hm : 0 < m) (hc : Canonical m e) (hn : 0 < n)
    (hlow : -(2048 + n.log2) ≤ i) (hhigh : i ≤ 2048) (h : RoundsTo (n * 10 ^ i) m e) :
    UnpackedFloat.ofScientific .binary64 n i = .finite .positive m e hm := by
  have hbits : (2 ^ Format.exponentBits .binary64 : ℤ) = 2048 := rfl
  have hmantissa : Format.mantissaBits .binary64 = 53 := rfl
  unfold UnpackedFloat.ofScientific
  rw [dif_neg (Nat.ne_of_gt hn), hbits, if_neg (by omega), if_neg (by omega)]
  split
  · rename_i hpos
    have hi : i.toNat = i.natAbs := by omega
    simp only [hmantissa, Nat.shiftLeft_eq, hi]
    refine mul_eq_of_roundsTo ?_ hm hc ?_
    · calc 2 ^ 52 ≤ 1 * 2 ^ 53 * 1 := by decide
        _ ≤ _ := Nat.mul_le_mul (Nat.mul_le_mul_right _ hn) (Nat.pow_pos (by decide))
    · have hvalue : ((n * 2 ^ 53 : ℕ) : ℚ) * 2 ^ (-((53 : ℕ) : ℤ))
          * ((10 ^ i.natAbs : ℕ) * 2 ^ (0 : ℤ)) = n * 10 ^ i := by
        rw [ten_zpow_of_nonneg (by omega), zpow_neg, zpow_natCast, zpow_zero, Nat.cast_mul,
          Nat.cast_pow 2, Nat.cast_ofNat, mul_inv_cancel_right₀ (by positivity), mul_one,
          Nat.cast_pow, Nat.cast_ofNat]
      rwa [hvalue]
  · rename_i hneg
    have hi : (-i).toNat = i.natAbs := by omega
    simp only [hi]
    refine div_eq_of_roundsTo hm hc ?_
    have hvalue : (n : ℚ) * 2 ^ (0 : ℤ) / ((10 ^ i.natAbs : ℕ) * 2 ^ (0 : ℤ)) = n * 10 ^ i := by
      rw [ten_zpow_of_nonpos (by omega)]
      push_cast
      rw [mul_one, mul_one, div_eq_mul_inv]
    rwa [hvalue]

/-- Digits and a power of ten in the interval of a value are read as that value. -/
theorem ofScientific_eq (hm : 0 < m) (hc : Canonical m e) (hn : 0 < n)
    (hlow : -(2048 + n.log2) ≤ i) (hhigh : i ≤ 2048) (h : RoundsTo (n * 10 ^ i) m e) :
    Float.ofScientific n (decide (i < 0)) i.natAbs = ofUnpacked (.finite .positive m e hm) := by
  unfold Float.ofScientific
  split
  · rename_i hfast
    have hsize : Float.exactlyRepresentablePowersOfTen.size = 23 := rfl
    simp only [decide_eq_true_eq]
    exact div_or_mul_eq hm hc hn hfast.1 hfast.2 (by omega) h
  · have hexponent : (if decide (i < 0) then Int.negOfNat i.natAbs else Int.ofNat i.natAbs) = i := by
      split
      · rename_i hneg
        rw [decide_eq_true_eq] at hneg
        rw [Int.negOfNat_eq, Int.ofNat_eq_natCast]
        omega
      · rename_i hpos
        rw [decide_eq_true_eq] at hpos
        rw [Int.ofNat_eq_natCast]
        omega
    rw [hexponent]
    exact congrArg ofUnpacked (unpacked_ofScientific_eq hm hc hn hlow hhigh h)

end Binary64

namespace Decimal

open Binary64

variable {d : Decimal} {m : ℕ} {e : ℤ}

/-! ### Decimals -/

/-- The number that a decimal spells. -/
def value (d : Decimal) : ℚ :=
  d.digits * 10 ^ d.exponent

theorem ten_zpow_pos (e : ℤ) : (0 : ℚ) < 10 ^ e :=
  zpow_pos (by norm_num) e

theorem ten_zpow_add (n : ℕ) (e : ℤ) : (10 : ℚ) ^ (n + e) = 10 ^ n * 10 ^ e := by
  rw [zpow_add₀ (by norm_num), zpow_natCast]

theorem lt_of_ten_zpow_lt {e f : ℤ} (h : (10 : ℚ) ^ e < 10 ^ f) : e < f :=
  (zpow_lt_zpow_iff_right₀ (by norm_num)).mp h

/-- The power of ten of the leading digit of a whole number. -/
theorem exists_length_toDigits {n : ℕ} (hn : 0 < n) :
    ∃ k, (Nat.toDigits 10 n).length = k + 1 ∧ 10 ^ k ≤ n ∧ n < 10 ^ (k + 1) := by
  obtain ⟨k, hk⟩ := Nat.exists_eq_add_one_of_ne_zero
    (Nat.ne_of_gt (Nat.length_toDigits_pos (b := 10) (n := n)))
  refine ⟨k, hk, ?_, ?_⟩
  · rcases Nat.eq_zero_or_pos k with rfl | hpos
    · exact hn
    · rw [← Nat.not_lt, ← Nat.length_toDigits_le_iff (by decide) hpos, hk]
      omega
  · exact (Nat.length_toDigits_le_iff (by decide) (Nat.succ_pos k)).mp (Nat.le_of_eq hk)

/-- The intervals of finite values lie within the range of the format. -/
theorem range_of_roundsTo {x : ℚ} (hm : 0 < m) (hc : Canonical m e) (he : e ≤ 971)
    (h : RoundsTo x m e) : (10 : ℚ) ^ (-325 : ℤ) < x ∧ x < 10 ^ (309 : ℤ) := by
  have hunit := two_zpow_pos e
  have hpos : (1 : ℚ) ≤ m := by exact_mod_cast hm
  have hlt : (m : ℚ) + 1 ≤ 2 ^ 53 := by exact_mod_cast hc.lt
  have hreach := reach_le m e
  have hsmallest : 2 * 2 ^ 1074 < 10 ^ 325 := by decide +kernel
  have hlargest : 2 ^ 53 * 2 ^ 971 < 10 ^ 309 := by decide +kernel
  constructor
  · refine lt_of_lt_of_le ?_ h.lower
    calc (10 : ℚ) ^ (-325 : ℤ) = (10 ^ 325)⁻¹ := by rw [zpow_neg, zpow_ofNat]
      _ < (2 * 2 ^ 1074)⁻¹ := by
          rw [inv_lt_inv₀ (by positivity) (by positivity)]
          exact_mod_cast hsmallest
      _ = 1 / 2 * 2 ^ (-1074 : ℤ) := by rw [mul_inv, zpow_neg, zpow_ofNat, one_div]
      _ ≤ 1 / 2 * 2 ^ e := mul_le_mul_of_nonneg_left (two_zpow_le hc.le) (by norm_num)
      _ ≤ _ := mul_le_mul_of_nonneg_right (by linarith) hunit.le
  · refine lt_of_le_of_lt h.upper ?_
    calc ((m : ℚ) + 1 / 2) * 2 ^ e ≤ 2 ^ 53 * 2 ^ e :=
          mul_le_mul_of_nonneg_right (by linarith) hunit.le
      _ ≤ 2 ^ 53 * 2 ^ (971 : ℤ) := mul_le_mul_of_nonneg_left (two_zpow_le he) (by norm_num)
      _ < _ := by
          rw [zpow_ofNat, zpow_ofNat]
          exact_mod_cast hlargest

/-- A decimal in the interval of a value is read as that value. -/
theorem toFloat_eq (hm : 0 < m) (hc : Canonical m e) (he : e ≤ 971) (h : RoundsTo d.value m e) :
    d.toFloat = ofUnpacked (.finite .positive m e hm) := by
  obtain ⟨hlow, hhigh⟩ := range_of_roundsTo hm hc he h
  have hunit := ten_zpow_pos d.exponent
  have hdigits : 0 < d.digits := by
    refine Nat.pos_of_ne_zero fun hzero => ?_
    have hvalue : d.value = 0 := by rw [value, hzero, Nat.cast_zero, zero_mul]
    rw [hvalue] at hlow
    exact absurd hlow (not_lt.mpr (ten_zpow_pos _).le)
  obtain ⟨k, hlength, hleading, hbound⟩ := exists_length_toDigits hdigits
  have hupper : (k : ℤ) + d.exponent < 309 := by
    refine lt_of_ten_zpow_lt (lt_of_le_of_lt ?_ hhigh)
    rw [ten_zpow_add]
    exact mul_le_mul_of_nonneg_right (by exact_mod_cast hleading) hunit.le
  have hlower : -325 < ((k + 1 : ℕ) : ℤ) + d.exponent := by
    refine lt_of_ten_zpow_lt (hlow.trans ?_)
    rw [ten_zpow_add]
    exact mul_lt_mul_of_pos_right (by exact_mod_cast hbound) hunit
  have hlog : k ≤ d.digits.log2 :=
    (Nat.le_log2 (Nat.ne_of_gt hdigits)).mpr
      (Nat.le_trans (Nat.pow_le_pow_left (by decide) k) hleading)
  have heq : d.toFloat =
      if d.digits = 0 ∨ ((Nat.toDigits 10 d.digits).length : ℤ) - 1 + d.exponent < -350 then 0.0
      else if 350 < ((Nat.toDigits 10 d.digits).length : ℤ) - 1 + d.exponent then 1.0 / 0.0
      else OfScientific.ofScientific d.digits (decide (d.exponent < 0)) d.exponent.natAbs := rfl
  rw [heq, hlength, if_neg (by omega), if_neg (by omega)]
  exact ofScientific_eq hm hc hdigits (by omega) (by omega) h

end Decimal

end TextureGraph
