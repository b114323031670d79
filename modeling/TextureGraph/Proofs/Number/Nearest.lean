import Mathlib.Algebra.Order.Field.Power
import Mathlib.Algebra.Order.Field.Rat
import Mathlib.Tactic.FieldSimp
import Mathlib.Tactic.Linarith
import Mathlib.Tactic.Positivity
import Mathlib.Tactic.Ring
import TextureGraph.Proofs.Number.Rounding

/-!
# The numbers that are rounded to a value

Products and quotients are rounded to the nearest value, and to the even one of two.  So every value
has an interval of numbers that are rounded to it: `RoundsTo x m e` says that `x` lies in the interval
of `m * 2^e`.

* `StandsFor a x`: digits with a round bit and a sticky bit tell everything about `x` that rounding
  asks for.  Quotients have such digits (`standsFor_quotient`), and shifting them keeps it so
  (`StandsFor.shiftRight`).
* `roundWithAccuracy_eq_of_roundsTo`: digits that stand for a number in the interval of a value are
  rounded to that value.
* `mul_eq_of_roundsTo`, `div_eq_of_roundsTo`: the same for products and quotients.
-/

namespace TextureGraph.Binary64

open Float.Model UnpackedFloat

variable {a : ExtendedMantissa} {x y : ℚ} {m n d : ℕ} {e t : ℤ}

/-! ### Digits that stand for a number -/

/-- The digits `a` stand for `x`: they compare with whole numbers of half units as `x` does. -/
def StandsFor (a : ExtendedMantissa) (x : ℚ) : Prop :=
  ∀ k : ℕ, (2 * k ≤ digits a ↔ (k : ℚ) ≤ 2 * x) ∧ (digits a ≤ 2 * k ↔ 2 * x ≤ k)

theorem standsFor_exactly (m : ℕ) : StandsFor (exactly m) m := by
  intro k
  have hdigits : digits (exactly m) = 4 * m := rfl
  have hlow : (k : ℚ) ≤ 2 * m ↔ k ≤ 2 * m := by norm_cast
  have hhigh : 2 * (m : ℚ) ≤ k ↔ 2 * m ≤ k := by norm_cast
  rw [hlow, hhigh, hdigits]
  omega

/-- A digit that is shifted out is remembered by the bits behind it. -/
theorem StandsFor.shiftRightOne (h : StandsFor a x) : StandsFor a.shiftRightOne (x / 2) := by
  intro k
  have hdouble : 2 * (x / 2) = x := by ring
  obtain ⟨hlow, hhigh⟩ := h (2 * k)
  push_cast at hlow hhigh
  rw [mul_le_mul_iff_right₀ two_pos] at hlow hhigh
  rw [hdouble, ← hlow, ← hhigh, digits_shiftRightOne]
  unfold digits
  obtain ⟨q, r, s⟩ := a
  cases r <;> cases s <;> simp <;> omega

theorem StandsFor.shiftRight (h : StandsFor a x) (k : ℕ) : StandsFor (a >>> k) (x / 2 ^ k) := by
  induction k with
  | zero =>
    rw [pow_zero, div_one]
    exact h
  | succ k ih =>
    rw [pow_succ, ← div_div]
    exact ih.shiftRightOne

/-- The two bits after the point of a quotient, the second one set if anything follows. -/
theorem digits_quotient (n : ℕ) (hd : 0 < d) :
    digits (.ofMantissaAndAccuracy (n / d) (accuracyOfFraction (n % d) d))
      = 2 * (2 * n / d) + if 2 * n % d = 0 then 0 else 1 := by
  have hrest := Nat.mod_lt n hd
  have hsplit := Nat.mod_add_div n d
  have hdouble : ∀ q r, r + d * q = 2 * n → r < d → 2 * n / d = q ∧ 2 * n % d = r :=
    fun q r hsum hlt => (Nat.div_mod_unique hd).mpr ⟨hsum, hlt⟩
  have heven : d * (2 * (n / d)) = 2 * (d * (n / d)) := by ring
  have hodd : d * (2 * (n / d) + 1) = 2 * (d * (n / d)) + d := by ring
  unfold accuracyOfFraction
  by_cases hexact : n % d = 0
  · obtain ⟨hq, hr⟩ := hdouble (2 * (n / d)) 0 (by omega) hd
    rw [if_pos hexact, hq, hr]
    change 4 * (n / d) + 0 + 0 = _
    simp
    omega
  · rw [if_neg hexact]
    rcases Nat.lt_trichotomy (2 * (n % d)) d with hhalf | hhalf | hhalf
    · obtain ⟨hq, hr⟩ := hdouble (2 * (n / d)) (2 * (n % d)) (by omega) hhalf
      rw [Nat.compare_eq_lt.mpr hhalf, hq, hr, if_neg (by omega)]
      change 4 * (n / d) + 0 + 1 = _
      omega
    · obtain ⟨hq, hr⟩ := hdouble (2 * (n / d) + 1) 0 (by omega) hd
      rw [Nat.compare_eq_eq.mpr hhalf, hq, hr]
      change 4 * (n / d) + 2 + 0 = _
      simp
      omega
    · obtain ⟨hq, hr⟩ := hdouble (2 * (n / d) + 1) (2 * (n % d) - d) (by omega) (by omega)
      rw [Nat.compare_eq_gt.mpr hhalf, hq, hr, if_neg (by omega)]
      change 4 * (n / d) + 2 + 1 = _
      omega

theorem standsFor_quotient (n : ℕ) (hd : 0 < d) :
    StandsFor (.ofMantissaAndAccuracy (n / d) (accuracyOfFraction (n % d) d)) (n / d) := by
  intro k
  have hpos : (0 : ℚ) < d := Nat.cast_pos.mpr hd
  have hsplit := Nat.mod_add_div (2 * n) d
  have hlow : (k : ℚ) ≤ 2 * (n / d) ↔ k ≤ 2 * n / d := by
    rw [← mul_div_assoc, le_div_iff₀ hpos, Nat.le_div_iff_mul_le hd]
    norm_cast
  have hhigh : 2 * ((n : ℚ) / d) ≤ k ↔ 2 * n ≤ k * d := by
    rw [← mul_div_assoc, div_le_iff₀ hpos]
    norm_cast
  rw [hlow, hhigh, digits_quotient n hd]
  constructor
  · split <;> omega
  · rw [Nat.le_iff_lt_or_eq (m := k * d), ← Nat.div_lt_iff_lt_mul hd]
    have heq : 2 * n = k * d ↔ 2 * n / d = k ∧ 2 * n % d = 0 := by
      rw [Nat.div_mod_unique hd, Nat.zero_add, mul_comm d k]
      exact ⟨fun h => ⟨h.symm, hd⟩, fun h => h.1.symm⟩
    rw [heq]
    split <;> omega

/-! ### Whole numbers nearest to a number -/

/-- `m` is the whole number nearest to `x`, the even one of two. -/
structure IsNearest (x : ℚ) (m : ℕ) : Prop where
  /-- At most half a unit above. -/
  lower : (m : ℚ) - 1 / 2 ≤ x
  /-- At most half a unit below. -/
  upper : x ≤ m + 1 / 2
  /-- An odd number is not one of two. -/
  strict : m % 2 = 1 → (m : ℚ) - 1 / 2 < x ∧ x < m + 1 / 2

/-- Digits are rounded to the whole number nearest to what they stand for. -/
theorem StandsFor.roundedMantissa_eq (h : StandsFor a x) (hm : 0 < m) (hx : IsNearest x m) :
    a.roundedMantissa = m := by
  obtain ⟨hlow, hlow'⟩ := h (2 * m - 1)
  obtain ⟨hhigh', hhigh⟩ := h (2 * m + 1)
  have hbelow : ((2 * m - 1 : ℕ) : ℚ) = 2 * m - 1 := by
    rw [Nat.cast_sub (by omega)]
    push_cast
    ring
  have habove : ((2 * m + 1 : ℕ) : ℚ) = 2 * m + 1 := by push_cast; ring
  rw [hbelow] at hlow hlow'
  rw [habove] at hhigh hhigh'
  have hge := hlow.mpr (by linarith [hx.lower])
  have hle := hhigh.mpr (by linarith [hx.upper])
  have hne : m % 2 = 1 → ¬ digits a ≤ 2 * (2 * m - 1) ∧ ¬ 2 * (2 * m + 1) ≤ digits a := by
    intro hodd
    obtain ⟨hgt, hlt⟩ := hx.strict hodd
    exact ⟨fun hle' => absurd (hlow'.mp hle') (by linarith),
      fun hge' => absurd (hhigh'.mp hge') (by linarith)⟩
  clear hlow hlow' hhigh hhigh'
  unfold digits at hge hle hne
  obtain ⟨q, r, s⟩ := a
  cases r <;> cases s <;>
    simp [ExtendedMantissa.roundedMantissa, ExtendedMantissa.accuracy,
      Accuracy.roundToNearestEven] at hge hle hne ⊢ <;> omega

/-! ### Intervals of numbers that are rounded to a value -/

/-- How far the interval of `m * 2^e` goes down, in units of `2^e`.  Below a power of two the spacing
halves, except below the smallest one. -/
def reach (m : ℕ) (e : ℤ) : ℚ :=
  if m = 2 ^ 52 ∧ -1074 < e then 1 / 4 else 1 / 2

theorem reach_le (m : ℕ) (e : ℤ) : reach m e ≤ 1 / 2 := by
  unfold reach
  split <;> norm_num

theorem quarter_le_reach (m : ℕ) (e : ℤ) : 1 / 4 ≤ reach m e := by
  unfold reach
  split <;> norm_num

/-- `x` lies in the interval of `m * 2^e`, whose ends belong to it when the mantissa is even. -/
structure RoundsTo (x : ℚ) (m : ℕ) (e : ℤ) : Prop where
  /-- The lower end. -/
  lower : (m - reach m e) * 2 ^ e ≤ x
  /-- The upper end. -/
  upper : x ≤ (m + 1 / 2) * 2 ^ e
  /-- The ends of an odd mantissa do not belong to it. -/
  strict : m % 2 = 1 → (m - reach m e) * 2 ^ e < x ∧ x < (m + 1 / 2) * 2 ^ e

/-- `2^t` is the unit of the last digit that is kept of `x`. -/
structure IsLastUnit (x : ℚ) (t : ℤ) : Prop where
  /-- There are at most 53 digits. -/
  lt : x < 2 ^ 53 * 2 ^ t
  /-- There are fewer only with the smallest unit. -/
  full : t = -1074 ∨ 2 ^ 52 * 2 ^ t ≤ x
  /-- The smallest unit. -/
  smallest : -1074 ≤ t

theorem two_zpow_pos (e : ℤ) : (0 : ℚ) < 2 ^ e :=
  zpow_pos two_pos e

theorem two_zpow_add (m : ℕ) (e : ℤ) : (2 : ℚ) ^ (m + e) = 2 ^ m * 2 ^ e := by
  rw [zpow_add₀ two_ne_zero, zpow_natCast]

theorem two_zpow_le {e f : ℤ} (h : e ≤ f) : (2 : ℚ) ^ e ≤ 2 ^ f :=
  zpow_le_zpow_right₀ one_le_two h

theorem two_pow_mul_le {j k : ℕ} {e f : ℤ} (h : j + e ≤ k + f) :
    (2 : ℚ) ^ j * 2 ^ e ≤ 2 ^ k * 2 ^ f := by
  rw [← two_zpow_add, ← two_zpow_add]
  exact two_zpow_le h

/-- The digits of a number fix the unit of the last one that is kept. -/
theorem StandsFor.isLastUnit (h : StandsFor a x) (he : e ≤ lastExponent a.mantissa e) :
    IsLastUnit (x * 2 ^ e) (lastExponent a.mantissa e) := by
  have hunit := two_zpow_pos e
  have hbits : digits a ≤ 4 * a.mantissa + 3 := by
    unfold digits
    have hround := Bool.toNat_le a.roundBit
    have hsticky := Bool.toNat_le a.stickyBit
    omega
  have hlow : (a.mantissa : ℚ) ≤ x := by
    have htwice := (h (2 * a.mantissa)).1.mp (by unfold digits; omega)
    push_cast at htwice
    linarith
  have hhigh : x < a.mantissa + 1 := by
    by_contra hge
    rw [not_lt] at hge
    have htwice := (h (2 * a.mantissa + 2)).1.mpr (by push_cast; linarith)
    omega
  generalize a.mantissa = q at he hlow hhigh ⊢
  refine ⟨?_, ?_, Int.le_max_right ..⟩
  · have hdigits : (q : ℚ) + 1 ≤ 2 ^ (q.log2 + 1) := by
      exact_mod_cast Nat.lt_log2_self (n := q)
    calc x * 2 ^ e < 2 ^ (q.log2 + 1) * 2 ^ e :=
          mul_lt_mul_of_pos_right (lt_of_lt_of_le hhigh hdigits) hunit
      _ ≤ 2 ^ 53 * 2 ^ lastExponent q e := by
          refine two_pow_mul_le ?_
          unfold lastExponent
          push_cast
          omega
  · by_cases hsmallest : lastExponent q e = -1074
    · exact .inl hsmallest
    · have hq : q ≠ 0 := by
        rintro rfl
        have hlog : Nat.log2 0 = 0 := by decide
        unfold lastExponent at he hsmallest
        rw [hlog] at he hsmallest
        omega
      have hdigits : (2 : ℚ) ^ q.log2 ≤ q := by exact_mod_cast Nat.log2_self_le hq
      refine .inr ?_
      calc (2 : ℚ) ^ 52 * 2 ^ lastExponent q e ≤ 2 ^ q.log2 * 2 ^ e := by
            refine two_pow_mul_le ?_
            unfold lastExponent at hsmallest ⊢
            push_cast
            omega
        _ ≤ x * 2 ^ e := mul_le_mul_of_nonneg_right (hdigits.trans hlow) hunit.le

/-- Of a number in the interval of `m * 2^e`, the digits down to `2^e` are kept. -/
theorem RoundsTo.unit_le (h : RoundsTo x m e) (hc : Canonical m e) (ht : IsLastUnit x t) :
    t ≤ e := by
  by_contra hgt
  have hsmallest := hc.le
  have hfull := ht.full.resolve_left (by omega)
  have hmantissa : (m : ℚ) + 1 ≤ 2 ^ 53 := by exact_mod_cast hc.lt
  have hless : x < 2 ^ 53 * 2 ^ e :=
    h.upper.trans_lt (mul_lt_mul_of_pos_right (by linarith) (two_zpow_pos e))
  have hfar : (2 : ℚ) ^ 53 * 2 ^ e ≤ 2 ^ 52 * 2 ^ t := two_pow_mul_le (by push_cast; omega)
  linarith

/-- More digits are kept only below a power of two, and then one more. -/
theorem RoundsTo.of_unit_lt (h : RoundsTo x m e) (hc : Canonical m e) (ht : IsLastUnit x t)
    (hlt : t < e) : m = 2 ^ 52 ∧ t = e - 1 ∧ -1074 < e ∧ x < 2 ^ 52 * 2 ^ e := by
  have hunit := two_zpow_pos e
  have hreach := reach_le m e
  have hsmallest := ht.smallest
  have hfull : 2 ^ 52 ≤ m := hc.full.resolve_right (by omega)
  have hbelow : ∀ k : ℕ, 53 + t ≤ k + e → x < 2 ^ k * 2 ^ e := fun k hk =>
    ht.lt.trans_le (two_pow_mul_le hk)
  have hmantissa : ∀ k : ℕ, 53 + t ≤ k + e → (m : ℚ) < 2 ^ k + 1 / 2 := by
    intro k hk
    have hless := lt_of_mul_lt_mul_right (h.lower.trans_lt (hbelow k hk)) hunit.le
    linarith
  have hpower : m = 2 ^ 52 := by
    by_contra hne
    have hmore : ((2 ^ 52 + 1 : ℕ) : ℚ) ≤ m := by
      exact_mod_cast Nat.lt_of_le_of_ne hfull (Ne.symm hne)
    have hless := hmantissa 52 (by push_cast; omega)
    push_cast at hmore
    linarith
  refine ⟨hpower, ?_, by omega, hbelow 52 (by push_cast; omega)⟩
  by_contra hne
  have hless := hmantissa 51 (by push_cast; omega)
  rw [hpower] at hless
  norm_num at hless

/-- A number in the interval of `m * 2^e` keeps digits down to `2^e`, or one digit more where it lies
below a power of two. -/
theorem RoundsTo.unit_eq (h : RoundsTo x m e) (hc : Canonical m e) (ht : IsLastUnit x t) :
    t = e ∨ (m = 2 ^ 52 ∧ t = e - 1 ∧ -1074 < e ∧ x < 2 ^ 52 * 2 ^ e) := by
  rcases Int.lt_or_eq_of_le (h.unit_le hc ht) with hlt | heq
  · exact .inr (h.of_unit_lt hc ht hlt)
  · exact .inl heq

/-- In its own unit, a number in the interval of a value is nearest to the mantissa. -/
theorem RoundsTo.isNearest (h : RoundsTo x m e) : IsNearest (x / 2 ^ e) m := by
  have hunit := two_zpow_pos e
  have hreach := reach_le m e
  refine ⟨?_, ?_, fun hodd => ?_⟩
  · rw [le_div_iff₀ hunit]
    exact (mul_le_mul_of_nonneg_right (by linarith) hunit.le).trans h.lower
  · exact (div_le_iff₀ hunit).mpr h.upper
  · obtain ⟨hlow, hhigh⟩ := h.strict hodd
    refine ⟨?_, (div_lt_iff₀ hunit).mpr hhigh⟩
    rw [lt_div_iff₀ hunit]
    exact (mul_le_mul_of_nonneg_right (by linarith) hunit.le).trans_lt hlow

/-- Just below a power of two, a number with one digit more is nearest to a mantissa of 54 digits. -/
theorem RoundsTo.isNearest_of_below (h : RoundsTo x (2 ^ 52) e) (he : -1074 < e)
    (hx : x < 2 ^ 52 * 2 ^ e) : IsNearest (x / 2 ^ (e - 1)) (2 ^ 53) := by
  have hunit := two_zpow_pos (e - 1)
  have hdouble : (2 : ℚ) ^ e = 2 * 2 ^ (e - 1) := by
    rw [zpow_sub₀ two_ne_zero, zpow_one]
    ring
  have hlow := h.lower
  have hreach : reach (2 ^ 52) e = 1 / 4 := if_pos ⟨rfl, he⟩
  rw [hreach, hdouble] at hlow
  rw [hdouble] at hx
  refine ⟨?_, ?_, fun hodd => absurd hodd (by decide)⟩
  · rw [le_div_iff₀ hunit]
    refine le_trans (le_of_eq ?_) hlow
    push_cast
    ring
  · rw [div_le_iff₀ hunit]
    push_cast
    linarith

/-! ### Rounding to a value -/

variable {s : Sign} {acc : Accuracy} {q : ℕ}

theorem mantissa_ofMantissaAndAccuracy (q : ℕ) (acc : Accuracy) :
    (ExtendedMantissa.ofMantissaAndAccuracy q acc).mantissa = q := by
  cases acc with
  | exact => rfl
  | inexact o => cases o <;> rfl

/-- Digits that stand for a number in the interval of a value are rounded to that value, where no
digits are missing. -/
theorem roundWithAccuracy_eq_of_roundsTo (s : Sign) (hm : 0 < m) (hc : Canonical m e)
    (hq : StandsFor (.ofMantissaAndAccuracy q acc) x) {f : ℤ} (hf : f ≤ lastExponent q f)
    (hx : RoundsTo (x * 2 ^ f) m e) :
    roundWithAccuracy .binary64 s q f acc = .finite s m e hm := by
  have hlast : IsLastUnit (x * 2 ^ f) (lastExponent q f) := by
    have h := hq.isLastUnit (e := f)
    rw [mantissa_ofMantissaAndAccuracy] at h
    exact h hf
  have hexponent : f + (lastExponent q f - f).toNat = lastExponent q f := by omega
  have hscaled : x / 2 ^ (lastExponent q f - f).toNat = x * 2 ^ f / 2 ^ lastExponent q f := by
    rw [div_eq_div_iff (by positivity) (by positivity), ← zpow_natCast, mul_assoc,
      ← zpow_add₀ two_ne_zero, hexponent]
  have hshift : StandsFor
      (ExtendedMantissa.ofMantissaAndAccuracy q acc >>> (lastExponent q f - f).toNat)
      (x * 2 ^ f / 2 ^ lastExponent q f) := hscaled ▸ hq.shiftRight _
  have hfirst : shiftToTargetExponent .binary64 q f acc
      = (ExtendedMantissa.ofMantissaAndAccuracy q acc >>> (lastExponent q f - f).toNat,
        lastExponent q f) := by
    change (_, f + (lastExponent q f - f).toNat) = _
    rw [hexponent]
    rfl
  unfold roundWithAccuracy
  rw [hfirst]
  dsimp only
  rcases hx.unit_eq hc hlast with heq | ⟨rfl, heq, he, hbelow⟩
  · rw [heq] at hshift ⊢
    have hkept : Kept m e := ⟨Nat.le_of_lt hc.lt, hc.full, hc.le⟩
    have hmantissa : (exactly m).mantissa ≠ 0 := Nat.ne_of_gt hm
    simp only [hshift.roundedMantissa_eq hm hx.isNearest, hkept.shiftToTargetExponent_eq,
      if_pos hc.lt, dif_neg hmantissa]
    rfl
  · rw [heq] at hshift ⊢
    have hkept : Kept (2 ^ 53) (e - 1) := ⟨Nat.le_refl _, .inl (by decide), by omega⟩
    have hmantissa : (exactly (2 ^ 52)).mantissa ≠ 0 := by decide
    simp only [hshift.roundedMantissa_eq (by decide) (hx.isNearest_of_below he hbelow),
      hkept.shiftToTargetExponent_eq, if_neg (Nat.lt_irrefl _), dif_neg hmantissa, Int.sub_add_cancel]
    rfl

/-! ### Products and quotients -/

/-- No digits are missing from 53 of them. -/
theorem le_lastExponent (hm : 2 ^ 52 ≤ m) (e : ℤ) : e ≤ lastExponent m e := by
  have hlog : 52 ≤ m.log2 := (Nat.le_log2 (by omega)).mpr hm
  unfold lastExponent
  omega

variable {s₁ s₂ : Sign} {m₁ m₂ : ℕ} {e₁ e₂ : ℤ} {h₁ : 0 < m₁} {h₂ : 0 < m₂}

/-- A product in the interval of a value is rounded to that value. -/
theorem mul_eq_of_roundsTo (hfull : 2 ^ 52 ≤ m₁ * m₂) (hm : 0 < m) (hc : Canonical m e)
    (hx : RoundsTo (m₁ * 2 ^ e₁ * (m₂ * 2 ^ e₂)) m e) :
    UnpackedFloat.mul .binary64 (.finite s₁ m₁ e₁ h₁) (.finite s₂ m₂ e₂ h₂)
      = .finite (s₁ * s₂) m e hm := by
  have hdigits : StandsFor (.ofMantissaAndAccuracy (m₁ * m₂) .exact) (m₁ * m₂ : ℕ) :=
    standsFor_exactly (m₁ * m₂)
  refine roundWithAccuracy_eq_of_roundsTo _ hm hc hdigits (le_lastExponent hfull _) ?_
  have hproduct : ((m₁ * m₂ : ℕ) : ℚ) * 2 ^ (e₁ + e₂) = m₁ * 2 ^ e₁ * (m₂ * 2 ^ e₂) := by
    rw [zpow_add₀ two_ne_zero]
    push_cast
    ring
  rwa [hproduct]

/-- The quotient is computed to enough digits. -/
theorem le_lastExponent_quotient (h₁ : 0 < m₁) (h₂ : 0 < m₂) {f : ℤ} (hf : f ≤ e₁ - e₂)
    (htarget : f ≤ max (m₁.log2 + 1 + e₁ - (m₂.log2 + 1 + e₂) - 53) (-1074)) :
    f ≤ lastExponent (m₁ * 2 ^ (e₁ - e₂ - f).toNat / m₂) f := by
  by_cases hsmall : f ≤ -1074
  · exact Int.le_trans hsmall (Int.le_max_right ..)
  · refine le_lastExponent ?_ f
    have hbelow : m₂ < 2 ^ (m₂.log2 + 1) := Nat.lt_log2_self
    have habove : 2 ^ m₁.log2 ≤ m₁ := Nat.log2_self_le (Nat.ne_of_gt h₁)
    rw [Nat.le_div_iff_mul_le h₂]
    calc 2 ^ 52 * m₂ ≤ 2 ^ 52 * 2 ^ (m₂.log2 + 1) := Nat.mul_le_mul_left _ hbelow.le
      _ = 2 ^ (52 + (m₂.log2 + 1)) := (Nat.pow_add ..).symm
      _ ≤ 2 ^ (m₁.log2 + (e₁ - e₂ - f).toNat) := Nat.pow_le_pow_right (by decide) (by omega)
      _ = 2 ^ m₁.log2 * 2 ^ (e₁ - e₂ - f).toNat := Nat.pow_add ..
      _ ≤ m₁ * 2 ^ (e₁ - e₂ - f).toNat := Nat.mul_le_mul_right _ habove

/-- A quotient in the interval of a value is rounded to that value. -/
theorem div_eq_of_roundsTo (hm : 0 < m) (hc : Canonical m e)
    (hx : RoundsTo (m₁ * 2 ^ e₁ / (m₂ * 2 ^ e₂)) m e) :
    UnpackedFloat.div .binary64 (.finite s₁ m₁ e₁ h₁) (.finite s₂ m₂ e₂ h₂)
      = .finite (s₁ / s₂) m e hm := by
  have hpos : (m₂ : ℚ) ≠ 0 := Nat.cast_ne_zero.mpr (Nat.ne_of_gt h₂)
  unfold UnpackedFloat.div divCore
  simp only [Nat.shiftLeft_eq]
  have hf := Int.min_le_left (e₁ - e₂)
    (Format.targetExponent .binary64 (totalExponent m₁ e₁ - totalExponent m₂ e₂))
  have htarget := Int.min_le_right (e₁ - e₂)
    (Format.targetExponent .binary64 (totalExponent m₁ e₁ - totalExponent m₂ e₂))
  generalize min (e₁ - e₂)
    (Format.targetExponent .binary64 (totalExponent m₁ e₁ - totalExponent m₂ e₂)) = f at hf htarget ⊢
  refine roundWithAccuracy_eq_of_roundsTo _ hm hc (standsFor_quotient _ h₂)
    (le_lastExponent_quotient h₁ h₂ hf htarget) ?_
  have hshift : (2 : ℚ) ^ (e₁ - e₂ - f).toNat * 2 ^ f = 2 ^ e₁ / 2 ^ e₂ := by
    rw [← two_zpow_add, ← zpow_sub₀ two_ne_zero]
    congr 1
    omega
  have hquotient : ((m₁ * 2 ^ (e₁ - e₂ - f).toNat : ℕ) : ℚ) / m₂ * 2 ^ f
      = m₁ * 2 ^ e₁ / (m₂ * 2 ^ e₂) := by
    push_cast
    rw [div_mul_eq_mul_div, mul_assoc, hshift]
    field_simp
  rwa [hquotient]

end TextureGraph.Binary64
