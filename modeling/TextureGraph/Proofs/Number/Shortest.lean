import TextureGraph.Proofs.Number.Reading

/-!
# The shortest decimal of a value

The search for the shortest decimal goes from a coarse grid of decimals to finer ones, and stops at
the first grid with a point in the interval of the value.

* `Ratio.leading_le`: the search starts at the leading digit.  Its estimate from the count of binary
  digits is not above that digit.
* `Interval.contains_of_onGrid`, `Interval.width_le_of_onGrid`: a point that is found lies in the
  interval, and a grid without one is coarser than the interval is wide.
* `roundsTo_shortest`: seventeen digits suffice, so the shortest decimal lies in the interval of the
  value that it is made for, and is read as that value.
* `shortest_exponent_nonneg`: the shortest decimal of a whole number has no digits after the point.
-/

namespace TextureGraph.Decimal

open Binary64

/-! ### Ratios -/

namespace Ratio

variable {r : Ratio} {j k : ℤ} {n p : ℕ}

/-- The number that a ratio stands for. -/
def value (r : Ratio) : ℚ :=
  r.num / r.den

theorem den_ofScaled_pos (m : ℕ) (e : ℤ) : 0 < (ofScaled m e).den := by
  change 0 < 1 <<< (-e).toNat
  rw [Nat.shiftLeft_eq, Nat.one_mul]
  exact Nat.two_pow_pos _

theorem value_ofScaled (m : ℕ) (e : ℤ) : (ofScaled m e).value = m * 2 ^ e := by
  change ((m <<< e.toNat : ℕ) : ℚ) / ((1 <<< (-e).toNat : ℕ) : ℚ) = _
  rw [Nat.shiftLeft_eq, Nat.shiftLeft_eq, Nat.one_mul]
  push_cast
  rw [mul_div_assoc, ← zpow_natCast, ← zpow_natCast, ← zpow_sub₀ two_ne_zero]
  congr 2
  omega

theorem den_inUnits_pos (h : 0 < r.den) (k : ℤ) : 0 < (r.inUnits k).den :=
  Nat.mul_pos h (Nat.pow_pos (by decide))

theorem value_inUnits (r : Ratio) (k : ℤ) : (r.inUnits k).value = r.value / 10 ^ k := by
  have hunit : (10 : ℚ) ^ k = 10 ^ k.toNat / 10 ^ (-k).toNat := by
    rw [← zpow_natCast, ← zpow_natCast, ← zpow_sub₀ (by norm_num)]
    congr 1
    omega
  change ((r.num * 10 ^ (-k).toNat : ℕ) : ℚ) / ((r.den * 10 ^ k.toNat : ℕ) : ℚ) = _
  rw [hunit, value, div_div_div_eq]
  push_cast
  rfl

theorem num_le_iff (h : 0 < r.den) : r.num ≤ p * r.den ↔ r.value ≤ p := by
  rw [value, div_le_iff₀ (Nat.cast_pos.mpr h)]
  norm_cast

theorem le_num_iff (h : 0 < r.den) : p * r.den ≤ r.num ↔ (p : ℚ) ≤ r.value := by
  rw [value, le_div_iff₀ (Nat.cast_pos.mpr h)]
  norm_cast

theorem num_lt_iff (h : 0 < r.den) : r.num < p * r.den ↔ r.value < p := by
  rw [← Nat.not_le, le_num_iff h, not_le]

theorem lt_num_iff (h : 0 < r.den) : p * r.den < r.num ↔ (p : ℚ) < r.value := by
  rw [← Nat.not_le, num_le_iff h, not_le]

theorem reaches_iff (h : 0 < r.den) : r.reaches k = true ↔ (10 : ℚ) ^ k ≤ r.value := by
  have hone := le_num_iff (p := 1) (den_inUnits_pos h k)
  rw [Nat.one_mul, Nat.cast_one, value_inUnits, one_le_div₀ (ten_zpow_pos k)] at hone
  rw [← hone]
  exact decide_eq_true_iff

theorem climb_le (h : 0 < r.den) (n : ℕ) (hk : (10 : ℚ) ^ k ≤ r.value) :
    (10 : ℚ) ^ r.climb n k ≤ r.value := by
  induction n generalizing k with
  | zero => exact hk
  | succ n ih =>
    unfold climb
    split
    · rename_i hreaches
      exact ih ((reaches_iff h).mp hreaches)
    · exact hk

/-- Every power of ten that is reached is climbed to, as far as the search goes. -/
theorem le_climb (h : 0 < r.den) (hj : (10 : ℚ) ^ j ≤ r.value) (hk : j ≤ k + n) :
    j ≤ r.climb n k := by
  induction n generalizing k with
  | zero => exact Int.le_trans hk (by simp [climb])
  | succ n ih =>
    unfold climb
    split
    · exact ih (by push_cast at hk; omega)
    · rename_i hreaches
      rw [reaches_iff h] at hreaches
      by_contra hlt
      refine hreaches (le_trans ?_ hj)
      exact zpow_le_zpow_right₀ (by norm_num) (by omega)

theorem ten_zpow_le_two_zpow {p q : ℕ} {b t : ℤ} (hq : q ≠ 0) (ht : t * q ≤ b * p)
    (h : ((10 : ℚ) ^ p) ^ b ≤ (2 ^ q) ^ b) : (10 : ℚ) ^ t ≤ 2 ^ b := by
  rw [← pow_le_pow_iff_left₀ (ten_zpow_pos t).le (two_zpow_pos b).le hq]
  calc ((10 : ℚ) ^ t) ^ q = 10 ^ (t * q) := by rw [zpow_mul, zpow_natCast]
    _ ≤ 10 ^ (b * p) := zpow_le_zpow_right₀ (by norm_num) ht
    _ = (10 ^ p) ^ b := by rw [mul_comm, zpow_mul, zpow_natCast]
    _ ≤ (2 ^ q) ^ b := h
    _ = (2 ^ b) ^ q := by rw [← zpow_natCast, ← zpow_mul, mul_comm, zpow_mul, zpow_natCast]

/-- The estimate of the leading digit does not lie above the power of two that it is made from. -/
theorem ten_zpow_estimate_le (b : ℤ) :
    (10 : ℚ) ^ (b * (if b < 0 then 30103 else 30102) / 100000) ≤ 2 ^ b := by
  have hup : 10 ^ 30102 ≤ 2 ^ 100000 := by decide +kernel
  have hdown : 2 ^ 100000 ≤ 10 ^ 30103 := by decide +kernel
  have hcast : ∀ {p q : ℕ}, 10 ^ p ≤ 2 ^ q → (10 : ℚ) ^ p ≤ 2 ^ q := fun h => by exact_mod_cast h
  have hcast' : ∀ {p q : ℕ}, 2 ^ q ≤ 10 ^ p → (2 : ℚ) ^ q ≤ 10 ^ p := fun h => by exact_mod_cast h
  split
  · rename_i hneg
    refine ten_zpow_le_two_zpow (p := 30103) (q := 100000) (by decide) (by omega) ?_
    obtain ⟨c, rfl⟩ : ∃ c : ℕ, b = -c := ⟨(-b).toNat, by omega⟩
    rw [zpow_neg, zpow_neg, zpow_natCast, zpow_natCast]
    exact inv_anti₀ (pow_pos (pow_pos two_pos _) _)
      (pow_le_pow_left₀ (pow_pos two_pos _).le (hcast' hdown) c)
  · rename_i hpos
    refine ten_zpow_le_two_zpow (p := 30102) (q := 100000) (by decide) (by omega) ?_
    obtain ⟨c, rfl⟩ : ∃ c : ℕ, b = c := ⟨b.toNat, by omega⟩
    rw [zpow_natCast, zpow_natCast]
    exact pow_le_pow_left₀ (pow_pos (by decide) _).le (hcast hup) c

/-- The count of binary digits bounds a ratio from below. -/
theorem two_zpow_log2_le (hn : 0 < r.num) (hd : 0 < r.den) :
    (2 : ℚ) ^ ((r.num.log2 : ℤ) - r.den.log2 - 1) ≤ r.value := by
  have hlow : (2 : ℚ) ^ r.num.log2 ≤ r.num := by
    exact_mod_cast Nat.log2_self_le (Nat.ne_of_gt hn)
  have hhigh : (r.den : ℚ) ≤ 2 ^ (r.den.log2 + 1) := by
    exact_mod_cast (Nat.lt_log2_self (n := r.den)).le
  have hexponent : (r.num.log2 : ℤ) - r.den.log2 - 1 = r.num.log2 - (r.den.log2 + 1 : ℕ) := by
    omega
  rw [hexponent, zpow_sub₀ two_ne_zero, zpow_natCast, zpow_natCast, value]
  exact div_le_div₀ (Nat.cast_nonneg _) hlow (Nat.cast_pos.mpr hd) hhigh

/-- The search stays at powers of ten that the ratio reaches. -/
theorem leading_le (hn : 0 < r.num) (hd : 0 < r.den) : (10 : ℚ) ^ r.leading ≤ r.value :=
  climb_le hd 3 ((ten_zpow_estimate_le _).trans (two_zpow_log2_le hn hd))

/-- A ratio of at least one has its leading digit in front of the point. -/
theorem leading_nonneg (hd : 0 < r.den) (h : 1 ≤ r.value) : 0 ≤ r.leading := by
  have hle : r.den ≤ r.num := by
    have hone := (le_num_iff (p := 1) hd).mpr (by simpa using h)
    rwa [Nat.one_mul] at hone
  have hlog : r.den.log2 ≤ r.num.log2 := by
    rw [Nat.le_log2 (by omega)]
    exact Nat.le_trans (Nat.log2_self_le (Nat.ne_of_gt hd)) hle
  refine le_climb hd (by simpa using h) ?_
  split <;> omega

end Ratio

/-! ### Grids of decimals -/

namespace Interval

variable {i : Interval} {k j : ℤ} {n p : ℕ} {x : ℚ}

/-- The value lies between the ends. -/
structure Proper (i : Interval) : Prop where
  /-- The value is a ratio. -/
  value : 0 < i.value.den
  /-- The lower end is a ratio. -/
  lo : 0 < i.lo.den
  /-- The upper end is a ratio. -/
  hi : 0 < i.hi.den
  /-- The lower end is below. -/
  lo_lt : i.lo.value < i.value.value
  /-- The upper end is above. -/
  lt_hi : i.value.value < i.hi.value

/-- A number is not below the interval. -/
def NotBelow (i : Interval) (x : ℚ) : Prop :=
  if i.closed then i.lo.value ≤ x else i.lo.value < x

/-- A number is not above the interval. -/
def NotAbove (i : Interval) (x : ℚ) : Prop :=
  if i.closed then x ≤ i.hi.value else x < i.hi.value

/-- A number lies in the interval. -/
structure Contains (i : Interval) (x : ℚ) : Prop where
  /-- It is not below. -/
  notBelow : i.NotBelow x
  /-- It is not above. -/
  notAbove : i.NotAbove x

theorem notBelow_of_lt (h : i.lo.value < x) : i.NotBelow x := by
  unfold NotBelow
  split
  · exact h.le
  · exact h

theorem notAbove_of_lt (h : x < i.hi.value) : i.NotAbove x := by
  unfold NotAbove
  split
  · exact h.le
  · exact h

theorem le_of_not_notBelow (h : ¬ i.NotBelow x) : x ≤ i.lo.value :=
  not_lt.mp fun hlt => h (notBelow_of_lt hlt)

theorem le_of_not_notAbove (h : ¬ i.NotAbove x) : i.hi.value ≤ x :=
  not_lt.mp fun hlt => h (notAbove_of_lt hlt)

/-- The grid points on both sides of the value. -/
theorem floor_bounds (hi : i.Proper) (k : ℤ) :
    ((i.value.inUnits k).num / (i.value.inUnits k).den : ℕ) * 10 ^ k ≤ i.value.value ∧
      i.value.value < ((i.value.inUnits k).num / (i.value.inUnits k).den + 1 : ℕ) * 10 ^ k := by
  have hunit := ten_zpow_pos k
  have hden := Ratio.den_inUnits_pos hi.value k
  rw [← le_div_iff₀ hunit, ← div_lt_iff₀ hunit, ← Ratio.value_inUnits]
  constructor
  · rw [← Ratio.le_num_iff hden]
    exact Nat.div_mul_le_self _ _
  · rw [← Ratio.num_lt_iff hden]
    exact Nat.lt_mul_of_div_lt (Nat.lt_succ_self _) hden

theorem notBelow_iff (hi : i.Proper) (p : ℕ) (k : ℤ) :
    (if i.closed = true then (i.lo.inUnits k).num ≤ p * (i.lo.inUnits k).den
      else (i.lo.inUnits k).num < p * (i.lo.inUnits k).den) ↔ i.NotBelow (p * 10 ^ k) := by
  have hunit := ten_zpow_pos k
  have hden := Ratio.den_inUnits_pos hi.lo k
  rw [Ratio.num_le_iff hden, Ratio.num_lt_iff hden, Ratio.value_inUnits, div_le_iff₀ hunit,
    div_lt_iff₀ hunit]
  rfl

theorem notAbove_iff (hi : i.Proper) (p : ℕ) (k : ℤ) :
    (if i.closed = true then p * (i.hi.inUnits k).den ≤ (i.hi.inUnits k).num
      else p * (i.hi.inUnits k).den < (i.hi.inUnits k).num) ↔ i.NotAbove (p * 10 ^ k) := by
  have hunit := ten_zpow_pos k
  have hden := Ratio.den_inUnits_pos hi.hi k
  rw [Ratio.le_num_iff hden, Ratio.lt_num_iff hden, Ratio.value_inUnits, le_div_iff₀ hunit,
    lt_div_iff₀ hunit]
  rfl

/-- A grid point that is found lies in the interval. -/
theorem contains_of_onGrid (hi : i.Proper) (h : i.onGrid k = some p) : i.Contains (p * 10 ^ k) := by
  obtain ⟨hbelow, habove⟩ := floor_bounds hi k
  unfold onGrid at h
  dsimp only at h
  generalize (i.value.inUnits k).num / (i.value.inUnits k).den = q at *
  have hlow : i.NotAbove (q * 10 ^ k) := notAbove_of_lt (hbelow.trans_lt hi.lt_hi)
  have hhigh : i.NotBelow ((q + 1 : ℕ) * 10 ^ k) := notBelow_of_lt (hi.lo_lt.trans habove)
  by_cases hfits : i.NotBelow (q * 10 ^ k)
  · rw [if_pos ((notBelow_iff hi q k).mpr hfits)] at h
    by_cases hfits' : i.NotAbove ((q + 1 : ℕ) * 10 ^ k)
    · rcases ite_eq_iff.mp h with ⟨-, heq⟩ | ⟨-, heq⟩
      · cases heq
        exact ⟨hhigh, hfits'⟩
      · cases heq
        exact ⟨hfits, hlow⟩
    · rw [decide_eq_false fun hle => hfits' ((notAbove_iff hi (q + 1) k).mp hle), Bool.false_and,
        if_neg Bool.false_ne_true, Option.some_inj] at h
      subst h
      exact ⟨hfits, hlow⟩
  · rw [if_neg fun hle => hfits ((notBelow_iff hi q k).mp hle)] at h
    by_cases hfits' : i.NotAbove ((q + 1 : ℕ) * 10 ^ k)
    · rw [if_pos ((notAbove_iff hi (q + 1) k).mpr hfits'), Option.some_inj] at h
      subst h
      exact ⟨hhigh, hfits'⟩
    · rw [if_neg fun hle => hfits' ((notAbove_iff hi (q + 1) k).mp hle)] at h
      cases h

/-- Where no grid point is found, the interval lies between two of them. -/
theorem of_onGrid_eq_none (hi : i.Proper) (h : i.onGrid k = none) :
    ∃ q : ℕ, (q : ℚ) * 10 ^ k ≤ i.lo.value ∧ i.hi.value ≤ (q + 1 : ℕ) * 10 ^ k := by
  unfold onGrid at h
  dsimp only at h
  generalize (i.value.inUnits k).num / (i.value.inUnits k).den = q at h
  by_cases hfits : i.NotBelow (q * 10 ^ k)
  · rw [if_pos ((notBelow_iff hi q k).mpr hfits)] at h
    rcases ite_eq_iff.mp h with ⟨-, heq⟩ | ⟨-, heq⟩ <;> cases heq
  · rw [if_neg fun hle => hfits ((notBelow_iff hi q k).mp hle)] at h
    by_cases hfits' : i.NotAbove ((q + 1 : ℕ) * 10 ^ k)
    · rw [if_pos ((notAbove_iff hi (q + 1) k).mpr hfits')] at h
      cases h
    · exact ⟨q, le_of_not_notBelow hfits, le_of_not_notAbove hfits'⟩

/-- A grid without a point in the interval is coarser than the interval is wide. -/
theorem width_le_of_onGrid (hi : i.Proper) (h : i.onGrid k = none) :
    i.hi.value - i.lo.value ≤ 10 ^ k := by
  obtain ⟨q, hlow, hhigh⟩ := of_onGrid_eq_none hi h
  push_cast at hhigh
  linarith

/-- A grid that the value is on has a point in the interval. -/
theorem onGrid_ne_none (hi : i.Proper) (hp : i.value.value = p * 10 ^ k) : i.onGrid k ≠ none := by
  intro h
  have hunit := ten_zpow_pos k
  obtain ⟨q, hlow, hhigh⟩ := of_onGrid_eq_none hi h
  have hlt := lt_of_mul_lt_mul_right ((hlow.trans_lt hi.lo_lt).trans_eq hp) hunit.le
  have hgt := lt_of_mul_lt_mul_right ((hp.symm.trans_lt hi.lt_hi).trans_le hhigh) hunit.le
  rw [Nat.cast_lt] at hlt hgt
  omega

/-- The search finds a point of the interval, if it goes on to grids that are fine enough. -/
theorem contains_firstGrid (hi : i.Proper) (n : ℕ)
    (h : (10 : ℚ) ^ (k - n) < i.hi.value - i.lo.value) :
    i.Contains (i.firstGrid (n + 1) k).value := by
  induction n generalizing k with
  | zero =>
    unfold firstGrid
    split
    · rename_i hfound
      exact contains_of_onGrid hi hfound
    · rename_i hnone
      rw [Int.natCast_zero, Int.sub_zero] at h
      exact absurd (width_le_of_onGrid hi hnone) (not_le.mpr h)
  | succ n ih =>
    unfold firstGrid
    split
    · rename_i hfound
      exact contains_of_onGrid hi hfound
    · refine ih ?_
      have hexponent : k - 1 - n = k - (n + 1 : ℕ) := by omega
      rwa [hexponent]

/-- The search does not go on beyond a grid with a point in the interval. -/
theorem le_exponent_firstGrid (hj : i.onGrid j ≠ none) (n : ℕ) (hk : j ≤ k) :
    j ≤ (i.firstGrid n k).exponent := by
  induction n generalizing k with
  | zero => exact hk
  | succ n ih =>
    unfold firstGrid
    split
    · exact hk
    · rename_i hnone
      refine ih ?_
      have hne : j ≠ k := by
        rintro rfl
        exact hj hnone
      omega

/-! ### The interval of a value -/

variable {m : ℕ} {e : ℤ}

theorem value_value_ofScaled (m : ℕ) (e : ℤ) : (ofScaled m e).value.value = m * 2 ^ e := by
  change (Ratio.ofScaled (4 * m) (e - 2)).value = _
  rw [Ratio.value_ofScaled, zpow_sub₀ two_ne_zero]
  push_cast
  field_simp

theorem value_lo_ofScaled (hm : 0 < m) (e : ℤ) :
    (ofScaled m e).lo.value = (m - reach m e) * 2 ^ e := by
  unfold ofScaled reach
  dsimp only
  rw [Nat.one_shiftLeft, Ratio.value_ofScaled, zpow_sub₀ two_ne_zero,
    Nat.cast_sub (by split <;> omega)]
  split <;> (push_cast; ring)

theorem value_hi_ofScaled (m : ℕ) (e : ℤ) : (ofScaled m e).hi.value = (m + 1 / 2) * 2 ^ e := by
  change (Ratio.ofScaled (4 * m + 2) (e - 2)).value = _
  rw [Ratio.value_ofScaled, zpow_sub₀ two_ne_zero]
  push_cast
  ring

theorem proper_ofScaled (hm : 0 < m) (e : ℤ) : (ofScaled m e).Proper := by
  have hunit := two_zpow_pos e
  have hreach := quarter_le_reach m e
  refine ⟨Ratio.den_ofScaled_pos _ _, Ratio.den_ofScaled_pos _ _, Ratio.den_ofScaled_pos _ _, ?_, ?_⟩
  · rw [value_lo_ofScaled hm, value_value_ofScaled]
    exact mul_lt_mul_of_pos_right (by linarith) hunit
  · rw [value_hi_ofScaled, value_value_ofScaled]
    exact mul_lt_mul_of_pos_right (by linarith) hunit

/-- The interval is that of the numbers that are rounded to the value. -/
theorem Contains.roundsTo (hm : 0 < m) (h : (ofScaled m e).Contains x) : RoundsTo x m e := by
  have hlow := h.notBelow
  have hhigh := h.notAbove
  have hclosed : (ofScaled m e).closed = true ↔ m % 2 = 0 := decide_eq_true_iff
  unfold NotBelow at hlow
  unfold NotAbove at hhigh
  rw [value_lo_ofScaled hm] at hlow
  rw [value_hi_ofScaled] at hhigh
  by_cases heven : m % 2 = 0
  · rw [if_pos (hclosed.mpr heven)] at hlow hhigh
    exact ⟨hlow, hhigh, fun hodd => by omega⟩
  · rw [if_neg fun h => heven (hclosed.mp h)] at hlow hhigh
    exact ⟨hlow.le, hhigh.le, fun _ => ⟨hlow, hhigh⟩⟩

/-- Seventeen digits from the leading one on are finer than the interval. -/
theorem ten_zpow_lt_width (hm : 0 < m) (hm' : m < 2 ^ 53) {k : ℤ} (hk : (10 : ℚ) ^ k ≤ m * 2 ^ e) :
    (10 : ℚ) ^ (k - (16 : ℕ)) < (ofScaled m e).hi.value - (ofScaled m e).lo.value := by
  have hunit := two_zpow_pos e
  have hlt : (m : ℚ) < 2 ^ 53 := by exact_mod_cast hm'
  have hwidth : (m : ℚ) / 10 ^ 16 < 1 / 2 + reach m e := by
    unfold reach
    split
    · rename_i hpower
      rw [hpower.1]
      norm_num
    · rw [div_lt_iff₀ (by norm_num)]
      exact hlt.trans (by norm_num)
  calc (10 : ℚ) ^ (k - (16 : ℕ)) = 10 ^ k / 10 ^ 16 := by
        rw [zpow_sub₀ (by norm_num), zpow_natCast]
    _ ≤ m * 2 ^ e / 10 ^ 16 := div_le_div_of_nonneg_right hk (by norm_num)
    _ = m / 10 ^ 16 * 2 ^ e := by ring
    _ < (1 / 2 + reach m e) * 2 ^ e := mul_lt_mul_of_pos_right hwidth hunit
    _ = _ := by
        rw [value_hi_ofScaled, value_lo_ofScaled hm]
        ring

end Interval

/-! ### The shortest decimal -/

variable {m : ℕ} {e : ℤ}

/-- Taking zeros away changes the spelling only. -/
theorem value_dropZeros (n : ℕ) (d : Decimal) : (dropZeros n d).value = d.value := by
  induction n generalizing d with
  | zero => rfl
  | succ n ih =>
    unfold dropZeros
    split
    · rename_i hzero
      have hdigits : d.digits = 10 * (d.digits / 10) := by omega
      have hcast : (d.digits : ℚ) = 10 * (d.digits / 10 : ℕ) := by exact_mod_cast hdigits
      rw [ih, value, value, hcast, zpow_add₀ (by norm_num), zpow_one]
      ring
    · rfl

theorem le_exponent_dropZeros (n : ℕ) (d : Decimal) : d.exponent ≤ (dropZeros n d).exponent := by
  induction n generalizing d with
  | zero => exact Int.le_refl _
  | succ n ih =>
    unfold dropZeros
    split
    · exact Int.le_trans (Int.le_add_of_nonneg_right (by decide)) (ih _)
    · exact Int.le_refl _

/-- The shortest decimal lies in the interval of the value that it is made for. -/
theorem roundsTo_shortest (hm : 0 < m) (hm' : m < 2 ^ 53) (e : ℤ) :
    RoundsTo (shortest m e).value m e := by
  have hproper := Interval.proper_ofScaled hm e
  have hnum : 0 < (Interval.ofScaled m e).value.num := by
    change 0 < (4 * m) <<< (e - 2).toNat
    rw [Nat.shiftLeft_eq]
    exact Nat.mul_pos (by omega) (Nat.two_pow_pos _)
  have hleading := Ratio.leading_le hnum hproper.value
  rw [Interval.value_value_ofScaled] at hleading
  unfold shortest
  rw [value_dropZeros]
  have hwidth := Interval.ten_zpow_lt_width hm hm' hleading
  exact (Interval.contains_firstGrid hproper 16 hwidth).roundsTo hm

/-- The shortest decimal of a whole number has no digits after the point. -/
theorem shortest_exponent_nonneg (hm : 0 < m) {n : ℕ} (hn : (m : ℚ) * 2 ^ e = n) :
    0 ≤ (shortest m e).exponent := by
  have hproper := Interval.proper_ofScaled hm e
  have hvalue := (Interval.value_value_ofScaled m e).trans hn
  have hpos : 0 < n := by
    have hpos' : (0 : ℚ) < n := hn ▸ mul_pos (Nat.cast_pos.mpr hm) (two_zpow_pos e)
    exact_mod_cast hpos'
  have hone : 1 ≤ (Interval.ofScaled m e).value.value := by
    rw [hvalue]
    exact_mod_cast hpos
  have hgrid : (Interval.ofScaled m e).onGrid 0 ≠ none := by
    refine Interval.onGrid_ne_none (p := n) hproper ?_
    rw [hvalue, zpow_zero, mul_one]
  have hleading := Ratio.leading_nonneg hproper.value hone
  exact Int.le_trans (Interval.le_exponent_firstGrid hgrid 17 hleading) (le_exponent_dropZeros _ _)

end TextureGraph.Decimal
