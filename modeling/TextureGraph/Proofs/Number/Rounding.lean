import TextureGraph.Proofs.Number.Sign

/-!
# Rounding keeps the order

* `roundWithAccuracy_eq`: what rounding to the nearest value does, in one step.
* `lt_iff_place_lt`: values come in the order of their places (`place`), which count the values up from
  zero.
* `roundedSteps_le`: of two numbers with the same exponent, the smaller one is rounded to a value that
  is not greater.
* `not_add_lt_sub`: to add what is not negative never gives less than to subtract it.
-/

namespace TextureGraph.Binary64

open Float.Model UnpackedFloat

/-! ### Rounding of mantissas -/

/-- A mantissa and what follows it, as one number. -/
def digits (a : ExtendedMantissa) : Nat :=
  4 * a.mantissa + 2 * a.roundBit.toNat + a.stickyBit.toNat

theorem digits_shiftRightOne (a : ExtendedMantissa) :
    digits a.shiftRightOne = 2 * a.mantissa + (a.roundBit || a.stickyBit).toNat := by
  have hbit : (a.mantissa % 2 != 0).toNat = a.mantissa % 2 := by
    rcases Nat.mod_two_eq_zero_or_one a.mantissa with h | h <;> rw [h] <;> rfl
  change 4 * (a.mantissa / 2) + 2 * (a.mantissa % 2 != 0).toNat + _ = _
  rw [hbit]
  change _ + (a.roundBit || a.stickyBit).toNat = _
  omega

variable {a b : ExtendedMantissa} {m n : Nat} {e f : Int}

theorem digits_shiftRightOne_le (h : digits a ≤ digits b) :
    digits a.shiftRightOne ≤ digits b.shiftRightOne := by
  rw [digits_shiftRightOne, digits_shiftRightOne]
  obtain ⟨m, r, s⟩ := a
  obtain ⟨n, r', s'⟩ := b
  cases r <;> cases s <;> cases r' <;> cases s' <;> simp [digits] at h ⊢ <;> omega

theorem digits_shiftRight_le (h : digits a ≤ digits b) (k : Nat) :
    digits (a >>> k) ≤ digits (b >>> k) := by
  induction k with
  | zero => exact h
  | succ k ih => exact digits_shiftRightOne_le ih

theorem roundedMantissa_le (h : digits a ≤ digits b) :
    a.roundedMantissa ≤ b.roundedMantissa := by
  obtain ⟨m, r, s⟩ := a
  obtain ⟨n, r', s'⟩ := b
  cases r <;> cases s <;> cases r' <;> cases s' <;>
    simp [digits, ExtendedMantissa.roundedMantissa, ExtendedMantissa.accuracy,
      Accuracy.roundToNearestEven] at h ⊢ <;> omega

/-- A mantissa that nothing follows. -/
def exactly (m : Nat) : ExtendedMantissa :=
  ⟨m, false, false⟩

/-- A mantissa without its last `k` digits, rounded. -/
def rounded (m k : Nat) : Nat :=
  (exactly m >>> k).roundedMantissa

theorem rounded_le (h : m ≤ n) (k : Nat) : rounded m k ≤ rounded n k := by
  refine roundedMantissa_le (digits_shiftRight_le ?_ k)
  change 4 * m + 0 + 0 ≤ 4 * n + 0 + 0
  omega

theorem shiftRight_mul_two_pow (m k : Nat) : exactly (m * 2 ^ k) >>> k = exactly m := by
  induction k generalizing m with
  | zero =>
    rw [Nat.pow_zero, Nat.mul_one]
    rfl
  | succ k ih =>
    have hdouble : m * 2 ^ (k + 1) = m * 2 * 2 ^ k := by
      rw [Nat.pow_succ, Nat.mul_comm (2 ^ k), Nat.mul_assoc]
    change (exactly (m * 2 ^ (k + 1)) >>> k).shiftRightOne = _
    rw [hdouble, ih]
    simp [ExtendedMantissa.shiftRightOne, exactly]

/-- Digits that are zero are rounded away. -/
theorem rounded_mul_two_pow (m k : Nat) : rounded (m * 2 ^ k) k = m := by
  unfold rounded
  rw [shiftRight_mul_two_pow]
  rfl

/-! ### Rounding of numbers -/

/-- The exponent of the last digit that is kept of `m * 2^e`. -/
def lastExponent (m : Nat) (e : Int) : Int :=
  max (m.log2 + 1 + e - 53) (-1074)

theorem targetExponent_eq (m : Nat) (e : Int) :
    Format.targetExponent .binary64 (totalExponent m e) = lastExponent m e :=
  rfl

/-- A rounded mantissa with its exponent.  A mantissa that has got a further digit is a power of
two. -/
def ofRounded (s : Sign) (m : Nat) (e : Int) : UnpackedFloat :=
  if h : m = 0 then .zero s
  else if m < 2 ^ 53 then .finite s m e (Nat.pos_of_ne_zero h)
  else .finite s (2 ^ 52) (e + 1) (by decide)

/-- Digits up to the last one that is kept. -/
structure Kept (m : Nat) (e : Int) : Prop where
  /-- There are at most 53 digits, or one more after they have been rounded. -/
  le : m ≤ 2 ^ 53
  /-- There are fewer only with the smallest exponent. -/
  full : 2 ^ 52 ≤ m ∨ e = -1074
  /-- The smallest exponent. -/
  smallest : -1074 ≤ e

theorem kept_rounded (hm : 0 < m) (he : e ≤ lastExponent m e) :
    Kept (rounded m (lastExponent m e - e).toNat) (lastExponent m e) := by
  have hbelow : m < 2 ^ (m.log2 + 1) := Nat.lt_log2_self
  have habove : 2 ^ m.log2 ≤ m := Nat.log2_self_le (Nat.ne_of_gt hm)
  have hlast : m.log2 + 1 ≤ 53 + (lastExponent m e - e).toNat := by
    unfold lastExponent at he ⊢
    omega
  refine ⟨?_, ?_, Int.le_max_right ..⟩
  · refine Nat.le_trans (rounded_le (n := 2 ^ 53 * 2 ^ (lastExponent m e - e).toNat) ?_ _)
      (Nat.le_of_eq (rounded_mul_two_pow ..))
    rw [← Nat.pow_add]
    exact Nat.le_trans (Nat.le_of_lt hbelow) (Nat.pow_le_pow_right (by decide) hlast)
  · by_cases hsmallest : lastExponent m e = -1074
    · exact .inr hsmallest
    · have hdigits : 52 + (lastExponent m e - e).toNat = m.log2 := by
        unfold lastExponent at he hsmallest ⊢
        omega
      refine .inl (Nat.le_trans (Nat.le_of_eq (rounded_mul_two_pow ..).symm)
        (rounded_le (m := 2 ^ 52 * 2 ^ (lastExponent m e - e).toNat) ?_ _))
      rw [← Nat.pow_add, hdigits]
      exact habove

theorem shiftToTargetExponent_eq (he : e ≤ lastExponent m e) :
    shiftToTargetExponent .binary64 m e .exact
      = (exactly m >>> (lastExponent m e - e).toNat, lastExponent m e) := by
  have hexponent : e + (lastExponent m e - e).toNat = lastExponent m e := by omega
  change (_, e + (lastExponent m e - e).toNat) = _
  rw [hexponent]
  rfl

/-- Nothing is left to shift after digits have been rounded, unless there is one more of them. -/
theorem Kept.shiftToTargetExponent_eq (h : Kept m e) :
    shiftToTargetExponent .binary64 m e .exact
      = if m < 2 ^ 53 then (exactly m, e) else (exactly (2 ^ 52), e + 1) := by
  have hsmallest := h.smallest
  split
  · rename_i hlt
    have hlog : m.log2 < 53 := by
      by_cases hm : m = 0
      · subst hm
        decide
      · exact (Nat.log2_lt hm).mpr hlt
    have hdone : (lastExponent m e - e).toNat = 0 := by
      unfold lastExponent
      omega
    change (exactly m >>> (lastExponent m e - e).toNat, e + (lastExponent m e - e).toNat) = _
    rw [hdone, Int.natCast_zero, Int.add_zero]
    rfl
  · obtain rfl : m = 2 ^ 53 := by
      have hle := h.le
      omega
    have hlast : lastExponent (2 ^ 53) e = e + 1 := by
      unfold lastExponent
      rw [Nat.log2_two_pow]
      omega
    rw [TextureGraph.Binary64.shiftToTargetExponent_eq (by omega), hlast]
    have hone : (e + 1 - e).toNat = 1 := by omega
    rw [hone]
    rfl

/-- Rounding to the nearest value, where no digits are missing. -/
theorem roundWithAccuracy_eq (s : Sign) (hm : 0 < m) (he : e ≤ lastExponent m e) :
    roundWithAccuracy .binary64 s m e .exact
      = ofRounded s (rounded m (lastExponent m e - e).toNat) (lastExponent m e) := by
  have hkept := kept_rounded hm he
  have hrounded : (exactly m >>> (lastExponent m e - e).toNat).roundedMantissa
      = rounded m (lastExponent m e - e).toNat := rfl
  unfold roundWithAccuracy ofRounded
  rw [shiftToTargetExponent_eq he]
  dsimp only
  by_cases hlt : rounded m (lastExponent m e - e).toNat < 2 ^ 53
  · simp only [hrounded, hkept.shiftToTargetExponent_eq, if_pos hlt]
    rfl
  · have hne : rounded m (lastExponent m e - e).toNat ≠ 0 := by omega
    simp only [hrounded, hkept.shiftToTargetExponent_eq, if_neg hlt, dif_neg hne]
    rfl

/-! ### The order of values -/

/-- How many values there are between zero and a finite value. -/
def steps (m : Nat) (e : Int) : Int :=
  (e + 1074) * 2 ^ 52 + m

/-- The steps from zero to infinity. -/
def infiniteSteps : Int :=
  2047 * 2 ^ 52

/-- Where a number stands among all values. -/
def place : UnpackedFloat → Int
  | .notANumber | .zero _ => 0
  | .finite s m e _ => s.apply (steps m e)
  | .infinity s => s.apply infiniteSteps

/-- A finite number that is stored as it is. -/
def IsCanonical : UnpackedFloat → Prop
  | .finite _ m e _ => Canonical m e ∧ e ≤ 971
  | _ => True

theorem Canonical.steps_pos (h : Canonical m e) (hm : 0 < m) : 0 < steps m e := by
  have hle := h.le
  unfold steps
  omega

theorem Canonical.steps_lt (h : Canonical m e) (he : e ≤ 971) : steps m e < infiniteSteps := by
  have hlt := h.lt
  unfold steps infiniteSteps
  omega

/-- Values with the same sign come in the order of their exponents, and those with the same exponent
in the order of their mantissas. -/
theorem Canonical.compare_eq (h : Canonical m e) (h' : Canonical n f) :
    (compare e f).then (compare m n) = compare (steps m e) (steps n f) := by
  have hm := h.lt
  have hn := h'.lt
  have hsmallest := h.le
  have hsmallest' := h'.le
  rcases Int.lt_trichotomy e f with hef | rfl | hef
  · have hfull := h'.full
    have hlt : steps m e < steps n f := by
      unfold steps
      omega
    rw [Int.compare_eq_lt.mpr hef, Int.compare_eq_lt.mpr hlt]
    rfl
  · rw [Int.compare_eq_eq.mpr rfl]
    change compare m n = compare ((e + 1074) * 2 ^ 52 + (m : Int)) ((e + 1074) * 2 ^ 52 + (n : Int))
    rcases Nat.lt_trichotomy m n with hmn | rfl | hmn
    · rw [Nat.compare_eq_lt.mpr hmn, Int.compare_eq_lt.mpr (by omega)]
    · rw [Nat.compare_eq_eq.mpr rfl, Int.compare_eq_eq.mpr rfl]
    · rw [Nat.compare_eq_gt.mpr hmn, Int.compare_eq_gt.mpr (by omega)]
  · have hfull := h.full
    have hlt : steps n f < steps m e := by
      unfold steps
      omega
    rw [Int.compare_eq_gt.mpr hef, Int.compare_eq_gt.mpr hlt]
    rfl

theorem compare_eq_some_lt {i j : Int} (h : i < j) : some Ordering.lt = some (compare i j) := by
  rw [Int.compare_eq_lt.mpr h]

theorem compare_eq_some_gt {i j : Int} (h : j < i) : some Ordering.gt = some (compare i j) := by
  rw [Int.compare_eq_gt.mpr h]

theorem compare_neg_neg (i j : Int) : compare (-i) (-j) = (compare i j).swap := by
  rcases Int.lt_trichotomy i j with h | rfl | h
  · rw [Int.compare_eq_lt.mpr h, Int.compare_eq_gt.mpr (by omega)]
    rfl
  · rw [Int.compare_eq_eq.mpr rfl, Int.compare_eq_eq.mpr rfl]
    rfl
  · rw [Int.compare_eq_gt.mpr h, Int.compare_eq_lt.mpr (by omega)]
    rfl

variable {u v : UnpackedFloat}

/-- Finite values stand between the infinite ones. -/
theorem IsCanonical.place_lt {s : Sign} {hm : 0 < m} (h : IsCanonical (.finite s m e hm)) :
    -infiniteSteps < place (.finite s m e hm) ∧ place (.finite s m e hm) < infiniteSteps := by
  have hpos := h.1.steps_pos hm
  have hlt := h.1.steps_lt h.2
  cases s with
  | negative =>
    change -infiniteSteps < -steps m e ∧ -steps m e < infiniteSteps
    omega
  | positive =>
    change -infiniteSteps < steps m e ∧ steps m e < infiniteSteps
    omega

/-- Numbers come in the order of their places. -/
theorem compare_eq_compare_place (hu : IsCanonical u) (hv : IsCanonical v) (hu' : u ≠ .notANumber)
    (hv' : v ≠ .notANumber) : u.compare v = some (compare (place u) (place v)) := by
  cases u with
  | notANumber => exact absurd rfl hu'
  | infinity s =>
    cases v with
    | notANumber => exact absurd rfl hv'
    | infinity t => cases s <;> cases t <;> rfl
    | zero t => cases s <;> rfl
    | finite t n f hn =>
      obtain ⟨hlow, hhigh⟩ := hv.place_lt
      cases s with
      | negative => exact compare_eq_some_lt hlow
      | positive => exact compare_eq_some_gt hhigh
  | zero s =>
    cases v with
    | notANumber => exact absurd rfl hv'
    | infinity t => cases t <;> rfl
    | zero t => rfl
    | finite t n f hn =>
      have hpos := hv.1.steps_pos hn
      cases t with
      | negative => exact compare_eq_some_gt (Int.neg_neg_of_pos hpos)
      | positive => exact compare_eq_some_lt hpos
  | finite s m e hm =>
    have hpos := hu.1.steps_pos hm
    cases v with
    | notANumber => exact absurd rfl hv'
    | infinity t =>
      obtain ⟨hlow, hhigh⟩ := hu.place_lt
      cases t with
      | negative => cases s <;> exact compare_eq_some_gt hlow
      | positive => cases s <;> exact compare_eq_some_lt hhigh
    | zero t =>
      cases s with
      | negative => exact compare_eq_some_lt (Int.neg_neg_of_pos hpos)
      | positive => exact compare_eq_some_gt hpos
    | finite t n f hn =>
      have hpos' := hv.1.steps_pos hn
      have heq := hu.1.compare_eq hv.1
      cases s with
      | negative =>
        cases t with
        | negative =>
          change some ((compare e f).then (compare m n)).swap = some (compare (-steps m e) (-steps n f))
          rw [heq, compare_neg_neg]
        | positive => exact compare_eq_some_lt (Int.lt_trans (Int.neg_neg_of_pos hpos) hpos')
      | positive =>
        cases t with
        | negative => exact compare_eq_some_gt (Int.lt_trans (Int.neg_neg_of_pos hpos') hpos)
        | positive => exact congrArg some heq

theorem isCanonical_unpacked (x : Float) : IsCanonical (unpacked x) := by
  cases hu : unpacked x with
  | notANumber | infinity | zero => trivial
  | finite s m e hm => exact ⟨canonical_unpacked hu, exponent_le_of_unpacked hu⟩

theorem unpacked_ne_notANumber {x : Float} (h : x.isNaN = false) : unpacked x ≠ .notANumber :=
  fun hu => Bool.eq_false_iff.mp h (isNaN_iff.mpr hu)

theorem lt_iff_place_lt {x y : Float} (hx : x.isNaN = false) (hy : y.isNaN = false) :
    x < y ↔ place (unpacked x) < place (unpacked y) := by
  rw [lt_iff, compare_eq_compare_place (isCanonical_unpacked x) (isCanonical_unpacked y)
    (unpacked_ne_notANumber hx) (unpacked_ne_notANumber hy), Option.some_inj, Int.compare_eq_lt]

theorem le_iff_place_le {x y : Float} (hx : x.isNaN = false) (hy : y.isNaN = false) :
    x ≤ y ↔ place (unpacked x) ≤ place (unpacked y) := by
  rw [le_iff, compare_eq_compare_place (isCanonical_unpacked x) (isCanonical_unpacked y)
    (unpacked_ne_notANumber hx) (unpacked_ne_notANumber hy)]
  simp only [Option.some_inj, exists_eq_left', Int.isLE_compare]

theorem le_of_not_lt {x y : Float} (hx : x.isNaN = false) (hy : y.isNaN = false) (h : ¬ y < x) :
    x ≤ y := by
  rw [lt_iff_place_lt hy hx] at h
  rw [le_iff_place_le hx hy]
  exact Int.not_lt.mp h

/-- Only numbers compare at all, and numbers come in the order of their places. -/
theorem lt_of_le_lt {x y z : Float} (hxy : x ≤ y) (hyz : y < z) : x < z := by
  have hx : x.isNaN = false := Bool.eq_false_iff.mpr fun h => not_le_of_isNaN_left h y hxy
  have hy : y.isNaN = false := Bool.eq_false_iff.mpr fun h => not_le_of_isNaN_right h x hxy
  have hz : z.isNaN = false := Bool.eq_false_iff.mpr fun h => not_lt_of_isNaN_right h y hyz
  rw [le_iff_place_le hx hy] at hxy
  rw [lt_iff_place_lt hy hz] at hyz
  rw [lt_iff_place_lt hx hz]
  exact Int.lt_of_le_of_lt hxy hyz

/-! ### Places of rounded numbers -/

/-- Digits that have been rounded to a power of two stand where that power does. -/
theorem steps_two_pow (e : Int) : steps (2 ^ 52) (e + 1) = steps (2 ^ 53) e := by
  unfold steps
  omega

/-- What is rounded above all finite values is infinite. -/
theorem Canonical.place_ofUnpacked {s : Sign} {hm : 0 < m} (h : Canonical m e) :
    place (unpacked (ofUnpacked (.finite s m e hm))) = s.apply (min (steps m e) infiniteSteps) := by
  rw [unpacked_ofUnpacked_finite h]
  split
  · rename_i he
    rw [Int.min_eq_left (Int.le_of_lt (h.steps_lt he))]
    rfl
  · rename_i he
    have hfull : 2 ^ 52 ≤ m := h.full.resolve_right (by omega)
    have hge : infiniteSteps ≤ steps m e := by
      unfold steps infiniteSteps
      omega
    rw [Int.min_eq_right hge]
    rfl

theorem Kept.place_ofRounded (s : Sign) (h : Kept m e) :
    place (unpacked (ofUnpacked (ofRounded s m e))) = s.apply (min (steps m e) infiniteSteps) := by
  have hsmallest := h.smallest
  unfold ofRounded
  split
  · rename_i hm
    subst hm
    obtain rfl : e = -1074 := h.full.resolve_left (by decide)
    rw [unpacked_ofUnpacked_zero]
    cases s <;> rfl
  split
  · rename_i hlt
    exact Canonical.place_ofUnpacked ⟨hlt, h.full, hsmallest⟩
  · obtain rfl : m = 2 ^ 53 := by
      have hle := h.le
      omega
    rw [Canonical.place_ofUnpacked ⟨by decide, .inl (Nat.le_refl _), by omega⟩, steps_two_pow]

theorem log2_mul_two_pow (hm : 0 < m) (k : Nat) : (m * 2 ^ k).log2 = m.log2 + k := by
  have hne : m * 2 ^ k ≠ 0 := Nat.ne_of_gt (Nat.mul_pos hm (Nat.two_pow_pos k))
  rw [Nat.log2_eq_iff hne, Nat.pow_add, Nat.add_right_comm, Nat.pow_add]
  exact ⟨Nat.mul_le_mul_right _ (Nat.log2_self_le (Nat.ne_of_gt hm)),
    Nat.mul_lt_mul_of_pos_right Nat.lt_log2_self (Nat.two_pow_pos k)⟩

/-- The digits of `m * 2^e` up to the last one that is kept. -/
def keptDigits (m : Nat) (e : Int) : Nat :=
  rounded (m * 2 ^ (e - lastExponent m e).toNat) (lastExponent m e - e).toNat

theorem lastExponent_mul_two_pow (hm : 0 < m) (e : Int) :
    lastExponent (m * 2 ^ (e - lastExponent m e).toNat) (e - (e - lastExponent m e).toNat)
      = lastExponent m e := by
  unfold lastExponent
  rw [log2_mul_two_pow hm]
  omega

/-- Rounding to the nearest value. -/
theorem round_eq (s : Sign) (hm : 0 < m) (e : Int) :
    UnpackedFloat.round .binary64 s m e = ofRounded s (keptDigits m e) (lastExponent m e) ∧
      Kept (keptDigits m e) (lastExponent m e) := by
  have hlast := lastExponent_mul_two_pow hm e
  have hpos : 0 < m * 2 ^ (e - lastExponent m e).toNat := Nat.mul_pos hm (Nat.two_pow_pos _)
  have hshift : lastExponent m e - (e - (e - lastExponent m e).toNat)
      = ((lastExponent m e - e).toNat : Int) := by omega
  have heq := roundWithAccuracy_eq s hpos (e := e - (e - lastExponent m e).toNat) (by omega)
  have hkept := kept_rounded hpos (e := e - (e - lastExponent m e).toNat) (by omega)
  rw [hlast, hshift, Int.toNat_natCast] at heq hkept
  refine ⟨?_, hkept⟩
  unfold UnpackedFloat.round
  rw [targetExponent_eq]
  dsimp only [decreaseExponent]
  rw [Nat.shiftLeft_eq]
  exact heq

/-- The steps from zero to the value that `m * 2^e` is rounded to. -/
def roundedSteps (m : Nat) (e : Int) : Int :=
  min (steps (keptDigits m e) (lastExponent m e)) infiniteSteps

theorem place_round (s : Sign) (hm : 0 < m) (e : Int) :
    place (unpacked (ofUnpacked (UnpackedFloat.round .binary64 s m e)))
      = s.apply (roundedSteps m e) := by
  obtain ⟨heq, hkept⟩ := round_eq s hm e
  rw [heq, hkept.place_ofRounded]
  rfl

theorem roundedSteps_nonneg (hm : 0 < m) (e : Int) : 0 ≤ roundedSteps m e := by
  obtain ⟨-, hkept⟩ := round_eq .positive hm e
  have hsmallest := hkept.smallest
  unfold roundedSteps infiniteSteps steps
  omega

/-- Of two numbers with the same exponent, the smaller one is not rounded to a greater value. -/
theorem roundedSteps_le (hm : 0 < m) (h : m ≤ n) (e : Int) :
    roundedSteps m e ≤ roundedSteps n e := by
  have hlog : m.log2 ≤ n.log2 := by
    rw [Nat.le_log2 (by omega)]
    exact Nat.le_trans (Nat.log2_self_le (Nat.ne_of_gt hm)) h
  have hlast : lastExponent m e ≤ lastExponent n e := by
    unfold lastExponent
    omega
  have hsteps : steps (keptDigits m e) (lastExponent m e)
      ≤ steps (keptDigits n e) (lastExponent n e) := by
    rcases Int.lt_or_eq_of_le hlast with hlt | heq
    · -- The mantissa of the greater number is full, and no other one is twice as large.
      obtain ⟨-, hkept⟩ := round_eq .positive hm e
      obtain ⟨-, hkept'⟩ := round_eq .positive (Nat.lt_of_lt_of_le hm h) e
      have hle := hkept.le
      have hsmallest := hkept.smallest
      have hfull : 2 ^ 52 ≤ keptDigits n e := hkept'.full.resolve_right (by omega)
      unfold steps
      omega
    · have hdigits : keptDigits m e ≤ keptDigits n e := by
        unfold keptDigits
        rw [heq]
        exact rounded_le (Nat.mul_le_mul_right _ h) _
      unfold steps
      omega
  unfold roundedSteps
  omega

theorem place_normalize (i e : Int) :
    place (unpacked (ofUnpacked (UnpackedFloat.normalize .binary64 i e .positive)))
      = i.sign * roundedSteps i.natAbs e := by
  unfold UnpackedFloat.normalize
  rcases Int.lt_trichotomy i 0 with hi | rfl | hi
  · have habs : (-i).toNat = i.natAbs := by omega
    rw [Int.compare_eq_lt.mpr hi, Int.sign_eq_neg_one_of_neg hi, Int.neg_one_mul]
    dsimp only
    rw [habs, place_round _ (by omega)]
    rfl
  · rw [Int.compare_eq_eq.mpr rfl, Int.sign_zero, Int.zero_mul]
    dsimp only
    rw [unpacked_ofUnpacked_zero]
    rfl
  · have habs : i.toNat = i.natAbs := by omega
    rw [Int.compare_eq_gt.mpr hi, Int.sign_eq_one_of_pos hi, Int.one_mul]
    dsimp only
    rw [habs, place_round _ (by omega)]
    rfl

/-- The same for numbers with a sign. -/
theorem place_normalize_le {i j : Int} (h : i ≤ j) (e : Int) :
    place (unpacked (ofUnpacked (UnpackedFloat.normalize .binary64 i e .positive)))
      ≤ place (unpacked (ofUnpacked (UnpackedFloat.normalize .binary64 j e .positive))) := by
  rw [place_normalize, place_normalize]
  have hnonneg : ∀ k : Int, k ≠ 0 → 0 ≤ roundedSteps k.natAbs e := fun k hk =>
    roundedSteps_nonneg (by omega) e
  rcases Int.lt_trichotomy i 0 with hi | rfl | hi
  · have hle := hnonneg i (by omega)
    rw [Int.sign_eq_neg_one_of_neg hi]
    rcases Int.lt_trichotomy j 0 with hj | rfl | hj
    · have hge := roundedSteps_le (m := j.natAbs) (n := i.natAbs) (by omega) (by omega) e
      rw [Int.sign_eq_neg_one_of_neg hj]
      omega
    · rw [Int.sign_zero]
      omega
    · have hge := hnonneg j (by omega)
      rw [Int.sign_eq_one_of_pos hj]
      omega
  · rw [Int.sign_zero, Int.zero_mul]
    rcases Int.lt_or_eq_of_le h with hj | rfl
    · rw [Int.sign_eq_one_of_pos hj, Int.one_mul]
      exact hnonneg j (by omega)
    · exact Int.le_of_eq (by rw [Int.sign_zero, Int.zero_mul])
  · have hle := roundedSteps_le (m := i.natAbs) (n := j.natAbs) (by omega) (by omega) e
    rw [Int.sign_eq_one_of_pos hi, Int.sign_eq_one_of_pos (by omega)]
    omega

/-! ### Sums and differences -/

variable {x y : Float}

theorem not_lt_of_place_le (h : place (unpacked y) ≤ place (unpacked x)) : ¬ x < y := by
  intro hlt
  have hx : x.isNaN = false := Bool.eq_false_iff.mpr fun hnan => not_lt_of_isNaN_left hnan _ hlt
  have hy : y.isNaN = false := Bool.eq_false_iff.mpr fun hnan => not_lt_of_isNaN_right hnan _ hlt
  exact Int.not_lt.mpr h ((lt_iff_place_lt hx hy).mp hlt)

theorem place_of_hasSign {s : Sign} (h : HasSign s u) (hu : IsCanonical u) :
    0 ≤ s.apply (place u) := by
  cases u with
  | notANumber => exact h.elim
  | infinity t | zero t =>
    cases h
    cases s <;> decide
  | finite t m e hm =>
    cases h
    have hpos := hu.1.steps_pos hm
    cases s with
    | negative =>
      change 0 ≤ -(-steps m e)
      omega
    | positive => exact Int.le_of_lt hpos

/-- To add what is not negative gives no less than to subtract it. -/
theorem place_sub_le_place_add (hv : ¬ IsNegative v) :
    place (unpacked (ofUnpacked (UnpackedFloat.sub .binary64 u v)))
      ≤ place (unpacked (ofUnpacked (UnpackedFloat.add .binary64 u v))) := by
  cases u with
  | notANumber => cases v <;> exact Int.le_refl _
  | infinity s =>
    cases v with
    | notANumber | zero | finite => exact Int.le_refl _
    | infinity t =>
      cases t with
      | negative => exact absurd trivial hv
      | positive => cases s <;> decide +kernel
  | zero s =>
    cases v with
    | notANumber => exact Int.le_refl _
    | infinity t =>
      cases t with
      | negative => exact absurd trivial hv
      | positive => cases s <;> decide +kernel
    | zero t => cases s <;> cases t <;> decide +kernel
    | finite t n f hn =>
      cases t with
      | negative => exact absurd trivial hv
      | positive =>
        have hneg : HasSign .negative (.finite .negative n f hn) := rfl
        have hpos : HasSign .positive (.finite .positive n f hn) := rfl
        have hle : 0 ≤ -place _ :=
          place_of_hasSign hneg.unpacked_ofUnpacked (isCanonical_unpacked _)
        have hge : 0 ≤ place _ :=
          place_of_hasSign hpos.unpacked_ofUnpacked (isCanonical_unpacked _)
        change place (unpacked (ofUnpacked (.finite .negative n f hn)))
          ≤ place (unpacked (ofUnpacked (.finite .positive n f hn)))
        omega
  | finite s m e hm =>
    cases v with
    | notANumber | zero => exact Int.le_refl _
    | infinity t =>
      cases t with
      | negative => exact absurd trivial hv
      | positive =>
        change place (unpacked (ofUnpacked (.infinity .negative)))
          ≤ place (unpacked (ofUnpacked (.infinity .positive)))
        decide +kernel
    | finite t n f hn =>
      cases t with
      | negative => exact absurd trivial hv
      | positive =>
        refine place_normalize_le ?_ _
        exact Int.le_trans (Int.sub_le_self _ (Int.natCast_nonneg _))
          (Int.le_add_of_nonneg_right (Int.natCast_nonneg _))

theorem not_add_lt_sub (hy : NotNegative y) : ¬ x + y < x - y :=
  not_lt_of_place_le (place_sub_le_place_add (notNegative_iff.mp hy))

/-- All digits of a value are kept. -/
theorem Canonical.lastExponent_eq (h : Canonical m e) (hm : 0 < m) (k : Nat) :
    lastExponent (m * 2 ^ k) (e - k) = e := by
  have hlog : m.log2 < 53 := (Nat.log2_lt (Nat.ne_of_gt hm)).mpr h.lt
  have hfull : m.log2 = 52 ∨ e = -1074 := by
    refine h.full.imp (fun hm' => ?_) id
    exact (Nat.log2_eq_iff (Nat.ne_of_gt hm)).mpr ⟨hm', h.lt⟩
  have hsmallest := h.le
  unfold lastExponent
  rw [log2_mul_two_pow hm]
  omega

/-- A value is rounded to itself. -/
theorem Canonical.roundedSteps_eq (h : Canonical m e) (he : e ≤ 971) (hm : 0 < m) (k : Nat) :
    roundedSteps (m * 2 ^ k) (e - k) = steps m e := by
  have hlast := h.lastExponent_eq hm k
  have hdigits : keptDigits (m * 2 ^ k) (e - k) = m := by
    have hnone : (e - k - e).toNat = 0 := by omega
    have hshift : (e - (e - k)).toNat = k := by omega
    unfold keptDigits
    rw [hlast, hnone, hshift, Nat.pow_zero, Nat.mul_one, rounded_mul_two_pow]
  unfold roundedSteps
  rw [hlast, hdigits, Int.min_eq_left (Int.le_of_lt (h.steps_lt he))]

theorem place_normalize_apply {s : Sign} {hm : 0 < m} (h : IsCanonical (.finite s m e hm))
    (hf : f ≤ e) :
    place (unpacked (ofUnpacked
      (UnpackedFloat.normalize .binary64 (s.apply ↑(m <<< (e - f).toNat)) f .positive)))
      = place (.finite s m e hm) := by
  have hpos : 0 < m * 2 ^ (e - f).toNat := Nat.mul_pos hm (Nat.two_pow_pos _)
  have hexponent : e - (e - f).toNat = f := by omega
  have hsteps := h.1.roundedSteps_eq h.2 hm (e - f).toNat
  rw [hexponent] at hsteps
  rw [place_normalize, Nat.shiftLeft_eq]
  generalize m * 2 ^ (e - f).toNat = n at hpos hsteps
  cases s with
  | negative =>
    change (-(n : Int)).sign * roundedSteps (-(n : Int)).natAbs f = -steps m e
    rw [Int.sign_eq_neg_one_of_neg (by omega), Int.natAbs_neg, Int.natAbs_natCast, hsteps,
      Int.neg_one_mul]
  | positive =>
    change (n : Int).sign * roundedSteps (n : Int).natAbs f = steps m e
    rw [Int.sign_eq_one_of_pos (by omega), Int.natAbs_natCast, hsteps, Int.one_mul]

/-- To subtract what is not negative gives no more than there was. -/
theorem place_sub_le (hu : IsCanonical u) (hv : ¬ IsNegative v) (hv' : v ≠ .notANumber) :
    place (unpacked (ofUnpacked (UnpackedFloat.sub .binary64 u v))) ≤ place u := by
  cases u with
  | notANumber =>
    have hundefined : UnpackedFloat.sub .binary64 .notANumber v = .notANumber := by
      cases v <;> rfl
    exact Int.le_of_eq (by rw [hundefined, unpacked_ofUnpacked_notANumber])
  | infinity s =>
    cases v with
    | notANumber => exact absurd rfl hv'
    | zero | finite =>
      exact Int.le_of_eq (congrArg place (unpacked_ofUnpacked_infinity s))
    | infinity t =>
      cases t with
      | negative => exact absurd trivial hv
      | positive => cases s <;> decide +kernel
  | zero s =>
    cases v with
    | notANumber => exact absurd rfl hv'
    | infinity t =>
      cases t with
      | negative => exact absurd trivial hv
      | positive => cases s <;> decide +kernel
    | zero t => cases s <;> cases t <;> decide +kernel
    | finite t n f hn =>
      cases t with
      | negative => exact absurd trivial hv
      | positive =>
        have hneg : HasSign .negative (.finite .negative n f hn) := rfl
        have hle : 0 ≤ -place _ :=
          place_of_hasSign hneg.unpacked_ofUnpacked (isCanonical_unpacked _)
        change place (unpacked (ofUnpacked (.finite .negative n f hn))) ≤ 0
        omega
  | finite s m e hm =>
    cases v with
    | notANumber => exact absurd rfl hv'
    | zero t =>
      have hsame : unpacked (ofUnpacked (.finite s m e hm)) = .finite s m e hm := by
        rw [unpacked_ofUnpacked_finite hu.1, if_pos hu.2]
      exact Int.le_of_eq (congrArg place hsame)
    | infinity t =>
      cases t with
      | negative => exact absurd trivial hv
      | positive =>
        change place (unpacked (ofUnpacked (.infinity .negative))) ≤ _
        rw [unpacked_ofUnpacked_infinity]
        exact Int.le_of_lt hu.place_lt.1
    | finite t n f hn =>
      cases t with
      | negative => exact absurd trivial hv
      | positive =>
        have hle := place_normalize_le (Int.sub_le_self (s.apply ↑(m <<< (e - min e f).toNat))
          (Int.natCast_nonneg (n <<< (f - min e f).toNat))) (min e f)
        rw [place_normalize_apply hu (Int.min_le_left e f)] at hle
        exact hle

theorem isNegative_iff_place_neg (hu : IsCanonical u) : IsNegative u ↔ place u < 0 := by
  cases u with
  | notANumber | zero => exact ⟨False.elim, fun h => absurd h (Int.lt_irrefl 0)⟩
  | infinity s =>
    cases s with
    | negative => exact ⟨fun _ => by decide, fun _ => trivial⟩
    | positive => exact ⟨False.elim, fun h => absurd h (by decide)⟩
  | finite s m e hm =>
    have hpos := hu.1.steps_pos hm
    cases s with
    | negative => exact ⟨fun _ => Int.neg_neg_of_pos hpos, fun _ => trivial⟩
    | positive => exact ⟨False.elim, fun h => absurd h (Int.not_lt.mpr (Int.le_of_lt hpos))⟩

/-- What is below zero stays there when something that is not negative is subtracted. -/
theorem sub_lt_zero (hx : x < 0.0) (hy : NotNegative y) (hy' : y.isNaN = false) : x - y < 0.0 := by
  have hle := place_sub_le (isCanonical_unpacked x) (notNegative_iff.mp hy)
    (unpacked_ne_notANumber hy')
  rw [lt_zero_iff, isNegative_iff_place_neg (isCanonical_unpacked _)] at hx ⊢
  exact Int.lt_of_le_of_lt hle hx

end TextureGraph.Binary64
