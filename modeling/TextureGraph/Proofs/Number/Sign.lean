import TextureGraph.Proofs.Number.Unpacked

/-!
# Signs of binary floating point

* `Unsigned`: no sign bit, be it a positive number, positive zero or an undefined value.  Sums, products
  and square roots of such values have none either.
* `NotNegative`: not before zero, which negative zero is not either.  Sums, products, maxima and
  minima of such values are again not negative, and so are quotients by an unsigned value.
* `lt_of_sub_lt_zero`: a difference comes before zero only where the minuend comes before the
  subtrahend.
-/

namespace TextureGraph.Binary64

open Float.Model UnpackedFloat

variable {x y : Float} {u v : UnpackedFloat} {spec : Format}

/-! ### Rounding keeps signs -/

theorem HasSign.unique {s t : Sign} (hs : HasSign s u) (ht : HasSign t u) : s = t := by
  cases u with
  | notANumber => exact hs.elim
  | infinity | zero | finite => exact Eq.trans (Eq.symm hs) ht

theorem HasSign.not_negative (h : HasSign .positive u) : ¬ HasSign .negative u :=
  fun hneg => by cases h.unique hneg

theorem hasSign_roundWithAccuracy (spec : Format) (s : Sign) (m : Nat) (e : Int) (a : Accuracy) :
    HasSign s (roundWithAccuracy spec s m e a) := by
  unfold roundWithAccuracy
  dsimp only
  split <;> rfl

theorem hasSign_normalize {m : Int} (hm : 0 ≤ m) (e : Int) :
    HasSign .positive (UnpackedFloat.normalize spec m e .positive) := by
  unfold UnpackedFloat.normalize
  split
  · rename_i hlt
    rw [Int.compare_eq_lt] at hlt
    omega
  · rfl
  · exact hasSign_roundWithAccuracy ..

/-! ### Values without a sign bit -/

/-- A number with a positive sign, zero included, or an undefined value. -/
def Unsigned (x : Float) : Prop :=
  ¬ HasSign .negative (unpacked x)

theorem HasSign.unsigned_ofUnpacked (h : HasSign .positive u) : Unsigned (ofUnpacked u) :=
  h.unpacked_ofUnpacked.not_negative

theorem unsigned_ofUnpacked (h : ¬ HasSign .negative u) : Unsigned (ofUnpacked u) := by
  cases u with
  | notANumber => exact id
  | infinity s | zero s | finite s =>
    cases s with
    | negative => exact absurd rfl h
    | positive => exact HasSign.unsigned_ofUnpacked rfl

theorem unsigned_abs (x : Float) : Unsigned x.abs := by
  refine unsigned_ofUnpacked ?_
  cases x.toModel.unpack with
  | notANumber => exact id
  | infinity | zero | finite => exact nofun

theorem unsigned_mul_self (x : Float) : Unsigned (x * x) := by
  refine unsigned_ofUnpacked ?_
  cases x.toModel.unpack with
  | notANumber => exact id
  | infinity s | zero s => cases s <;> exact nofun
  | finite s => cases s <;> exact (hasSign_roundWithAccuracy ..).not_negative

theorem not_hasSign_negative_add (hu : ¬ HasSign .negative u) (hv : ¬ HasSign .negative v) :
    ¬ HasSign .negative (UnpackedFloat.add spec u v) := by
  cases u with
  | notANumber => exact id
  | infinity s =>
    cases v with
    | notANumber => exact id
    | infinity t =>
      dsimp only [UnpackedFloat.add]
      split
      · exact hu
      · exact id
    | zero | finite => exact hu
  | zero s =>
    cases v with
    | notANumber => exact id
    | zero t =>
      dsimp only [UnpackedFloat.add]
      split
      · exact hu
      · exact nofun
    | infinity | finite => exact hv
  | finite s m e =>
    cases v with
    | notANumber => exact id
    | infinity => exact hv
    | zero => exact hu
    | finite t n f =>
      cases s with
      | negative => exact absurd rfl hu
      | positive =>
        cases t with
        | negative => exact absurd rfl hv
        | positive => exact (hasSign_normalize (by exact Int.natCast_nonneg _) _).not_negative

theorem Unsigned.add (hx : Unsigned x) (hy : Unsigned y) : Unsigned (x + y) :=
  unsigned_ofUnpacked (not_hasSign_negative_add hx hy)

theorem not_hasSign_negative_mul (hu : ¬ HasSign .negative u) (hv : ¬ HasSign .negative v) :
    ¬ HasSign .negative (UnpackedFloat.mul spec u v) := by
  cases u with
  | notANumber => exact id
  | infinity s | zero s =>
    cases s with
    | negative => exact absurd rfl hu
    | positive =>
      cases v with
      | notANumber => exact id
      | infinity t | zero t | finite t =>
        cases t with
        | negative => exact absurd rfl hv
        | positive =>
          intro hneg
          cases hneg
  | finite s =>
    cases s with
    | negative => exact absurd rfl hu
    | positive =>
      cases v with
      | notANumber => exact id
      | infinity t | zero t =>
        cases t with
        | negative => exact absurd rfl hv
        | positive => exact nofun
      | finite t =>
        cases t with
        | negative => exact absurd rfl hv
        | positive => exact (hasSign_roundWithAccuracy ..).not_negative

theorem Unsigned.mul (hx : Unsigned x) (hy : Unsigned y) : Unsigned (x * y) :=
  unsigned_ofUnpacked (not_hasSign_negative_mul hx hy)

/-- The square root of a negative number is undefined. -/
theorem Unsigned.sqrt (hx : Unsigned x) : Unsigned x.sqrt := by
  refine unsigned_ofUnpacked ?_
  change ¬ HasSign .negative (unpacked x) at hx
  change ¬ HasSign .negative (UnpackedFloat.sqrt _ (unpacked x))
  cases hu : unpacked x with
  | notANumber => exact id
  | infinity s | zero s =>
    cases s with
    | negative => exact absurd (by rw [hu]; rfl) hx
    | positive => exact nofun
  | finite s =>
    cases s with
    | negative => exact id
    | positive => exact (hasSign_roundWithAccuracy ..).not_negative

theorem unsigned_of_pos (h : 0.0 < x) : Unsigned x := by
  have hzero : unpacked 0.0 = .zero .positive := rfl
  rw [lt_iff, hzero] at h
  unfold Unsigned
  cases hu : unpacked x with
  | notANumber => exact id
  | zero s =>
    rw [hu] at h
    cases h
  | infinity s | finite s =>
    rw [hu] at h
    cases s with
    | negative => cases h
    | positive => exact nofun

theorem unsigned_of_not_le_zero (h : ¬ x ≤ 0.0) : Unsigned x := by
  have hzero : unpacked 0.0 = .zero .positive := rfl
  rw [le_iff, hzero] at h
  unfold Unsigned
  cases hu : unpacked x with
  | notANumber => exact id
  | zero s =>
    rw [hu] at h
    exact absurd ⟨_, rfl, rfl⟩ h
  | infinity s | finite s =>
    rw [hu] at h
    cases s with
    | negative => exact absurd ⟨_, rfl, rfl⟩ h
    | positive => exact nofun

/-! ### Values that are not negative -/

/-- A number before zero. -/
def IsNegative : UnpackedFloat → Prop
  | .infinity .negative | .finite .negative _ _ _ => True
  | _ => False

theorem IsNegative.hasSign (h : IsNegative u) : HasSign .negative u := by
  cases u with
  | notANumber | zero => exact h.elim
  | infinity s | finite s =>
    cases s with
    | negative => rfl
    | positive => exact h.elim

theorem not_isNegative_iff :
    ¬ IsNegative u ↔ ¬ HasSign .negative u ∨ u = .zero .negative := by
  constructor
  · intro h
    cases u with
    | notANumber => exact .inl id
    | zero s =>
      cases s with
      | negative => exact .inr rfl
      | positive => exact .inl nofun
    | infinity s | finite s =>
      cases s with
      | negative => exact absurd trivial h
      | positive => exact .inl nofun
  · rintro (h | rfl)
    · exact fun hneg => h hneg.hasSign
    · exact id

theorem lt_zero_iff : x < 0.0 ↔ IsNegative (unpacked x) := by
  have hzero : unpacked 0.0 = .zero .positive := rfl
  rw [lt_iff, hzero]
  cases unpacked x with
  | notANumber | zero => exact ⟨nofun, False.elim⟩
  | infinity s | finite s =>
    cases s with
    | negative => exact ⟨fun _ => trivial, fun _ => rfl⟩
    | positive => exact ⟨nofun, False.elim⟩

/-- Not before zero, which no undefined value is. -/
def NotNegative (x : Float) : Prop :=
  ¬ x < 0.0

instance (x : Float) : Decidable (NotNegative x) :=
  inferInstanceAs (Decidable ¬ x < 0.0)

theorem notNegative_iff : NotNegative x ↔ ¬ IsNegative (unpacked x) :=
  not_congr lt_zero_iff

theorem notNegative_iff_le : NotNegative x ↔ 0.0 ≤ x ∨ x.isNaN = true := by
  have hzero : unpacked 0.0 = .zero .positive := rfl
  rw [notNegative_iff, le_iff, isNaN_iff, hzero]
  cases unpacked x with
  | notANumber => exact ⟨fun _ => .inr rfl, fun _ => id⟩
  | zero s => exact ⟨fun _ => .inl ⟨.eq, rfl, rfl⟩, fun _ => id⟩
  | infinity s | finite s =>
    cases s with
    | negative =>
      refine ⟨fun h => absurd trivial h, ?_⟩
      rintro (⟨o, ho, hle⟩ | h)
      · cases ho
        cases hle
      · cases h
    | positive => exact ⟨fun _ => .inl ⟨.lt, rfl, rfl⟩, fun _ => id⟩

theorem Unsigned.notNegative (h : Unsigned x) : NotNegative x :=
  notNegative_iff.mpr (not_isNegative_iff.mpr (.inl h))

/-- Of the values that are not negative, only negative zero has a sign bit. -/
theorem NotNegative.unsigned (h : NotNegative x) (hx : (x == 0.0) = false) : Unsigned x := by
  refine (not_isNegative_iff.mp (notNegative_iff.mp h)).resolve_right fun hzero => ?_
  rw [Bool.eq_false_iff, ne_eq, beq_iff, hzero] at hx
  exact hx rfl

theorem notNegative_abs (x : Float) : NotNegative x.abs :=
  (unsigned_abs x).notNegative

theorem notNegative_ofUnpacked (h : ¬ IsNegative u) : NotNegative (ofUnpacked u) := by
  rcases not_isNegative_iff.mp h with h | rfl
  · exact (unsigned_ofUnpacked h).notNegative
  · rw [notNegative_iff, unpacked_ofUnpacked_zero]
    exact id

theorem not_isNegative_add (hu : ¬ IsNegative u) (hv : ¬ IsNegative v) :
    ¬ IsNegative (UnpackedFloat.add spec u v) := by
  rcases not_isNegative_iff.mp hu with hu' | rfl
  · rcases not_isNegative_iff.mp hv with hv' | rfl
    · exact fun hneg => not_hasSign_negative_add hu' hv' hneg.hasSign
    · cases u with
      | notANumber => exact id
      | zero s => cases s <;> exact id
      | infinity | finite => exact hu
  · cases v with
    | notANumber => exact id
    | zero s => cases s <;> exact id
    | infinity | finite => exact hv

theorem NotNegative.add (hx : NotNegative x) (hy : NotNegative y) : NotNegative (x + y) :=
  notNegative_ofUnpacked (not_isNegative_add (notNegative_iff.mp hx) (notNegative_iff.mp hy))

theorem not_isNegative_mul (hu : ¬ IsNegative u) (hv : ¬ IsNegative v) :
    ¬ IsNegative (UnpackedFloat.mul spec u v) := by
  rcases not_isNegative_iff.mp hu with hu | rfl
  · rcases not_isNegative_iff.mp hv with hv | rfl
    · exact fun hneg => not_hasSign_negative_mul hu hv hneg.hasSign
    · cases u <;> exact id
  · cases v <;> exact id

theorem NotNegative.mul (hx : NotNegative x) (hy : NotNegative y) : NotNegative (x * y) :=
  notNegative_ofUnpacked (not_isNegative_mul (notNegative_iff.mp hx) (notNegative_iff.mp hy))

theorem not_isNegative_div (hu : ¬ IsNegative u) (hv : ¬ HasSign .negative v) :
    ¬ IsNegative (UnpackedFloat.div spec u v) := by
  cases u with
  | notANumber => exact id
  | zero s => cases v <;> exact id
  | infinity s =>
    cases s with
    | negative => exact absurd trivial hu
    | positive =>
      cases v with
      | notANumber | infinity => exact id
      | zero t | finite t =>
        cases t with
        | negative => exact absurd rfl hv
        | positive => exact id
  | finite s =>
    cases s with
    | negative => exact absurd trivial hu
    | positive =>
      cases v with
      | notANumber | infinity => exact id
      | zero t =>
        cases t with
        | negative => exact absurd rfl hv
        | positive => exact id
      | finite t =>
        cases t with
        | negative => exact absurd rfl hv
        | positive =>
          exact fun hneg => (hasSign_roundWithAccuracy ..).not_negative hneg.hasSign

/-- The divisor must not be negative zero, by which positive numbers are divided to negative
infinity. -/
theorem NotNegative.div (hx : NotNegative x) (hy : Unsigned y) : NotNegative (x / y) :=
  notNegative_ofUnpacked (not_isNegative_div (notNegative_iff.mp hx) hy)

theorem notNegative_sqrt (x : Float) : NotNegative x.sqrt := by
  refine notNegative_ofUnpacked ?_
  cases x.toModel.unpack with
  | notANumber | zero => exact id
  | infinity s => cases s <;> exact id
  | finite s =>
    cases s with
    | negative => exact id
    | positive => exact fun hneg => (hasSign_roundWithAccuracy ..).not_negative hneg.hasSign

theorem NotNegative.max (hx : NotNegative x) (hy : NotNegative y) :
    NotNegative (Arith.max x y) := by
  unfold Arith.max
  split
  · split
    · exact hy
    · exact hx
  · exact hy

theorem NotNegative.min (hx : NotNegative x) (hy : NotNegative y) :
    NotNegative (Arith.min x y) := by
  unfold Arith.min
  split
  · split
    · exact hy
    · exact hx
  · exact hy

theorem notNegative_max_zero (x : Float) : NotNegative (Arith.max x 0.0) := by
  have hzero : NotNegative 0.0 := by decide +kernel
  unfold Arith.max
  split
  · split
    · exact hzero
    · assumption
  · exact hzero

/-! ### Differences -/

/-- Values are compared by their exponents first. -/
theorem Canonical.compare_eq_lt {m n : Nat} {e f : Int} (h : Canonical m e) (h' : Canonical n f)
    (hlt : m * 2 ^ (e - min e f).toNat < n * 2 ^ (f - min e f).toNat) :
    (compare e f).then (compare m n) = .lt := by
  rcases Int.lt_trichotomy e f with hef | rfl | hef
  · rw [Int.compare_eq_lt.mpr hef]
    rfl
  · rw [Int.min_self, Int.sub_self, Int.toNat_zero, Nat.pow_zero, Nat.mul_one, Nat.mul_one] at hlt
    rw [Int.compare_eq_eq.mpr rfl, Nat.compare_eq_lt.mpr hlt]
    rfl
  · -- The mantissa with the greater exponent fills its bits, so the first value is the greater one.
    exfalso
    have hfull : 2 ^ 52 ≤ m := h.full.resolve_right fun he => by
      have hle := h'.le
      omega
    have hpow : 2 ^ 1 ≤ 2 ^ (e - min e f).toNat := Nat.pow_le_pow_right (by decide) (by omega)
    have hmin : (f - min e f).toNat = 0 := by omega
    rw [hmin, Nat.pow_zero, Nat.mul_one] at hlt
    have hge : 2 ^ 52 * 2 ^ 1 ≤ m * 2 ^ (e - min e f).toNat := Nat.mul_le_mul hfull hpow
    have hn := h'.lt
    omega

theorem Canonical.compare_eq_gt {m n : Nat} {e f : Int} (h : Canonical m e) (h' : Canonical n f)
    (hlt : n * 2 ^ (f - min e f).toNat < m * 2 ^ (e - min e f).toNat) :
    (compare e f).then (compare m n) = .gt := by
  rw [Int.min_comm] at hlt
  rw [← Int.compare_swap, ← Nat.compare_swap, ← Ordering.swap_then, h'.compare_eq_lt h hlt]
  rfl

theorem compare_finite_of_isNegative_sub {s t : Sign} {m n : Nat} {e f : Int} {hm : 0 < m}
    {hn : 0 < n} (hx : Canonical m e) (hy : Canonical n f)
    (hneg : IsNegative (UnpackedFloat.sub spec (.finite s m e hm) (.finite t n f hn))) :
    UnpackedFloat.compare (.finite s m e hm) (.finite t n f hn) = some .lt := by
  have hmantissa : s.apply ↑(m * 2 ^ (e - min e f).toNat)
      - t.apply ↑(n * 2 ^ (f - min e f).toNat) < 0 := by
    rw [← Nat.shiftLeft_eq, ← Nat.shiftLeft_eq]
    refine Int.not_le.mp fun hnonneg => ?_
    exact (hasSign_normalize hnonneg _).not_negative hneg.hasSign
  cases s with
  | negative =>
    cases t with
    | positive => rfl
    | negative =>
      dsimp only [Sign.apply] at hmantissa
      change some ((compare e f).then (compare m n)).swap = _
      rw [hx.compare_eq_gt hy (by omega)]
      rfl
  | positive =>
    cases t with
    | negative =>
      dsimp only [Sign.apply] at hmantissa
      omega
    | positive =>
      dsimp only [Sign.apply] at hmantissa
      change some ((compare e f).then (compare m n)) = _
      rw [hx.compare_eq_lt hy (by omega)]

/-- A difference comes before zero only where the minuend comes before the subtrahend. -/
theorem lt_of_sub_lt_zero (h : x - y < 0.0) : x < y := by
  have hneg : IsNegative (UnpackedFloat.sub .binary64 (unpacked x) (unpacked y)) :=
    Classical.not_not.mp fun hneg => notNegative_ofUnpacked hneg h
  rw [lt_iff]
  cases hu : unpacked x with
  | notANumber =>
    rw [hu] at hneg
    exact hneg.elim
  | infinity s =>
    rw [hu] at hneg
    cases hv : unpacked y with
    | notANumber =>
      rw [hv] at hneg
      exact hneg.elim
    | infinity t =>
      rw [hv] at hneg
      cases s <;> cases t <;> first | rfl | exact hneg.elim
    | zero | finite =>
      rw [hv] at hneg
      cases s with
      | negative => rfl
      | positive => exact hneg.elim
  | zero s =>
    rw [hu] at hneg
    cases hv : unpacked y with
    | notANumber =>
      rw [hv] at hneg
      exact hneg.elim
    | zero t =>
      rw [hv] at hneg
      cases s <;> cases t <;> exact hneg.elim
    | infinity t | finite t =>
      rw [hv] at hneg
      cases t with
      | negative => exact hneg.elim
      | positive => rfl
  | finite s m e hm =>
    rw [hu] at hneg
    cases hv : unpacked y with
    | notANumber =>
      rw [hv] at hneg
      exact hneg.elim
    | infinity t =>
      rw [hv] at hneg
      cases t with
      | negative => exact hneg.elim
      | positive => cases s <;> rfl
    | zero t =>
      rw [hv] at hneg
      cases s with
      | negative => rfl
      | positive => exact hneg.elim
    | finite t n f hn =>
      rw [hv] at hneg
      exact compare_finite_of_isNegative_sub (canonical_unpacked hu) (canonical_unpacked hv) hneg

/-! ### Magnitudes -/

theorem pos_abs (h : (x == 0.0) = false) (hdefined : x.isNaN = false) : 0.0 < x.abs := by
  have hzero : unpacked 0.0 = .zero .positive := rfl
  have habs : x.abs = ofUnpacked (UnpackedFloat.abs (unpacked x)) := rfl
  rw [Bool.eq_false_iff, ne_eq, beq_iff, hzero] at h
  rw [Bool.eq_false_iff, ne_eq, isNaN_iff] at hdefined
  rw [lt_iff, hzero, habs]
  cases hu : unpacked x with
  | notANumber => exact absurd hu hdefined
  | infinity s =>
    change UnpackedFloat.compare _ (unpacked (ofUnpacked (.infinity .positive))) = _
    rw [unpacked_ofUnpacked_infinity]
    rfl
  | zero s =>
    rw [hu] at h
    exact absurd rfl h
  | finite s m e hm =>
    have hne : ∀ t, unpacked (ofUnpacked (.finite .positive m e hm)) ≠ .zero t :=
      unpacked_ofUnpacked_finite_ne_zero (canonical_unpacked hu)
    have hsign : HasSign .positive (.finite .positive m e hm) := rfl
    have hpositive := hsign.unpacked_ofUnpacked
    change UnpackedFloat.compare _ (unpacked (ofUnpacked (.finite .positive m e hm))) = _
    cases hv : unpacked (ofUnpacked (.finite .positive m e hm)) with
    | notANumber =>
      rw [hv] at hpositive
      exact hpositive.elim
    | zero t => exact absurd hv (hne t)
    | infinity t | finite t =>
      rw [hv] at hpositive
      obtain rfl : t = .positive := hpositive
      rfl

end TextureGraph.Binary64
