import Mathlib
import TextureGraph.Proofs.Number.Binary64

/-!
# Binary floating point, unpacked

An operation unpacks its operands into sign, mantissa and exponent, computes with these, and packs
the result.  Packing keeps undefined values, zeros, infinities and signs
(`HasSign.unpacked_ofUnpacked`), so the cases of an operation tell when its result is undefined and
which sign it has.  The laws of packing that the library has come with Mathlib as a whole only.

* `canonical_unpacked`: what is unpacked has the smallest exponent that its mantissa allows.
* `unpacked_ofUnpacked_finite`: such a value is packed as it is, or as infinity beyond the largest
  exponent.
* `ofUnpacked_unpacked`: what was unpacked is packed as it was.
* Every operation on an undefined value is undefined (`isNaN_add_left`, …), and every comparison with
  one fails (`not_lt_of_isNaN_left`, …).
-/

namespace TextureGraph.Binary64

open Float.Model UnpackedFloat

/-! ### Packing and unpacking -/

/-- A number, be it zero or infinite, with the given sign. -/
def HasSign (s : Sign) : UnpackedFloat → Prop
  | .notANumber => False
  | .infinity t | .zero t | .finite t _ _ _ => t = s

/-- Components are unpacked to a number with their sign, unless they spell an undefined value. -/
theorem hasSign_unpack_packComponents {spec : Format} {s : Sign} {e : BitVec spec.exponentBits}
    {m : BitVec spec.mantissaBitsWithoutImplicit} (h : e ≠ -1#_ ∨ m = 0#_) :
    HasSign s (unpack spec (packComponents spec s e m)) := by
  unfold UnpackedFloat.unpack
  simp only [unpackMantissa_packComponents, unpackExponent_packComponents,
    unpackSign_packComponents, Sign.ofBitVec_toBitVec]
  split
  · rename_i he
    rw [if_pos (h.resolve_left (not_not_intro he))]
    rfl
  split
  · split <;> rfl
  · rfl

theorem hasSign_unpack_pack_finite (s : Sign) (m : Nat) (e : Int) (hm : 0 < m) :
    HasSign s (unpack .binary64 (UnpackedFloat.pack .binary64 (.finite s m e hm))) := by
  unfold UnpackedFloat.pack
  dsimp only
  split
  · exact hasSign_unpack_packComponents (.inr rfl)
  rename_i hbiased
  split
  · -- A biased exponent that does not overflow is not the one of the undefined values.
    refine hasSign_unpack_packComponents (.inl fun heq => hbiased ?_)
    have hnat := congrArg BitVec.toNat heq
    have hones : (-1#11).toNat = 2 ^ 11 - 1 := rfl
    rw [BitVec.toNat_ofNat, hones] at hnat
    have hle := Nat.mod_le (e + Format.exponentBias .binary64 + 52).toNat (2 ^ 11)
    change 2 ^ 11 ≤ (e + Format.exponentBias .binary64 + 52).toNat + 1
    omega
  · exact hasSign_unpack_packComponents (.inl (by decide))

theorem unpacked_ofUnpacked_notANumber : unpacked (ofUnpacked .notANumber) = .notANumber :=
  rfl

theorem unpacked_ofUnpacked_infinity (s : Sign) :
    unpacked (ofUnpacked (.infinity s)) = .infinity s := by
  cases s <;> rfl

theorem unpacked_ofUnpacked_zero (s : Sign) : unpacked (ofUnpacked (.zero s)) = .zero s := by
  cases s <;> rfl

/-- Packing keeps the sign of a number. -/
theorem HasSign.unpacked_ofUnpacked {s : Sign} {u : UnpackedFloat} (h : HasSign s u) :
    HasSign s (unpacked (ofUnpacked u)) := by
  cases u with
  | notANumber => exact h.elim
  | infinity t =>
    rw [unpacked_ofUnpacked_infinity]
    exact h
  | zero t =>
    rw [unpacked_ofUnpacked_zero]
    exact h
  | finite t m e hm =>
    obtain rfl : t = s := h
    exact hasSign_unpack_pack_finite t m e hm

/-! ### Unpacked values -/

variable {x y : Float}

/-- The mantissas and exponents of finite values: the mantissa fills its 53 bits, unless the exponent
is the smallest one. -/
structure Canonical (m : Nat) (e : Int) : Prop where
  /-- The mantissa has at most 53 bits. -/
  lt : m < 2 ^ 53
  /-- It has fewer only with the smallest exponent. -/
  full : 2 ^ 52 ≤ m ∨ e = -1074
  /-- The smallest exponent. -/
  le : -1074 ≤ e

theorem two_pow_le_toNat_one_append {n : Nat} (b : BitVec n) : 2 ^ n ≤ (1#1 ++ b).toNat := by
  rw [BitVec.toNat_append]
  exact Nat.le_trans (Nat.le_of_eq (Nat.one_shiftLeft n).symm) Nat.left_le_or

theorem canonical_unpacked {s : Sign} {m : Nat} {e : Int} {hm : 0 < m}
    (h : unpacked x = .finite s m e hm) : Canonical m e := by
  unfold unpacked Float.Model.unpack UnpackedFloat.unpack at h
  have hbias : (Format.exponentBias .binary64 : Int) + (52 : Nat) = 1075 := rfl
  dsimp only at h
  rw [hbias] at h
  split at h
  · split at h <;> cases h
  split at h
  · -- a small value, without the leading bit
    rename_i hexponent
    split at h
    · cases h
    · cases h
      refine ⟨Nat.lt_trans (BitVec.isLt _) (by decide), .inr ?_, ?_⟩
      · rw [hexponent]
        rfl
      · rw [hexponent]
        decide
  · rename_i hexponent
    cases h
    have hpos := Nat.pos_of_ne_zero fun hzero => hexponent (BitVec.eq_of_toNat_eq hzero)
    refine ⟨?_, .inl ?_, ?_⟩
    · exact BitVec.isLt _
    · exact two_pow_le_toNat_one_append _
    · omega

/-- The exponent with all bits set is left to the infinite and the undefined values. -/
theorem exponent_le_of_unpacked {s : Sign} {m : Nat} {e : Int} {hm : 0 < m}
    (h : unpacked x = .finite s m e hm) : e ≤ 971 := by
  unfold unpacked Float.Model.unpack UnpackedFloat.unpack at h
  have hbias : (Format.exponentBias .binary64 : Int) + (52 : Nat) = 1075 := rfl
  dsimp only at h
  rw [hbias] at h
  split at h
  · split at h <;> cases h
  rename_i hones
  have hlt := (@unpackExponent .binary64 x.toModel.toBits.toBitVec).isLt
  have hne : (@unpackExponent .binary64 x.toModel.toBits.toBitVec).toNat ≠ 2047 :=
    fun heq => hones (BitVec.eq_of_toNat_eq heq)
  change _ < 2048 at hlt
  split at h
  · rename_i hzeros
    rw [hzeros] at h
    split at h
    · cases h
    · cases h
      decide
  · cases h
    omega

theorem toNat_one_append {n m : Nat} (hlow : 2 ^ n ≤ m) (hhigh : m < 2 ^ (n + 1)) :
    (1#1 ++ BitVec.ofNat n m).toNat = m := by
  have hrest : m - 2 ^ n < 2 ^ n := by
    rw [Nat.pow_succ] at hhigh
    omega
  have hmod : m % 2 ^ n = m - 2 ^ n := by
    rw [Nat.mod_eq_sub_mod hlow, Nat.mod_eq_of_lt hrest]
  rw [BitVec.toNat_append, BitVec.toNat_ofNat, BitVec.toNat_ofNat, hmod]
  change 1 <<< n ||| (m - 2 ^ n) = m
  rw [Nat.shiftLeft_eq, Nat.one_mul, Nat.or_comm, Nat.or_two_pow_eq_add_of_lt hrest]
  omega

/-- A mantissa of 53 bits is packed without the first one. -/
theorem unpack_packComponents_full (s : Sign) {m k : Nat} (hlow : 2 ^ 52 ≤ m)
    (hhigh : m < 2 ^ 53) (hpos : 0 < k) (hk : k < 2047) :
    unpack .binary64 (packComponents .binary64 s (BitVec.ofNat 11 k) (BitVec.ofNat 52 m))
      = .finite s m (k - 1075) (Nat.lt_of_lt_of_le (by decide) hlow) := by
  have hbits : (BitVec.ofNat 11 k).toNat = k := by
    rw [BitVec.toNat_ofNat, Nat.mod_eq_of_lt (Nat.lt_trans hk (by decide))]
  have hones : BitVec.ofNat 11 k ≠ -1#11 := by
    intro heq
    have hnat : k = 2047 := hbits.symm.trans (congrArg BitVec.toNat heq)
    omega
  have hzeros : BitVec.ofNat 11 k ≠ 0#11 := by
    intro heq
    have hnat : k = 0 := hbits.symm.trans (congrArg BitVec.toNat heq)
    omega
  unfold UnpackedFloat.unpack
  simp only [unpackMantissa_packComponents, unpackExponent_packComponents,
    unpackSign_packComponents, Sign.ofBitVec_toBitVec]
  rw [if_neg hones, if_neg hzeros]
  congr 1
  · exact toNat_one_append hlow hhigh
  · rw [hbits]
    rfl

/-- A smaller mantissa goes with the exponent zero. -/
theorem unpack_packComponents_zero (s : Sign) {m : Nat} (hm : 0 < m) (hhigh : m < 2 ^ 52) :
    unpack .binary64 (packComponents .binary64 s 0#11 (BitVec.ofNat 52 m))
      = .finite s m (-1074) hm := by
  have hbits : (BitVec.ofNat 52 m).toNat = m := by
    rw [BitVec.toNat_ofNat, Nat.mod_eq_of_lt hhigh]
  have hne : BitVec.ofNat 52 m ≠ 0#52 := by
    intro heq
    have hnat : m = 0 := hbits.symm.trans (congrArg BitVec.toNat heq)
    omega
  unfold UnpackedFloat.unpack
  simp only [unpackMantissa_packComponents, unpackExponent_packComponents,
    unpackSign_packComponents, Sign.ofBitVec_toBitVec]
  have hones : ¬ 0#11 = -1#11 := by decide
  rw [if_neg hones, if_pos trivial, dif_neg hne]
  congr 1

/-- Finite values are packed as they are, up to the largest exponent. -/
theorem unpacked_ofUnpacked_finite {s : Sign} {m : Nat} {e : Int} {hm : 0 < m} (h : Canonical m e) :
    unpacked (ofUnpacked (.finite s m e hm))
      = if e ≤ 971 then .finite s m e hm else .infinity s := by
  have hbias : e + Format.exponentBias .binary64 + (52 : Nat) = e + 1075 := by
    have hvalue : (Format.exponentBias .binary64 : Int) = 1023 := rfl
    omega
  have hsmallest := h.le
  have hbits : 2 ^ Format.exponentBits .binary64 = 2048 := rfl
  have hdigits : Format.mantissaBits .binary64 = 53 := rfl
  change unpack .binary64 (UnpackedFloat.pack .binary64 (.finite s m e hm)) = _
  unfold UnpackedFloat.pack
  dsimp only
  rw [hbias, hbits, hdigits]
  by_cases hlarge : e ≤ 971
  · rw [if_pos hlarge, if_neg (by omega)]
    by_cases hfull : 2 ^ 52 ≤ m
    · have hlog : m.log2 = 52 := (Nat.log2_eq_iff (Nat.ne_of_gt hm)).mpr ⟨hfull, h.lt⟩
      have hexponent : ((e + 1075).toNat : Int) - 1075 = e := by omega
      rw [if_pos (by omega), unpack_packComponents_full s hfull h.lt (by omega) (by omega)]
      simp only [hexponent]
    · obtain rfl : e = -1074 := h.full.resolve_left hfull
      have hlog : m.log2 < 52 := (Nat.log2_lt (Nat.ne_of_gt hm)).mpr (Nat.not_le.mp hfull)
      rw [if_neg (by omega), unpack_packComponents_zero s hm (Nat.not_le.mp hfull)]
  · rw [if_neg hlarge, if_pos (by omega)]
    cases s <;> rfl

/-- Packing does not make a zero of a finite value. -/
theorem unpacked_ofUnpacked_finite_ne_zero {s : Sign} {m : Nat} {e : Int} {hm : 0 < m}
    (h : Canonical m e) (t : Sign) : unpacked (ofUnpacked (.finite s m e hm)) ≠ .zero t := by
  rw [unpacked_ofUnpacked_finite h]
  split <;> exact nofun

/-! ### Packing what was unpacked -/

theorem ofUnpacked_unpacked (x : Float) : ofUnpacked (unpacked x) = x := by
  have hbits : UnpackedFloat.pack .binary64 (unpacked x) = x.toModel.toBits.toBitVec :=
    pack_unpack_of_valid x.toModel.valid
  unfold ofUnpacked Float.Model.pack
  simp only [hbits]

/-! ### Comparisons -/

theorem lt_iff : x < y ↔ (unpacked x).compare (unpacked y) = some .lt := by
  have hlt : x < y ↔ ((unpacked x).compare (unpacked y) == some .lt) = true :=
    decide_eq_true_iff
  rw [hlt, beq_iff_eq]

theorem le_iff : x ≤ y ↔ ∃ o, (unpacked x).compare (unpacked y) = some o ∧ o.isLE = true := by
  have hle : x ≤ y ↔ ((unpacked x).compare (unpacked y)).any (·.isLE) = true :=
    decide_eq_true_iff
  rw [hle, Option.any_eq_true]

theorem beq_iff : (x == y) = true ↔ (unpacked x).compare (unpacked y) = some .eq := by
  have hbeq : (x == y) = ((unpacked x).compare (unpacked y) == some .eq) := rfl
  rw [hbeq, beq_iff_eq]

/-- Of different unpacked values, nothing but zeros compare as equal. -/
theorem eq_or_zero_of_compare_eq {u v : UnpackedFloat} (h : u.compare v = some .eq) :
    u = v ∨ (∃ s, u = .zero s) ∧ ∃ t, v = .zero t := by
  cases u with
  | notANumber => cases h
  | infinity s =>
    cases v with
    | infinity t => cases s <;> cases t <;> first | exact .inl rfl | cases h
    | notANumber | zero | finite => cases s <;> cases h
  | zero s =>
    cases v with
    | zero t => exact .inr ⟨⟨s, rfl⟩, t, rfl⟩
    | notANumber => cases h
    | infinity t | finite t => cases t <;> cases h
  | finite s m e hm =>
    cases v with
    | notANumber => cases h
    | infinity t => cases s <;> cases t <;> cases h
    | zero t => cases s <;> cases h
    | finite t n f hn =>
      have hparts : (compare e f).then (compare m n) = .eq → e = f ∧ m = n := by
        rw [Ordering.then_eq_eq, Int.compare_eq_eq, Nat.compare_eq_eq]
        exact id
      cases s with
      | negative =>
        cases t with
        | positive => cases h
        | negative =>
          have hswap : ((compare e f).then (compare m n)).swap = .eq := Option.some.inj h
          rw [Ordering.swap_eq_eq] at hswap
          obtain ⟨rfl, rfl⟩ := hparts hswap
          exact .inl rfl
      | positive =>
        cases t with
        | negative => cases h
        | positive =>
          obtain ⟨rfl, rfl⟩ := hparts (Option.some.inj h)
          exact .inl rfl

/-- A zero of either sign. -/
def IsZero (x : Float) : Prop :=
  x = 0.0 ∨ x = -0.0

/-- The same value, where the sign of a zero does not count. -/
def SameNumber (x y : Float) : Prop :=
  x = y ∨ IsZero x ∧ IsZero y

theorem isZero_of_unpacked {s : Sign} (h : unpacked x = .zero s) : IsZero x := by
  have hx : x = ofUnpacked (.zero s) := by
    rw [← h, ofUnpacked_unpacked]
  cases s with
  | negative => exact .inr hx
  | positive => exact .inl hx

theorem isZero_iff : IsZero x ↔ ∃ s, unpacked x = .zero s := by
  constructor
  · rintro (rfl | rfl)
    · exact ⟨.positive, rfl⟩
    · exact ⟨.negative, rfl⟩
  · rintro ⟨s, h⟩
    exact isZero_of_unpacked h

/-- A zero times a finite value is a zero, whichever comes first. -/
theorem IsZero.mul (hx : IsZero x) (hy : y.isFinite = true) : IsZero (x * y) ∧ IsZero (y * x) := by
  obtain ⟨s, hs⟩ := isZero_iff.mp hx
  have hleft : x * y = ofUnpacked (.mul .binary64 (unpacked x) (unpacked y)) := rfl
  have hright : y * x = ofUnpacked (.mul .binary64 (unpacked y) (unpacked x)) := rfl
  have hfinite : (unpacked y).isFinite = true := hy
  rw [hleft, hright, hs]
  cases hu : unpacked y with
  | notANumber | infinity =>
    rw [hu] at hfinite
    cases hfinite
  | zero t | finite t =>
    exact ⟨isZero_of_unpacked (unpacked_ofUnpacked_zero _),
      isZero_of_unpacked (unpacked_ofUnpacked_zero _)⟩

theorem IsZero.add (hx : IsZero x) (hy : IsZero y) : IsZero (x + y) := by
  rcases hx with rfl | rfl
  · rcases hy with rfl | rfl
    · exact .inl rfl
    · exact .inl rfl
  · rcases hy with rfl | rfl
    · exact .inl rfl
    · exact .inr rfl

/-- Zeros add up to negative zero only if all of them are. -/
theorem IsZero.add_zero (hx : IsZero x) : x + 0.0 = 0.0 := by
  rcases hx with rfl | rfl <;> rfl

/-- Values that compare as equal are the same, but for the sign of a zero. -/
theorem sameNumber_of_beq (h : (x == y) = true) : SameNumber x y := by
  rcases eq_or_zero_of_compare_eq (beq_iff.mp h) with heq | ⟨⟨s, hs⟩, t, ht⟩
  · left
    rw [← ofUnpacked_unpacked x, heq, ofUnpacked_unpacked]
  · exact .inr ⟨isZero_of_unpacked hs, isZero_of_unpacked ht⟩

theorem sameNumber_refl (x : Float) : SameNumber x x :=
  .inl rfl

theorem SameNumber.eq (h : SameNumber x y) (hzero : ¬ IsZero x) : x = y :=
  h.resolve_right fun hzeros => hzero hzeros.1

/-! ### Undefined values -/

theorem isNaN_iff : x.isNaN = true ↔ unpacked x = .notANumber := by
  have hisNaN : x.isNaN = (unpacked x).isNaN := rfl
  rw [hisNaN]
  constructor
  · intro h
    cases hu : unpacked x with
    | notANumber => rfl
    | infinity | zero | finite =>
      rw [hu] at h
      cases h
  · intro h
    rw [h]
    rfl

/-- Only an undefined value is not equal to itself. -/
theorem beq_self (h : x.isNaN = false) : (x == x) = true := by
  rw [beq_iff]
  cases hu : unpacked x with
  | notANumber => exact absurd (isNaN_iff.mpr hu) (Bool.eq_false_iff.mp h)
  | infinity s => cases s <;> rfl
  | zero s => rfl
  | finite s m e hm =>
    have hself : (compare e e).then (compare m m) = .eq := by
      rw [Int.compare_eq_eq.mpr rfl, Nat.compare_eq_eq.mpr rfl]
      rfl
    cases s with
    | negative => exact congrArg (fun o => some (Ordering.swap o)) hself
    | positive => exact congrArg some hself

theorem isNaN_ofUnpacked {u : UnpackedFloat} (h : u = .notANumber) :
    (ofUnpacked u).isNaN = true := by
  rw [h]
  rfl

theorem compare_notANumber (u : UnpackedFloat) : u.compare .notANumber = none := by
  cases u <;> rfl

section Undefined

variable (h : x.isNaN = true)

include h

theorem isNaN_add_left (y : Float) : (x + y).isNaN = true :=
  isNaN_ofUnpacked (by rw [← unpacked, isNaN_iff.mp h]; rfl)

theorem isNaN_add_right (y : Float) : (y + x).isNaN = true :=
  add_comm x y ▸ isNaN_add_left h y

theorem isNaN_sub_left (y : Float) : (x - y).isNaN = true :=
  isNaN_ofUnpacked (by rw [← unpacked, isNaN_iff.mp h]; rfl)

theorem isNaN_sub_right (y : Float) : (y - x).isNaN = true :=
  isNaN_ofUnpacked (by rw [← unpacked, ← unpacked, isNaN_iff.mp h]; cases unpacked y <;> rfl)

theorem isNaN_mul_left (y : Float) : (x * y).isNaN = true :=
  isNaN_ofUnpacked (by rw [← unpacked, isNaN_iff.mp h]; rfl)

theorem isNaN_mul_right (y : Float) : (y * x).isNaN = true :=
  isNaN_ofUnpacked (by rw [← unpacked, ← unpacked, isNaN_iff.mp h]; cases unpacked y <;> rfl)

theorem isNaN_div_left (y : Float) : (x / y).isNaN = true :=
  isNaN_ofUnpacked (by rw [← unpacked, isNaN_iff.mp h]; rfl)

theorem isNaN_abs : x.abs.isNaN = true :=
  isNaN_ofUnpacked (by rw [← unpacked, isNaN_iff.mp h]; rfl)

theorem isNaN_sqrt : x.sqrt.isNaN = true :=
  isNaN_ofUnpacked (by rw [← unpacked, isNaN_iff.mp h]; rfl)

theorem not_lt_of_isNaN_left (y : Float) : ¬ x < y := by
  rw [lt_iff, isNaN_iff.mp h]
  exact Option.some_ne_none _ ∘ Eq.symm

theorem not_lt_of_isNaN_right (y : Float) : ¬ y < x := by
  rw [lt_iff, isNaN_iff.mp h, compare_notANumber]
  exact Option.some_ne_none _ ∘ Eq.symm

theorem not_le_of_isNaN_left (y : Float) : ¬ x ≤ y := by
  rw [le_iff, isNaN_iff.mp h]
  rintro ⟨o, ho, -⟩
  cases ho

theorem not_le_of_isNaN_right (y : Float) : ¬ y ≤ x := by
  rw [le_iff, isNaN_iff.mp h, compare_notANumber]
  rintro ⟨o, ho, -⟩
  cases ho

theorem beq_of_isNaN_left (y : Float) : (x == y) = false := by
  rw [Bool.eq_false_iff, ne_eq, beq_iff, isNaN_iff.mp h]
  exact Option.some_ne_none _ ∘ Eq.symm

theorem isFinite_of_isNaN : x.isFinite = false := by
  have hisFinite : x.isFinite = (unpacked x).isFinite := rfl
  rw [hisFinite, isNaN_iff.mp h]
  rfl

/-- An undefined value has nothing to round. -/
theorem floor_of_isNaN : floor x = x :=
  if_neg (not_lt_of_isNaN_left (isNaN_abs h) _)

theorem min_of_isNaN_left (y : Float) : Arith.min x y = y :=
  if_neg (Bool.eq_false_iff.mp (beq_of_isNaN_left h x))

end Undefined

theorem isNaN_of_isFinite (h : x.isFinite = true) : x.isNaN = false :=
  Bool.eq_false_iff.mpr fun hnan => Bool.false_ne_true ((isFinite_of_isNaN hnan).symm.trans h)

end TextureGraph.Binary64
