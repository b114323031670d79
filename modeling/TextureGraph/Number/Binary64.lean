import TextureGraph.Number.Arith

/-!
# Binary floating point as a number system

The `Arith Float` instance.  Rounding to whole numbers, remainders and the length of a plane vector
are computed on the unpacked form of a value (sign, whole mantissa, exponent), so they are exact
before the one rounding at the end.
-/

namespace TextureGraph.Binary64

open Float.Model

/-- The unpacked form of a value. -/
def unpacked (x : Float) : UnpackedFloat :=
  x.toModel.unpack

/-- The value nearest to an unpacked number. -/
def ofUnpacked (u : UnpackedFloat) : Float :=
  .ofModel (pack u)

/-- `(-1)^negative * mantissa * 2^exponent`, rounded to the nearest value. -/
def ofScaled (negative : Bool) (mantissa : Nat) (exponent : Int) : Float :=
  ofUnpacked (.round .binary64 (if negative then .negative else .positive) mantissa exponent)

/-- Whether the sign bit is set; undefined values carry no sign. -/
def isNegative (x : Float) : Bool :=
  x.toBits >>> 63 == 1

/-- From `2^52` on every value is whole. -/
def wholeFrom : Float := 4503599627370496.0

/-- Largest whole number at or below `x`; whole, infinite and undefined values are kept, zeros with
their sign. -/
def floor (x : Float) : Float :=
  if x.abs < wholeFrom then
    let digits := x.abs.toUInt64.toFloat
    if digits == x.abs then x
    else if x < 0.0 then -(digits + 1.0)
    else digits
  else x

/-- The smallest signed integer of 64 bits. -/
def minInteger : Int := -9223372036854775808

/-- The largest signed integer of 64 bits. -/
def maxInteger : Int := 9223372036854775807

/-- `floor x` as an integer, kept within the signed 64-bit range. -/
def floorInt (x : Float) : Int :=
  let magnitude : Int := (floor x).abs.toUInt64.toNat
  if x < 0.0 then max minInteger (-magnitude) else min maxInteger magnitude

/-- `n` as a signed integer of 64 bits, modulo `2^64`. -/
def wrapInt (n : Int) : Int :=
  n.bmod 18446744073709551616

/-- Exact remainder of a truncated division, with the sign of the dividend. -/
def rem (x y : Float) : Float :=
  match unpacked x, unpacked y with
  | .finite s m e _, .finite _ n f _ =>
    let unit := min e f
    ofScaled (s == .negative)
      ((m <<< (e - unit).toNat) % (n <<< (f - unit).toNat)) unit
  | .zero _, .finite .. => x
  | .zero _, .infinity _ => x
  | .finite .., .infinity _ => x
  | _, _ => 0.0 / 0.0

/-- `√(x² + y²)`, rounded once.  An infinite side makes the length infinite. -/
def hypot (x y : Float) : Float :=
  match unpacked x, unpacked y with
  | .infinity _, _ => 1.0 / 0.0
  | _, .infinity _ => 1.0 / 0.0
  | .notANumber, _ => x
  | _, .notANumber => y
  | .zero _, _ => y.abs
  | _, .zero _ => x.abs
  | .finite _ m e hm, .finite _ n f _ =>
    let unit := min e f
    let side := m <<< (e - unit).toNat
    let other := n <<< (f - unit).toNat
    let square := side * side + other * other
    have hside : 0 < side := by
      simp only [side, Nat.shiftLeft_eq]
      exact Nat.mul_pos hm (Nat.two_pow_pos _)
    ofUnpacked (.sqrt .binary64 (.finite .positive square (2 * unit)
      (Nat.add_pos_left (Nat.mul_pos hside hside) _)))

/-- `1` or `-1` by the sign bit. -/
def signum (x : Float) : Float :=
  if x.isNaN then x else if isNegative x then -1.0 else 1.0

instance : Arith Float where
  decLt _ _ := inferInstance
  decLe _ _ := inferInstance
  abs := Float.abs
  sqrt := Float.sqrt
  floor := floor
  exp := Float.exp
  ln := Float.log
  sin := Float.sin
  cos := Float.cos
  pow := Float.pow
  atan2 := Float.atan2
  hypot := hypot
  rem := rem
  signum := signum
  isFinite := Float.isFinite
  floorInt := floorInt
  wrapInt := wrapInt
  ofInt := Float.ofInt
  magnitudeLe a b := a.abs.toBits ≤ b.abs.toBits
  pi := 3.141592653589793
  euler := 2.718281828459045
  infinity := 1.0 / 0.0

end TextureGraph.Binary64
