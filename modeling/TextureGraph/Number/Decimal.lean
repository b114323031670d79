import TextureGraph.Number.Binary64

/-!
# Decimal forms of binary floating point values

`Decimal.shortest` finds the fewest decimal digits that read back as a given value, and among the
numbers with that many digits the one nearest to it; `Decimal.significant` rounds the exact value to
a fixed number of significant digits.  Both compare exact ratios of whole numbers.
`Decimal.text` writes the shortest form without an exponent, and `Decimal.toFloat` reads a decimal
back.
-/

namespace TextureGraph

/-- The number `digits * 10^exponent`. -/
structure Decimal where
  /-- The significant digits, read as a whole number. -/
  digits : Nat
  /-- The power of ten of the last digit. -/
  exponent : Int
deriving DecidableEq, Repr

namespace Decimal

/-! ### Ratios on a decimal grid -/

/-- A positive ratio of whole numbers. -/
structure Ratio where
  /-- The numerator. -/
  num : Nat
  /-- The denominator, at least one. -/
  den : Nat

/-- `mantissa * 2^exponent` as a ratio. -/
def Ratio.ofScaled (mantissa : Nat) (exponent : Int) : Ratio :=
  ⟨mantissa <<< exponent.toNat, 1 <<< (-exponent).toNat⟩

/-- A power of ten. -/
def powerOfTen (k : Nat) : Nat :=
  Nat.pow 10 k

/-- The ratio measured in units of `10^k`. -/
def Ratio.inUnits (r : Ratio) (k : Int) : Ratio :=
  ⟨r.num * powerOfTen (-k).toNat, r.den * powerOfTen k.toNat⟩

/-- Whether the ratio is at least `10^k`. -/
def Ratio.reaches (r : Ratio) (k : Int) : Bool :=
  (r.inUnits k).den ≤ (r.inUnits k).num

/-- The largest of the powers from `k` to `k + n` that the ratio reaches, given that it reaches
`10^k`. -/
def Ratio.climb (r : Ratio) : Nat → Int → Int
  | 0, k => k
  | n + 1, k => if r.reaches (k + 1) then r.climb n (k + 1) else k

/-- The power of ten of the leading digit.  The ratio lies between `2^b` and `2^(b + 2)`, where `b`
is found by counting binary digits; so the search starts at most two powers of ten too low. -/
def Ratio.leading (r : Ratio) : Int :=
  let b : Int := r.num.log2 - r.den.log2 - 1
  r.climb 3 (b * (if b < 0 then 30103 else 30102) / 100000)

/-- Takes a trailing zero away as often as possible, at most `n` times. -/
def dropZeros : Nat → Decimal → Decimal
  | 0, d => d
  | n + 1, d => if d.digits % 10 = 0 then dropZeros n ⟨d.digits / 10, d.exponent + 1⟩ else d

/-! ### The shortest form -/

/-- The values that round to a given one: between `lo` and `hi` quarter units around `4 * mantissa`,
the ends included when the mantissa is even. -/
structure Interval where
  /-- The value itself. -/
  value : Ratio
  /-- Lower end. -/
  lo : Ratio
  /-- Upper end. -/
  hi : Ratio
  /-- Whether the ends belong to the interval. -/
  closed : Bool

/-- The numbers that round to `mantissa * 2^exponent`.  Below a power of two the spacing halves. -/
def Interval.ofScaled (mantissa : Nat) (exponent : Int) : Interval :=
  let belowPower := mantissa = 1 <<< 52 ∧ -1074 < exponent
  { value := .ofScaled (4 * mantissa) (exponent - 2)
    lo := .ofScaled (4 * mantissa - if belowPower then 1 else 2) (exponent - 2)
    hi := .ofScaled (4 * mantissa + 2) (exponent - 2)
    closed := mantissa % 2 = 0 }

/-- The point of the grid of multiples of `10^k` that lies in the interval and is nearest to its
value; of two at the same distance the larger one. -/
def Interval.onGrid (i : Interval) (k : Int) : Option Nat :=
  let v := i.value.inUnits k
  let lo := i.lo.inUnits k
  let hi := i.hi.inUnits k
  let below := v.num / v.den
  let above := below + 1
  let belowFits := if i.closed then lo.num ≤ below * lo.den else lo.num < below * lo.den
  let aboveFits := if i.closed then above * hi.den ≤ hi.num else above * hi.den < hi.num
  if belowFits then
    if aboveFits && v.den ≤ 2 * (v.num % v.den) then some above else some below
  else if aboveFits then some above
  else none

/-- The first grid with a point in the interval, trying `n` grids from `10^k` on to finer ones. -/
def Interval.firstGrid (i : Interval) : Nat → Int → Decimal
  | 0, k => ⟨(i.value.inUnits k).num / (i.value.inUnits k).den, k⟩
  | n + 1, k =>
    match i.onGrid k with
    | some digits => ⟨digits, k⟩
    | none => i.firstGrid n (k - 1)

/-- The shortest decimal that reads back as `mantissa * 2^exponent`.  Seventeen digits always
suffice. -/
def shortest (mantissa : Nat) (exponent : Int) : Decimal :=
  let i := Interval.ofScaled mantissa exponent
  dropZeros 17 (i.firstGrid 17 i.value.leading)

/-! ### A fixed number of digits -/

/-- `mantissa * 2^exponent` rounded to `n` significant digits, a tie going to the even digit. -/
def significant (n : Nat) (mantissa : Nat) (exponent : Int) : Decimal :=
  let r := Ratio.ofScaled mantissa exponent
  let k := r.leading + 1 - n
  let u := r.inUnits k
  let below := u.num / u.den
  let twice := 2 * (u.num % u.den)
  let up := u.den < twice ∨ (u.den = twice ∧ below % 2 = 1)
  dropZeros n ⟨if up then below + 1 else below, k⟩

/-! ### Reading -/

/-- Every positive value of the format lies between `10^-350` and `10^350`. -/
private def formatRange : Int := 350

/-- The value nearest to a decimal.  Beyond the range of the format that is zero or infinity,
whatever the size of the exponent. -/
def toFloat (d : Decimal) : Float :=
  let leading : Int := (Nat.toDigits 10 d.digits).length - 1 + d.exponent
  if d.digits = 0 ∨ leading < -formatRange then 0.0
  else if formatRange < leading then 1.0 / 0.0
  else OfScientific.ofScientific d.digits (decide (d.exponent < 0)) d.exponent.natAbs

/-! ### Text -/

/-- The digits with a point, never with an exponent: `0.001`, `12.5`, `1200`. -/
def positional (d : Decimal) : String :=
  let digits := String.ofList (Nat.toDigits 10 d.digits)
  if 0 ≤ d.exponent then
    digits ++ String.ofList (List.replicate d.exponent.toNat '0')
  else
    let places := d.exponent.natAbs
    let padded := List.replicate (places + 1 - digits.length) '0' ++ digits.toList
    let whole := padded.length - places
    String.ofList (padded.take whole) ++ "." ++ String.ofList (padded.drop whole)

/-- The shortest digits that read back as `x`, written without an exponent; a whole value has no
point, and zero keeps its sign. -/
def text (x : Float) : String :=
  match Binary64.unpacked x with
  | .notANumber => "NaN"
  | .infinity s => if s == .negative then "-inf" else "inf"
  | .zero s => if s == .negative then "-0" else "0"
  | .finite s m e _ =>
    (if s == .negative then "-" else "") ++ (shortest m e).positional

end Decimal

end TextureGraph
