import TextureGraph.Number.Arith

/-!
# Means over an interval

A blurred input is known as a value `x` and an error `e`; it stands for the interval from `x - e` to
`x + e`.  Applying a function to such an input yields the mean of the function over the interval,
computed from an antiderivative, instead of the function of the mean.
-/

namespace TextureGraph.Mean

variable {α : Type} [Arith α]

/-- Mean of the absolute value over `[x - e, x + e]`. -/
def abs (x e : α) : α :=
  if Arith.abs x < e then (x * x + e * e) / (2.0 * e) else Arith.abs x

/-- The slope of `Mean.abs` in its first argument. -/
def absSlope (x e : α) : α :=
  if Arith.abs x < e then x / e else Arith.signum x

/-- Mean of the exponential function over `[x - e, x + e]`. -/
def exp (x e : α) : α :=
  if e == 0.0 then Arith.exp x else (Arith.exp (x + e) - Arith.exp (x - e)) / (2.0 * e)

/-- Mean of the sine over `[x - e, x + e]`. -/
def sin (x e : α) : α :=
  if e == 0.0 then Arith.sin x else (Arith.cos (x - e) - Arith.cos (x + e)) / (2.0 * e)

/-- Mean of the cosine over `[x - e, x + e]`. -/
def cos (x e : α) : α :=
  if e == 0.0 then Arith.cos x else (Arith.sin (x + e) - Arith.sin (x - e)) / (2.0 * e)

/-- Mean of the square root of the positive part over `[x - e, x + e]`. -/
def sqrt (x e : α) : α :=
  if e == 0.0 then Arith.sqrt (Arith.max x 0.0)
  else
    let lo := Arith.max (x - e) 0.0
    let hi := Arith.max (x + e) 0.0
    (Arith.pow hi 1.5 - Arith.pow lo 1.5) / (3.0 * e)

/-- An antiderivative of the logarithm. -/
def lnIntegral (u : α) : α :=
  u * Arith.ln u - u

/-- Mean of the logarithm over `[x - e, x + e]`, for a positive lower end. -/
def ln (x e : α) : α :=
  if e == 0.0 then Arith.ln x else (lnIntegral (x + e) - lnIntegral (x - e)) / (2.0 * e)

/-- Mean of the argument confined to `[0, 1]`, over `[fraction - error, fraction + error]`. -/
def fraction (fraction error : α) : α :=
  let lowest := fraction - error
  let highest := fraction + error
  if highest ≤ 0.0 then 0.0
  else if 1.0 ≤ lowest then 1.0
  else if lowest < 0.0 || 1.0 < highest then
    let above := Arith.max (highest - 1.0) 0.0
    let lo := Arith.max lowest 0.0
    let hi := Arith.min highest 1.0
    (above + 0.5 * (hi + lo) * (hi - lo)) / (2.0 * error)
  else fraction

/-- Integral of the fractional part from zero to `u`. -/
def sawtoothIntegral (u : α) : α :=
  let part := u - Arith.floor u
  0.5 * (Arith.floor u + part * part)

end TextureGraph.Mean
