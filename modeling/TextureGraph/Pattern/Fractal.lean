import TextureGraph.Estimate.Basic
import TextureGraph.Pattern.GradientNoise

/-!
# Octaves of noise

Noise is added to itself at doubled frequencies and falling amplitudes.  An octave whose waves are
no larger than the footprint has a mean of zero there and is left out; the last octave before that
fades out, so that the sum changes smoothly with the size of the footprint.
-/

namespace TextureGraph.Pattern

/-- How octaves are added. -/
inductive Mode where
  /-- With their signs. -/
  | signed
  /-- By their absolute values. -/
  | absolute
deriving DecidableEq, Repr, BEq

variable {α : Type} [Arith α]

/-- Keeps the lattice points away from the origin of space. -/
def latticeOffset : α := 123.456

/-- The frequency that octaves stay below over a footprint with the given largest error; none for an
exact point. -/
def frequencyLimit (largest : α) : Option α :=
  if largest == 0.0 && 0.0 < Arith.signum largest then none else some (0.5 / largest)

/-- Whether an octave is left out. -/
def isDropped (limit : Option α) (frequency : α) : Bool :=
  match limit with
  | none => false
  | some limit => limit ≤ frequency

/-- The share of an octave that is kept: it falls from one to zero over the last octave below the
limit. -/
def kept (limit : Option α) (frequency : α) : Option α :=
  match limit with
  | none => none
  | some limit =>
    if 0.5 * limit < frequency then some (2.0 * (1.0 - frequency / limit)) else none

/-- The noise at one frequency: its value and its gradient with respect to `p`. -/
def octave (mode : Mode) (p : Vec α) (frequency amplitude : α) : α × Vec α :=
  let (n, g) := gradientNoise (p.scale frequency + Vec.splat latticeOffset)
  let value := amplitude * n
  let slope := g.scale (amplitude * frequency)
  if mode == .absolute && value < 0.0 then (-value, -slope) else (value, slope)

/-- How far a quantity with the given slope varies over a box of the given half extents. -/
def spread (size slope : Vec α) : α :=
  Arith.abs (size.x * slope.x) + Arith.abs (size.y * slope.y) + Arith.abs (size.z * slope.z)

/-- Adds at most `n` more octaves, from the given frequency and amplitude on. -/
def addOctaves (mode : Mode) (p size : Vec α) (persistence : α) (limit : Option α) :
    Nat → α → α → Estimate α → Estimate α
  | 0, _, _, sum => sum
  | n + 1, frequency, amplitude, sum =>
    if isDropped limit frequency then sum
    else
      let (value, slope) := octave mode p frequency amplitude
      let error := sum.error + spread size slope
      let (value, slope) :=
        match kept limit frequency with
        | none => (value, slope)
        | some share => (value * share, slope.scale share)
      addOctaves mode p size persistence limit n (frequency * 2.0) (amplitude * persistence)
        ⟨sum.value + value, error, sum.gradient + slope⟩

/-- The sum of octaves at `p`, known up to `size`; the gradient is taken with respect to `p`.  Each
octave has `persistence` times the amplitude of the one before. -/
def fractal (mode : Mode) (octaves : Nat) (amplitude persistence : α) (p size : Vec α) :
    Estimate α :=
  addOctaves mode p size persistence (frequencyLimit size.maxComponent) octaves 1.0 amplitude
    (.constant 0.0)

end TextureGraph.Pattern
