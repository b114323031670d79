import TextureGraph.Sampling.Sampler

/-!
# Images

An image divides a patch into equal cells, one for each pixel.  Each pixel is sampled by itself, so
the image does not depend on the order in which they are.  That workers for them can be started is assumed.
-/

namespace TextureGraph

/-- A sampled image. -/
structure Raster (α : Type) where
  /-- The number of pixels in a row. -/
  width : Nat
  /-- The number of rows. -/
  height : Nat
  /-- The pixels row by row, the row at the lower end of the second direction first. -/
  pixels : List α
  /-- The work it took. -/
  work : Work
deriving Repr

namespace Raster

variable {M α : Type}

/-- A pixel, by the number of its column and of its row. -/
def get? (r : Raster α) (x y : Nat) : Option α :=
  if x < r.width then r.pixels[y * r.width + x]? else none

variable [Arith α]

/-- The cell of a pixel. -/
def pixelCell (width height x y : Nat) : Cell α :=
  let ds : α := 1.0 / Arith.ofInt width
  let dt : α := 1.0 / Arith.ofInt height
  { s := Arith.ofInt x * ds, t := Arith.ofInt y * dt, ds, dt }

/-- The cells of all pixels, row by row. -/
def cells (width height : Nat) : List (Cell α) :=
  (List.range height).flatMap fun y => (List.range width).map fun x => pixelCell width height x y

/-- The image of an output over a patch. -/
def render [TextureModule M α] (graph : FrozenGraph M α) (target : Target) (patch : Patch α)
    (settings : Settings α) (width height : Nat) : Except (SamplerError α) (Raster α) := do
  if width = 0 ∨ height = 0 then .error (.emptyRaster width height)
  else
    let sampler ← Sampler.create graph target patch settings
    let samples ← (cells width height).mapM sampler.average
    return {
      width, height
      pixels := samples.map (·.1)
      work := (samples.map (·.2)).foldl (· + ·) {} }

end Raster

end TextureGraph
