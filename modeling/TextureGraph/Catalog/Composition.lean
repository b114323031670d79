import TextureGraph.Color.Hsv
import TextureGraph.Module.Basic

/-!
# Composition of colors

The error of a color bounds the change of the channel that changes most.
-/

namespace TextureGraph

/-- Modules that make, mix and take apart colors. -/
inductive Composition where
  /-- The sum, channel by channel. -/
  | sum
  /-- The difference, channel by channel. -/
  | difference
  /-- The product, channel by channel. -/
  | product
  /-- A color times a number. -/
  | scale
  /-- A weighted mean of two colors. -/
  | blend
  /-- The color of lower brightness. -/
  | darker
  /-- The color of higher brightness. -/
  | lighter
  /-- The color with a given hue, saturation and value. -/
  | ofHsv
  /-- The color with given channels. -/
  | ofRgb
  /-- The hue, saturation and value of the color with given channels. -/
  | toHsv
deriving DecidableEq, Repr

namespace Composition

section Sockets

variable {α : Type} [Arith α]

/-- The signature of an operation on two colors, with the fallback of both. -/
private def binary (typeId name : String) (fallback : Color α) : Signature α :=
  .ofSockets typeId name .color [.color "Color 1" fallback, .color "Color 2" fallback]
    [.output name .color]

/-- The inputs for the channels of a color. -/
private def channelSockets : List (Socket α) :=
  [.scalar "Red" 0.0, .scalar "Green" 0.0, .scalar "Blue" 0.0]

/-- The sockets of a module. -/
def signature : Composition → Signature α
  | .sum => binary "color_sum" "Sum" Color.black
  | .difference => binary "color_difference" "Difference" Color.black
  | .product => binary "color_product" "Product" Color.white
  | .scale =>
    .ofSockets "color_scale" "Scale" .color [.color "Color" Color.white, .scalar "Scale" 1.0]
      [.output "Scale" .color]
  | .blend =>
    .ofSockets "blend" "Blend" .color
      [.color "Color 1" Color.black, .color "Color 2" Color.white, .scalar "Fraction" 0.5]
      [.output "Blend" .color]
  | .darker => binary "darker" "Darker" Color.white
  | .lighter => binary "lighter" "Lighter" Color.white
  | .ofHsv =>
    .ofSockets "hsv" "HSV" .color
      [.scalar "Hue" 1.0, .scalar "Saturation" 1.0, .scalar "Value" 1.0] [.output "Color" .color]
  | .ofRgb => .ofSockets "rgb" "RGB" .color channelSockets [.output "Color" .color]
  | .toHsv =>
    .ofSockets "rgb_to_hsv" "RGB to HSV" .color channelSockets
      [.output "Hue" .scalar, .output "Saturation" .scalar, .output "Value" .scalar]

/-- A coordinate of a color: `0` is the hue in turns, `1` the saturation, any other number the
value. -/
def hsvCoordinate (c : Color α) (which : Nat) : α :=
  let hsv := Hsv.ofColor c
  match which with
  | 0 => hsv.hue / 360.0
  | 1 => hsv.saturation
  | _ => hsv.value

/-- The largest spread of hues that is averaged, in turns. -/
def maxHueSpread : α := 0.25

/-- A hue given in turns as a color. -/
def ofTurns (turns saturation value : α) : Color α :=
  Hsv.toColor ⟨Arith.remNonneg turns 1.0 * 360.0, saturation, value⟩

end Sockets

variable {α : Type} [Arith α] (inputs : Inputs α) (q : Query α)

/-- The mean weight of the second color of a blend. -/
def fraction : α :=
  Mean.fraction (inputs.value 2 q) (inputs.error 2 q)

/-- The saturation that `ofHsv` reads, kept between zero and one. -/
def saturation : α :=
  Arith.clamp 0.0 1.0 (inputs.value 1 q)

/-- The first three inputs as the channels of a color. -/
def channels : Color α :=
  ⟨inputs.value 0 q, inputs.value 1 q, inputs.value 2 q⟩

/-- The input of lower brightness and its color; the first one when they are equally bright. -/
def darkerInput : Nat × Color α :=
  let a := inputs.color 0 q
  let b := inputs.color 1 q
  if b.brightness < a.brightness then (1, b) else (0, a)

/-- The input of higher brightness and its color; the first one when they are equally bright. -/
def lighterInput : Nat × Color α :=
  let a := inputs.color 0 q
  let b := inputs.color 1 q
  if a.brightness < b.brightness then (1, b) else (0, a)

/-- The color with the hue, saturation and value that the inputs give.  An uncertain hue is averaged
between its two ends. -/
def hsvColor : Color α :=
  let hue := inputs.value 0 q
  let s := saturation inputs q
  let v := inputs.value 2 q
  let spread := Arith.min (0.5 * inputs.error 0 q) maxHueSpread
  if spread == 0.0 then ofTurns hue s v
  else (ofTurns (hue - spread) s v).lerp (ofTurns (hue + spread) s v) 0.5

/-- The largest error of the three channels. -/
def channelError : α :=
  [0, 1, 2].foldl (fun largest i => Arith.max largest (inputs.error i q)) 0.0

/-- The color that a module yields. -/
def color (output : Nat) : Composition → Color α
  | .sum => inputs.color 0 q + inputs.color 1 q
  | .difference => inputs.color 0 q - inputs.color 1 q
  | .product => inputs.color 0 q * inputs.color 1 q
  | .scale => (inputs.color 0 q).scale (inputs.value 1 q)
  | .blend =>
    let f := fraction inputs q
    if f == 0.0 then inputs.color 0 q
    else if f == 1.0 then inputs.color 1 q
    else (inputs.color 0 q).lerp (inputs.color 1 q) f
  | .darker => (darkerInput inputs q).2
  | .lighter => (lighterInput inputs q).2
  | .ofHsv => hsvColor inputs q
  | .ofRgb => channels inputs q
  | .toHsv => Color.gray (hsvCoordinate (channels inputs q) output)

/-- The number that a module yields; only `toHsv` has outputs that carry numbers. -/
def value (output : Nat) : Composition → α
  | .toHsv => hsvCoordinate (channels inputs q) output
  | _ => 0.0

/-- The error of a module.  A full turn of the hue sweeps each channel six times through its
range. -/
def error : Composition → α
  | .sum | .difference => inputs.error 0 q + inputs.error 1 q
  | .product =>
    let a := (inputs.color 0 q).maxAbsChannel
    let b := (inputs.color 1 q).maxAbsChannel
    a * inputs.error 1 q + b * inputs.error 0 q
  | .scale =>
    let color := (inputs.color 0 q).maxAbsChannel
    let scale := Arith.abs (inputs.value 1 q)
    color * inputs.error 1 q + scale * inputs.error 0 q
  | .blend =>
    let f := fraction inputs q
    let spread := (inputs.color 1 q - inputs.color 0 q).maxAbsChannel
    (1.0 - f) * inputs.error 0 q + f * inputs.error 1 q
      + spread * Arith.min (inputs.error 2 q) 1.0
  | .darker => inputs.error (darkerInput inputs q).1 q
  | .lighter => inputs.error (lighterInput inputs q).1 q
  | .ofHsv =>
    let s := saturation inputs q
    let v := Arith.abs (inputs.value 2 q)
    let hue := 6.0 * s * v * Arith.min (inputs.error 0 q) maxHueSpread
    hue + v * inputs.error 1 q + inputs.error 2 q
  | .ofRgb | .toHsv => channelError inputs q

instance : TextureModule Composition α where
  signature := signature
  parameters _ := []
  setParameter := TextureModule.refuseParameter
  averageValue m output inputs q := m.value inputs q output
  colorValue m output inputs q := m.color inputs q output
  valueError m _ inputs q := m.error inputs q
  valueGradient _ _ _ _ := Vec.zero

end Composition

end TextureGraph
