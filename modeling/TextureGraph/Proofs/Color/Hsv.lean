import Mathlib.Data.Set.Function
import Mathlib.Tactic.FinCases
import TextureGraph.Proofs.Number.ExactOrder
import TextureGraph.Color.Hsv

/-!
# Colors and their hue, saturation and value determine each other

`Hsv.conversions_inverse`: in real arithmetic, a color whose largest channel is positive is found again
from its coordinates, as is black, and coordinates with a positive saturation and value are found again
from their color.  So colors that are not gray correspond one to one to their coordinates.

The six sectors of the circle of hues meet the two conversions halfway.  `inSector` is the color at a
place in a sector: both conversions are computed for it, once for all sectors (`toColor_inSector`,
`ofColor_inSector`), and every color that is not gray has such a place (`exists_inSector`).
-/

namespace TextureGraph

/-- The remainder of what lies in the interval from zero to the divisor. -/
theorem ExactArith.remNonneg_of_mem {a b : ℝ} (ha : 0 ≤ a) (hb : a < b) :
    Arith.remNonneg a b = a := by
  have hpos : 0 < b := ha.trans_lt hb
  have hnonneg : 0 ≤ a / b := div_nonneg ha hpos.le
  have hfloor : ⌊a / b⌋ = 0 := Int.floor_eq_zero_iff.mpr ⟨hnonneg, (div_lt_one hpos).mpr hb⟩
  have hrem : Arith.rem a b = a := by
    show (if 0 ≤ a / b then a - b * ⌊a / b⌋ else a - b * ⌈a / b⌉) = a
    rw [if_pos hnonneg, hfloor, Int.cast_zero, mul_zero, sub_zero]
  rw [Arith.remNonneg, hrem, ExactArith.zero_eq]
  exact if_neg ha.not_gt

namespace Color

/-- The largest channel. -/
noncomputable def largest (c : Color ℝ) : ℝ :=
  max (max c.red c.green) c.blue

/-- The smallest channel. -/
noncomputable def smallest (c : Color ℝ) : ℝ :=
  min (min c.red c.green) c.blue

theorem smallest_le_largest (c : Color ℝ) : smallest c ≤ largest c :=
  (min_le_left _ _).trans ((min_le_left _ _).trans ((le_max_left _ _).trans (le_max_left _ _)))

end Color

namespace Hsv

open Color

/-! ### The literals of the conversions -/

theorem sixty_eq : (Arith.toOfScientific.ofScientific 600 true 1 : ℝ) = 60 := by
  rw [ExactArith.literal_eq]
  norm_num

theorem thirdTurn_eq : (Arith.toOfScientific.ofScientific 1200 true 1 : ℝ) = 120 := by
  rw [ExactArith.literal_eq]
  norm_num

theorem twoThirdsTurn_eq : (Arith.toOfScientific.ofScientific 2400 true 1 : ℝ) = 240 := by
  rw [ExactArith.literal_eq]
  norm_num

theorem turn_eq : (Arith.toOfScientific.ofScientific 3600 true 1 : ℝ) = 360 := by
  rw [ExactArith.literal_eq]
  norm_num

/-! ### The coordinates of a color -/

/-- The hue of a color that is not gray, before one turn is added to a negative one. -/
noncomputable def signedHue (c : Color ℝ) : ℝ :=
  let spread := largest c - smallest c
  if c.red = largest c then 60 * (c.green - c.blue) / spread
  else if c.green = largest c then 60 * (c.blue - c.red) / spread + 120
  else 60 * (c.red - c.green) / spread + 240

section Coordinates

variable (c : Color ℝ)

theorem value_ofColor : (ofColor c).value = largest c := by
  simp only [ofColor, ExactArith.max_real, largest]

/-- The saturation of black is no exception, since a quotient by zero is zero. -/
theorem saturation_ofColor : (ofColor c).saturation = (largest c - smallest c) / largest c := by
  simp only [ofColor, ExactArith.max_real, ExactArith.min_real, ExactOrder.beq_iff,
    ExactArith.zero_eq, largest, smallest]
  split_ifs with hzero
  · rw [hzero, div_zero]
  · rfl

variable {c}

theorem hue_ofColor (h : smallest c < largest c) :
    (ofColor c).hue = if signedHue c < 0 then signedHue c + 360 else signedHue c := by
  have hspread : ¬ max (max c.red c.green) c.blue - min (min c.red c.green) c.blue = 0 :=
    (sub_pos.mpr h).ne'
  simp only [ofColor, ExactArith.max_real, ExactArith.min_real, ExactOrder.beq_iff,
    ExactArith.zero_eq, sixty_eq, thirdTurn_eq, twoThirdsTurn_eq, turn_eq, if_neg hspread]
  rfl

end Coordinates

/-! ### Sectors -/

/-- The color at the fraction `f` of the way through a sector of the circle of hues.  Its largest channel
is `value`, its smallest one less by `spread`; the third moves between them, up in the sectors with even
numbers and down in the others. -/
def inSector (sector : Fin 6) (f spread value : ℝ) : Color ℝ :=
  let low := value - spread
  let rising := value - spread * (1 - f)
  let falling := value - spread * f
  match sector with
  | 0 => ⟨value, rising, low⟩
  | 1 => ⟨falling, value, low⟩
  | 2 => ⟨low, value, rising⟩
  | 3 => ⟨low, falling, value⟩
  | 4 => ⟨rising, low, value⟩
  | 5 => ⟨value, low, falling⟩

section Sectors

variable (sector : Fin 6) {f spread value : ℝ}

theorem largest_inSector (hf : 0 ≤ f) (hf' : f < 1) (hspread : 0 < spread) :
    largest (inSector sector f spread value) = value := by
  have hrising : value - spread * (1 - f) ≤ value := by nlinarith
  have hfalling : value - spread * f ≤ value := by nlinarith
  fin_cases sector <;> simp [largest, inSector, hrising, hfalling, hspread.le]

theorem smallest_inSector (hf : 0 ≤ f) (hf' : f < 1) (hspread : 0 < spread) :
    smallest (inSector sector f spread value) = value - spread := by
  have hrising : value - spread ≤ value - spread * (1 - f) := by nlinarith
  have hfalling : value - spread ≤ value - spread * f := by nlinarith
  fin_cases sector <;> simp [smallest, inSector, hrising, hfalling, hspread.le]

/-- A channel between the smallest and the largest one is some fraction of the way up. -/
theorem exists_rising {low a high : ℝ} (hlow : low ≤ a) (hhigh : a < high) :
    ∃ f, 0 ≤ f ∧ f < 1 ∧ a = high - (high - low) * (1 - f) := by
  have hpos : 0 < high - low := by linarith
  refine ⟨(a - low) / (high - low), div_nonneg (by linarith) hpos.le, ?_, ?_⟩
  · exact (div_lt_one hpos).mpr (by linarith)
  · field_simp
    ring

/-- A channel between the smallest and the largest one is some fraction of the way down. -/
theorem exists_falling {low a high : ℝ} (hlow : low < a) (hhigh : a ≤ high) :
    ∃ f, 0 ≤ f ∧ f < 1 ∧ a = high - (high - low) * f := by
  have hpos : 0 < high - low := by linarith
  refine ⟨(high - a) / (high - low), div_nonneg (by linarith) hpos.le, ?_, ?_⟩
  · exact (div_lt_one hpos).mpr (by linarith)
  · field_simp
    ring

/-- Unless all channels are equal, they are in one of six orders. -/
theorem channel_order {r g b : ℝ} (h : min (min r g) b < max (max r g) b) :
    b ≤ g ∧ g < r ∨ b < r ∧ r ≤ g ∨ r ≤ b ∧ b < g ∨ r < g ∧ g ≤ b ∨ g ≤ r ∧ r < b ∨
      g < b ∧ b ≤ r := by
  grind

/-- Every color that is not gray lies in a sector. -/
theorem exists_inSector {c : Color ℝ} (h : smallest c < largest c) :
    ∃ sector f spread value, 0 ≤ f ∧ f < 1 ∧ 0 < spread ∧ c = inSector sector f spread value := by
  obtain ⟨r, g, b⟩ := c
  rcases channel_order h with ⟨hlow, hhigh⟩ | ⟨hlow, hhigh⟩ | ⟨hlow, hhigh⟩ | ⟨hlow, hhigh⟩ |
    ⟨hlow, hhigh⟩ | ⟨hlow, hhigh⟩
  · obtain ⟨f, hf, hf', heq⟩ := exists_rising hlow hhigh
    exact ⟨0, f, r - b, r, hf, hf', by linarith, by simp [inSector, ← heq]⟩
  · obtain ⟨f, hf, hf', heq⟩ := exists_falling hlow hhigh
    exact ⟨1, f, g - b, g, hf, hf', by linarith, by simp [inSector, ← heq]⟩
  · obtain ⟨f, hf, hf', heq⟩ := exists_rising hlow hhigh
    exact ⟨2, f, g - r, g, hf, hf', by linarith, by simp [inSector, ← heq]⟩
  · obtain ⟨f, hf, hf', heq⟩ := exists_falling hlow hhigh
    exact ⟨3, f, b - r, b, hf, hf', by linarith, by simp [inSector, ← heq]⟩
  · obtain ⟨f, hf, hf', heq⟩ := exists_rising hlow hhigh
    exact ⟨4, f, b - g, b, hf, hf', by linarith, by simp [inSector, ← heq]⟩
  · obtain ⟨f, hf, hf', heq⟩ := exists_falling hlow hhigh
    exact ⟨5, f, r - g, r, hf, hf', by linarith, by simp [inSector, ← heq]⟩

/-- **The color at a place in a sector**: the hue of the place has the color. -/
theorem toColor_inSector (hf : 0 ≤ f) (hf' : f < 1) {saturation : ℝ} (hsaturation : 0 < saturation) :
    toColor ⟨60 * (sector + f), saturation, value⟩
      = inSector sector f (value * saturation) value := by
  have hsector : (0 : ℝ) ≤ sector ∧ (sector : ℝ) ≤ 5 :=
    ⟨Nat.cast_nonneg _, mod_cast Nat.le_of_lt_succ sector.isLt⟩
  have hturn : Arith.remNonneg (60 * (sector + f)) 360 = 60 * (sector + f) :=
    ExactArith.remNonneg_of_mem (by linarith) (by linarith)
  have hplace : (60 : ℝ) * (sector + f) / 60 = sector + f := by ring
  have hfloor : Arith.floor ((sector : ℝ) + f) = sector := by
    have hwhole : ⌊(sector : ℝ) + f⌋ = (sector : ℕ) := by
      rw [Int.floor_natCast_add, Int.floor_eq_zero_iff.mpr ⟨hf, hf'⟩, add_zero]
    exact congrArg Int.cast hwhole
  have hnumber : (Arith.floorInt ((sector : ℕ) : ℝ)).toNat = sector :=
    congrArg Int.toNat (Int.floor_natCast (sector : ℕ))
  simp only [toColor, ExactArith.zero_eq, ExactArith.one_eq, sixty_eq, turn_eq, hturn, hplace, hfloor,
    hnumber, add_sub_cancel_left, if_neg hsaturation.not_ge]
  fin_cases sector <;> simp only [inSector] <;> congr 1 <;> ring

/-- Before a turn is added, the hue runs from minus 60 to 300 degrees. -/
theorem signedHue_inSector (hf : 0 ≤ f) (hf' : f < 1) (hspread : 0 < spread) :
    signedHue (inSector sector f spread value)
      = if sector = 5 then 60 * f - 60 else 60 * (sector + f) := by
  have hlow : value - spread ≠ value := by linarith
  have hrising : value - spread * (1 - f) ≠ value := by nlinarith
  have hup : 60 * (value - spread * (1 - f) - (value - spread)) / spread = 60 * f := by
    field_simp
    ring
  have hdown : 60 * (value - spread - (value - spread * f)) / spread = 60 * f - 60 := by
    field_simp
    ring
  -- Where the falling channel is still the largest, the formula of the other one gives the same hue.
  have hstart : value - spread * f = value →
      60 * (value - (value - spread)) / spread = 60 * f + 60 := by
    intro hfalling
    have hzero : f = 0 := by simpa [hspread.ne'] using hfalling
    rw [hzero, sub_sub_cancel, mul_div_cancel_right₀ _ hspread.ne']
    norm_num
  rw [signedHue, largest_inSector sector hf hf' hspread, smallest_inSector sector hf hf' hspread,
    sub_sub_cancel]
  match sector with
  | 0 =>
    simp only [inSector, hup, ↓reduceIte, Fin.reduceEq]
    norm_num
  | 1 =>
    by_cases hfalling : value - spread * f = value
    · simp only [inSector, hfalling, hstart hfalling, ↓reduceIte, Fin.reduceEq]
      norm_num
      ring
    · simp only [inSector, hfalling, hdown, ↓reduceIte, Fin.reduceEq]
      norm_num
      ring
  | 2 =>
    simp only [inSector, hlow, hup, ↓reduceIte, Fin.reduceEq]
    norm_num
    ring
  | 3 =>
    by_cases hfalling : value - spread * f = value
    · simp only [inSector, hlow, hfalling, hstart hfalling, ↓reduceIte, Fin.reduceEq]
      norm_num
      ring
    · simp only [inSector, hlow, hfalling, hdown, ↓reduceIte, Fin.reduceEq]
      norm_num
      ring
  | 4 =>
    simp only [inSector, hrising, hlow, hup, ↓reduceIte, Fin.reduceEq]
    norm_num
    ring
  | 5 => simp only [inSector, hdown, ↓reduceIte]

/-- **The coordinates of a place in a sector**: the hue of a color is the place where it lies. -/
theorem ofColor_inSector (hf : 0 ≤ f) (hf' : f < 1) (hspread : 0 < spread) :
    ofColor (inSector sector f spread value) = ⟨60 * (sector + f), spread / value, value⟩ := by
  have hlargest : largest (inSector sector f spread value) = value :=
    largest_inSector sector hf hf' hspread
  have hsmallest : smallest (inSector sector f spread value) = value - spread :=
    smallest_inSector sector hf hf' hspread
  have hhue : (ofColor (inSector sector f spread value)).hue = 60 * (sector + f) := by
    rw [hue_ofColor (by linarith), signedHue_inSector sector hf hf' hspread]
    by_cases hlast : sector = 5
    · rw [if_pos hlast, if_pos (by linarith), hlast]
      norm_num
      ring
    · rw [if_neg hlast, if_neg (not_lt.mpr (by positivity))]
  have hsaturation := saturation_ofColor (inSector sector f spread value)
  have hvalue := value_ofColor (inSector sector f spread value)
  rw [hlargest, hsmallest, sub_sub_cancel] at hsaturation
  rw [hlargest] at hvalue
  exact congr (congr (congrArg Hsv.mk hhue) hsaturation) hvalue

end Sectors

/-! ### The two conversions -/

/-- A color that is not gray is found again from its coordinates, if its largest channel is positive. -/
theorem toColor_ofColor_of_lt {c : Color ℝ} (h : smallest c < largest c) (hpos : 0 < largest c) :
    toColor (ofColor c) = c := by
  obtain ⟨sector, f, spread, value, hf, hf', hspread, rfl⟩ := exists_inSector h
  rw [largest_inSector sector hf hf' hspread] at hpos
  rw [ofColor_inSector sector hf hf' hspread,
    toColor_inSector sector hf hf' (div_pos hspread hpos), mul_div_cancel₀ _ hpos.ne']

/-- A gray is found again from its coordinates. -/
theorem toColor_ofColor_of_eq {c : Color ℝ} (h : smallest c = largest c) :
    toColor (ofColor c) = c := by
  have hsaturation : (ofColor c).saturation ≤ Arith.toOfScientific.ofScientific 0 true 1 := by
    rw [saturation_ofColor, h, sub_self, zero_div, ExactArith.zero_eq]
  rw [toColor, if_pos hsaturation, value_ofColor]
  obtain ⟨r, g, b⟩ := c
  have hle : smallest ⟨r, g, b⟩ ≤ r ∧ smallest ⟨r, g, b⟩ ≤ g ∧ smallest ⟨r, g, b⟩ ≤ b := by
    simp [smallest]
  have hge : r ≤ largest ⟨r, g, b⟩ ∧ g ≤ largest ⟨r, g, b⟩ ∧ b ≤ largest ⟨r, g, b⟩ := by
    simp [largest]
  rw [Color.gray, Color.mk.injEq]
  exact ⟨by linarith, by linarith, by linarith⟩

/-- A hue is a place in a sector. -/
theorem exists_sector {hue : ℝ} (h : 0 ≤ hue) (h' : hue < 360) :
    ∃ sector : Fin 6, ∃ f, 0 ≤ f ∧ f < 1 ∧ hue = 60 * (sector + f) := by
  have hfloor : ⌊hue / 60⌋₊ < 6 := by
    rw [Nat.floor_lt (by positivity)]
    norm_num
    linarith
  refine ⟨⟨⌊hue / 60⌋₊, hfloor⟩, hue / 60 - ⌊hue / 60⌋₊, ?_, ?_, ?_⟩
  · linarith [Nat.floor_le (show 0 ≤ hue / 60 by positivity)]
  · linarith [Nat.lt_floor_add_one (hue / 60)]
  · rw [add_sub_cancel, mul_div_cancel₀ _ (by norm_num)]

/-- Coordinates are found again from their color, if saturation and value are positive. -/
theorem ofColor_toColor {h : Hsv ℝ} (hhue : 0 ≤ h.hue) (hhue' : h.hue < 360)
    (hsaturation : 0 < h.saturation) (hvalue : 0 < h.value) : ofColor (toColor h) = h := by
  obtain ⟨hue, saturation, value⟩ := h
  obtain ⟨sector, f, hf, hf', rfl⟩ := exists_sector hhue hhue'
  rw [toColor_inSector sector hf hf' hsaturation,
    ofColor_inSector sector hf hf' (mul_pos hvalue hsaturation),
    mul_div_cancel_left₀ _ hvalue.ne']

/-- Colors that are not gray and whose largest channel is positive. -/
def chromatic : Set (Color ℝ) :=
  {c | smallest c < largest c ∧ 0 < largest c}

/-- Coordinates with a positive saturation and value, and a hue within one turn. -/
def saturated : Set (Hsv ℝ) :=
  {h | 0 ≤ h.hue ∧ h.hue < 360 ∧ 0 < h.saturation ∧ 0 < h.value}

theorem mapsTo_ofColor : Set.MapsTo ofColor chromatic saturated := by
  rintro c ⟨h, hpos⟩
  obtain ⟨sector, f, spread, value, hf, hf', hspread, rfl⟩ := exists_inSector h
  rw [largest_inSector sector hf hf' hspread] at hpos
  rw [ofColor_inSector sector hf hf' hspread]
  have hsector : (sector : ℝ) ≤ 5 := mod_cast Nat.le_of_lt_succ sector.isLt
  exact ⟨by positivity, by linarith, div_pos hspread hpos, hpos⟩

theorem mapsTo_toColor : Set.MapsTo toColor saturated chromatic := by
  rintro ⟨hue, saturation, value⟩ ⟨hhue, hhue', hsaturation, hvalue⟩
  obtain ⟨sector, f, hf, hf', rfl⟩ := exists_sector hhue hhue'
  have hspread : 0 < value * saturation := mul_pos hvalue hsaturation
  rw [toColor_inSector sector hf hf' hsaturation]
  constructor
  · rw [smallest_inSector sector hf hf' hspread, largest_inSector sector hf hf' hspread]
    exact sub_lt_self _ hspread
  · rwa [largest_inSector sector hf hf' hspread]

/-- **The conversions are inverse to each other**: in real arithmetic,

* a color whose largest channel is positive is found again from its coordinates, whatever the other
  channels are, and so is black;
* coordinates whose hue is within one turn and whose saturation and value are positive are found again
  from their color;
* so colors that are not gray correspond one to one to such coordinates. -/
theorem conversions_inverse :
    (∀ c : Color ℝ, 0 < largest c ∨ c = Color.black → toColor (ofColor c) = c) ∧
      (∀ hue saturation value : ℝ, 0 ≤ hue → hue < 360 → 0 < saturation → 0 < value →
        ofColor (toColor ⟨hue, saturation, value⟩) = ⟨hue, saturation, value⟩) ∧
      Set.BijOn ofColor chromatic saturated := by
  refine ⟨?_, fun hue saturation value hhue hhue' hsaturation hvalue =>
    ofColor_toColor hhue hhue' hsaturation hvalue, ?_⟩
  · rintro c (hpos | rfl)
    · rcases (smallest_le_largest c).lt_or_eq with hlt | heq
      · exact toColor_ofColor_of_lt hlt hpos
      · exact toColor_ofColor_of_eq heq
    · exact toColor_ofColor_of_eq (by simp [smallest, largest, Color.black, Color.gray])
  · exact Set.InvOn.bijOn ⟨fun c hc => toColor_ofColor_of_lt hc.1 hc.2,
      fun h hh => ofColor_toColor hh.1 hh.2.1 hh.2.2.1 hh.2.2.2⟩ mapsTo_ofColor mapsTo_toColor

/-- A color with a negative channel, and the hue where two channels are the largest. -/
theorem conversions_inverse_violet :
    toColor (ofColor (⟨1, -1, 0⟩ : Color ℝ)) = ⟨1, -1, 0⟩ ∧
      ofColor (toColor (⟨300, 2, 1⟩ : Hsv ℝ)) = ⟨300, 2, 1⟩ := by
  obtain ⟨hcolor, hcoordinates, -⟩ := conversions_inverse
  refine ⟨hcolor _ (.inl ?_), hcoordinates 300 2 1 ?_ ?_ ?_ ?_⟩
  · simp [largest]
  all_goals norm_num

end Hsv

end TextureGraph
