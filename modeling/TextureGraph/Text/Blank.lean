import TextureGraph.Text.CodeRange

/-!
# Blank characters

The Unicode property `White_Space`.
-/

namespace TextureGraph.Text

/-- The characters with the property `White_Space`. -/
def blankRanges : Array (Nat × Nat) := #[
  (0x9, 0xD), (0x20, 0x20), (0x85, 0x85), (0xA0, 0xA0), (0x1680, 0x1680), (0x2000, 0x200A),
  (0x2028, 0x2029), (0x202F, 0x202F), (0x205F, 0x205F), (0x3000, 0x3000)]

/-- Whether a character is blank. -/
def isBlank (c : Char) : Bool :=
  inRanges blankRanges c

end TextureGraph.Text
