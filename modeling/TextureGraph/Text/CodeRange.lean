/-!
# Sets of characters as ranges of code points

The character classes of the Unicode standard are tables of inclusive ranges, in ascending order.
Letters and digits are those of version 17, identifiers those of version 18.
-/

namespace TextureGraph.Text

/-- Whether a character lies in one of the ranges. -/
def inRanges (ranges : Array (Nat × Nat)) (c : Char) : Bool :=
  ranges.any fun (first, last) => first ≤ c.toNat && c.toNat ≤ last

end TextureGraph.Text
