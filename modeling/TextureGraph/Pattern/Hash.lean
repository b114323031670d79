import TextureGraph.Number.Arith

/-!
# Random numbers on a lattice

Every point of the integer lattice has a random word of its own, which depends on nothing but its
coordinates.
-/

namespace TextureGraph.Pattern

/-- Scrambles a word: a bijection in which each bit of the result depends on all bits of `z`. -/
def mix (z : UInt64) : UInt64 :=
  let z := z + 0x9E3779B97F4A7C15
  let z := (z ^^^ (z >>> 30)) * 0xBF58476D1CE4E5B9
  let z := (z ^^^ (z >>> 27)) * 0x94D049BB133111EB
  z ^^^ (z >>> 31)

/-- The random word of three words. -/
def hashWords (x y z : UInt64) : UInt64 :=
  mix (mix (mix x ^^^ y) ^^^ z)

/-- A lattice coordinate as a word, modulo `2^64`. -/
def word (n : Int) : UInt64 :=
  UInt64.ofInt n

/-- The random word of a lattice point. -/
def latticeHash (x y z : Int) : UInt64 :=
  hashWords (word x) (word y) (word z)

/-- The upper 53 bits of a word as a number in `[0, 1)`. -/
def unitRandom {α : Type} [Arith α] (hash : UInt64) : α :=
  Arith.ofInt (hash >>> 11).toNat * (1.0 / 9007199254740992.0)

end TextureGraph.Pattern
