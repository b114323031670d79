import Mathlib.Algebra.Order.Field.Basic
import Mathlib.Analysis.SpecialFunctions.Complex.Arg
import Mathlib.Analysis.SpecialFunctions.Pow.Real
import TextureGraph.Number.Arith

/-!
# Exact number systems

`ExactArith α` says that the numbers of `α` form an ordered field, in which the literals and the
integers are what they spell.  The other functions may be anything, so what is proved over
`ExactArith` holds whatever they are.  The real numbers are an instance with the functions that the
operations are named after.
-/

namespace TextureGraph

/-- A number system in which sums, products, quotients and comparisons are exact. -/
class ExactArith (α : Type) extends Field α, LinearOrder α, IsStrictOrderedRing α, Arith α where
  /-- A literal is the number that it spells. -/
  literal_eq : ∀ (digits : Nat) (negative : Bool) (decimals : Nat),
    toArith.toOfScientific.ofScientific digits negative decimals
      = ((OfScientific.ofScientific digits negative decimals : ℚ) : α)
  /-- An integer is itself. -/
  integer_eq : ∀ n : Int, toArith.ofInt n = (n : α)

namespace ExactArith

variable {α : Type} [ExactArith α]

@[simp]
theorem ofInt_eq (n : Int) : (Arith.ofInt n : α) = n :=
  integer_eq n

@[simp]
theorem zero_eq : (Arith.toOfScientific.ofScientific 0 true 1 : α) = 0 := by
  rw [literal_eq]
  norm_num

@[simp]
theorem half_eq : (Arith.toOfScientific.ofScientific 5 true 1 : α) = 1 / 2 := by
  rw [literal_eq]
  norm_num

@[simp]
theorem one_eq : (Arith.toOfScientific.ofScientific 10 true 1 : α) = 1 := by
  rw [literal_eq]
  norm_num

@[simp]
theorem two_eq : (Arith.toOfScientific.ofScientific 20 true 1 : α) = 2 := by
  rw [literal_eq]
  norm_num

@[simp]
theorem three_eq : (Arith.toOfScientific.ofScientific 30 true 1 : α) = 3 := by
  rw [literal_eq]
  norm_num

end ExactArith

/-- The real numbers.  What has no upper limit is reported as zero, which no real number can stand
for.  The integers have no bounds: `floorInt` is the floor itself, and sums of integers do not wrap
around, so statements about the lattice over the real numbers hold arbitrarily far from its origin. -/
noncomputable instance : ExactArith ℝ where
  __ := (inferInstance : Field ℝ)
  __ := (inferInstance : LinearOrder ℝ)
  __ := (inferInstance : IsStrictOrderedRing ℝ)
  ofScientific digits negative decimals :=
    ((OfScientific.ofScientific digits negative decimals : ℚ) : ℝ)
  beq a b := decide (a = b)
  decLt _ _ := inferInstance
  decLe _ _ := inferInstance
  abs a := |a|
  sqrt := Real.sqrt
  floor a := ⌊a⌋
  exp := Real.exp
  ln := Real.log
  sin := Real.sin
  cos := Real.cos
  pow a b := a ^ b
  atan2 y x := Complex.arg ⟨x, y⟩
  hypot x y := Real.sqrt (x * x + y * y)
  rem a b := if 0 ≤ a / b then a - b * ⌊a / b⌋ else a - b * ⌈a / b⌉
  signum a := if a < 0 then -1 else 1
  isFinite _ := true
  floorInt a := ⌊a⌋
  wrapInt n := n
  ofInt n := n
  magnitudeLe a b := decide (|a| ≤ |b|)
  pi := Real.pi
  euler := Real.exp 1
  infinity := 0
  literal_eq _ _ _ := rfl
  integer_eq _ := rfl

namespace ExactArith

theorem abs_real (a : ℝ) : Arith.abs a = |a| :=
  rfl

theorem max_real (a b : ℝ) : Arith.max a b = max a b := by
  have hself : (a == a) = true := decide_eq_true rfl
  unfold Arith.max
  rw [if_pos hself]
  rcases lt_or_ge a b with h | h
  · rw [if_pos h, max_eq_right h.le]
  · rw [if_neg h.not_gt, max_eq_left h]

theorem min_real (a b : ℝ) : Arith.min a b = min a b := by
  have hself : (a == a) = true := decide_eq_true rfl
  unfold Arith.min
  rw [if_pos hself]
  rcases lt_or_ge b a with h | h
  · rw [if_pos h, min_eq_right h.le]
  · rw [if_neg h.not_gt, min_eq_left h]

end ExactArith

end TextureGraph
