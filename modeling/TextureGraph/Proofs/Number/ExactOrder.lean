import TextureGraph.Proofs.Number.Exact

/-!
# Exact number systems with exact comparisons

`ExactOrder α` says more of an exact number system: its magnitudes are those of the field, numbers are
told apart where they differ, and every number is finite.  The real numbers are an instance.
-/

namespace TextureGraph

/-- An exact number system in which magnitudes and comparisons are exact, too. -/
class ExactOrder (α : Type) [ExactArith α] : Prop where
  /-- The magnitude of a number. -/
  magnitude_eq : ∀ a : α, Arith.abs a = |a|
  /-- Only equal numbers are found equal. -/
  same_iff : ∀ a b : α, (a == b) = true ↔ a = b
  /-- There are no infinite or undefined numbers. -/
  finite_eq : ∀ a : α, Arith.isFinite a = true
  /-- Magnitudes are put in order by their size. -/
  magnitude_le_iff : ∀ a b : α, Arith.magnitudeLe a b = true ↔ |a| ≤ |b|

instance : ExactOrder ℝ where
  magnitude_eq _ := rfl
  same_iff _ _ := decide_eq_true_iff
  finite_eq _ := rfl
  magnitude_le_iff _ _ := decide_eq_true_iff

theorem ExactArith.sum_eq {α : Type} [ExactArith α] (as : List α) : Arith.sum as = as.sum := by
  unfold Arith.sum
  rw [ExactArith.zero_eq, neg_zero, List.sum_eq_foldl]

namespace ExactOrder

variable {α : Type} [ExactArith α] [ExactOrder α]

@[simp]
theorem abs_eq (a : α) : Arith.abs a = |a| :=
  magnitude_eq a

@[simp]
theorem isFinite_eq (a : α) : Arith.isFinite a = true :=
  finite_eq a

theorem beq_iff {a b : α} : (a == b) = true ↔ a = b :=
  same_iff a b

theorem magnitudeLe_iff {a b : α} : Arith.magnitudeLe a b = true ↔ |a| ≤ |b| :=
  magnitude_le_iff a b

theorem max_eq (a b : α) : Arith.max a b = max a b := by
  have hself : (a == a) = true := beq_iff.mpr rfl
  unfold Arith.max
  rw [if_pos hself]
  rcases lt_or_ge a b with h | h
  · rw [if_pos h, max_eq_right h.le]
  · rw [if_neg h.not_gt, max_eq_left h]

end ExactOrder

end TextureGraph
