import Mathlib.Data.List.Perm.Basic
import Mathlib.Tactic.FieldSimp
import TextureGraph.Proofs.Number.ExactOrder
import TextureGraph.Space.LinearSystem

/-!
# Elimination finds the only solution

For a square system of any size, in exact arithmetic:

* `eliminate_eq_some`: what `LinearSolver.eliminate` finds is the one solution of the system;
* `eliminate_eq_none`: where it finds nothing although every pivot but zero is taken, something else
  than zero is taken to zero by all equations (without their constants).

Both are inductions along the unknowns.  `eliminate_step` says what one step does: some equation whose
leading coefficient is of largest magnitude is the pivot, and the first unknown is removed from the
others.  This changes what the others add up to by a multiple of what the pivot adds up to
(`Equation.total_reduce`), so nothing is lost as long as the pivot has a leading coefficient.
-/

namespace TextureGraph

open List

variable {α : Type} [ExactArith α]

/-! ### Weighted sums -/

/-- The values of the unknowns, weighted and added up. -/
def weightedSum (weights xs : List α) : α :=
  (zipWith (· * ·) weights xs).sum

@[simp]
theorem weightedSum_cons (a x : α) (weights xs : List α) :
    weightedSum (a :: weights) (x :: xs) = a * x + weightedSum weights xs :=
  sum_cons

/-- Weights that are changed by a multiple of other weights. -/
theorem weightedSum_sub_mul (factor : α) {cs ps : List α} (h : cs.length = ps.length)
    (xs : List α) :
    weightedSum (zipWith (fun c p => c - factor * p) cs ps) xs
      = weightedSum cs xs - factor * weightedSum ps xs := by
  induction cs generalizing ps xs with
  | nil =>
    obtain rfl : ps = [] := length_eq_zero_iff.mp h.symm
    simp [weightedSum]
  | cons c cs ih =>
    cases ps with
    | nil => cases h
    | cons p ps =>
      cases xs with
      | nil => simp [weightedSum]
      | cons x xs =>
        rw [zipWith_cons_cons, weightedSum_cons, weightedSum_cons, weightedSum_cons,
          ih (Nat.succ.inj h)]
        ring

theorem weightedSum_zeros (weights : List α) (n : Nat) :
    weightedSum weights (replicate n 0) = 0 := by
  induction weights generalizing n with
  | nil => rfl
  | cons a weights ih =>
    cases n with
    | zero => rfl
    | succ n => rw [replicate_succ, weightedSum_cons, ih, mul_zero, add_zero]

/-! ### Equations -/

namespace Equation

/-- What the unknowns add up to, in an equation. -/
def total (e : Equation α) (xs : List α) : α :=
  weightedSum e.coefficients xs

/-- An equation holds for the given values of its unknowns. -/
def Holds (e : Equation α) (xs : List α) : Prop :=
  e.total xs = e.constant

end Equation

namespace LinearSolver

/-- As many equations as unknowns. -/
structure IsSquare (n : Nat) (equations : List (Equation α)) : Prop where
  /-- The number of equations. -/
  length_eq : equations.length = n
  /-- The number of unknowns of each. -/
  unknowns_eq : ∀ e ∈ equations, e.coefficients.length = n

variable {n : Nat} {p e : Equation α} {xs : List α}

theorem coefficients_eq (h : e.coefficients.length = n + 1) :
    e.coefficients = lead e :: e.coefficients.tail := by
  obtain ⟨a, as, has⟩ := exists_cons_of_length_eq_add_one h
  rw [lead, has]
  rfl

theorem total_cons (h : e.coefficients.length = n + 1) (x : α) :
    e.total (x :: xs) = lead e * x + weightedSum e.coefficients.tail xs := by
  rw [Equation.total, coefficients_eq h, weightedSum_cons]
  rfl

theorem length_reduce (hp : p.coefficients.length = n + 1) (he : e.coefficients.length = n + 1) :
    (reduce p e).coefficients.length = n := by
  simp [reduce, hp, he]

/-- Without its first unknown, an equation adds up to what it did, less a multiple of what the pivot adds
up to.  The first unknown makes no difference. -/
theorem total_reduce (hp : p.coefficients.length = n + 1) (he : e.coefficients.length = n + 1)
    (hpivot : lead p ≠ 0) (x : α) :
    (reduce p e).total xs = e.total (x :: xs) - lead e / lead p * p.total (x :: xs) := by
  have htails : e.coefficients.tail.length = p.coefficients.tail.length := by
    rw [length_tail, length_tail, hp, he]
  rw [total_cons hp, total_cons he, Equation.total, reduce, weightedSum_sub_mul _ htails]
  field_simp
  ring

/-- Where the pivot holds, the other equations hold without their first unknown when they hold with it. -/
theorem holds_reduce_iff (hp : p.coefficients.length = n + 1)
    (he : e.coefficients.length = n + 1) (hpivot : lead p ≠ 0) {x : α} (h : p.Holds (x :: xs)) :
    (reduce p e).Holds xs ↔ e.Holds (x :: xs) := by
  have hconstant : (reduce p e).constant = e.constant - lead e / lead p * p.constant := rfl
  rw [Equation.Holds, total_reduce hp he hpivot x, h, hconstant, sub_left_inj]
  rfl

/-- The pivot holds for the one value of its first unknown that is found by substitution. -/
theorem holds_cons_iff (hp : p.coefficients.length = n + 1) (hpivot : lead p ≠ 0) {x : α} :
    p.Holds (x :: xs) ↔ x = substitute p xs := by
  rw [Equation.Holds, total_cons hp, substitute, ExactArith.sum_eq, eq_div_iff hpivot,
    eq_sub_iff_add_eq, mul_comm]
  rfl

/-! ### Square systems -/

variable {equations : List (Equation α)}

omit [ExactArith α] in
theorem IsSquare.perm {equations' : List (Equation α)} (h : IsSquare n equations)
    (hperm : equations' ~ equations) : IsSquare n equations' :=
  ⟨hperm.length_eq.trans h.length_eq, fun e he => h.unknowns_eq e (hperm.subset he)⟩

/-- What is left to solve is square again. -/
theorem IsSquare.reduce {pivot : Equation α} {others : List (Equation α)}
    (h : IsSquare (n + 1) (pivot :: others)) : IsSquare n (others.map (reduce pivot)) := by
  refine ⟨?_, fun e he => ?_⟩
  · rw [length_map]
    exact Nat.succ.inj h.length_eq
  · obtain ⟨other, hother, rfl⟩ := mem_map.mp he
    exact length_reduce (h.unknowns_eq pivot mem_cons_self)
      (h.unknowns_eq other (mem_cons_of_mem _ hother))

/-! ### The pivot -/

/-- The pivot and the others are the equations in another order. -/
theorem choosePivot_perm (first : Equation α) (rest : List (Equation α)) :
    (choosePivot first rest).1 :: (choosePivot first rest).2 ~ first :: rest := by
  unfold choosePivot
  split
  · exact .refl _
  · rename_i i _
    rw [getD_eq_getElem?_getD]
    exact getD_set_perm_cons rest i first

variable [ExactOrder α]

/-- The place is that of an equation whose leading coefficient is the largest, unless `best` has this. -/
theorem pivotPlace_spec (best : Equation α) (place : Option Nat) (i : Nat)
    (rest : List (Equation α)) :
    pivotPlace best place i rest = place ∧ (∀ e ∈ rest, |lead e| ≤ |lead best|) ∨
      ∃ k, ∃ h : k < rest.length, pivotPlace best place i rest = some (i + k) ∧
        |lead best| ≤ |lead rest[k]| ∧ ∀ e ∈ rest, |lead e| ≤ |lead rest[k]| := by
  induction rest generalizing best place i with
  | nil => exact .inl ⟨rfl, fun _ h => nomatch h⟩
  | cons e rest ih =>
    unfold pivotPlace
    by_cases hle : |lead best| ≤ |lead e|
    · rw [if_pos (ExactOrder.magnitudeLe_iff.mpr hle)]
      rcases ih e (some i) (i + 1) with ⟨hplace, hall⟩ | ⟨k, hk, hplace, hlead, hall⟩
      · refine .inr ⟨0, Nat.succ_pos _, hplace, hle, forall_mem_cons.mpr ⟨le_rfl, hall⟩⟩
      · refine .inr ⟨k + 1, Nat.succ_lt_succ hk, ?_, hle.trans hlead,
          forall_mem_cons.mpr ⟨hlead, hall⟩⟩
        rw [hplace, Nat.add_assoc, Nat.add_comm 1 k]
    · rw [if_neg (mt ExactOrder.magnitudeLe_iff.mp hle)]
      have hlt : |lead e| ≤ |lead best| := (lt_of_not_ge hle).le
      rcases ih best place (i + 1) with ⟨hplace, hall⟩ | ⟨k, hk, hplace, hlead, hall⟩
      · exact .inl ⟨hplace, forall_mem_cons.mpr ⟨hlt, hall⟩⟩
      · refine .inr ⟨k + 1, Nat.succ_lt_succ hk, ?_, hlead,
          forall_mem_cons.mpr ⟨hlt.trans hlead, hall⟩⟩
        rw [hplace, Nat.add_assoc, Nat.add_comm 1 k]

/-- No leading coefficient is larger than that of the pivot. -/
theorem abs_lead_le_choosePivot (first : Equation α) (rest : List (Equation α)) :
    ∀ e ∈ first :: rest, |lead e| ≤ |lead (choosePivot first rest).1| := by
  unfold choosePivot
  rcases pivotPlace_spec first none 0 rest with ⟨hplace, hall⟩ | ⟨k, hk, hplace, hlead, hall⟩
  · rw [hplace]
    exact forall_mem_cons.mpr ⟨le_rfl, hall⟩
  · rw [hplace, Nat.zero_add]
    dsimp only
    rw [getD_eq_getElem?_getD, getElem?_eq_getElem hk, Option.getD_some]
    exact forall_mem_cons.mpr ⟨hlead, hall⟩

/-! ### Steps -/

variable {threshold : α}

/-- **Step**: an equation with the largest leading coefficient is the pivot.  If this coefficient exceeds
the threshold, the others are solved without their first unknown. -/
theorem eliminate_step (threshold : α) (h : IsSquare (n + 1) equations) :
    ∃ pivot others, pivot :: others ~ equations ∧ (∀ e ∈ equations, |lead e| ≤ |lead pivot|) ∧
      eliminate threshold (n + 1) equations =
        if |lead pivot| ≤ threshold then none
        else (eliminate threshold n (others.map (reduce pivot))).map fun known =>
          substitute pivot known :: known := by
  obtain ⟨first, rest, rfl⟩ := exists_cons_of_length_eq_add_one h.length_eq
  refine ⟨_, _, choosePivot_perm first rest, abs_lead_le_choosePivot first rest, ?_⟩
  rw [← ExactOrder.abs_eq]
  rfl

/-! ### Runs -/

/-- **What elimination finds is the one solution.** -/
theorem eliminate_eq_some (hthreshold : 0 ≤ threshold) (h : IsSquare n equations)
    (hfound : eliminate threshold n equations = some xs) :
    xs.length = n ∧
      ∀ ys : List α, ys.length = n → ((∀ e ∈ equations, e.Holds ys) ↔ ys = xs) := by
  induction n generalizing equations xs with
  | zero =>
    obtain rfl : equations = [] := length_eq_zero_iff.mp h.length_eq
    obtain rfl : [] = xs := Option.some.inj hfound
    refine ⟨rfl, fun ys hys => ?_⟩
    simp [length_eq_zero_iff.mp hys]
  | succ n ih =>
    obtain ⟨pivot, others, hperm, -, heq⟩ := eliminate_step threshold h
    have hsquare : IsSquare (n + 1) (pivot :: others) := h.perm hperm
    rw [hfound] at heq
    split_ifs at heq with hsmall
    obtain ⟨known, hknown, rfl⟩ := Option.map_eq_some_iff.mp heq.symm
    obtain ⟨hlength, hunique⟩ := ih hsquare.reduce hknown
    have hpivot : lead pivot ≠ 0 := by
      rintro hzero
      rw [hzero, abs_zero] at hsmall
      exact hsmall hthreshold
    have hp := hsquare.unknowns_eq pivot mem_cons_self
    refine ⟨congrArg (· + 1) hlength, fun ys hys => ?_⟩
    obtain ⟨y, ys, rfl⟩ := exists_cons_of_length_eq_add_one hys
    -- The pivot settles the first unknown, the other equations settle the rest.
    have hothers : pivot.Holds (y :: ys) →
        ((∀ e ∈ others, e.Holds (y :: ys)) ↔ ys = known) := by
      intro hholds
      rw [← hunique ys (Nat.succ.inj hys), forall_mem_map]
      exact forall₂_congr fun e he => (holds_reduce_iff hp
        (hsquare.unknowns_eq e (mem_cons_of_mem _ he)) hpivot hholds).symm
    calc (∀ e ∈ equations, e.Holds (y :: ys))
        ↔ ∀ e ∈ pivot :: others, e.Holds (y :: ys) := forall_congr' fun e => by rw [hperm.mem_iff]
      _ ↔ pivot.Holds (y :: ys) ∧ ∀ e ∈ others, e.Holds (y :: ys) := forall_mem_cons
      _ ↔ pivot.Holds (y :: ys) ∧ ys = known := and_congr_right hothers
      _ ↔ y :: ys = substitute pivot known :: known := by
        rw [holds_cons_iff hp hpivot, cons_eq_cons]
        exact and_congr_left fun hys => by rw [hys]

/-- **Where elimination finds nothing, the system is singular**: if only zero is too small for a pivot,
all equations take something that is not zero to zero. -/
theorem eliminate_eq_none (h : IsSquare n equations) (hnone : eliminate 0 n equations = none) :
    ∃ xs : List α, xs.length = n ∧ (∃ x ∈ xs, x ≠ 0) ∧ ∀ e ∈ equations, e.total xs = 0 := by
  induction n generalizing equations with
  | zero => cases hnone
  | succ n ih =>
    obtain ⟨pivot, others, hperm, hlargest, heq⟩ := eliminate_step 0 h
    have hsquare : IsSquare (n + 1) (pivot :: others) := h.perm hperm
    rw [hnone] at heq
    split_ifs at heq with hsmall
    · -- No equation tells anything about the first unknown.
      have hleads : ∀ e ∈ equations, lead e = 0 := fun e he =>
        abs_nonpos_iff.mp ((hlargest e he).trans hsmall)
      refine ⟨1 :: replicate n 0, by simp, ⟨1, mem_cons_self, one_ne_zero⟩, fun e he => ?_⟩
      rw [total_cons (h.unknowns_eq e he), hleads e he, zero_mul, zero_add, weightedSum_zeros]
    · have hpivot : lead pivot ≠ 0 := fun hzero => hsmall (abs_nonpos_iff.mpr hzero)
      have hp := hsquare.unknowns_eq pivot mem_cons_self
      obtain ⟨xs, hlength, ⟨x, hx, hne⟩, htotal⟩ := ih hsquare.reduce
        (Option.map_eq_none_iff.mp heq.symm)
      -- The first unknown is chosen so that the pivot adds up to zero, too.
      let first := -weightedSum pivot.coefficients.tail xs / lead pivot
      have hzero : pivot.total (first :: xs) = 0 := by
        rw [total_cons hp, mul_div_cancel₀ _ hpivot, neg_add_cancel]
      refine ⟨first :: xs, congrArg (· + 1) hlength, ⟨x, mem_cons_of_mem _ hx, hne⟩,
        fun e he => ?_⟩
      rcases mem_cons.mp (hperm.mem_iff.mpr he) with rfl | hother
      · exact hzero
      · have hreduced := htotal _ (mem_map_of_mem hother)
        rw [total_reduce hp (h.unknowns_eq e he) hpivot first, hzero, mul_zero, sub_zero]
          at hreduced
        exact hreduced

end LinearSolver

end TextureGraph
