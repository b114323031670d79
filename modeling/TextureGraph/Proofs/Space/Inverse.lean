import Mathlib.LinearAlgebra.Matrix.NonsingularInverse
import Mathlib.LinearAlgebra.Matrix.ToLinearEquiv
import TextureGraph.Proofs.Space.Elimination

/-!
# Linear systems in space

`LinearSolver.solve_correct`: in exact arithmetic, a solution that is found solves the system, and is
found only for a matrix whose determinant is not zero; if only zero is too small for a pivot, it is found
for every such matrix.  What is found as the inverse of a matrix is its inverse on both sides.

Vectors and matrices are those of the library `Matrix` when they are read by number (`Vec.toFun`,
`Mat.toMatrix`), which supplies the theory of determinants.
-/

namespace TextureGraph

variable {α : Type}

/-! ### Vectors and matrices by number -/

namespace Vec

/-- The components by their numbers. -/
def toFun (v : Vec α) : Fin 3 → α :=
  ![v.x, v.y, v.z]

theorem toFun_injective : Function.Injective (toFun (α := α)) := by
  rintro ⟨x, y, z⟩ ⟨x', y', z'⟩ h
  simpa [toFun] using h

theorem toFun_surjective : Function.Surjective (toFun (α := α)) := by
  intro w
  refine ⟨⟨w 0, w 1, w 2⟩, funext fun i => ?_⟩
  fin_cases i <;> rfl

theorem toFun_map {β : Type} (g : α → β) (v : Vec α) (i : Fin 3) : (v.map g).toFun i = g (v.toFun i) := by
  fin_cases i <;> rfl

theorem toFun_zipWith {β γ : Type} (g : α → β → γ) (v : Vec α) (w : Vec β) (i : Fin 3) :
    (zipWith g v w).toFun i = g (v.toFun i) (w.toFun i) := by
  fin_cases i <;> rfl

theorem toList_injective : Function.Injective (toList (α := α)) := by
  rintro ⟨x, y, z⟩ ⟨x', y', z'⟩ h
  simpa [toList] using h

variable [ExactArith α]

theorem toFun_eq_zero_iff {v : Vec α} : v.toFun = 0 ↔ ∀ a ∈ v.toList, a = 0 := by
  have hlist : v.toList = List.ofFn v.toFun := rfl
  rw [hlist, List.forall_mem_ofFn_iff, funext_iff]
  rfl

theorem toFun_zero : (zero : Vec α).toFun = 0 :=
  toFun_eq_zero_iff.mpr (by simp [zero, toList])

theorem toFun_add (v w : Vec α) : (v + w).toFun = v.toFun + w.toFun := by
  refine funext fun i => ?_
  fin_cases i <;> rfl

theorem toFun_sub (v w : Vec α) : (v - w).toFun = v.toFun - w.toFun := by
  refine funext fun i => ?_
  fin_cases i <;> rfl

theorem toFun_scale (v : Vec α) (a : α) : (v.scale a).toFun = a • v.toFun := by
  refine funext fun i => ?_
  fin_cases i <;> exact mul_comm _ _

theorem dotProduct_toFun (v w : Vec α) : v.toFun ⬝ᵥ w.toFun = v.dot w :=
  Fin.sum_univ_three _

end Vec

namespace Mat

/-- The entries by their numbers. -/
def toMatrix (m : Mat α) : Matrix (Fin 3) (Fin 3) α :=
  .of fun i => (m.rows.toFun i).toFun

variable [ExactArith α]

theorem mulVec_toMatrix (m : Mat α) (v : Vec α) :
    m.toMatrix.mulVec v.toFun = (m.mulVec v).toFun := by
  refine funext fun i => ?_
  fin_cases i <;> exact Vec.dotProduct_toFun _ _

theorem det_toMatrix (m : Mat α) : m.toMatrix.det = m.determinant := by
  rw [Matrix.det_fin_three]
  show m.rows.x.x * m.rows.y.y * m.rows.z.z - m.rows.x.x * m.rows.y.z * m.rows.z.y
      - m.rows.x.y * m.rows.y.x * m.rows.z.z + m.rows.x.y * m.rows.y.z * m.rows.z.x
      + m.rows.x.z * m.rows.y.x * m.rows.z.y - m.rows.x.z * m.rows.y.y * m.rows.z.x = _
  unfold determinant Vec.dot Vec.cross
  ring

/-- A matrix takes something that is not zero to zero when its determinant is zero. -/
theorem exists_mulVec_eq_zero_iff {m : Mat α} :
    (∃ v : Vec α, v.toFun ≠ 0 ∧ (m.mulVec v).toFun = 0) ↔ m.determinant = 0 := by
  rw [← det_toMatrix, ← Matrix.exists_mulVec_eq_zero_iff, Vec.toFun_surjective.exists]
  simp only [mulVec_toMatrix]

theorem toFun_mulVec_add (m : Mat α) (v w : Vec α) :
    (m.mulVec (v + w)).toFun = (m.mulVec v).toFun + (m.mulVec w).toFun := by
  rw [← mulVec_toMatrix, ← mulVec_toMatrix, ← mulVec_toMatrix, Vec.toFun_add, Matrix.mulVec_add]

/-- The matrix whose columns a matrix takes to the unit vectors is its inverse from the right. -/
theorem toMatrix_mul_ofColumns {m : Mat α} {a b c : Vec α} (ha : m.mulVec a = Vec.unitX)
    (hb : m.mulVec b = Vec.unitY) (hc : m.mulVec c = Vec.unitZ) :
    m.toMatrix * (ofColumns a b c).toMatrix = 1 := by
  have hentry : ∀ (i j : Fin 3) {v w : Vec α}, m.mulVec v = w →
      (ofColumns a b c).toMatrix.col j = v.toFun →
      (m.toMatrix * (ofColumns a b c).toMatrix) i j = w.toFun i := by
    rintro i j v w rfl hcolumn
    rw [← mulVec_toMatrix, ← hcolumn]
    rfl
  have hcolumns : ∀ k : Fin 3, (ofColumns a b c).toMatrix.col k = (![a, b, c] k).toFun := by
    intro k
    refine funext fun i => ?_
    fin_cases k <;> fin_cases i <;> rfl
  refine Matrix.ext fun i j => ?_
  fin_cases j
  · refine (hentry i 0 ha (hcolumns 0)).trans ?_
    fin_cases i <;> simp [Vec.toFun, Vec.unitX]
  · refine (hentry i 1 hb (hcolumns 1)).trans ?_
    fin_cases i <;> simp [Vec.toFun, Vec.unitY]
  · refine (hentry i 2 hc (hcolumns 2)).trans ?_
    fin_cases i <;> simp [Vec.toFun, Vec.unitZ]

/-- A matrix all of whose entries are zero has the determinant zero. -/
theorem determinant_of_entries_eq_zero {m : Mat α} (h : ∀ a ∈ m.entries, a = 0) :
    m.determinant = 0 := by
  have hrow : ∀ a ∈ m.rows.x.toList, a = 0 := fun a ha => h a (List.mem_append_left _ ha)
  simp only [Vec.toList, List.forall_mem_cons] at hrow
  rw [determinant, Vec.dot, hrow.1, hrow.2.1, hrow.2.2.1, zero_mul, zero_mul, zero_mul, add_zero,
    add_zero]

end Mat

/-! ### Solutions -/

namespace LinearSolver

variable [ExactArith α] {m : Mat α} {b : Vec α} {epsilon : α}

omit [ExactArith α] in
theorem isSquare_equations (m : Mat α) (b : Vec α) : IsSquare 3 (equations m b) := by
  refine ⟨rfl, ?_⟩
  simp [equations, Vec.toList]

/-- The unknowns add up to the components of what the matrix takes them to. -/
theorem map_total_equations (m : Mat α) (b v : Vec α) :
    (equations m b).map (·.total v.toList) = (m.mulVec v).toList := by
  have hrow : ∀ (row : Vec α) (constant : α),
      (⟨row.toList, constant⟩ : Equation α).total v.toList = row.dot v := by
    intro row constant
    simp [Equation.total, Vec.toList, Vec.dot, weightedSum, add_assoc]
  have hequations : equations m b
      = [⟨m.rows.x.toList, b.x⟩, ⟨m.rows.y.toList, b.y⟩, ⟨m.rows.z.toList, b.z⟩] := rfl
  simp only [hequations, List.map_cons, List.map_nil, hrow]
  rfl

theorem holds_equations_iff {v : Vec α} :
    (∀ e ∈ equations m b, e.Holds v.toList) ↔ m.mulVec v = b := by
  have hconstants : (equations m b).map Equation.constant = b.toList := rfl
  rw [← Vec.toList_injective.eq_iff, ← map_total_equations m b v, ← hconstants,
    List.map_inj_left]
  rfl

/-- A system that has only one solution has a matrix whose determinant is not zero. -/
theorem determinant_ne_zero {x : Vec α} (h : ∀ y, m.mulVec y = b ↔ y = x) : m.determinant ≠ 0 := by
  intro hzero
  obtain ⟨v, hne, hv⟩ := Mat.exists_mulVec_eq_zero_iff.mpr hzero
  have hsolution : m.mulVec (x + v) = b := by
    rw [← Vec.toFun_injective.eq_iff, Mat.toFun_mulVec_add, hv, add_zero, (h x).mpr rfl]
  have hshift := congrArg Vec.toFun ((h (x + v)).mp hsolution)
  rw [Vec.toFun_add, add_eq_left] at hshift
  exact hne hshift

variable [ExactOrder α]

/-- Sizes of entries do not exceed the largest one. -/
theorem le_foldl_max (as : List α) (start : α) :
    start ≤ as.foldl (fun largest a => Arith.max largest (Arith.abs a)) start ∧
      ∀ a ∈ as, |a| ≤ as.foldl (fun largest a => Arith.max largest (Arith.abs a)) start := by
  induction as generalizing start with
  | nil => exact ⟨le_rfl, fun _ h => nomatch h⟩
  | cons a as ih =>
    obtain ⟨hstart, hall⟩ := ih (Arith.max start (Arith.abs a))
    rw [ExactOrder.max_eq, ExactOrder.abs_eq] at hstart hall
    rw [List.foldl_cons, ExactOrder.max_eq, ExactOrder.abs_eq]
    exact ⟨(le_max_left _ _).trans hstart,
      List.forall_mem_cons.mpr ⟨(le_max_right _ _).trans hstart, hall⟩⟩

theorem largestEntry_nonneg (m : Mat α) : 0 ≤ largestEntry m :=
  ExactArith.zero_eq.symm.trans_le (le_foldl_max m.entries _).1

theorem abs_le_largestEntry {a : α} (h : a ∈ m.entries) : |a| ≤ largestEntry m :=
  (le_foldl_max m.entries _).2 a h

/-- Systems are solved by elimination, unless all entries are zero. -/
theorem solve_elimination (epsilon : α) (m : Mat α) (b : Vec α) :
    solve (.elimination epsilon) m b =
      if largestEntry m = 0 then none
      else match eliminate (epsilon * largestEntry m) 3 (equations m b) with
        | some [x, y, z] => some ⟨x, y, z⟩
        | _ => none := by
  have htest : (largestEntry m == Arith.toOfScientific.ofScientific 0 true 1
      || !Arith.isFinite (largestEntry m)) = true ↔ largestEntry m = 0 := by
    rw [ExactOrder.isFinite_eq, Bool.not_true, Bool.or_false, ExactOrder.beq_iff,
      ExactArith.zero_eq]
  exact ite_congr (propext htest) (fun _ => rfl) fun _ => rfl

/-- **A solution that is found is the only one.** -/
theorem solve_eq_some (hepsilon : 0 ≤ epsilon) {x : Vec α}
    (h : solve (.elimination epsilon) m b = some x) (y : Vec α) : m.mulVec y = b ↔ y = x := by
  rw [solve_elimination] at h
  split_ifs at h
  split at h
  · rename_i a b' c hfound
    obtain rfl := Option.some.inj h
    obtain ⟨-, hunique⟩ := eliminate_eq_some (mul_nonneg hepsilon (largestEntry_nonneg m))
      (isSquare_equations m b) hfound
    rw [← holds_equations_iff, hunique y.toList rfl, ← Vec.toList_injective.eq_iff]
    rfl
  · cases h

/-- **Where no solution is found, there is no single one**, if only zero is too small for a pivot. -/
theorem determinant_of_solve_eq_none (h : solve (.elimination 0) m b = none) :
    m.determinant = 0 := by
  rw [solve_elimination, zero_mul] at h
  split_ifs at h with hlargest
  · exact Mat.determinant_of_entries_eq_zero fun a ha =>
      abs_nonpos_iff.mp ((abs_le_largestEntry ha).trans_eq hlargest)
  cases hfound : eliminate 0 3 (equations m b) with
  | some xs =>
    -- What is found has three components, so that it is passed on.
    obtain ⟨hlength, -⟩ := eliminate_eq_some le_rfl (isSquare_equations m b) hfound
    obtain ⟨x, y, z, rfl⟩ := List.length_eq_three.mp hlength
    rw [hfound] at h
    cases h
  | none =>
    obtain ⟨xs, hlength, ⟨x, hx, hne⟩, htotal⟩ :=
      eliminate_eq_none (isSquare_equations m b) hfound
    obtain ⟨v, rfl⟩ : ∃ v : Vec α, v.toList = xs := by
      obtain ⟨x, y, z, rfl⟩ := List.length_eq_three.mp hlength
      exact ⟨⟨x, y, z⟩, rfl⟩
    refine Mat.exists_mulVec_eq_zero_iff.mp ⟨v, fun hzero => ?_, ?_⟩
    · exact hne (Vec.toFun_eq_zero_iff.mp hzero x hx)
    · rwa [Vec.toFun_eq_zero_iff, ← map_total_equations m b v, List.forall_mem_map]

/-! ### Inverses -/

omit [ExactOrder α] in
/-- A matrix can be inverted where every system with it can be solved. -/
theorem exists_invert {solver : LinearSolver α} (h : ∀ b, ∃ x, solver.solve m b = some x) :
    ∃ n, solver.invert m = some n := by
  obtain ⟨a, ha⟩ := h Vec.unitX
  obtain ⟨b, hb⟩ := h Vec.unitY
  obtain ⟨c, hc⟩ := h Vec.unitZ
  simp [invert, ha, hb, hc]

theorem invert_eq_some (hepsilon : 0 ≤ epsilon) {n : Mat α}
    (h : invert (.elimination epsilon) m = some n) :
    m.toMatrix * n.toMatrix = 1 ∧ n.toMatrix * m.toMatrix = 1 := by
  simp only [invert, Option.bind_eq_bind, Option.bind_eq_some_iff] at h
  obtain ⟨a, ha, b, hb, c, hc, hn⟩ := h
  obtain rfl := Option.some.inj hn
  have hright := Mat.toMatrix_mul_ofColumns ((solve_eq_some hepsilon ha a).mpr rfl)
    ((solve_eq_some hepsilon hb b).mpr rfl) ((solve_eq_some hepsilon hc c).mpr rfl)
  exact ⟨hright, mul_eq_one_comm.mp hright⟩

/-- **Elimination is correct**: in exact arithmetic, take a threshold that is not negative.

* A solution that is found solves the system, and the determinant of the matrix is not zero; so nothing
  is found where it is zero.
* If the threshold is zero, a solution is found wherever the determinant is not zero.
* What is found as the inverse of a matrix is its inverse from either side. -/
theorem solve_correct (hepsilon : 0 ≤ epsilon) (m : Mat α) :
    (∀ b, (∀ x, solve (.elimination epsilon) m b = some x → m.mulVec x = b ∧ m.determinant ≠ 0) ∧
      (m.determinant = 0 → solve (.elimination epsilon) m b = none) ∧
      (solve (.elimination 0) m b = none → m.determinant = 0)) ∧
    ∀ n, invert (.elimination epsilon) m = some n →
      m.toMatrix * n.toMatrix = 1 ∧ n.toMatrix * m.toMatrix = 1 := by
  refine ⟨fun b => ?_, fun n => invert_eq_some hepsilon⟩
  have hsound : ∀ x, solve (.elimination epsilon) m b = some x →
      m.mulVec x = b ∧ m.determinant ≠ 0 := by
    intro x hx
    have hunique := solve_eq_some hepsilon hx
    exact ⟨(hunique x).mpr rfl, determinant_ne_zero hunique⟩
  refine ⟨hsound, fun hzero => ?_, determinant_of_solve_eq_none⟩
  rw [Option.eq_none_iff_forall_ne_some]
  exact fun x hx => (hsound x hx).2 hzero

/-- A matrix that has to have its rows exchanged. -/
def exchanging : Mat ℝ :=
  ⟨⟨0, 1, 0⟩, ⟨1, 1, 0⟩, ⟨1, 0, 1⟩⟩

theorem determinant_exchanging : exchanging.determinant = -1 := by
  norm_num [exchanging, Mat.determinant, Vec.dot, Vec.cross]

/-- Without a threshold, every right side has its solution. -/
theorem solve_correct_exchanging :
    (0 : ℝ) ≤ 0 ∧ exchanging.determinant ≠ 0 ∧
      ∀ b, ∃ x, solve (.elimination 0) exchanging b = some x ∧ exchanging.mulVec x = b := by
  obtain ⟨hsolve, -⟩ := solve_correct (le_refl (0 : ℝ)) exchanging
  have hne : exchanging.determinant ≠ 0 := by
    rw [determinant_exchanging]
    norm_num
  refine ⟨le_rfl, hne, fun b => ?_⟩
  obtain ⟨hsound, -, hcomplete⟩ := hsolve b
  obtain ⟨x, hx⟩ := Option.ne_none_iff_exists'.mp (mt hcomplete hne)
  exact ⟨x, hx, (hsound x hx).1⟩

end LinearSolver

end TextureGraph
