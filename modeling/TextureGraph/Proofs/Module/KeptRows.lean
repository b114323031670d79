import TextureGraph.Catalog.History
import TextureGraph.Proofs.Module.InPlace
import TextureGraph.Proofs.Module.Restore.Mapping
import TextureGraph.Proofs.Space.Triangle

/-!
# Maps keep the rows of their configuration

`Mapping.rows_follow_configuration`: whatever calls have led to a map, it is the map that is made anew
with its present configuration.  So maps of the same configuration answer alike, and the outputs are zero
if the present configuration cannot be solved, and those of its solution if it can.

A map is current (`Mapping.IsCurrent`) when its rows are computed from its configuration.  A map that has
just been made is, and every call leaves it so (`Transform.IsSolved.run`, `Triangle.IsSolved.run`): an accepted
one brings the rows up to date after its last change, and a refused one has changed nothing.
-/

namespace TextureGraph

open InPlace

/-- What every call keeps is kept by all of them. -/
theorem InPlace.after_induction {κ σ α : Type} {run : κ → InPlace σ α Unit} {p : σ → Prop} {m : σ}
    (hm : p m) (step : ∀ m call, p m → p (run call m).2) (calls : List κ) : p (after run m calls) := by
  induction calls generalizing m with
  | nil => exact hm
  | cons call rest ih => exact ih (step m call hm)

variable {α : Type} [Arith α]

/-! ### Transforms -/

namespace Transform

/-- The rows are those of the matrix and the offset. -/
def IsSolved (t : Transform α) : Prop :=
  t = solved t.matrix t.offset t.inverse t.solver

variable {t changed : Transform α} {name : String} {v : ParameterValue α}

theorem IsSolved.rows_eq (h : t.IsSolved) :
    t.rows = solveRows t.matrix t.offset t.inverse t.solver :=
  congrArg rows h

theorem isSolved_of_setParameter (h : t.setParameter name v = .ok changed) : changed.IsSolved := by
  -- the direction, an entry, a component of the offset, or a name that is not known
  unfold setParameter at h
  split at h
  · obtain ⟨b, -, h⟩ := bind_eq_ok_iff.mp h
    cases h
    rfl
  · split at h
    · obtain ⟨a, -, h⟩ := bind_eq_ok_iff.mp h
      cases h
      rfl
    · obtain ⟨a, -, h⟩ := bind_eq_ok_iff.mp h
      cases h
      rfl
    · cases h

theorem run_invert (t : Transform α) : Call.invert.run t = (.ok (), t.inverted) := rfl

theorem run_useSolver (solver : LinearSolver α) (t : Transform α) :
    (Call.useSolver solver).run t = (.ok (), t.withSolver solver) := rfl

theorem run_setParameter (t : Transform α) :
    (Call.setParameter name v).run t = settle t () (t.setParameter name v) :=
  t.assign_apply

/-- **Step**: the rows are still up to date after a call, be it accepted or refused. -/
theorem IsSolved.run (h : t.IsSolved) (call : Call α) : (call.run t).2.IsSolved := by
  cases call with
  | invert =>
    rw [run_invert]
    rfl
  | useSolver solver =>
    rw [run_useSolver]
    rfl
  | setParameter name v =>
    rw [run_setParameter]
    cases hset : t.setParameter name v with
    -- `settle` leaves a transform as it was when the value is refused
    | error e => exact h
    | ok changed => exact isSolved_of_setParameter hset

/-- **Run**: the rows are up to date after any calls. -/
theorem isSolved_ofCalls (matrix : Mat α) (offset : Vec α) (calls : List (Call α)) :
    (ofCalls matrix offset calls).IsSolved := by
  have hmade : (ofMatrix matrix offset).IsSolved := rfl
  exact after_induction hmade (fun _ call h => h.run call) calls

/-- A transform that is made anew with the values of another one. -/
def remade (t : Transform α) : Transform α :=
  let made := ofMatrix t.matrix t.offset
  (if t.inverse then made.inverted else made).withSolver t.solver

theorem remade_eq (t : Transform α) : t.remade = solved t.matrix t.offset t.inverse t.solver := by
  unfold remade
  cases t.inverse <;> rfl

end Transform

/-! ### Triangles -/

namespace Triangle

/-- The rows are those of the corners. -/
def IsSolved (t : Triangle α) : Prop :=
  t = solved t.corners t.solver

variable {t changed : Triangle α} {name : String} {v : ParameterValue α}

theorem IsSolved.rows_eq (h : t.IsSolved) : t.rows = solveRows t.corners t.solver :=
  congrArg rows h

theorem isSolved_of_setParameter (h : t.setParameter name v = .ok changed) : changed.IsSolved := by
  unfold setParameter at h
  split at h
  · cases h
  · obtain ⟨a, -, h⟩ := bind_eq_ok_iff.mp h
    cases h
    rfl

theorem run_useSolver (solver : LinearSolver α) (t : Triangle α) :
    (Call.useSolver solver).run t = (.ok (), t.withSolver solver) :=
  congrArg (Prod.mk (Except.ok ())) (solve_eq { t with solver })

theorem run_setParameter (t : Triangle α) :
    (Call.setParameter name v).run t = settle t () (t.setParameter name v) :=
  t.assign_apply

/-- **Step**: the rows are still up to date after a call, be it accepted or refused. -/
theorem IsSolved.run (h : t.IsSolved) (call : Call α) : (call.run t).2.IsSolved := by
  cases call with
  | useSolver solver =>
    rw [run_useSolver]
    rfl
  | setParameter name v =>
    rw [run_setParameter]
    cases hset : t.setParameter name v with
    | error e => exact h
    | ok changed => exact isSolved_of_setParameter hset

/-- **Run**: the rows are up to date after any calls. -/
theorem isSolved_ofCalls (a b c : Vec α) (calls : List (Call α)) :
    (ofCalls a b c calls).IsSolved := by
  have hmade : (ofCorners a b c).IsSolved := rfl
  exact after_induction hmade (fun _ call h => h.run call) calls

/-- A triangle that is made anew with the values of another one. -/
def remade (t : Triangle α) : Triangle α :=
  (ofCorners t.corners.x t.corners.y t.corners.z).withSolver t.solver

end Triangle

/-! ### Maps and their configurations -/

namespace Mapping

/-- The rows are those of the configuration. -/
def IsCurrent : Mapping α → Prop
  | .transform t => t.IsSolved
  | .barycentric t => t.IsSolved

theorem IsMade.isCurrent {m : Mapping α} (h : m.IsMade) : m.IsCurrent := by
  cases h with
  | transform matrix offset calls => exact Transform.isSolved_ofCalls matrix offset calls
  | barycentric a b c calls => exact Triangle.isSolved_ofCalls a b c calls

/-- A map that is made anew with the present configuration of another one. -/
def remade : Mapping α → Mapping α
  | .transform t => .transform t.remade
  | .barycentric t => .barycentric t.remade

/-- A map that is current is no other than the one that is made anew. -/
theorem IsCurrent.remade_eq {m : Mapping α} (h : m.IsCurrent) : m.remade = m := by
  cases m with
  | transform t => exact congrArg transform (t.remade_eq.trans h.symm)
  | barycentric t => exact congrArg barycentric h.symm

/-- Two maps of the same type have been given the same values. -/
inductive SameConfiguration : Mapping α → Mapping α → Prop where
  | transform {t t' : Transform α} (matrix_eq : t.matrix = t'.matrix) (offset_eq : t.offset = t'.offset)
    (inverse_eq : t.inverse = t'.inverse) (solver_eq : t.solver = t'.solver) :
    SameConfiguration (.transform t) (.transform t')
  | barycentric {t t' : Triangle α} (corners_eq : t.corners = t'.corners)
    (solver_eq : t.solver = t'.solver) : SameConfiguration (.barycentric t) (.barycentric t')

/-- What is made anew does not depend on anything but the configuration. -/
theorem SameConfiguration.remade_eq {m m' : Mapping α} (h : m.SameConfiguration m') :
    m.remade = m'.remade := by
  cases h with
  | transform hmatrix hoffset hinverse hsolver =>
    refine congrArg Mapping.transform ?_
    rw [Transform.remade, hmatrix, hoffset, hinverse, hsolver]
    rfl
  | barycentric hcorners hsolver =>
    refine congrArg Mapping.barycentric ?_
    rw [Triangle.remade, hcorners, hsolver]
    rfl

/-! ### Configurations that cannot be solved -/

/-- The configuration asks for the inverse of a matrix that the solver does not find, or for the weights
of a triangle without an area or with a frame that the solver does not invert. -/
def Unsolvable : Mapping α → Prop
  | .transform t => t.inverse = true ∧ t.solver.invert t.matrix = none
  | .barycentric t =>
    let length := ((t.corners.y - t.corners.x).cross (t.corners.z - t.corners.x)).length
    (length == 0.0 || !Arith.isFinite length) = true ∨
      t.solver.invert (Triangle.frame t.corners) = none

/-- The outputs are the affine functions that the configuration stands for. -/
inductive Solved : Mapping α → Prop where
  | forward {t : Transform α} (direction : t.inverse = false)
    (row_eq : ∀ i < 3, row (.transform t) i = ⟨t.matrix.row i, t.offset.component i⟩) :
    Solved (.transform t)
  | inverse {t : Transform α} {n : Mat α} (direction : t.inverse = true)
    (found : t.solver.invert t.matrix = some n)
    (row_eq : ∀ i < 3, row (.transform t) i = ⟨n.row i, -(n.row i).dot t.offset⟩) :
    Solved (.transform t)
  | weights {t : Triangle α} {n : Mat α} (found : t.solver.invert (Triangle.frame t.corners) = some n)
    (row_zero : row (.barycentric t) 0
      = ⟨-(n.row 0 + n.row 1), 1.0 - (-(n.row 0 + n.row 1)).dot t.corners.x⟩)
    (row_succ : ∀ i < 3, row (.barycentric t) (i + 1) = ⟨n.row i, 0.0 - (n.row i).dot t.corners.x⟩) :
    Solved (.barycentric t)

theorem IsCurrent.row_eq_zero {m : Mapping α} (h : m.IsCurrent) (hm : m.Unsolvable) (output : Nat) :
    m.row output = .zero := by
  have hcleared : ∀ n, ((Vector.replicate n (AffineForm.zero (α := α)))[output]?).getD .zero
      = .zero := by
    intro n
    rw [Vector.getElem?_replicate]
    split <;> rfl
  cases m with
  | transform t =>
    have hrows : t.rows = .replicate 3 .zero := by
      rw [Transform.IsSolved.rows_eq h, Transform.solveRows, if_pos hm.1, hm.2]
    rw [row, hrows]
    exact hcleared 3
  | barycentric t =>
    have hrows : t.rows = .replicate 4 .zero := by
      rw [Triangle.IsSolved.rows_eq h, Triangle.solveRows]
      dsimp only
      split
      · rfl
      · rename_i harea
        have hinvert := hm.resolve_left harea
        rw [Triangle.frame, Triangle.normal] at hinvert
        simp only [hinvert]
    rw [row, hrows]
    exact hcleared 4

theorem IsCurrent.solved {m : Mapping α} (h : m.IsCurrent) (hm : ¬ m.Unsolvable) : m.Solved := by
  cases m with
  | transform t =>
    have hrows := Transform.IsSolved.rows_eq h
    cases hinverse : t.inverse with
    | false =>
      rw [hinverse, Transform.solveRows, if_neg Bool.false_ne_true] at hrows
      refine .forward hinverse fun i hi => ?_
      rw [row, hrows]
      interval_cases i <;> rfl
    | true =>
      -- the map applies the inverse and can be solved, so there is an inverse
      obtain ⟨n, hn⟩ := Option.ne_none_iff_exists'.mp fun hnone => hm ⟨hinverse, hnone⟩
      rw [hinverse, Transform.solveRows, if_pos rfl, hn] at hrows
      refine .inverse hinverse hn fun i hi => ?_
      rw [row, hrows, Vector.getElem?_map]
      interval_cases i <;> rfl
  | barycentric t =>
    obtain ⟨harea, hframe⟩ := not_or.mp hm
    obtain ⟨n, hn⟩ := Option.ne_none_iff_exists'.mp hframe
    have hrows := Triangle.IsSolved.rows_eq h
    have hinvert := hn
    rw [Triangle.frame, Triangle.normal] at hinvert
    rw [Triangle.solveRows, if_neg harea] at hrows
    simp only [hinvert] at hrows
    refine .weights hn ?_ fun i hi => ?_
    · rw [row, hrows]
      rfl
    · rw [row, hrows]
      interval_cases i <;> rfl

end Mapping

/-! ### Outputs that are zero -/

namespace Vec

open Binary64

variable {c v : Vec Float} {columns : Vec (Vec Float)}

theorem isZero_zero : ∀ a ∈ (zero : Vec Float).toList, IsZero a := by
  simp [zero, toList, IsZero]

/-- Finite numbers that are weighted with zeros add up to zero. -/
theorem isZero_dot (hc : ∀ a ∈ c.toList, IsZero a) (hv : ∀ a ∈ v.toList, a.isFinite = true) :
    IsZero (c.dot v) := by
  simp only [toList, List.forall_mem_cons] at hc hv
  obtain ⟨hx, hy, hz, -⟩ := hc
  obtain ⟨hx', hy', hz', -⟩ := hv
  exact ((hx.mul hx').1.add (hy.mul hy').1).add (hz.mul hz').1

theorem isZero_combine (hc : ∀ a ∈ c.toList, IsZero a)
    (hcolumns : ∀ v ∈ columns.toList, ∀ a ∈ v.toList, a.isFinite = true) :
    ∀ a ∈ (c.combine columns).toList, IsZero a := by
  simp only [toList, List.forall_mem_cons] at hc hcolumns
  obtain ⟨hx, hy, hz, -⟩ := hc
  obtain ⟨hfirst, hsecond, hthird, -⟩ := hcolumns
  have hsum : ∀ {a b d : Float}, a.isFinite = true → b.isFinite = true → d.isFinite = true →
      IsZero (a * c.x + b * c.y + d * c.z) := fun ha hb hd =>
    ((hx.mul ha).2.add (hy.mul hb).2).add (hz.mul hd).2
  simp only [toList, List.forall_mem_cons]
  exact ⟨hsum hfirst.1 hsecond.1 hthird.1, hsum hfirst.2.1 hsecond.2.1 hthird.2.1,
    hsum hfirst.2.2.1 hsecond.2.2.1 hthird.2.2.1, List.forall_mem_nil _⟩

end Vec

namespace Mapping

open Binary64

/-- All outputs are zero: the function of the position is, and so are the values, errors and gradients
wherever those of the position are finite. -/
structure Vanishes (m : Mapping Float) : Prop where
  /-- The function of the position. -/
  row_eq : ∀ output, m.row output = .zero
  /-- The values. -/
  value_eq : ∀ output inputs q, (∀ a ∈ (inputs.position q).toList, a.isFinite = true) →
    TextureModule.averageValue m output inputs q = 0.0
  /-- The errors. -/
  error_isZero : ∀ output inputs q, (∀ a ∈ (inputs.positionError q).toList, a.isFinite = true) →
    IsZero (TextureModule.valueError m output inputs q)
  /-- The gradients. -/
  gradient_isZero : ∀ output inputs q,
    (∀ v ∈ (inputs.positionGradients q).toList, ∀ a ∈ v.toList, a.isFinite = true) →
      ∀ a ∈ (TextureModule.valueGradient m output inputs q).toList, IsZero a

theorem vanishes_of_row_eq {m : Mapping Float} (h : ∀ output, m.row output = .zero) : m.Vanishes where
  row_eq := h
  value_eq output inputs q hq := by
    change (m.row output).value inputs q = 0.0
    rw [h]
    exact (Vec.isZero_dot Vec.isZero_zero hq).add_zero
  error_isZero output inputs q hq := by
    have habs : (Vec.zero : Vec Float).abs = Vec.zero := rfl
    change IsZero ((m.row output).error inputs q)
    rw [h, AffineForm.error, AffineForm.zero, habs]
    exact Vec.isZero_dot Vec.isZero_zero hq
  gradient_isZero output inputs q hq := by
    change ∀ a ∈ ((m.row output).gradient inputs q).toList, IsZero a
    rw [h]
    exact Vec.isZero_combine Vec.isZero_zero hq

/-- **Maps keep the rows of their configuration.**  Take a map in binary floating point, whatever calls
have led to it.

* Made anew with its present matrix, offset, direction and solver, or corners and solver, it is the same
  map; so are its rows.
* Another map of the same configuration gives the same values, colors, errors and gradients, whatever calls
  have led to it.
* If the configuration cannot be solved, all outputs are zero; if it can, they are the affine functions of
  its solution. -/
theorem rows_follow_configuration {m : Mapping Float} (h : m.IsMade) :
    m.remade = m ∧
      (∀ m' : Mapping Float, m'.IsMade → m.SameConfiguration m' →
        ∀ inputs : Inputs Float, TextureModule.answers m inputs = TextureModule.answers m' inputs) ∧
      (m.Unsolvable → m.Vanishes) ∧ (¬ m.Unsolvable → m.Solved) := by
  have hcurrent := h.isCurrent
  refine ⟨hcurrent.remade_eq, fun m' h' hsame inputs => ?_,
    fun hm => vanishes_of_row_eq (hcurrent.row_eq_zero hm), hcurrent.solved⟩
  -- both are what is made anew with the one configuration
  have heq : m = m' :=
    calc m = m.remade := hcurrent.remade_eq.symm
      _ = m'.remade := hsame.remade_eq
      _ = m' := h'.isCurrent.remade_eq
  rw [heq]

end Mapping

/-! ### A way through a singular matrix -/

namespace Transform

/-- Has the inverse map applied, and takes the third axis away. -/
def squashing : List (Call Float) :=
  [.setParameter "inverse" (.toggle true), .setParameter "m33" (.number 0.0)]

/-- Offers a value that is refused, and then a third axis that is twice as long as it was. -/
def stretching : List (Call Float) :=
  [.setParameter "m33" (.text "2"), .setParameter "m33" (.number 2.0)]

theorem run_entry {t : Transform Float} {name : String} {i : Nat} {a : Float}
    (hname : entryNames[i]? = some name) (ha : a.isFinite = true) :
    ((Call.setParameter name (.number a)).run t).2 = t.withEntry i a := by
  rw [run_setParameter, setParameter_entry hname ha]
  rfl

/-- A transform that has been squashed and stretched is the inverse of the one with the longer axis. -/
theorem ofCalls_stretching :
    ofCalls .identity Vec.zero (squashing ++ stretching)
      = solved (.setEntry .identity 2 2 2.0) Vec.zero true .standard := by
  have hsquashed : ofCalls .identity Vec.zero squashing
      = (ofMatrix .identity Vec.zero).inverted.withEntry 8 0.0 :=
    run_entry (t := (ofMatrix .identity Vec.zero).inverted) rfl (by decide)
  have hrefused : ∀ t : Transform Float, ((Call.setParameter "m33" (.text "2")).run t).2 = t := by
    intro t
    rw [run_setParameter]
    rfl
  calc ofCalls .identity Vec.zero (squashing ++ stretching)
      = InPlace.after Call.run (ofCalls .identity Vec.zero squashing) stretching := List.foldl_append
    _ = ((Call.setParameter "m33" (.number 2.0)).run (ofCalls .identity Vec.zero squashing)).2 :=
        congrArg (fun t => ((Call.setParameter "m33" (.number 2.0)).run t).2) (hrefused _)
    _ = (ofCalls .identity Vec.zero squashing).withEntry 8 2.0 := run_entry rfl (by decide)
    _ = ((ofMatrix .identity Vec.zero).inverted.withEntry 8 0.0).withEntry 8 2.0 :=
        congrArg (Transform.withEntry 8 2.0) hsquashed
    _ = solved (.setEntry .identity 2 2 2.0) Vec.zero true .standard := rfl

end Transform

open Transform in
/-- Without its third axis, the transform is zero.  Then it is the one that has been made with the longer
axis. -/
theorem Mapping.rows_follow_configuration_stretched :
    let flat : Mapping Float := .transform (.ofCalls .identity Vec.zero squashing)
    let back : Mapping Float := .transform (.ofCalls .identity Vec.zero (squashing ++ stretching))
    let direct : Mapping Float := .transform (.ofCalls (.setEntry .identity 2 2 2.0) Vec.zero [.invert])
    flat.IsMade ∧ flat.Unsolvable ∧ flat.Vanishes ∧
      back.IsMade ∧ ¬ back.Unsolvable ∧ back.Solved ∧
      direct.IsMade ∧ back.SameConfiguration direct ∧
      ∀ inputs : Inputs Float, TextureModule.answers back inputs = TextureModule.answers direct inputs := by
  intro flat back direct
  have hflat : flat.IsMade := .transform _ _ _
  have hback : back.IsMade := .transform _ _ _
  have hdirect : direct.IsMade := .transform _ _ _
  have hsingular : flat.Unsolvable :=
    ⟨by decide +kernel, Option.isNone_iff_eq_none.mp (by decide +kernel)⟩
  have hregular : ¬ back.Unsolvable := by
    rintro ⟨-, hnone⟩
    exact absurd (Option.isNone_iff_eq_none.mpr hnone) (by decide +kernel)
  have hsame : back.SameConfiguration direct := by
    have hlonger : Transform.ofCalls (.setEntry .identity 2 2 2.0) Vec.zero [.invert]
        = solved (.setEntry .identity 2 2 (2.0 : Float)) Vec.zero true .standard := rfl
    unfold back direct
    rw [ofCalls_stretching, hlonger]
    exact .transform rfl rfl rfl rfl
  obtain ⟨-, -, hvanishes, -⟩ := rows_follow_configuration hflat
  obtain ⟨-, hanswers, -, hsolved⟩ := rows_follow_configuration hback
  exact ⟨hflat, hsingular, hvanishes hsingular, hback, hregular, hsolved hregular, hdirect, hsame,
    hanswers direct hdirect hsame⟩

end TextureGraph
