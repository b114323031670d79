import Mathlib.Algebra.Order.Ring.Nat
import Mathlib.Order.Lattice.Nat
import TextureGraph.Proofs.Outcome
import TextureGraph.Sampling.Accumulation

/-!
# Running totals only grow by what is sampled

Sampling onto a running total adds to it what sampling from scratch yields, and has no other effect:

* `Sampler.sampleOnto_eq`: the leaves of a cell come after those that are there, and the work is
  added.
* `Sampler.averageOnto_eq` and `Sampler.mapM_averageOnto`: so it is for the mean over a cell, and
  over many cells one after another.
* `Raster.renderRows_eq_render`: an image does not depend on whether totals run along the rows.

All of this holds of requests that fail, too.  Work is a commutative monoid: sums, and for the depth
the maximum.
-/

namespace TextureGraph

/-! ### Sums of work -/

namespace Work

instance : Zero Work := ⟨{}⟩

theorem add_def (a b : Work) : a + b = ⟨a.evaluations + b.evaluations, a.leaves + b.leaves,
    a.refined + b.refined, max a.deepest b.deepest⟩ :=
  rfl

theorem zero_def : (0 : Work) = ⟨0, 0, 0, 0⟩ :=
  rfl

instance : AddCommMonoid Work where
  add_assoc a b c := by simp only [add_def, Nat.add_assoc, Nat.max_assoc]
  zero_add a := by simp only [add_def, zero_def, Nat.zero_add, Nat.zero_max]
  add_zero a := by simp only [add_def, zero_def, Nat.add_zero, Nat.max_zero]
  add_comm a b := by
    simp only [add_def, Nat.add_comm b.evaluations, Nat.add_comm b.leaves, Nat.add_comm b.refined,
      Nat.max_comm b.deepest]
  nsmul := nsmulRec

theorem leaves_sum (works : List Work) : works.sum.leaves = (works.map leaves).sum :=
  map_list_sum (⟨⟨leaves, rfl⟩, fun _ _ => rfl⟩ : Work →+ Nat) works

theorem refined_sum (works : List Work) : works.sum.refined = (works.map refined).sum :=
  map_list_sum (⟨⟨refined, rfl⟩, fun _ _ => rfl⟩ : Work →+ Nat) works

theorem add_asked (a b : Work) : a + b.asked = (a + b).asked :=
  rfl

theorem add_split (a b : Work) : a + b.split = (a + b).split :=
  rfl

theorem add_found (a b : Work) (depth : Nat) : a + b.found depth = (a + b).found depth := by
  simp only [add_def, found, Nat.max_assoc, Nat.add_assoc]

end Work

variable {M α : Type}

namespace Sampling

theorem append_assoc (a b c : Sampling α) : (a.append b).append c = a.append (b.append c) := by
  simp only [append, List.append_assoc, add_assoc]

theorem append_empty (a : Sampling α) : a.append {} = a := by
  show (⟨a.leaves ++ [], a.work + 0⟩ : Sampling α) = a
  rw [List.append_nil, add_zero]

/-- What is sampled part by part takes the work of all parts. -/
theorem work_foldl_append (part : Cell α → Sampling α) (parts : List (Cell α))
    (own : Sampling α) :
    (parts.foldl (fun sum c => sum.append (part c)) own).work
      = own.work + (parts.map fun c => (part c).work).sum := by
  induction parts generalizing own with
  | nil => exact (add_zero own.work).symm
  | cons c parts ih =>
    rw [List.foldl_cons, ih, List.map_cons, List.sum_cons, ← add_assoc]
    rfl

theorem append_afterError (a b : Sampling α) (error : Option α) :
    a.append (b.afterError error) = (a.append b).afterError error := by
  unfold afterError
  split_ifs
  · simp only [append, Work.add_asked]
  · rfl

theorem append_afterSplit (a b : Sampling α) : a.append b.afterSplit = (a.append b).afterSplit := by
  simp only [append, afterSplit, Work.add_split]

theorem append_afterLeaf (a b : Sampling α) (leaf : Leaf α) :
    a.append (b.afterLeaf leaf) = (a.append b).afterLeaf leaf := by
  simp only [append, afterLeaf, Work.add_found, Work.add_asked, List.append_assoc]

/-- A total that starts empty, after a cell was split. -/
theorem afterSplit_empty (error : Option α) :
    (({} : Sampling α).afterError error).afterSplit
      = { work := { evaluations := if error.isSome then 1 else 0, refined := 1 } } := by
  cases error <;> rfl

/-- A total that starts empty, after a cell became a leaf. -/
theorem afterLeaf_empty (error : Option α) (leaf : Leaf α) :
    (({} : Sampling α).afterError error).afterLeaf leaf
      = { leaves := [leaf]
          work :=
            { evaluations := if error.isSome then 2 else 1, leaves := 1, refined := 0
              deepest := leaf.cell.depth } } := by
  cases error <;> simp [afterError, afterLeaf, Work.asked, Work.found]

/-- What is there stands before what an empty total would have grown to. -/
theorem afterError_eq (total : Sampling α) (error : Option α) :
    total.afterError error = total.append (({} : Sampling α).afterError error) := by
  rw [append_afterError, append_empty]

/-- Sampling part by part onto a total adds to it what sampling part by part yields. -/
theorem foldlM_append_eq {ε : Type} (sample : Cell α → Except ε (Sampling α))
    (parts : List (Cell α)) (total own : Sampling α) :
    parts.foldlM (fun sum c => sum.append <$> sample c) (total.append own)
      = total.append <$> parts.foldlM (fun sum c => return sum.append (← sample c)) own := by
  induction parts generalizing own with
  | nil => rfl
  | cons c parts ih =>
    rw [List.foldlM_cons, List.foldlM_cons]
    cases sample c with
    | error e => rfl
    | ok part =>
      show parts.foldlM _ ((total.append own).append part) = _
      rw [append_assoc]
      exact ih (own.append part)

end Sampling

namespace Sampler

variable [Arith α] [TextureModule M α]

/-! ### Cells -/

theorem leafOnto_eq (s : Sampler M α) (c : Cell α) (error : Option α) (total own : Sampling α) :
    s.leafOnto c error (total.append own) = total.append <$> s.leafOnto c error own := by
  unfold leafOnto
  cases s.graph.evaluateScalar s.target (s.query c) with
  | error e => rfl
  | ok value =>
    show Except.ok ((total.append own).afterLeaf _) = Except.ok (total.append (own.afterLeaf _))
    rw [Sampling.append_afterLeaf]

/-- A total that starts empty is what sampling from scratch yields. -/
theorem leafOnto_empty (s : Sampler M α) (c : Cell α) (error : Option α) :
    s.leafOnto c error (({} : Sampling α).afterError error) = s.leaf c error := by
  unfold leafOnto leaf
  simp only [Sampling.afterLeaf_empty]

/-- **Step and run**: refining a cell onto a total adds to it what refining the cell yields. -/
theorem refineOnto_eq (s : Sampler M α) (levels : Nat) (c : Cell α) (total : Sampling α) :
    s.refineOnto levels c total = total.append <$> s.refine levels c := by
  have hleaf : ∀ (c : Cell α) (total : Sampling α) error,
      s.leafOnto c error (total.afterError error) = total.append <$> s.leaf c error := by
    intro c total error
    rw [Sampling.afterError_eq, leafOnto_eq, leafOnto_empty]
  induction levels generalizing c total with
  | zero =>
    rw [refineOnto, refine, map_bind]
    exact bind_congr fun error => hleaf c total error
  | succ levels ih =>
    rw [refineOnto, refine, map_bind]
    refine bind_congr fun error => ?_
    by_cases hsplits : s.splits c error = true
    · simp only [if_pos hsplits, ih]
      -- The total stands before what an empty total would have grown to.
      rw [Sampling.afterError_eq, ← Sampling.append_afterSplit, Sampling.afterSplit_empty]
      exact Sampling.foldlM_append_eq (s.refine levels) c.split total _
    · simp only [if_neg hsplits]
      exact hleaf c total error

/-- Sampling a cell onto a total puts its leaves behind those that are there and adds the work. -/
theorem sampleOnto_eq (s : Sampler M α) (c : Cell α) (total : Sampling α) :
    s.sampleOnto c total = total.append <$> s.sample c := by
  unfold sampleOnto sample
  rw [refineOnto_eq]
  cases s.refine (s.levels c) c <;> rfl

/-- The mean over a cell is the same whatever the running total is, to which the work is added. -/
theorem averageOnto_eq (s : Sampler M α) (c : Cell α) (work : Work) :
    (s.averageOnto c).run work = (fun r => (r.1, work + r.2)) <$> s.average c := by
  show (do
    let sampling ← s.sampleOnto c { work }
    return (mean c.area sampling.leaves, sampling.work)) = _
  rw [sampleOnto_eq]
  unfold average
  cases s.sample c <;> rfl

/-- Means over cells one after another, with one running total. -/
theorem mapM_averageOnto (s : Sampler M α) (cells : List (Cell α)) (work : Work) :
    (cells.mapM s.averageOnto).run work
      = (fun rs => (rs.map (·.1), work + (rs.map (·.2)).sum)) <$> cells.mapM s.average := by
  induction cells generalizing work with
  | nil =>
    show Except.ok ([], work) = Except.ok ([], work + 0)
    rw [add_zero]
  | cons c cells ih =>
    rw [List.mapM_cons, List.mapM_cons, StateT.run_bind, averageOnto_eq]
    cases s.average c with
    | error e => rfl
    | ok r =>
      show (do
        let rs ← (cells.mapM s.averageOnto).run (work + r.2)
        return (r.1 :: rs.1, rs.2)) = _
      rw [ih]
      cases cells.mapM s.average with
      | error e => rfl
      | ok rs =>
        show Except.ok (_, work + r.2 + (rs.map (·.2)).sum)
          = Except.ok (_, work + (r.2 + (rs.map (·.2)).sum))
        rw [add_assoc]
        rfl

/-- Means over cells row by row, each row with a running total of its own. -/
theorem mapM_rows (s : Sampler M α) (rows : List (List (Cell α))) :
    rows.mapM (fun row => (row.mapM s.averageOnto).run {})
      = (fun rss => rss.map fun rs => (rs.map (·.1), (rs.map (·.2)).sum))
        <$> rows.mapM fun row => row.mapM s.average := by
  induction rows with
  | nil => rfl
  | cons row rows ih =>
    rw [List.mapM_cons, List.mapM_cons, ih, mapM_averageOnto]
    cases row.mapM s.average with
    | error e => rfl
    | ok rs =>
      cases rows.mapM fun row => row.mapM s.average with
      | error e => rfl
      | ok rss =>
        show Except.ok ((_, 0 + (rs.map (·.2)).sum) :: _) = Except.ok ((_, (rs.map (·.2)).sum) :: _)
        rw [zero_add]

end Sampler

/-! ### Images -/

namespace Raster

variable [Arith α] [TextureModule M α]

omit [Arith α] in
/-- Cells one after another are rows one after another. -/
theorem mapM_flatten {ε β : Type} (sample : Cell α → Except ε β) (rows : List (List (Cell α))) :
    rows.flatten.mapM sample = List.flatten <$> rows.mapM fun row => row.mapM sample := by
  induction rows with
  | nil => rfl
  | cons row rows ih =>
    rw [List.flatten_cons, List.mapM_append, List.mapM_cons, ih]
    cases row.mapM sample with
    | error e => rfl
    | ok rs => cases rows.mapM fun row => row.mapM sample <;> rfl

/-- **Rows are pixels**: it makes no difference whether every row has a running total of its own. -/
theorem renderRows_eq_render (f : FrozenGraph M α) (target : Target) (patch : Patch α)
    (settings : Settings α) (width height : Nat) :
    renderRows f target patch settings width height = render f target patch settings width height := by
  unfold renderRows render
  split_ifs
  · rfl
  refine bind_congr fun s => ?_
  let rows : List (List (Cell α)) :=
    (List.range height).map fun y => (List.range width).map fun x => pixelCell width height x y
  have hcells : cells width height = rows.flatten := List.flatMap_def
  have hrows : ((List.range height).mapM fun y =>
      ((List.range width).mapM fun x => s.averageOnto (pixelCell width height x y)).run {})
        = rows.mapM fun row => (row.mapM s.averageOnto).run {} := by
    simp only [rows, List.mapM_map, Function.comp_def]
  rw [hrows, s.mapM_rows, hcells, mapM_flatten]
  cases rows.mapM fun row => row.mapM s.average with
  | error e => rfl
  | ok rss =>
    have hpixels : (rss.map fun rs => (rs.map (·.1), (rs.map (·.2)).sum)).flatMap (·.1)
        = rss.flatten.map (·.1) := by
      rw [List.flatMap_map, List.flatMap_def, List.map_flatten]
    have hwork : ((rss.map fun rs => (rs.map (·.1), (rs.map (·.2)).sum)).map (·.2)).foldl (· + ·) 0
        = (rss.flatten.map (·.2)).foldl (· + ·) 0 := by
      rw [← List.sum_eq_foldl, ← List.sum_eq_foldl, List.map_map, List.map_flatten,
        List.sum_flatten, List.map_map]
      rfl
    exact congrArg Except.ok (congrArg₂ (Raster.mk width height) hpixels hwork)

end Raster

end TextureGraph
