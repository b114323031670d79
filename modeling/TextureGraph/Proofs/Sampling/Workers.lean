import TextureGraph.Proofs.Sampling.Accumulation
import TextureGraph.Proofs.Sampling.Totality

/-!
# Images do not depend on who samples which pixel

The pixels of an image may be shared out among any number of workers.  Each worker keeps a running
total of its work, samples pixels in any order, and at any time two totals may be merged into one
(`Progress.Step`).

* `Progress.Step.balanced` and `Progress.balanced_of_run`: the totals of the workers together with
  the work of the pixels that are still to be sampled are the same before and after every step.
* `Progress.exists_done`: no run comes to a halt before all pixels are sampled.
* `Sampler.render_of_any_run`: so every run ends with the image that `Raster.render` yields, in which
  each pixel is sampled by itself.
-/

namespace TextureGraph

variable {M α : Type}

/-! ### Pixels -/

namespace Raster

/-- The pixels of an image, each by the number of its column and of its row. -/
def places (width height : Nat) : Finset (Nat × Nat) :=
  Finset.range width ×ˢ Finset.range height

/-- The image with the given value at each pixel, which took the given work for each. -/
structure OfPixels (raster : Raster α) (width height : Nat) (value : Nat → Nat → α)
    (work : Nat → Nat → Work) : Prop where
  /-- The number of pixels in a row. -/
  width_eq : raster.width = width
  /-- The number of rows. -/
  height_eq : raster.height = height
  /-- There are no other pixels. -/
  length_eq : raster.pixels.length = width * height
  /-- The pixels of a row stand next to each other, one row after another. -/
  pixel_eq : ∀ x < width, ∀ y < height, raster.pixels[y * width + x]? = some (value x y)
  /-- The work of all pixels together. -/
  work_eq : raster.work = ∑ p ∈ places width height, work p.1 p.2

/-- What is listed row by row is found by the numbers of the row and of the column. -/
theorem getElem?_rows {β : Type} (g : Nat → Nat → β) {width height x y : Nat} (hx : x < width)
    (hy : y < height) :
    ((List.range height).flatMap fun y => (List.range width).map fun x => g x y)[y * width + x]?
      = some (g x y) := by
  induction height with
  | zero => exact absurd hy (Nat.not_lt_zero y)
  | succ height ih =>
    have hlength : ((List.range height).flatMap fun y =>
        (List.range width).map fun x => g x y).length = height * width := by
      simp
    rw [List.range_succ, List.flatMap_append, List.flatMap_singleton]
    rcases Nat.lt_succ_iff_lt_or_eq.mp hy with hlt | rfl
    · have hindex : y * width + x < height * width := by
        calc y * width + x < y * width + width := by omega
          _ = (y + 1) * width := by rw [Nat.succ_mul]
          _ ≤ height * width := Nat.mul_le_mul_right width hlt
      rw [List.getElem?_append_left (hlength ▸ hindex)]
      exact ih hlt
    · -- The last row begins where the rows before it end.
      rw [List.getElem?_append_right (by rw [hlength]; omega), hlength, Nat.add_sub_cancel_left,
        List.getElem?_map, List.getElem?_range hx]
      rfl

theorem sum_rows {β : Type} [AddCommMonoid β] (g : Nat → Nat → β) (width height : Nat) :
    ((List.range height).flatMap fun y => (List.range width).map fun x => g x y).sum
      = ∑ p ∈ places width height, g p.1 p.2 := by
  unfold places
  rw [Finset.sum_product_right, List.flatMap_def, List.sum_flatten, List.map_map]
  rfl

/-- An image in which each pixel is found in its cell. -/
theorem ofPixels_cells [Arith α] (width height : Nat) (value : Cell α → α) (work : Cell α → Work) :
    OfPixels
      { width, height
        pixels := (cells width height).map value
        work := ((cells width height).map work).foldl (· + ·) {} }
      width height (fun x y => value (pixelCell width height x y))
      fun x y => work (pixelCell width height x y) where
  width_eq := rfl
  height_eq := rfl
  length_eq := by simp [cells, Nat.mul_comm]
  pixel_eq x hx y hy := by
    show ((cells width height).map value)[y * width + x]? = _
    unfold cells
    rw [List.map_flatMap]
    simp only [List.map_map, Function.comp_def]
    exact getElem?_rows (fun x y => value (pixelCell width height x y)) hx hy
  work_eq := by
    show ((cells width height).map work).foldl (· + ·) 0 = _
    unfold cells
    rw [← List.sum_eq_foldl, List.map_flatMap]
    simp only [List.map_map, Function.comp_def]
    exact sum_rows (fun x y => work (pixelCell width height x y)) width height

end Raster

/-- Each pixel has the given value and takes the given work, when it is sampled by itself. -/
def Sampler.Averages [Arith α] [TextureModule M α] (s : Sampler M α) (width height : Nat)
    (value : Nat → Nat → α) (work : Nat → Nat → Work) : Prop :=
  ∀ x y : Nat, s.average (Raster.pixelCell width height x y) = .ok (value x y, work x y)

/-! ### Workers -/

/-- An image in the making. -/
structure Progress (α : Type) where
  /-- The pixels that are not sampled yet. -/
  pending : Multiset (Nat × Nat)
  /-- The pixels that are sampled, with their values. -/
  sampled : Multiset ((Nat × Nat) × α)
  /-- The running totals of the workers. -/
  totals : Multiset Work

namespace Progress

/-- An image before any worker has started. -/
def start (width height : Nat) : Progress α :=
  ⟨(Raster.places width height).val, 0, 0⟩

/-- All pixels are sampled, and the totals of all workers are merged into one. -/
def IsDone (p : Progress α) : Prop :=
  p.pending = 0 ∧ p.totals.card = 1

/-- What is done and what is left to do are together what there is to do. -/
structure Balanced (width height : Nat) (value : Nat → Nat → α) (work : Nat → Nat → Work)
    (p : Progress α) : Prop where
  /-- The work. -/
  work_eq : p.totals.sum + (p.pending.map fun i => work i.1 i.2).sum
    = ∑ i ∈ Raster.places width height, work i.1 i.2
  /-- The values. -/
  sampled_eq : p.sampled + p.pending.map (fun i => (i, value i.1 i.2))
    = (Raster.places width height).val.map fun i => (i, value i.1 i.2)

variable {width height : Nat} {value : Nat → Nat → α} {work : Nat → Nat → Work} {p p' : Progress α}

theorem balanced_start : (start width height : Progress α).Balanced width height value work where
  work_eq := zero_add _
  sampled_eq := Multiset.zero_add _

/-- When all pixels are sampled, each has its value, and the total is the work of all pixels. -/
theorem Balanced.of_isDone (hp : p.Balanced width height value work) (hdone : p.IsDone) :
    p.totals = {∑ i ∈ Raster.places width height, work i.1 i.2} ∧
      p.sampled = (Raster.places width height).val.map fun i => (i, value i.1 i.2) := by
  obtain ⟨hpending, hcard⟩ := hdone
  obtain ⟨total, htotal⟩ := Multiset.card_eq_one.mp hcard
  have hwork := hp.work_eq
  have hsampled := hp.sampled_eq
  rw [hpending, Multiset.map_zero] at hwork hsampled
  rw [htotal, Multiset.sum_singleton, Multiset.sum_zero, add_zero] at hwork
  rw [Multiset.add_zero] at hsampled
  exact ⟨by rw [htotal, hwork], hsampled⟩

variable [Arith α] [TextureModule M α]

/-- What can happen next. -/
inductive Step (s : Sampler M α) (width height : Nat) : Progress α → Progress α → Prop where
  /-- A worker starts with an empty total. -/
  | hire (p : Progress α) : Step s width height p { p with totals := {} ::ₘ p.totals }
  /-- A worker samples one of the pixels that are left. -/
  | sample {x y : Nat} {total total' : Work} {value : α} (pending : Multiset (Nat × Nat))
      (sampled : Multiset ((Nat × Nat) × α)) (totals : Multiset Work)
      (h : (s.averageOnto (Raster.pixelCell width height x y)).run total = .ok (value, total')) :
      Step s width height ⟨(x, y) ::ₘ pending, sampled, total ::ₘ totals⟩
        ⟨pending, ((x, y), value) ::ₘ sampled, total' ::ₘ totals⟩
  /-- A total is added to another one. -/
  | merge (a b : Work) (pending : Multiset (Nat × Nat)) (sampled : Multiset ((Nat × Nat) × α))
      (totals : Multiset Work) :
      Step s width height ⟨pending, sampled, a ::ₘ b ::ₘ totals⟩
        ⟨pending, sampled, (a + b) ::ₘ totals⟩

/-- Any number of steps. -/
def Run (s : Sampler M α) (width height : Nat) : Progress α → Progress α → Prop :=
  Relation.ReflTransGen (Step s width height)

/-! ### What a step preserves -/

variable {s : Sampler M α}

/-- **Step**: no work is lost or done twice. -/
theorem Step.balanced (hvalue : s.Averages width height value work) (h : Step s width height p p')
    (hp : p.Balanced width height value work) :
    p'.Balanced width height value work := by
  cases h with
  | hire =>
    refine ⟨?_, hp.sampled_eq⟩
    rw [← hp.work_eq, Multiset.sum_cons]
    show 0 + p.totals.sum + _ = _
    rw [zero_add]
  | @sample x y total total' v pending sampled totals h =>
    -- The pixel is sampled as it would be by itself, and its work is added to the total.
    rw [Sampler.averageOnto_eq, hvalue] at h
    obtain ⟨rfl, rfl⟩ : value x y = v ∧ total + work x y = total' := by
      simpa using Except.ok.inj h
    refine ⟨?_, ?_⟩
    · rw [← hp.work_eq]
      simp only [Multiset.sum_cons, Multiset.map_cons]
      abel
    · rw [← hp.sampled_eq, Multiset.map_cons, Multiset.cons_add, Multiset.add_cons]
  | merge a b pending sampled totals =>
    refine ⟨?_, hp.sampled_eq⟩
    rw [← hp.work_eq]
    simp only [Multiset.sum_cons, add_assoc]

/-- **Run**: however the pixels are shared out, what is done and what is left stay in balance. -/
theorem balanced_of_run (hvalue : s.Averages width height value work)
    (h : Run s width height (start width height) p) : p.Balanced width height value work := by
  induction h with
  | refl => exact balanced_start
  | tail _ hstep ih => exact hstep.balanced hvalue ih

/-! ### Runs come to an end -/

/-- One worker can sample all pixels that are left. -/
theorem exists_run_sample (hvalue : s.Averages width height value work)
    (pending : Multiset (Nat × Nat)) (sampled : Multiset ((Nat × Nat) × α)) (total : Work)
    (totals : Multiset Work) :
    ∃ sampled' total', Run s width height ⟨pending, sampled, total ::ₘ totals⟩
      ⟨0, sampled', total' ::ₘ totals⟩ := by
  induction pending using Multiset.induction_on generalizing sampled total with
  | empty => exact ⟨sampled, total, .refl⟩
  | cons i pending ih =>
    obtain ⟨x, y⟩ := i
    have hnext : (s.averageOnto (Raster.pixelCell width height x y)).run total
        = .ok (value x y, total + work x y) := by
      rw [Sampler.averageOnto_eq, hvalue]
      rfl
    obtain ⟨sampled', total', hrun⟩ := ih (((x, y), value x y) ::ₘ sampled) (total + work x y)
    exact ⟨sampled', total', hrun.head (.sample pending sampled totals hnext)⟩

/-- All totals can be merged into one of them. -/
theorem exists_run_merge (sampled : Multiset ((Nat × Nat) × α)) (total : Work)
    (totals : Multiset Work) :
    ∃ total', Run s width height ⟨0, sampled, total ::ₘ totals⟩ ⟨0, sampled, {total'}⟩ := by
  induction totals using Multiset.induction_on generalizing total with
  | empty => exact ⟨total, .refl⟩
  | cons other totals ih =>
    obtain ⟨total', hrun⟩ := ih (total + other)
    exact ⟨total', hrun.head (.merge total other 0 sampled totals)⟩

/-- However far an image is, it can be completed. -/
theorem exists_done (hvalue : s.Averages width height value work) (p : Progress α) :
    ∃ p', Run s width height p p' ∧ p'.IsDone := by
  obtain ⟨sampled, total, hsample⟩ :=
    exists_run_sample hvalue p.pending p.sampled {} p.totals
  obtain ⟨total', hmerge⟩ :
      ∃ total', Run s width height ⟨0, sampled, total ::ₘ p.totals⟩ ⟨0, sampled, {total'}⟩ :=
    exists_run_merge sampled total p.totals
  exact ⟨_, (hsample.trans hmerge).head (.hire p), rfl, Multiset.card_singleton total'⟩

end Progress

/-! ### Images -/

namespace Sampler

variable [Arith α] [TextureModule M α] {f : FrozenGraph M α} {target : Target} {patch : Patch α}
  {settings : Settings α}

/-- **Images do not depend on who samples which pixel**: take settings that can be used and an
output that carries numbers.  Each pixel has a value and takes some work, when its cell is sampled by
itself, and

* the image has these values as its pixels, and its work is the work of all pixels together, be it
  rendered pixel by pixel or row by row with a running total for each row;
* sampling pixels one after another with a running total yields their values and adds their work to
  the total;
* however the pixels are shared out among workers, in whatever order they are sampled and the
  totals of the workers merged, the image can be completed, and when it is, it has these values and
  this work. -/
theorem render_of_any_run (hsettings : settings.validate = .ok ())
    (hnumbers : f.CarriesNumbers target) {width height : Nat} (hwidth : 0 < width)
    (hheight : 0 < height) :
    ∃ (s : Sampler M α) (value : Nat → Nat → α) (work : Nat → Nat → Work) (raster : Raster α),
      create f target patch settings = .ok s ∧
      (∀ x y : Nat, s.average
        { s := Arith.ofInt x * (1.0 / Arith.ofInt width)
          t := Arith.ofInt y * (1.0 / Arith.ofInt height)
          ds := 1.0 / Arith.ofInt width
          dt := 1.0 / Arith.ofInt height
          depth := 0 } = .ok (value x y, work x y)) ∧
      Raster.render f target patch settings width height = .ok raster ∧
      Raster.renderRows f target patch settings width height = .ok raster ∧
      raster.OfPixels width height value work ∧
      (∀ (pixels : List (Nat × Nat)) (total : Work),
        (pixels.mapM fun p => s.averageOnto (Raster.pixelCell width height p.1 p.2)).run total
          = .ok (pixels.map fun p => value p.1 p.2,
              total + (pixels.map fun p => work p.1 p.2).sum)) ∧
      ∀ p, Progress.Run s width height (.start width height) p →
        (∃ p', Progress.Run s width height p p' ∧ p'.IsDone) ∧
        (p.IsDone → p.totals = {raster.work} ∧
          p.sampled = (Raster.places width height).val.map fun i => (i, value i.1 i.2)) := by
  obtain ⟨s, hcreate⟩ := exists_create_iff.mpr ⟨hsettings, hnumbers⟩
  obtain ⟨sampling, hsample⟩ := (accepted_of_create hcreate).exists_sampling
  let cell (x y : Nat) : Cell α := Raster.pixelCell width height x y
  let value (x y : Nat) : α := mean (cell x y).area (sampling (cell x y)).leaves
  let work (x y : Nat) : Work := (sampling (cell x y)).work
  have hvalue : s.Averages width height value work := fun x y => average_eq_ok (hsample (cell x y))
  have hrender := render_eq_ok hcreate hsample hwidth hheight
  refine ⟨s, value, work, _, hcreate, hvalue, hrender,
    (Raster.renderRows_eq_render ..).trans hrender, Raster.ofPixels_cells .., ?_, ?_⟩
  · intro pixels total
    have hmap : (pixels.mapM fun p => s.averageOnto (cell p.1 p.2))
        = (pixels.map fun p => cell p.1 p.2).mapM s.averageOnto := by
      simp only [List.mapM_map, Function.comp_def]
    rw [hmap, mapM_averageOnto, mapM_average hsample]
    show Except.ok _ = Except.ok _
    simp only [List.map_map, Function.comp_def]
    rfl
  · intro p hrun
    refine ⟨Progress.exists_done hvalue p, fun hdone => ?_⟩
    obtain ⟨htotals, hsampled⟩ := (Progress.balanced_of_run hvalue hrun).of_isDone hdone
    refine ⟨?_, hsampled⟩
    rw [htotals, (Raster.ofPixels_cells ..).work_eq]

theorem render_of_any_run_ramp :
    ∃ (f : FrozenGraph (Catalog Float) Float) (s : Sampler (Catalog Float) Float)
      (raster : Raster Float),
      ramp.freeze = .ok f ∧ create f ⟨⟨0⟩, 0⟩ .standard demanding = .ok s ∧
      Raster.render f ⟨⟨0⟩, 0⟩ .standard demanding 3 2 = .ok raster ∧
      ∃ p, Progress.Run s 3 2 (.start 3 2) p ∧ p.totals = {raster.work} := by
  obtain ⟨s, value, work, raster, hcreate, -, hrender, -, -, -, hrun⟩ :=
    @render_of_any_run (Catalog Float) Float _ _ ⟨ramp, ⟨[⟨0⟩], 1⟩⟩ ⟨⟨0⟩, 0⟩
      .standard demanding rfl ⟨_, _, rfl, rfl, by decide⟩ 3 2 (by decide) (by decide)
  obtain ⟨p, hp, hdone⟩ := (hrun _ .refl).1
  exact ⟨_, s, raster, freeze_ramp, hcreate, hrender, p, hp, ((hrun p hp).2 hdone).1⟩

end Sampler

end TextureGraph
