import TextureGraph.Catalog.Basic
import TextureGraph.Graph.Evaluation
import TextureGraph.Graph.History
import TextureGraph.Number.Binary64
import TextureGraph.Proofs.Graph.Schedule

/-!
# Requests nest no deeper than the longest chain

`evaluation_within_depth`: in a graph without cycles, asking a module, which asks for its inputs, and
so on, comes to an end.  The modules under evaluation at any moment form a chain (`Nested`), of which
the schedule knows the largest length, so any budget of at least that length is never used up and gives
the same answers.

The proof descends along the numbers that the walk gives to the modules (`Ranking`): a module asks
only modules of smaller numbers (`Ranking.answersWithin_eq`).
-/

namespace TextureGraph

variable {M α : Type}

namespace Graph

variable {g : Graph M α}

/-! ### Sources -/

theorem source?_eq_some_iff {e source : Entry M α} {input output : Nat} :
    g.source? e input = some (source, output) ↔
      ∃ b, e.binding? input = some b ∧ g.entry? b.source = some source ∧ b.output = output := by
  unfold source?
  cases e.binding? input with
  | none => simp
  | some b =>
    simp only [Option.bind_eq_bind, Option.bind_some, Option.some.injEq, exists_eq_left']
    cases g.entry? b.source <;> simp

/-- The entry that an input reads is the entry of a module that its module reads. -/
theorem exists_mem_sources {id : ModuleId} {e source : Entry M α} {input output : Nat}
    (he : g.entry? id = some e) (h : g.source? e input = some (source, output)) :
    ∃ sourceId ∈ g.sources id, g.entry? sourceId = some source := by
  obtain ⟨b, hb, hsource, -⟩ := source?_eq_some_iff.mp h
  refine ⟨b.source, mem_sources_iff.mpr ⟨⟨input, b, (binding?_eq he input).trans hb, rfl⟩, ?_⟩,
    hsource⟩
  rw [← contains_iff, contains, hsource, Option.isSome_some]

/-! ### Nesting -/

/-- The modules that may be under evaluation at the same time, each one asked by the one before it:
`Nested g requested n e` says that `e` may be the last of `n` such modules when `requested` is the
first. -/
inductive Nested (g : Graph M α) (requested : Entry M α) : Nat → Entry M α → Prop where
  /-- The requested module is evaluated. -/
  | requested : Nested g requested 1 requested
  /-- A module asks for an input, and the module bound to it is evaluated. -/
  | input {n input output : Nat} {e source : Entry M α} (nested : Nested g requested n e)
      (bound : g.source? e input = some (source, output)) : Nested g requested (n + 1) source

/-- With every module that is asked by another one, the numbers fall. -/
theorem Ranking.of_nested {rank : ModuleId → Nat} {bound n : Nat} (hr : g.Ranking rank bound)
    {id : ModuleId} {requested e : Entry M α} (hid : g.entry? id = some requested)
    (h : Nested g requested n e) : ∃ i, g.entry? i = some e ∧ n + rank i ≤ rank id + 1 := by
  induction h with
  | requested => exact ⟨id, hid, by omega⟩
  | input nested hbound ih =>
    obtain ⟨i, hi, hle⟩ := ih
    obtain ⟨sourceId, hmem, hsource⟩ := exists_mem_sources hi hbound
    have hlt : rank sourceId < rank i := hr.falls i (mem_ids_of_lookup hi) sourceId hmem
    exact ⟨sourceId, hsource, by omega⟩

/-- No more modules than the bound are under evaluation at the same time. -/
theorem Ranking.nested_le {rank : ModuleId → Nat} {bound n : Nat} (hr : g.Ranking rank bound)
    {id : ModuleId} {requested e : Entry M α} (hid : g.entry? id = some requested)
    (h : Nested g requested n e) : n ≤ bound := by
  obtain ⟨i, hi, hle⟩ := hr.of_nested hid h
  have hpos : 0 < rank i := hr.pos i (mem_ids_of_lookup hi)
  have hbound : rank id ≤ bound := hr.le id (mem_ids_of_lookup hid)
  omega

/-! ### Budgets -/

/-- A module sees nothing of the other modules but the answers of those bound to its inputs. -/
theorem pull_congr [Arith α] {answers answers' : Entry M α → Answers α} {e : Entry M α}
    (h : ∀ input source output, g.source? e input = some (source, output) →
      answers source = answers' source) :
    g.pull answers e = g.pull answers' e := by
  unfold pull
  congr 1 <;> funext i q
  all_goals
    cases hs : g.source? e i with
    | none => rfl
    | some s => simp only [h i s.1 s.2 hs]

/-- Two ways to go along the bindings within a budget find the same at a module, when the budgets are not
below its number and each level is the same for modules whose sources are. -/
theorem Ranking.within_eq {β : Type} {rank : ModuleId → Nat} {bound : Nat} (hr : g.Ranking rank bound)
    {within within' : Nat → Entry M α → β}
    (hlevel : ∀ n n' e, (∀ input source output, g.source? e input = some (source, output) →
      within n source = within' n' source) → within (n + 1) e = within' (n' + 1) e)
    {n n' : Nat} {id : ModuleId} {e : Entry M α} (he : g.entry? id = some e) (hn : rank id ≤ n)
    (hn' : rank id ≤ n') : within n e = within' n' e := by
  have hpos : ∀ {id e}, g.entry? id = some e → 0 < rank id := fun he =>
    hr.pos _ (mem_ids_of_lookup he)
  -- A module has a positive number, so no budget is used up before it is reached.
  induction n generalizing n' id e with
  | zero => exact absurd hn (Nat.not_le_of_lt (hpos he))
  | succ n ih =>
    cases n' with
    | zero => exact absurd hn' (Nat.not_le_of_lt (hpos he))
    | succ n' =>
      refine hlevel n n' e fun input source output hsource => ?_
      obtain ⟨sourceId, hmem, hsource⟩ := exists_mem_sources he hsource
      have hlt : rank sourceId < rank id := hr.falls id (mem_ids_of_lookup he) sourceId hmem
      exact ih hsource (by omega) (by omega)

/-- Budgets that are not below the number of a module give it the same answers, whatever modules answer
when a budget is used up. -/
theorem Ranking.answersWithin_eq [Arith α] [TextureModule M α] {rank : ModuleId → Nat} {bound : Nat}
    (hr : g.Ranking rank bound) (exhausted exhausted' : Entry M α → Answers α) {n n' : Nat}
    {id : ModuleId} {e : Entry M α} (he : g.entry? id = some e) (hn : rank id ≤ n)
    (hn' : rank id ≤ n') :
    g.answersWithin exhausted n e = g.answersWithin exhausted' n' e := by
  refine hr.within_eq (fun n n' e hsources => ?_) he hn hn'
  rw [answersWithin, answersWithin, pull_congr hsources]

end Graph

/-! ### Evaluations -/

theorem Graph.freeze_ok {g : Graph M α} {f : FrozenGraph M α} (h : g.freeze = .ok f) :
    f.graph = g ∧ g.schedule = .ok f.schedule := by
  unfold Graph.freeze at h
  rw [bind_eq_ok_iff] at h
  obtain ⟨s, hs, h⟩ := h
  cases h
  exact ⟨rfl, hs⟩

theorem Graph.freeze_eq_ok {g : Graph M α} {s : Schedule} (h : g.schedule.toOption = some s) :
    g.freeze = .ok ⟨g, s⟩ := by
  unfold Graph.freeze
  cases hs : g.schedule with
  | error e =>
    rw [hs] at h
    cases h
  | ok s' =>
    rw [hs] at h
    cases h
    rfl

/-- What holds of a module whenever it holds of the modules that it reads holds of all modules of a
graph without cycles. -/
theorem FrozenGraph.induction_reads {g : Graph M α} {f : FrozenGraph M α} (h : g.freeze = .ok f)
    {P : ModuleId → Entry M α → Prop}
    (step : ∀ id e, f.graph.entry? id = some e →
      (∀ source s, f.graph.Reads id source → f.graph.entry? source = some s → P source s) →
      P id e) {id : ModuleId} {e : Entry M α} (he : f.graph.entry? id = some e) : P id e := by
  obtain ⟨rfl, hschedule⟩ := Graph.freeze_ok h
  obtain ⟨rank, hr⟩ := Graph.exists_ranking hschedule
  -- The numbers of the ranking fall from a module to those that it reads.
  induction hn : rank id using Nat.strong_induction_on generalizing id e with
  | _ n ih =>
    refine step id e he fun source s hread hs => ?_
    have hmem : source ∈ f.graph.sources id :=
      Graph.mem_sources_iff.mpr ⟨hread, Graph.mem_ids_of_lookup hs⟩
    have hlt : rank source < rank id := hr.falls id (Graph.mem_ids_of_lookup he) source hmem
    exact ih (rank source) (hn ▸ hlt) hs rfl

namespace FrozenGraph

variable [Arith α] {f : FrozenGraph M α}

theorem target_ok {t : Target} {blur : α} {e : Entry M α} {kind : SocketKind}
    (h : f.target t blur = .ok (e, kind)) :
    f.graph.entry? t.module = some e ∧ e.signature.outputKind? t.output = some kind := by
  unfold target at h
  split at h
  · cases h
  split at h
  · cases h
  rename_i e' he
  split at h
  · cases h
  rename_i kind' hkind
  cases h
  exact ⟨he, hkind⟩

theorem target_eq_ok {t : Target} {blur : α} {e : Entry M α} {kind : SocketKind}
    (hblur : ¬ (!Arith.isFinite blur || decide (blur < 0.0)) = true)
    (he : f.graph.entry? t.module = some e) (hkind : e.signature.outputKind? t.output = some kind) :
    f.target t blur = .ok (e, kind) := by
  unfold target
  rw [if_neg hblur, he]
  dsimp only
  rw [hkind]

/-- A request without blur is accepted. -/
theorem target_unblurred {f : FrozenGraph M Float} {t : Target} {e : Entry M Float}
    {kind : SocketKind} (he : f.graph.entry? t.module = some e)
    (hkind : e.signature.outputKind? t.output = some kind) :
    f.target t (0.0 : Float) = .ok (e, kind) :=
  target_eq_ok (by decide +kernel) he hkind

variable [TextureModule M α]

/-- The four evaluations give what they give by default when the modules answer as `answers` says. -/
structure AgreesWith (f : FrozenGraph M α) (answers : Entry M α → Answers α) : Prop where
  /-- The mean as a number. -/
  scalar : ∀ t q, f.evaluateScalar t q answers = f.evaluateScalar t q
  /-- The mean as a color. -/
  color : ∀ t q, f.evaluateColor t q answers = f.evaluateColor t q
  /-- The error. -/
  error : ∀ t q, f.estimateError t q answers = f.estimateError t q
  /-- The gradient. -/
  gradient : ∀ t q, f.evaluateGradient t q answers = f.evaluateGradient t q

/-- Only the answers of the modules of the graph matter. -/
theorem agreesWith_of_eq {answers : Entry M α → Answers α}
    (h : ∀ id e, f.graph.entry? id = some e → answers e = f.answers e) : f.AgreesWith answers := by
  have htarget : ∀ {t : Target} {blur : α} {r : Entry M α × SocketKind},
      f.target t blur = .ok r → answers r.1 = f.answers r.1 :=
    fun hr => h _ _ (target_ok hr).1
  refine ⟨fun t q => ?_, fun t q => ?_, fun t q => ?_, fun t q => ?_⟩
  all_goals
    refine bind_congr_of_ok fun r hr => ?_
    simp only [htarget hr]

/-- The answers of a module rest on the answers of the modules bound to it, without any budget. -/
theorem answers_eq {g : Graph M α} (h : g.freeze = .ok f) {id : ModuleId} {e : Entry M α}
    (he : f.graph.entry? id = some e) :
    f.answers e = TextureModule.answers e.module (f.graph.pull f.answers e) := by
  obtain ⟨rfl, hschedule⟩ := Graph.freeze_ok h
  obtain ⟨rank, hr⟩ := Graph.exists_ranking hschedule
  have hbound : rank id ≤ f.schedule.depth := hr.le id (Graph.mem_ids_of_lookup he)
  -- One level more than the longest chain needs makes no difference.
  exact hr.answersWithin_eq _ _ he hbound (Nat.le_succ_of_le hbound)

/-- **Requests nest no deeper than the longest chain**: in a graph without cycles

* the answers of every module rest on those of the modules bound to it, without any budget;
* a budget of at least the length of the longest chain gives the same answers to all requests, whatever
  a module would answer when the budget is used up;
* no more modules than that are under evaluation at the same time, the requested one included. -/
theorem evaluation_within_depth {g : Graph M α} (h : g.freeze = .ok f) :
    (∀ id e, f.graph.entry? id = some e →
        f.answers e = TextureModule.answers e.module (f.graph.pull f.answers e)) ∧
      (∀ exhausted n, f.schedule.depth ≤ n → f.AgreesWith (f.graph.answersWithin exhausted n)) ∧
      ∀ id requested, f.graph.entry? id = some requested →
        ∀ n e, f.graph.Nested requested n e → n ≤ f.schedule.depth := by
  refine ⟨fun id e he => answers_eq h he, fun exhausted n hn => ?_,
    fun id requested hid n e hnested => ?_⟩
  all_goals
    obtain ⟨rfl, hschedule⟩ := Graph.freeze_ok h
    obtain ⟨rank, hr⟩ := Graph.exists_ranking hschedule
  · refine agreesWith_of_eq fun id e he => ?_
    have hbound : rank id ≤ f.schedule.depth := hr.le id (Graph.mem_ids_of_lookup he)
    exact hr.answersWithin_eq _ _ he (hbound.trans hn) hbound
  · exact hr.nested_le hid hnested

/-- The sum of one and an unbound input. -/
def onePlus : Graph (Catalog Float) Float :=
  Graph.ofEdits "one plus" [.add (.source (.number 1.0)), .add (.operator .sum),
    .bind ⟨1⟩ 0 ⟨⟨0⟩, 0⟩]

theorem freeze_onePlus : onePlus.freeze = .ok ⟨onePlus, ⟨[⟨0⟩, ⟨1⟩], 2⟩⟩ :=
  Graph.freeze_eq_ok (by decide +kernel)

theorem evaluation_within_depth_onePlus :
    ∃ f, onePlus.freeze = .ok f ∧ f.schedule.depth = 2 ∧
      (∀ id e, f.graph.entry? id = some e →
        f.answers e = TextureModule.answers e.module (f.graph.pull f.answers e)) ∧
      (∀ exhausted n, 2 ≤ n → f.AgreesWith (f.graph.answersWithin exhausted n)) ∧
      ∀ id requested, f.graph.entry? id = some requested →
        ∀ n e, f.graph.Nested requested n e → n ≤ 2 :=
  ⟨_, freeze_onePlus, rfl, evaluation_within_depth freeze_onePlus⟩

end FrozenGraph

end TextureGraph
