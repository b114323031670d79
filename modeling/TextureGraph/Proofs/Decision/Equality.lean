import TextureGraph.Proofs.Graph.Disregard
import TextureGraph.Proofs.Inquiry.Catalog
import TextureGraph.Proofs.Number.Unpacked

/-!
# What decides a test for equality

A test for equality goes through its pairs of inputs and passes on one of two other inputs.

* `Matching.allEqual_iff`: the walk over the pairs finds whether all pairs that take part match, and
  there is one (`Matching.AllMatch`).
* `Matching.Disregarded`: the inputs that make no difference.  They are the second input of a pair
  that takes no part, the input that is not passed on, and the pairs after the first one that does
  not match.
* `FrozenGraph.equality_decides`: the test has the value and the gradient of the input that it
  passes on, and changes that reach it only through inputs that are disregarded make no difference.
  A module that is read both by such an input and by another one does make a difference
  (`FrozenGraph.equality_sharedSource`).
-/

namespace TextureGraph

/-- Two colors are close when no difference of channels exceeds the tolerance. -/
theorem Color.isClose_iff {α : Type} [Arith α] {tolerance : α} {c d : Color α} :
    c.isClose tolerance d = true ↔ ∀ difference ∈ (c - d).channels,
      Arith.abs difference ≤ tolerance := by
  have hchannels : (c - d).channels = [c.red - d.red, c.green - d.green, c.blue - d.blue] := rfl
  rw [hchannels]
  simp [isClose, channels]

namespace Matching

/-! ### Pairs -/

namespace Pair

/-- The second inputs are as far apart as the first ones. -/
theorem second_eq (p : Pair) : p.second = p.first + 5 := by
  cases p with
  | color => rfl
  | scalar i => simp only [first, second]; omega

/-- The inputs that may be passed on come before the pairs. -/
theorem two_le_first (p : Pair) : 2 ≤ p.first := by
  cases p with
  | color => exact le_rfl
  | scalar i => simp only [first]; omega

/-- All first inputs come before the second ones. -/
theorem first_lt_seven (p : Pair) : p.first < 7 := by
  cases p with
  | color => decide
  | scalar i => simp only [first]; omega

theorem seven_le_second (p : Pair) : 7 ≤ p.second := by
  rw [second_eq]
  exact Nat.add_le_add_right p.two_le_first 5

theorem first_eq_of_second_eq {p p' : Pair} (h : p.second = p'.second) : p.first = p'.first := by
  rw [second_eq, second_eq] at h
  exact Nat.add_right_cancel h

theorem mem_all (p : Pair) : p ∈ all := by
  cases p with
  | color => exact .head _
  | scalar i =>
    have hscalar : ∀ i : Fin 4, scalar i ∈ all := by decide
    exact hscalar i

/-- The pairs are compared in the order of their inputs. -/
theorem pairwise_all : all.Pairwise fun p later => p.first < later.first := by
  decide

end Pair

variable {α : Type} [Arith α] (inputs : Inputs α) (q : Query α)

/-- The differences that a pair is judged by: those of the channels, or that of the numbers. -/
def Pair.differences (p : Pair) : List α :=
  match p with
  | .color => (inputs.color p.first q - inputs.color p.second q).channels
  | .scalar _ => [inputs.value p.first q - inputs.value p.second q]

/-- No difference exceeds the tolerance, and none is undefined. -/
def Pair.Matches (p : Pair) : Prop :=
  ∀ d ∈ p.differences inputs q, Arith.abs d ≤ (standardTolerance : α)

/-- Some pair takes part, and every pair that does matches. -/
def AllMatch : Prop :=
  (∃ p : Pair, inputs.isBound p.first = true) ∧
    ∀ p : Pair, inputs.isBound p.first = true → p.Matches inputs q

/-- The inputs that make no difference to `select`. -/
inductive Disregarded : Nat → Prop where
  /-- The second input of a pair that takes no part. -/
  | second {p : Pair} (habsent : inputs.isBound p.first = false) : Disregarded p.second
  /-- The input for pairs that do not match, when they do. -/
  | falseInput (hmatch : AllMatch inputs q) : Disregarded falseInput
  /-- The input for pairs that match, when they do not. -/
  | trueInput (hmatch : ¬ AllMatch inputs q) : Disregarded trueInput
  /-- The first input of a pair after one that does not match. -/
  | laterFirst {p later : Pair} (hbound : inputs.isBound p.first = true)
      (hmatch : ¬ p.Matches inputs q) (hlater : p.first < later.first) : Disregarded later.first
  /-- The second input of a pair after one that does not match. -/
  | laterSecond {p later : Pair} (hbound : inputs.isBound p.first = true)
      (hmatch : ¬ p.Matches inputs q) (hlater : p.first < later.first) : Disregarded later.second

/-- A pair is looked at: no pair before it takes part without matching. -/
def Pair.Reached (p : Pair) : Prop :=
  ∀ earlier : Pair, earlier.first < p.first → inputs.isBound earlier.first = true →
    earlier.Matches inputs q

variable {inputs q}

theorem Pair.isEqual_iff {p : Pair} : p.isEqual inputs q = true ↔ p.Matches inputs q := by
  cases p with
  | color => exact Color.isClose_iff
  | scalar i => simp [isEqual, Matches, differences, first, second]

/-- **The decision**: the walk over the pairs stops early, and finds whether all of them match. -/
theorem allEqual_iff : allEqual inputs q = true ↔ AllMatch inputs q := by
  simp only [allEqual, Bool.and_eq_true, Bool.not_eq_true', List.isEmpty_eq_false_iff_exists_mem,
    List.all_eq_true, List.mem_filter, Pair.mem_all, true_and, Pair.isEqual_iff, AllMatch]

theorem selected_of_allMatch (h : AllMatch inputs q) : selected inputs q = trueInput :=
  if_pos (allEqual_iff.mpr h)

theorem selected_of_not_allMatch (h : ¬ AllMatch inputs q) : selected inputs q = falseInput :=
  if_neg fun hequal => h (allEqual_iff.mp hequal)

/-! ### Inputs that are asked about -/

/-- The input that is passed on is not disregarded. -/
theorem not_disregarded_selected : ¬ Disregarded inputs q (selected inputs q) := by
  intro h
  have hlow : selected inputs q < 2 := by
    rw [selected]
    split_ifs <;> decide
  generalize hi : selected inputs q = i at h hlow
  cases h with
  | falseInput hmatch => exact absurd (hi.symm.trans (selected_of_allMatch hmatch)) (by decide)
  | trueInput hmatch => exact absurd (hi.symm.trans (selected_of_not_allMatch hmatch)) (by decide)
  | @laterFirst _ p' => exact absurd p'.two_le_first hlow.not_ge
  | @second p' | @laterSecond _ p' => exact absurd p'.seven_le_second (by omega)

/-- The first input of a pair that is looked at is not disregarded. -/
theorem Pair.Reached.not_disregarded_first {p : Pair} (h : p.Reached inputs q) :
    ¬ Disregarded inputs q p.first := by
  intro hi
  have hlow := p.two_le_first
  have hhigh := p.first_lt_seven
  generalize hfirst : p.first = i at hi hlow hhigh
  cases hi with
  | falseInput | trueInput => exact absurd hlow (by decide)
  | laterFirst hbound hmatch hlater => exact hmatch (h _ (hfirst ▸ hlater) hbound)
  | @second p' | @laterSecond _ p' => exact absurd p'.seven_le_second hhigh.not_ge

/-- Nor is the second one, when the pair takes part. -/
theorem Pair.Reached.not_disregarded_second {p : Pair} (h : p.Reached inputs q)
    (hbound : inputs.isBound p.first = true) : ¬ Disregarded inputs q p.second := by
  intro hi
  have hlow := p.seven_le_second
  generalize hsecond : p.second = i at hi hlow
  cases hi with
  | falseInput | trueInput => exact absurd hlow (by decide)
  | second habsent =>
    have hfirst := first_eq_of_second_eq hsecond
    exact Bool.noConfusion (habsent.symm.trans (hfirst ▸ hbound))
  | @laterFirst _ p' => exact absurd p'.first_lt_seven hlow.not_gt
  | laterSecond hbound' hmatch hlater =>
    have hfirst := first_eq_of_second_eq hsecond
    exact hmatch (h _ (hfirst ▸ hlater) hbound')

theorem Pair.input_of_mem_questions_equalInquiry {p : Pair} {question : Question α}
    (h : question ∈ (p.equalInquiry q).questions inputs) :
    question.input = p.first ∨ question.input = p.second := by
  cases p with
  | color | scalar =>
    rcases List.mem_pair.mp h with rfl | rfl
    · exact .inl rfl
    · exact .inr rfl

/-- The walk over the pairs that are left asks only about inputs that are not disregarded, when all
pairs before them match or take no part. -/
theorem not_disregarded_of_mem_questions_pairsInquiry {pairs : List Pair} {compared : Bool}
    {question : Question α}
    (hsorted : pairs.Pairwise fun p later => p.first < later.first)
    (hdone : ∀ p : Pair, p ∉ pairs → inputs.isBound p.first = true → p.Matches inputs q)
    (h : question ∈ (pairsInquiry q pairs compared).questions inputs) :
    ¬ Disregarded inputs q question.input := by
  induction pairs generalizing compared with
  | nil => cases h
  | cons p rest ih =>
    obtain ⟨hp, hrest⟩ := List.pairwise_cons.mp hsorted
    have hreached : p.Reached inputs q := fun earlier hearlier => by
      refine hdone earlier fun hmem => ?_
      rcases List.mem_cons.mp hmem with rfl | hmem
      · exact lt_irrefl _ hearlier
      · exact lt_asymm hearlier (hp earlier hmem)
    -- Once this pair is known to match or to take no part, the walk goes on.
    have hnext : (inputs.isBound p.first = true → p.Matches inputs q) → ∀ p' : Pair, p' ∉ rest →
        inputs.isBound p'.first = true → p'.Matches inputs q := fun hmatch p' hp' => by
      by_cases heq : p' = p
      · exact heq ▸ hmatch
      · exact hdone p' fun hmem => (List.mem_cons.mp hmem).elim heq hp'
    rw [pairsInquiry, Inquiry.questions_bind, Inquiry.questions_isBound, Inquiry.run_isBound,
      List.singleton_append, List.mem_cons] at h
    rcases h with rfl | h
    · exact hreached.not_disregarded_first
    split_ifs at h with hbound
    · rw [Inquiry.questions_bind, Pair.run_equalInquiry, List.mem_append] at h
      rcases h with h | h
      · rcases Pair.input_of_mem_questions_equalInquiry h with hinput | hinput <;> rw [hinput]
        · exact hreached.not_disregarded_first
        · exact hreached.not_disregarded_second hbound
      · split_ifs at h with hequal
        · exact ih hrest (hnext fun _ => Pair.isEqual_iff.mp hequal) h
        · cases h
    · exact ih hrest (hnext fun hb => absurd hb hbound) h

/-- After the walk over the pairs, what is asked of the input that is passed on is asked of no input
that is disregarded. -/
theorem not_disregarded_of_mem_questions_selectedInquiry {β : Type} {f : Nat → Inquiry α β}
    {question : Question α}
    (hf : ∀ i, ∀ asked ∈ (f i).questions inputs, asked.input = i)
    (h : question ∈ (selectedInquiry q >>= f).questions inputs) :
    ¬ Disregarded inputs q question.input := by
  rw [Inquiry.questions_bind, selectedInquiry, Inquiry.questions_map, ← selectedInquiry,
    run_selectedInquiry, List.mem_append] at h
  rcases h with h | h
  · exact not_disregarded_of_mem_questions_pairsInquiry Pair.pairwise_all
      (fun p hp => absurd p.mem_all hp) h
  · rw [hf _ _ h]
    exact not_disregarded_selected

/-- `select` asks only about inputs that are not disregarded. -/
theorem not_disregarded_of_mem_questions {operation : Operation} (output : Nat)
    {question : Question α}
    (h : question ∈ (Inquiring.inquiry (Matching.select : Matching α) operation output q).questions
      inputs) : ¬ Disregarded inputs q question.input := by
  have hvalue : question ∈ (valueInquiry q .select).questions inputs →
      ¬ Disregarded inputs q question.input :=
    not_disregarded_of_mem_questions_selectedInquiry (f := fun i => .value i q)
      fun i asked hasked => by rw [List.mem_singleton.mp hasked]; rfl
  cases operation with
  | value => exact hvalue h
  | color => exact hvalue ((Inquiry.questions_map inputs Color.gray _).symm ▸ h)
  | error => cases h
  | gradient =>
    exact not_disregarded_of_mem_questions_selectedInquiry (f := fun i => .gradient i q)
      (fun i asked hasked => by rw [List.mem_singleton.mp hasked]; rfl) h

/-- A difference that is undefined is a mismatch. -/
theorem Pair.not_matches_of_isNaN {inputs : Inputs Float} {q : Query Float} {p : Pair} {d : Float}
    (hd : d ∈ p.differences inputs q) (hnan : d.isNaN = true) : ¬ p.Matches inputs q :=
  fun h => Binary64.not_le_of_isNaN_left (Binary64.isNaN_abs hnan) _ (h d hd)

end Matching

namespace FrozenGraph

open Matching

/-- **What decides a test for equality**: in floating point, take a test in a graph without cycles
that some changes have led to, and any request.

* If some pair has its first input bound, and all such pairs match, it has the value and the
  gradient of the input for pairs that match; else those of the other one.
* A pair with an undefined difference does not match.
* After further changes that lead to a graph without cycles, any evaluation of the test yields what
  it has yielded, when each of them spares the inputs that are not disregarded: it rebinds an input
  that is disregarded, or is made to another module, which does not lie upstream of any input that
  is not disregarded. -/
theorem equality_decides {name : String} {edits : List (Edit (Catalog Float) Float)}
    {f : FrozenGraph (Catalog Float) Float} (h : (Graph.ofEdits name edits).freeze = .ok f)
    {id : ModuleId} {e : Entry (Catalog Float) Float} (he : f.graph.entry? id = some e)
    (hmodule : e.module = .matching .select) (output : Nat) (q : Query Float) :
    (AllMatch (f.graph.pull f.answers e) q →
      (f.answers e).value output q = (f.graph.pull f.answers e).value trueInput q ∧
      (f.answers e).gradient output q = (f.graph.pull f.answers e).gradient trueInput q) ∧
    (¬ AllMatch (f.graph.pull f.answers e) q →
      (f.answers e).value output q = (f.graph.pull f.answers e).value falseInput q ∧
      (f.answers e).gradient output q = (f.graph.pull f.answers e).gradient falseInput q) ∧
    (∀ p : Pair, ∀ d ∈ p.differences (f.graph.pull f.answers e) q, d.isNaN = true →
      ¬ p.Matches (f.graph.pull f.answers e) q) ∧
    ∀ changes f', (Graph.ofEdits name (edits ++ changes)).freeze = .ok f' →
      (∀ change ∈ changes,
        change.Spares f.graph id (Disregarded (f.graph.pull f.answers e) q)) →
      ∀ evaluation,
        f'.evaluate evaluation ⟨id, output⟩ q = f.evaluate evaluation ⟨id, output⟩ q := by
  have hanswers := answers_eq h he
  rw [hmodule] at hanswers
  have hvalue : (f.answers e).value output q = (f.graph.pull f.answers e).value
      (selected (f.graph.pull f.answers e) q) q :=
    congrArg (Answers.value · output q) hanswers
  have hgradient : (f.answers e).gradient output q = (f.graph.pull f.answers e).gradient
      (selected (f.graph.pull f.answers e) q) q :=
    congrArg (Answers.gradient · output q) hanswers
  refine ⟨fun hmatch => ?_, fun hmatch => ?_, fun p d hd => Pair.not_matches_of_isNaN hd,
    fun changes f' h' hspares evaluation => ?_⟩
  · rw [hvalue, hgradient, selected_of_allMatch hmatch]
    exact ⟨rfl, rfl⟩
  · rw [hvalue, hgradient, selected_of_not_allMatch hmatch]
    exact ⟨rfl, rfl⟩
  · refine evaluation_of_spares h h' he (fun operation question hquestion => ?_) hspares evaluation
    rw [questions, hmodule] at hquestion
    exact not_disregarded_of_mem_questions output hquestion

/-- Two numbers, and a test that compares the second number with zero, and then the first one. -/
def comparison : List (Edit (Catalog Float) Float) :=
  [.add (.source (.number 2.0)), .add (.source (.number 1.0)), .add (.matching .select),
    .bind ⟨2⟩ 3 ⟨⟨1⟩, 0⟩, .bind ⟨2⟩ 4 ⟨⟨0⟩, 0⟩]

/-- The graph that such changes lead to, as it is evaluated. -/
def frozenComparison (edits : List (Edit (Catalog Float) Float)) :
    FrozenGraph (Catalog Float) Float :=
  ⟨Graph.ofEdits "comparison" edits, ⟨[⟨0⟩, ⟨1⟩, ⟨2⟩], 2⟩⟩

/-- The test, where the input for pairs that do not match is bound as given. -/
def comparisonTest (slot : Option Binding) : Entry (Catalog Float) Float :=
  { Entry.ofModule (.matching .select) with
    bindings := [slot, none, none, some ⟨⟨1⟩, 0⟩, some ⟨⟨0⟩, 0⟩, none, none, none, none, none, none,
      none] }

/-- The inputs of the test. -/
def comparisonInputs (edits : List (Edit (Catalog Float) Float)) (slot : Option Binding) :
    Inputs Float :=
  (frozenComparison edits).graph.pull (frozenComparison edits).answers (comparisonTest slot)

/-- The first number is changed and bound to the input for pairs that match, the second number is
made the second color, and the second comparison is given up. -/
def unnoticed : List (Edit (Catalog Float) Float) :=
  [.setParameter ⟨0⟩ "value" (.number 5.0), .bind ⟨2⟩ 1 ⟨⟨0⟩, 0⟩, .bind ⟨2⟩ 7 ⟨⟨1⟩, 0⟩,
    .unbind ⟨2⟩ 4]

theorem not_matches_comparison :
    ¬ (Pair.scalar 0).Matches (comparisonInputs comparison none) atOrigin :=
  mt Pair.isEqual_iff.mpr (by decide +kernel)

/-- Only the second comparison rests on the first number. -/
theorem not_upstream_comparison {input : Nat} {b : Binding} (hinput : input ≠ 4)
    (hb : (frozenComparison comparison).graph.binding? ⟨2⟩ input = some b) :
    ¬ (frozenComparison comparison).graph.Upstream b.source ⟨0⟩ := by
  have hread : ∀ input < 12, input ≠ 4 → ∀ b ∈ (comparisonTest none).binding? input,
      b.source = ⟨1⟩ := by
    decide
  rw [hread input (Entry.lt_length_of_binding? hb) hinput b hb]
  intro hup
  -- The second number reads nothing.
  rcases hup.cases_head with heq | ⟨source, ⟨slot, read, hbinding, -⟩, -⟩
  · cases heq
  · cases hbinding

theorem spares_unnoticed : ∀ change ∈ unnoticed,
    change.Spares (frozenComparison comparison).graph ⟨2⟩
      (Disregarded (comparisonInputs comparison none) atOrigin) := by
  have hbound : (comparisonInputs comparison none).isBound (Pair.scalar 0).first = true := rfl
  have hlater : Disregarded (comparisonInputs comparison none) atOrigin (Pair.scalar 1).first :=
    .laterFirst hbound not_matches_comparison (by decide)
  have hcolor : Disregarded (comparisonInputs comparison none) atOrigin Pair.color.second :=
    .second rfl
  have htrue : Disregarded (comparisonInputs comparison none) atOrigin trueInput :=
    .trueInput fun h => not_matches_comparison (h.2 _ hbound)
  simp only [unnoticed, List.forall_mem_cons]
  refine ⟨.elsewhere ?_ ?_, .bind htrue _, .bind hcolor _, .unbind hlater, fun _ h => nomatch h⟩
  · rintro _ ⟨⟩
    decide
  · rintro _ ⟨⟩ input b hinput hb
    refine not_upstream_comparison ?_ hb
    rintro rfl
    exact hinput hlater

theorem equality_decides_comparison :
    ∃ f', (Graph.ofEdits "comparison" (comparison ++ unnoticed)).freeze = .ok f' ∧
      ((frozenComparison comparison).answers (comparisonTest none)).value 0 atOrigin
        = (comparisonInputs comparison none).value falseInput atOrigin ∧
      ∀ evaluation, f'.evaluate evaluation ⟨⟨2⟩, 0⟩ atOrigin
        = (frozenComparison comparison).evaluate evaluation ⟨⟨2⟩, 0⟩ atOrigin := by
  have hfreeze : (Graph.ofEdits "comparison" comparison).freeze
      = .ok (frozenComparison comparison) :=
    Graph.freeze_eq_ok (by decide +kernel)
  have hfreeze' : (Graph.ofEdits "comparison" (comparison ++ unnoticed)).freeze
      = .ok (frozenComparison (comparison ++ unnoticed)) :=
    Graph.freeze_eq_ok (by decide +kernel)
  have hentry : (frozenComparison comparison).graph.entry? ⟨2⟩ = some (comparisonTest none) := rfl
  have hmismatch : ¬ AllMatch (comparisonInputs comparison none) atOrigin := fun h =>
    not_matches_comparison (h.2 _ rfl)
  obtain ⟨-, hfalse, -, hunchanged⟩ := equality_decides hfreeze hentry rfl 0 atOrigin
  exact ⟨_, hfreeze', (hfalse hmismatch).1, hunchanged _ _ hfreeze' spares_unnoticed⟩

/-- The first number is also what the test passes on when the pairs do not match. -/
def sharedComparison : List (Edit (Catalog Float) Float) :=
  comparison ++ [.bind ⟨2⟩ 0 ⟨⟨0⟩, 0⟩]

/-- And then it is changed. -/
def changedComparison : List (Edit (Catalog Float) Float) :=
  sharedComparison ++ [.setParameter ⟨0⟩ "value" (.number 5.0)]

theorem evaluate_comparison {edits : List (Edit (Catalog Float) Float)} {slot : Option Binding}
    (he : (frozenComparison edits).graph.entry? ⟨2⟩ = some (comparisonTest slot)) :
    (frozenComparison edits).evaluate .scalar ⟨⟨2⟩, 0⟩ atOrigin
      = .ok (((frozenComparison edits).answers (comparisonTest slot)).value 0 atOrigin) := by
  have htarget : (frozenComparison edits).target ⟨⟨2⟩, 0⟩ (0.0 : Float)
      = .ok (comparisonTest slot, .boolean) :=
    target_unblurred he rfl
  rw [evaluate, evaluateScalar, atOrigin, htarget]
  rfl

/-- **A source that is shared is noticed**: the first comparison finds a mismatch, and the source of
the second one is changed; but the input that is passed on has the same source. -/
theorem equality_sharedSource :
    (Graph.ofEdits "comparison" sharedComparison).freeze
        = .ok (frozenComparison sharedComparison) ∧
      (Graph.ofEdits "comparison" changedComparison).freeze
        = .ok (frozenComparison changedComparison) ∧
      (frozenComparison sharedComparison).graph.entry? ⟨2⟩
        = some (comparisonTest (some ⟨⟨0⟩, 0⟩)) ∧
      (comparisonTest (some ⟨⟨0⟩, 0⟩)).binding? (Pair.scalar 1).first = some ⟨⟨0⟩, 0⟩ ∧
      (comparisonInputs sharedComparison (some ⟨⟨0⟩, 0⟩)).isBound (Pair.scalar 0).first = true ∧
      ¬ (Pair.scalar 0).Matches (comparisonInputs sharedComparison (some ⟨⟨0⟩, 0⟩)) atOrigin ∧
      (frozenComparison sharedComparison).evaluate .scalar ⟨⟨2⟩, 0⟩ atOrigin = .ok 2.0 ∧
      (frozenComparison changedComparison).evaluate .scalar ⟨⟨2⟩, 0⟩ atOrigin = .ok 5.0 := by
  have hentry : (frozenComparison sharedComparison).graph.entry? ⟨2⟩
      = some (comparisonTest (some ⟨⟨0⟩, 0⟩)) := rfl
  have hentry' : (frozenComparison changedComparison).graph.entry? ⟨2⟩
      = some (comparisonTest (some ⟨⟨0⟩, 0⟩)) := rfl
  have hvalue : ((frozenComparison sharedComparison).answers
      (comparisonTest (some ⟨⟨0⟩, 0⟩))).value 0 atOrigin = 2.0 := by
    decide +kernel
  have hvalue' : ((frozenComparison changedComparison).answers
      (comparisonTest (some ⟨⟨0⟩, 0⟩))).value 0 atOrigin = 5.0 := by
    decide +kernel
  refine ⟨Graph.freeze_eq_ok (by decide +kernel), Graph.freeze_eq_ok (by decide +kernel), hentry,
    rfl, rfl, mt Pair.isEqual_iff.mpr (by decide +kernel), ?_, ?_⟩
  · rw [evaluate_comparison hentry, hvalue]
  · rw [evaluate_comparison hentry', hvalue']

end FrozenGraph

end TextureGraph
