import TextureGraph.Proofs.Graph.Interposition

/-!
# Changes to inputs that are disregarded

A module may find its result without a look at all of its inputs.
`FrozenGraph.evaluation_of_spares`: changes make no difference to an evaluation of the module when
they spare what it does look at (`Edit.Spares`).  They rebind the inputs that are disregarded, or are
made to modules that none of the other inputs rests on.

* `Graph.Consistent.sameButFor_edit`, `Graph.Consistent.sameButFor_edits`: such changes leave the
  module as it is, with the bindings of the other inputs and all that lies upstream of them.
* `FrozenGraph.result_of_sameButFor`: then the questions that are asked have the same answers.
-/

namespace TextureGraph

variable {M α : Type}

/-- A change that makes no difference to the inputs of a module but those that are disregarded. -/
inductive Edit.Spares (g : Graph M α) (target : ModuleId) (disregarded : Nat → Prop) :
    Edit M α → Prop where
  /-- An input that is disregarded is bound. -/
  | bind {input : Nat} (h : disregarded input) (b : Binding) :
      Spares g target disregarded (.bind target input b)
  /-- The binding of an input that is disregarded is taken away. -/
  | unbind {input : Nat} (h : disregarded input) : Spares g target disregarded (.unbind target input)
  /-- Another module is changed, which does not lie upstream of any of the other inputs. -/
  | elsewhere {change : Edit M α} (hother : ∀ other, change.subject? = some other → other ≠ target)
      (hfar : ∀ other, change.subject? = some other → ∀ input b, ¬ disregarded input →
        g.binding? target input = some b → ¬ g.Upstream b.source other) :
      Spares g target disregarded change

/-! ### Modules after a change -/

/-- The same module with the same sockets, and the same bindings but for those of some inputs. -/
structure Entry.SameButFor (e : Entry M α) (inputs : Nat → Prop) (e' : Entry M α) : Prop where
  /-- The module is the same. -/
  module : e'.module = e.module
  /-- The sockets are the same. -/
  signature : e'.signature = e.signature
  /-- The bindings of the other inputs are the same. -/
  bindings : ∀ input, ¬ inputs input → e'.binding? input = e.binding? input

namespace Entry

variable {e e' e'' : Entry M α} {inputs : Nat → Prop}

theorem SameButFor.refl (e : Entry M α) (inputs : Nat → Prop) : e.SameButFor inputs e :=
  ⟨rfl, rfl, fun _ _ => rfl⟩

theorem SameButFor.trans (h : e.SameButFor inputs e') (h' : e'.SameButFor inputs e'') :
    e.SameButFor inputs e'' where
  module := h'.module.trans h.module
  signature := h'.signature.trans h.signature
  bindings input hinput := (h'.bindings input hinput).trans (h.bindings input hinput)

/-- When bindings are dropped, those that pass the test are the same. -/
theorem sameButFor_of_filter {keep : Nat → Binding → Bool} (hmodule : e'.module = e.module)
    (hsignature : e'.signature = e.signature)
    (hfilter : ∀ input, e'.binding? input = (e.binding? input).filter (keep input))
    (hkeep : ∀ input b, e.binding? input = some b → ¬ inputs input → keep input b = true) :
    e.SameButFor inputs e' := by
  refine ⟨hmodule, hsignature, fun input hinput => (hfilter input).trans ?_⟩
  cases hb : e.binding? input with
  | none => rfl
  | some b => rw [Option.filter_some, if_pos (hkeep input b hb hinput)]

end Entry

namespace Graph

variable {g g' g'' : Graph M α} {target : ModuleId} {disregarded : Nat → Prop} {e : Entry M α}

/-- A change to another module leaves a module as it is, but for bindings that read the module that is
changed. -/
theorem Consistent.entry?_edit [Arith α] [TextureModule M α] (hg : g.Consistent)
    (he : g.entry? target = some e) {change : Edit M α}
    (hother : ∀ other, change.subject? = some other → other ≠ target) :
    ∃ e', entry? (g.edit change) target = some e' ∧ e.SameButFor
      (fun input => ∃ b, e.binding? input = some b ∧ change.subject? = some b.source) e' := by
  cases change with
  | add m => exact ⟨e, lookup_snoc_eq_some_iff.mpr (.inl he), .refl e _⟩
  | remove other =>
    simp only [Graph.edit, remove_eq]
    cases g.entry? other with
    | none => exact ⟨e, he, .refl e _⟩
    | some _ =>
      have hrest : entry? ({ g with entries := g.entries.filter (·.1 != other) } : Graph M α) target
          = some e := (lookup_filter_entries g.entries).mpr ⟨(hother other rfl).symm, he⟩
      refine ⟨{ e with bindings := e.bindings.map fun slot => slot.filter (·.source != other) }, ?_,
        Entry.sameButFor_of_filter rfl rfl (e.binding?_map_filter _) fun input b hb hinput => ?_⟩
      · show entry? (g.without other) target = _
        rw [Graph.without, entry?_mapBindings, hrest, Option.map_some]
      · refine bne_iff_ne.mpr fun hsource => hinput ⟨b, hb, ?_⟩
        rw [hsource]
        rfl
  | setParameter other name v =>
    have hne := (hother other rfl).symm
    simp only [Graph.edit]
    split
    · rename_i changed h
      obtain ⟨old, m, -, -, rfl⟩ := setParameter_ok h
      unfold refreshed
      split
      · exact ⟨e, (entry?_replaceEntry_of_ne g hne _).trans he, .refl e _⟩
      · let replaced : Graph M α := g.replaceEntry other (old.reshape m)
        let kept := e.bindings.mapIdx fun i slot => slot.filter (replaced.fits e i)
        refine ⟨{ e with bindings := kept }, ?_, Entry.sameButFor_of_filter rfl rfl
          (e.binding?_mapIdx_filter _) fun input b hb hinput => fits_iff.mpr ?_⟩
        · rw [dropStale, entry?_mapBindings, entry?_replaceEntry_of_ne g hne, he, Option.map_some]
        · -- The module that is read has the sockets that it had, so the binding goes on to fit.
          have hsource : b.source ≠ other := fun heq => hinput ⟨b, hb, congrArg some heq.symm⟩
          refine (hg.bindings target e he input b hb).mono rfl fun s hs => ?_
          rwa [signature?, entry?_replaceEntry_of_ne g hsource]
    · exact ⟨e, he, .refl e _⟩
  | bind other input b =>
    simp only [Graph.edit]
    split
    · rename_i changed h
      obtain ⟨_, -, -, -, rfl⟩ := bind_ok h
      exact ⟨e, (entry?_replaceEntry_of_ne g (hother other rfl).symm _).trans he, .refl e _⟩
    · exact ⟨e, he, .refl e _⟩
  | unbind other input =>
    simp only [Graph.edit]
    split
    · rename_i previous changed h
      obtain ⟨_, -, -, -, rfl⟩ := unbind_ok h
      exact ⟨e, (entry?_replaceEntry_of_ne g (hother other rfl).symm _).trans he, .refl e _⟩
    · exact ⟨e, he, .refl e _⟩

/-! ### Inputs that are kept -/

/-- A module of the graph finds the same in another graph, but for the inputs that are disregarded:
it is there with the same bindings of the other inputs, and upstream of these all is the same. -/
structure SameButFor (g : Graph M α) (disregarded : Nat → Prop) (g' : Graph M α)
    (target : ModuleId) : Prop where
  /-- The module is there, with the same bindings of the other inputs. -/
  entry : ∀ e, g.entry? target = some e →
    ∃ e', g'.entry? target = some e' ∧ e.SameButFor disregarded e'
  /-- What lies upstream of them is the same. -/
  sources : ∀ input b, ¬ disregarded input → g.binding? target input = some b →
    g.SameUpstream id g' b.source

namespace SameButFor

theorem refl (g : Graph M α) (disregarded : Nat → Prop) (target : ModuleId) :
    g.SameButFor disregarded g target :=
  ⟨fun e he => ⟨e, he, .refl e disregarded⟩, fun _ b _ _ => .refl g b.source⟩

theorem binding?_eq (h : g.SameButFor disregarded g' target) (he : g.entry? target = some e)
    {input : Nat} (hinput : ¬ disregarded input) :
    g'.binding? target input = g.binding? target input := by
  obtain ⟨e', he', hsame⟩ := h.entry e he
  rw [Graph.binding?_eq he', Graph.binding?_eq he, hsame.bindings input hinput]

theorem trans (he : g.entry? target = some e) (h : g.SameButFor disregarded g' target)
    (h' : g'.SameButFor disregarded g'' target) : g.SameButFor disregarded g'' target where
  entry e he := by
    obtain ⟨e', he', hsame⟩ := h.entry e he
    obtain ⟨e'', he'', hsame'⟩ := h'.entry e' he'
    exact ⟨e'', he'', hsame.trans hsame'⟩
  sources input b hinput hb :=
    (h.sources input b hinput hb).trans
      (h'.sources input b hinput ((h.binding?_eq he hinput).trans hb))

end SameButFor

/-- A slot that is disregarded may be changed, where none of the other inputs rests on the module
itself. -/
theorem sameButFor_setSlot (he : g.entry? target = some e)
    (hback : ∀ input b, ¬ disregarded input → g.binding? target input = some b →
      ¬ g.Upstream b.source target) {input : Nat} (h : disregarded input) (slot : Option Binding) :
    g.SameButFor disregarded
      (g.replaceEntry target { e with bindings := e.bindings.set input slot }) target where
  entry e₀ he₀ := by
    obtain rfl : e = e₀ := Option.some.inj (he.symm.trans he₀)
    refine ⟨_, entry?_replaceEntry_self he _, ⟨rfl, rfl, fun i hi => ?_⟩⟩
    have hne : input ≠ i := by
      rintro rfl
      exact hi h
    rw [Entry.binding?_set, if_neg fun hand => hne hand.1]
  sources i b hi hb := sameUpstream_replaceEntry (hback i b hi hb) _

section Changes

variable [Arith α] [TextureModule M α]

/-- **Step**: a change that spares the other inputs leaves them as they are. -/
theorem Consistent.sameButFor_edit (hg : g.Consistent) (he : g.entry? target = some e)
    (hback : ∀ input b, ¬ disregarded input → g.binding? target input = some b →
      ¬ g.Upstream b.source target) {change : Edit M α}
    (h : change.Spares g target disregarded) :
    g.SameButFor disregarded (g.edit change) target := by
  cases h with
  | bind h b =>
    simp only [Graph.edit]
    split
    · rename_i changed hbind
      obtain ⟨e', he', -, -, rfl⟩ := bind_ok hbind
      exact sameButFor_setSlot he' hback h _
    · exact .refl g disregarded target
  | unbind h =>
    simp only [Graph.edit]
    split
    · rename_i previous changed hunbind
      obtain ⟨e', he', -, -, rfl⟩ := unbind_ok hunbind
      exact sameButFor_setSlot he' hback h _
    · exact .refl g disregarded target
  | elsewhere hother hfar =>
    refine ⟨fun e₀ he₀ => ?_, fun input b hinput hb => ?_⟩
    · obtain ⟨e', he', hsame⟩ := hg.entry?_edit he₀ hother
      refine ⟨e', he', hsame.module, hsame.signature, fun input hinput => hsame.bindings input ?_⟩
      rintro ⟨b, hb, hsource⟩
      exact hfar b.source hsource input b hinput ((binding?_eq he₀ input).trans hb) .refl
    · obtain ⟨source, hsource, -⟩ := hg.exists_read he ((binding?_eq he input).symm.trans hb)
      exact hg.sameUpstream_edit hsource fun other hsubject => hfar other hsubject input b hinput hb

omit [Arith α] [TextureModule M α] in
/-- What a change spares it spares after other changes that leave the other inputs as they are. -/
theorem SameButFor.spares (h : g.SameButFor disregarded g' target) (he : g.entry? target = some e)
    {change : Edit M α} (hchange : change.Spares g target disregarded) :
    change.Spares g' target disregarded := by
  cases hchange with
  | bind h b => exact .bind h b
  | unbind h => exact .unbind h
  | elsewhere hother hfar =>
    refine .elsewhere hother fun other hsubject input b hinput hb => ?_
    have hb' : g.binding? target input = some b := (h.binding?_eq he hinput).symm.trans hb
    rw [(h.sources input b hinput hb').upstream_iff]
    exact hfar other hsubject input b hinput hb'

/-- **Run**: changes that spare the other inputs leave them as they are. -/
theorem Consistent.sameButFor_edits (hg : g.Consistent) (he : g.entry? target = some e)
    (hback : ∀ input b, ¬ disregarded input → g.binding? target input = some b →
      ¬ g.Upstream b.source target) (changes : List (Edit M α))
    (h : ∀ change ∈ changes, change.Spares g target disregarded) :
    g.SameButFor disregarded (changes.foldl Graph.edit g) target := by
  induction changes generalizing g e with
  | nil => exact .refl g disregarded target
  | cons change rest ih =>
    have hstep : g.SameButFor disregarded (g.edit change) target :=
      hg.sameButFor_edit he hback (h change List.mem_cons_self)
    obtain ⟨e', he', -⟩ := hstep.entry e he
    refine hstep.trans he (ih (hg.edit change) he' (fun input b hinput hb => ?_)
      fun later hlater => ?_)
    · have hb' : g.binding? target input = some b := (hstep.binding?_eq he hinput).symm.trans hb
      rw [(hstep.sources input b hinput hb').upstream_iff]
      exact hback input b hinput hb'
    · exact hstep.spares he (h later (List.mem_cons_of_mem change hlater))

end Changes

/-- An input finds the same where it reads the same output of a module that answers the same. -/
theorem answer_pull_congr [Arith α] {e' : Entry M α} {answers answers' : Entry M α → Answers α}
    {question : Question α} (hsource : g'.source? e' question.input = g.source? e question.input)
    (hsignature : e'.signature = e.signature)
    (hanswers : ∀ source output, g.source? e question.input = some (source, output) →
      answers' source = answers source) :
    (g'.pull answers' e').answer question = (g.pull answers e).answer question := by
  cases hs : g.source? e question.input with
  | none => exact answer_pull_of_unbound hs (hsource.trans hs) hsignature
  | some s =>
    have hs' := hsource.trans hs
    have hanswer := hanswers s.1 s.2 hs
    cases question <;> simp only [Question.input] at hs hs' <;>
      simp only [Inputs.answer, pull, hs, hs', hanswer]

end Graph

/-! ### Evaluations -/

namespace FrozenGraph

variable [Arith α] [TextureModule M α] {f f' : FrozenGraph M α} {g g' : Graph M α}
  {target : ModuleId} {disregarded : Nat → Prop} {e e' : Entry M α}

omit [TextureModule M α] in
/-- A module with the same sockets is asked, or a request to it refused, as before. -/
theorem target_congr (he : f.graph.entry? target = some e) (he' : f'.graph.entry? target = some e')
    (hsignature : e'.signature = e.signature) (output : Nat) (blur : α) :
    f'.target ⟨target, output⟩ blur
      = (f.target ⟨target, output⟩ blur).map fun r => (e', r.2) := by
  unfold FrozenGraph.target
  split
  · rfl
  simp only [he, he', hsignature]
  cases e.signature.outputKind? output <;> rfl

/-- An input that is not disregarded finds the same. -/
theorem answer_pull_of_sameButFor (hg : f.graph.Consistent) (h : f.graph.freeze = .ok f)
    (h' : f'.graph.freeze = .ok f') (hsame : f.graph.SameButFor disregarded f'.graph target)
    (he : f.graph.entry? target = some e) (hentry : e.SameButFor disregarded e')
    {question : Question α} (hinput : ¬ disregarded question.input) :
    (f'.graph.pull f'.answers e').answer question = (f.graph.pull f.answers e).answer question := by
  have hbinding : e'.binding? question.input = e.binding? question.input :=
    hentry.bindings question.input hinput
  cases hb : e.binding? question.input with
  | none =>
    have hs : f.graph.source? e question.input = none := by
      rw [Graph.source?, hb]
      rfl
    refine Graph.answer_pull_of_unbound hs ?_ hentry.signature
    rw [Graph.source?, hbinding, hb]
    rfl
  | some b =>
    have hupstream : f.graph.SameUpstream id f'.graph b.source :=
      hsame.sources question.input b hinput ((Graph.binding?_eq he _).trans hb)
    obtain ⟨source, hsource, hs⟩ := hg.exists_read he hb
    have hsource' : f'.graph.entry? b.source = some source :=
      (Graph.sameUpstream_id_iff.mp hupstream b.source .refl).trans hsource
    have hs' : f'.graph.source? e' question.input = some (source, b.output) :=
      Graph.source?_eq_some_iff.mpr ⟨b, hbinding.trans hb, hsource', rfl⟩
    refine Graph.answer_pull_congr (hs'.trans hs.symm) hentry.signature fun read output hread => ?_
    obtain ⟨rfl, -⟩ := Prod.mk.inj (Option.some.inj (hread.symm.trans hs))
    have hanswers := answers_rename h h' hupstream hsource
    rwa [Entry.rename_id] at hanswers

variable [Inquiring M α]

/-- A module gives the same result where it finds the same but for inputs that it does not ask
about. -/
theorem result_of_sameButFor (hg : f.graph.Consistent) (h : f.graph.freeze = .ok f)
    (h' : f'.graph.freeze = .ok f') (hsame : f.graph.SameButFor disregarded f'.graph target)
    (he : f.graph.entry? target = some e) (he' : f'.graph.entry? target = some e')
    {operation : Operation} {output : Nat} {q : Query α}
    (hasked : ∀ question ∈ f.questions ⟨e, operation, output, q⟩, ¬ disregarded question.input) :
    (f'.answers e').result operation output q = (f.answers e).result operation output q := by
  obtain ⟨e₀, he₀, hentry⟩ := hsame.entry e he
  obtain rfl : e' = e₀ := Option.some.inj (he'.symm.trans he₀)
  rw [answers_eq h' he', answers_eq h he, hentry.module, ← Inquiring.run_inquiry,
    ← Inquiring.run_inquiry]
  refine Inquiry.run_congr fun question hquestion => ?_
  have hinput : ¬ disregarded question.input := hasked question hquestion
  exact answer_pull_of_sameButFor hg h h' hsame he hentry hinput

/-- **Changes to inputs that are disregarded make no difference**: whatever changes have led to a
graph without cycles, take an evaluation of a module in which some inputs are not asked about.  After
further changes that spare the other inputs, and that lead to a graph without cycles again, it yields
what it has yielded. -/
theorem evaluation_of_spares {name : String} {edits changes : List (Edit M α)}
    (h : (Graph.ofEdits name edits).freeze = .ok f)
    (h' : (Graph.ofEdits name (edits ++ changes)).freeze = .ok f')
    (he : f.graph.entry? target = some e) {output : Nat} {q : Query α}
    (hasked : ∀ operation, ∀ question ∈ f.questions ⟨e, operation, output, q⟩,
      ¬ disregarded question.input)
    (hspares : ∀ change ∈ changes, change.Spares f.graph target disregarded)
    (evaluation : Evaluation) :
    f'.evaluate evaluation ⟨target, output⟩ q = f.evaluate evaluation ⟨target, output⟩ q := by
  obtain ⟨hgraph, hschedule⟩ := Graph.freeze_ok h
  obtain ⟨hg, hfreeze⟩ := consistent_of_freeze h
  obtain ⟨-, hfreeze'⟩ := consistent_of_freeze h'
  have hrun : f'.graph = changes.foldl Graph.edit f.graph := by
    rw [(Graph.freeze_ok h').1, hgraph, Graph.ofEdits, Graph.ofEdits, List.foldl_append]
  have hacyclic : f.graph.Acyclic := by
    rw [hgraph]
    exact Graph.acyclic_of_schedule_ok hschedule
  have hsame : f.graph.SameButFor disregarded f'.graph target := by
    rw [hrun]
    refine hg.sameButFor_edits he (fun input b _ hb hback => ?_) changes hspares
    -- A module that one of its own inputs rests on would be part of a cycle.
    exact hacyclic target (.head' ⟨input, b, hb, rfl⟩ hback)
  obtain ⟨e', he', hentry⟩ := hsame.entry e he
  have htarget : ∀ blur, f'.target ⟨target, output⟩ blur
      = (f.target ⟨target, output⟩ blur).map fun r => (e', r.2) :=
    target_congr he he' hentry.signature output
  cases hf : f.target ⟨target, output⟩ q.blur with
  | error reason =>
    refine evaluate_congr_of_error hf ?_ evaluation
    rw [htarget, hf]
    rfl
  | ok r =>
    obtain ⟨e₀, kind⟩ := r
    obtain rfl : e = e₀ := Option.some.inj (he.symm.trans (target_ok hf).1)
    have htarget' : f'.target ⟨target, output⟩ q.blur = .ok (e', kind) := by
      rw [htarget, hf]
      rfl
    refine evaluate_congr hf htarget' (fun operation _ => ?_) evaluation
    exact result_of_sameButFor hg hfreeze hfreeze' hsame he he' (hasked operation)

end FrozenGraph

end TextureGraph
