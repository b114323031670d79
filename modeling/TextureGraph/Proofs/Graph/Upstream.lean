import TextureGraph.Proofs.Graph.KindSafety

/-!
# Evaluations rest on what lies upstream

The modules that a module reads, those that they read, and so on, lie *upstream* of it
(`Graph.Upstream`).

* `FrozenGraph.answers_rename`: the answers of a module are the same in two graphs whose parts
  upstream of it are the same up to the names of the modules (`Graph.SameUpstream`).
* `Graph.Consistent.sameUpstream_edits`: changes to modules that are not upstream of a module leave
  the part upstream of it as it is.
* `FrozenGraph.evaluation_noninterference` assembles both for the four evaluations.

The sockets that a graph goes by belong to the part upstream.  They are not determined by the
modules alone: `FrozenGraph.evaluation_by_fallback` shows two channels with the same parameters and
the same bindings of which one yields zero and the other one negative zero.
-/

namespace TextureGraph

variable {M α : Type}

/-! ### Other names for modules -/

/-- The binding in a graph whose modules go by other names. -/
def Binding.rename (ρ : ModuleId → ModuleId) (b : Binding) : Binding :=
  { b with source := ρ b.source }

/-- The module in a graph whose modules go by other names. -/
def Entry.rename (ρ : ModuleId → ModuleId) (e : Entry M α) : Entry M α :=
  { e with bindings := e.bindings.map (Option.map (Binding.rename ρ)) }

/-- The error in a graph whose modules go by other names. -/
def EvaluationError.rename (ρ : ModuleId → ModuleId) : EvaluationError α → EvaluationError α
  | .moduleNotFound module => .moduleNotFound (ρ module)
  | .outputOutOfRange module output count => .outputOutOfRange (ρ module) output count
  | .notScalar module output => .notScalar (ρ module) output
  | .invalidBlur blur => .invalidBlur blur

@[simp]
theorem Entry.module_rename (ρ : ModuleId → ModuleId) (e : Entry M α) :
    (e.rename ρ).module = e.module :=
  rfl

@[simp]
theorem Entry.signature_rename (ρ : ModuleId → ModuleId) (e : Entry M α) :
    (e.rename ρ).signature = e.signature :=
  rfl

theorem Entry.binding?_rename (ρ : ModuleId → ModuleId) (e : Entry M α) (input : Nat) :
    (e.rename ρ).binding? input = (e.binding? input).map (Binding.rename ρ) := by
  unfold Entry.binding? Entry.rename
  rw [List.getElem?_map]
  cases e.bindings[input]? with
  | none => rfl
  | some slot => cases slot <;> rfl

theorem Entry.rename_id : (Entry.rename id : Entry M α → Entry M α) = id := by
  funext e
  have hslot : Option.map (Binding.rename id) = id := Option.map_id
  rw [Entry.rename, hslot, List.map_id]
  rfl

theorem EvaluationError.rename_id :
    (EvaluationError.rename id : EvaluationError α → EvaluationError α) = id := by
  funext e
  cases e <;> rfl

namespace Graph

variable {g g' : Graph M α} {ρ : ModuleId → ModuleId} {target : ModuleId}

/-! ### Upstream -/

/-- A module lies upstream of another one when it is this one, or is read by a module upstream of
it. -/
def Upstream (g : Graph M α) : ModuleId → ModuleId → Prop :=
  Relation.ReflTransGen g.Reads

/-- The part of `g` upstream of a module is a part of `g'`, in which its modules go by the names
that `ρ` gives them: it has the same modules with the same sockets, and the same bindings between
them. -/
def SameUpstream (g : Graph M α) (ρ : ModuleId → ModuleId) (g' : Graph M α) (target : ModuleId) :
    Prop :=
  ∀ id, g.Upstream target id → g'.entry? (ρ id) = (g.entry? id).map (Entry.rename ρ)

/-- All modules of the other graph are there, with the same sockets and bindings. -/
def Extends (g' g : Graph M α) : Prop :=
  ∀ id e, g.entry? id = some e → g'.entry? id = some e

theorem reads_of_binding? {id : ModuleId} {e : Entry M α} {input : Nat} {b : Binding}
    (he : g.entry? id = some e) (hb : e.binding? input = some b) : g.Reads id b.source :=
  ⟨input, b, (binding?_eq he input).trans hb, rfl⟩

/-- What lies upstream of a source lies upstream of its readers. -/
theorem SameUpstream.of_reads (h : g.SameUpstream ρ g' target) {source : ModuleId}
    (hread : g.Reads target source) : g.SameUpstream ρ g' source :=
  fun id hid => h id (hid.head hread)

theorem SameUpstream.entry? (h : g.SameUpstream ρ g' target) :
    g'.entry? (ρ target) = (g.entry? target).map (Entry.rename ρ) :=
  h target .refl

/-- An input reads the same module by either name. -/
theorem SameUpstream.source?_rename (h : g.SameUpstream ρ g' target) {e : Entry M α}
    (he : g.entry? target = some e) (input : Nat) :
    g'.source? (e.rename ρ) input
      = (g.source? e input).map fun (source, output) => (source.rename ρ, output) := by
  unfold source?
  rw [Entry.binding?_rename]
  cases hb : e.binding? input with
  | none => rfl
  | some b =>
    have hsource : g'.entry? (ρ b.source) = (g.entry? b.source).map (Entry.rename ρ) :=
      h b.source (.single (reads_of_binding? he hb))
    simp only [Option.map_some, Option.bind_eq_bind, Option.bind_some, Binding.rename, hsource]
    cases g.entry? b.source <;> rfl

/-- A module finds its inputs the same by either names, where the modules that it reads answer the
same. -/
theorem SameUpstream.pull_rename [Arith α] (h : g.SameUpstream ρ g' target) {e : Entry M α}
    (he : g.entry? target = some e) {answers answers' : Entry M α → Answers α}
    (hanswers : ∀ input source output, g.source? e input = some (source, output) →
      answers' (source.rename ρ) = answers source) :
    g'.pull answers' (e.rename ρ) = g.pull answers e := by
  unfold pull
  simp only [h.source?_rename he]
  congr 1 <;> funext i
  · cases g.source? e i <;> rfl
  all_goals
    funext q
    cases hs : g.source? e i with
    | none => rfl
    | some s => simp only [Option.map_some, hanswers i s.1 s.2 hs, Entry.signature_rename]

/-! ### The same names -/

theorem sameUpstream_id_iff :
    g.SameUpstream id g' target ↔ ∀ id, g.Upstream target id → g'.entry? id = g.entry? id := by
  simp only [SameUpstream, Entry.rename_id, Option.map_id, id_eq]

/-- The modules upstream read the same modules in both graphs. -/
theorem SameUpstream.reads_iff (h : g.SameUpstream id g' target) {reader source : ModuleId}
    (hreader : g.Upstream target reader) : g'.Reads reader source ↔ g.Reads reader source := by
  have hentry : g'.entry? reader = g.entry? reader := sameUpstream_id_iff.mp h reader hreader
  unfold Reads binding?
  rw [hentry]

theorem SameUpstream.upstream_iff (h : g.SameUpstream id g' target) {source : ModuleId} :
    g'.Upstream target source ↔ g.Upstream target source := by
  constructor
  · intro hsource
    induction hsource with
    | refl => exact .refl
    | tail _ hread ih => exact ih.tail ((h.reads_iff ih).mp hread)
  · intro hsource
    induction hsource with
    | refl => exact .refl
    | tail hreader hread ih => exact ih.tail ((h.reads_iff hreader).mpr hread)

theorem SameUpstream.refl (g : Graph M α) (target : ModuleId) : g.SameUpstream id g target :=
  sameUpstream_id_iff.mpr fun _ _ => rfl

theorem SameUpstream.trans {g'' : Graph M α} (h : g.SameUpstream id g' target)
    (h' : g'.SameUpstream id g'' target) : g.SameUpstream id g'' target := by
  rw [sameUpstream_id_iff] at h' ⊢
  intro source hsource
  rw [h' source (h.upstream_iff.mpr hsource), sameUpstream_id_iff.mp h source hsource]

/-! ### Changes elsewhere -/

end Graph

/-- The module that a change is made to, if it was there before. -/
def Edit.subject? : Edit M α → Option ModuleId
  | .add _ => none
  | .remove id | .setParameter id .. | .bind id .. | .unbind id _ => some id

namespace Graph

variable {g : Graph M α} {target : ModuleId}

/-- A module that is replaced elsewhere is no part of what lies upstream. -/
theorem sameUpstream_replaceEntry {other : ModuleId} (hother : ¬ g.Upstream target other)
    (e : Entry M α) : g.SameUpstream id (g.replaceEntry other e) target := by
  rw [sameUpstream_id_iff]
  intro source hsource
  have hne : source ≠ other := by
    rintro rfl
    exact hother hsource
  exact entry?_replaceEntry_of_ne g hne e

/-- Modules whose bindings a change of all bindings leaves as they are stay the same. -/
theorem sameUpstream_mapBindings {f : Entry M α → List (Option Binding)}
    (hf : ∀ source, g.Upstream target source → ∀ e, g.entry? source = some e →
      f e = e.bindings) : g.SameUpstream id (g.mapBindings f) target := by
  rw [sameUpstream_id_iff]
  intro source hsource
  rw [entry?_mapBindings]
  cases he : g.entry? source with
  | none => rfl
  | some e => rw [Option.map_some, hf source hsource e he]

/-- A module that is taken out elsewhere was not read by any module upstream. -/
theorem sameUpstream_without {other : ModuleId} (hother : ¬ g.Upstream target other) :
    g.SameUpstream id (g.without other) target := by
  let rest : Graph M α := { g with entries := g.entries.filter (·.1 != other) }
  have hrest : g.SameUpstream id rest target := by
    rw [sameUpstream_id_iff]
    intro source hsource
    have hne : source ≠ other := by
      rintro rfl
      exact hother hsource
    exact Option.ext fun e => (lookup_filter_entries g.entries).trans (and_iff_right hne)
  refine hrest.trans (sameUpstream_mapBindings fun source hsource e he => ?_)
  refine (List.map_congr_left fun slot hslot => ?_).trans (List.map_id _)
  obtain ⟨input, hinput⟩ := List.mem_iff_getElem?.mp hslot
  cases slot with
  | none => rfl
  | some b =>
    have hread : rest.Reads source b.source :=
      reads_of_binding? he (Entry.binding?_eq_some_iff.mpr hinput)
    have hne : b.source ≠ other := by
      rintro rfl
      exact hother (hrest.upstream_iff.mp (hsource.tail hread))
    rw [Option.filter_some, if_pos (bne_iff_ne.mpr hne), id_eq]

section Changes

variable [TextureModule M α]

/-- All that lies upstream of a module of the graph is in the graph. -/
theorem Consistent.entry?_of_upstream (hg : g.Consistent) {e : Entry M α}
    (htarget : g.entry? target = some e) {source : ModuleId} (hsource : g.Upstream target source) :
    ∃ e, g.entry? source = some e := by
  induction hsource with
  | refl => exact ⟨e, htarget⟩
  | @tail reader source _ hread ih =>
    obtain ⟨e, he⟩ := ih
    obtain ⟨input, b, hb, rfl⟩ := hread
    rw [binding?_eq he] at hb
    obtain ⟨source, hsource, -⟩ := hg.exists_read he hb
    exact ⟨source, hsource⟩

/-- What lies upstream of a module stays as it is when the graph only gains modules. -/
theorem Consistent.sameUpstream_of_extends (hg : g.Consistent) {g' : Graph M α} {e : Entry M α}
    (htarget : g.entry? target = some e) (hext : g'.Extends g) : g.SameUpstream id g' target := by
  rw [sameUpstream_id_iff]
  intro source hsource
  obtain ⟨e, he⟩ := hg.entry?_of_upstream htarget hsource
  rw [he, hext source e he]

/-- When a module is replaced elsewhere, no binding upstream ceases to fit. -/
theorem Consistent.sameUpstream_dropStale (hg : g.Consistent) {other : ModuleId}
    (hother : ¬ g.Upstream target other) (e' : Entry M α) :
    g.SameUpstream id (g.replaceEntry other e').dropStale target := by
  have hreplace := sameUpstream_replaceEntry hother e'
  refine hreplace.trans (sameUpstream_mapBindings fun source hsource e he => ?_)
  have hup : g.Upstream target source := hreplace.upstream_iff.mp hsource
  have heg : g.entry? source = some e := (sameUpstream_id_iff.mp hreplace source hup).symm.trans he
  refine List.ext_getElem? fun input => ?_
  rw [List.getElem?_mapIdx]
  cases hslot : e.bindings[input]? with
  | none => rfl
  | some slot =>
    cases slot with
    | none => rfl
    | some b =>
      have hb : e.binding? input = some b := Entry.binding?_eq_some_iff.mpr hslot
      have hsignature : (g.replaceEntry other e').signature? b.source = g.signature? b.source := by
        rw [signature?, signature?, sameUpstream_id_iff.mp hreplace b.source
          (hup.tail (reads_of_binding? heg hb))]
      have hfits : (g.replaceEntry other e').Fits e input b :=
        (hg.bindings source e heg input b hb).mono rfl fun s hs => hsignature.trans hs
      rw [Option.map_some, Option.filter_some, if_pos (fits_iff.mpr hfits)]

variable [Arith α]

/-- **Step**: a change to a module that is not upstream leaves what lies upstream as it is. -/
theorem Consistent.sameUpstream_edit (hg : g.Consistent) {e : Entry M α}
    (htarget : g.entry? target = some e) {change : Edit M α}
    (hfar : ∀ other, change.subject? = some other → ¬ g.Upstream target other) :
    g.SameUpstream id (g.edit change) target := by
  cases change with
  | add m =>
    exact hg.sameUpstream_of_extends htarget fun _ _ h => lookup_snoc_eq_some_iff.mpr (.inl h)
  | remove other =>
    simp only [Graph.edit, remove_eq]
    cases g.entry? other with
    | none => exact .refl g target
    | some _ => exact sameUpstream_without (hfar other rfl)
  | setParameter other name v =>
    simp only [Graph.edit]
    split
    · rename_i changed h
      obtain ⟨e, m, -, -, rfl⟩ := setParameter_ok h
      unfold refreshed
      split
      · exact sameUpstream_replaceEntry (hfar other rfl) _
      · exact hg.sameUpstream_dropStale (hfar other rfl) _
    · exact .refl g target
  | bind other input b =>
    simp only [Graph.edit]
    split
    · rename_i changed h
      obtain ⟨e, -, -, -, rfl⟩ := bind_ok h
      exact sameUpstream_replaceEntry (hfar other rfl) _
    · exact .refl g target
  | unbind other input =>
    simp only [Graph.edit]
    split
    · rename_i previous changed h
      obtain ⟨e, -, -, -, rfl⟩ := unbind_ok h
      exact sameUpstream_replaceEntry (hfar other rfl) _
    · exact .refl g target

/-- **Run**: what lies upstream of a module stays as it is while changes are made elsewhere only. -/
theorem Consistent.sameUpstream_edits (hg : g.Consistent) {e : Entry M α}
    (htarget : g.entry? target = some e) (changes : List (Edit M α))
    (hfar : ∀ change ∈ changes, ∀ other, change.subject? = some other →
      ¬ g.Upstream target other) :
    g.SameUpstream id (changes.foldl Graph.edit g) target := by
  induction changes generalizing g with
  | nil => exact .refl g target
  | cons change rest ih =>
    have hstep : g.SameUpstream id (g.edit change) target :=
      hg.sameUpstream_edit htarget (hfar change List.mem_cons_self)
    have hentry : entry? (g.edit change) target = some e :=
      (sameUpstream_id_iff.mp hstep target .refl).trans htarget
    refine hstep.trans (ih (hg.edit change) hentry fun later hlater other hother => ?_)
    -- The change has not moved anything upstream, so the later changes are still elsewhere.
    rw [hstep.upstream_iff]
    exact hfar later (List.mem_cons_of_mem change hlater) other hother

end Changes

end Graph

/-! ### Evaluations -/

namespace FrozenGraph

variable [Arith α] {f f' : FrozenGraph M α} {g g' : Graph M α} {ρ : ModuleId → ModuleId}
  {id : ModuleId}

/-- An output is found, or refused, the same by either name. -/
theorem target_rename (hsame : f.graph.SameUpstream ρ f'.graph id) (output : Nat) (blur : α) :
    f'.target ⟨ρ id, output⟩ blur
      = ((f.target ⟨id, output⟩ blur).map fun (e, kind) => (e.rename ρ, kind)).mapError
          (EvaluationError.rename ρ) := by
  unfold target
  rw [hsame.entry?]
  split
  · rfl
  cases f.graph.entry? id with
  | none => rfl
  | some e =>
    simp only [Option.map_some, Entry.signature_rename]
    cases e.signature.outputKind? output <;> rfl

variable [TextureModule M α]

/-- What holds of all fallbacks, and passes from the inputs of every module upstream to its outputs,
holds of all outputs upstream.  Only inputs and outputs that carry numbers are looked at. -/
theorem answers_induction (hg : g.Consistent) (h : g.freeze = .ok f)
    {P : (Query α → α) → (Query α → α) → (Query α → Vec α) → Prop}
    (hfallback : ∀ b : Fallback α, P b.value b.error fun _ => b.gradient)
    (hmodule : ∀ i, f.graph.Upstream id i → ∀ s, f.graph.entry? i = some s →
      let inputs := f.graph.pull f.answers s
      (∀ j, (TextureModule.signature s.module : Signature α).inputKind? j ≠ some .color →
        P (inputs.value j) (inputs.error j) (inputs.gradient j)) →
      ∀ output kind, (TextureModule.signature s.module : Signature α).outputKind? output = some kind →
        kind ≠ .color →
        let answers := TextureModule.answers s.module inputs
        P (answers.value output) (answers.error output) (answers.gradient output))
    {e : Entry M α} (he : f.graph.entry? id = some e) {output : Nat} {kind : SocketKind}
    (houtput : e.signature.outputKind? output = some kind) (hkind : kind ≠ .color) :
    P ((f.answers e).value output) ((f.answers e).error output) ((f.answers e).gradient output) := by
  have hf : f.graph.Consistent := (Graph.freeze_ok h).1 ▸ hg
  -- The induction carries along that the modules are upstream of the first one.
  refine induction_reads h
    (P := fun i s => f.graph.Upstream id i → ∀ output kind,
      s.signature.outputKind? output = some kind → kind ≠ .color →
      P ((f.answers s).value output) ((f.answers s).error output) ((f.answers s).gradient output))
    (fun i s hs ih hupstream output kind houtput hkind => ?_) he .refl output kind houtput hkind
  have hcoherent : s.Coherent := hf.entries i s hs
  rw [answers_eq h hs]
  refine hmodule i hupstream s hs (fun j hj => ?_) output kind
    ((hcoherent.outputKind?_eq output).trans houtput) hkind
  unfold Graph.pull
  dsimp only
  cases hsource : f.graph.source? s j with
  | none => exact hfallback _
  | some found =>
    obtain ⟨source, sourceOutput⟩ := found
    obtain ⟨b, hb, hentry, -⟩ := Graph.source?_eq_some_iff.mp hsource
    obtain ⟨-, sourceKind, hsourceKind, inputKind, hinput, hfeeds⟩ := hf.exists_feeds hs hsource
    -- What feeds an input that carries numbers carries numbers, too.
    have hnumber : inputKind ≠ .color := by
      rintro rfl
      exact hj ((hcoherent.inputKind?_eq j).trans hinput)
    have hreads : f.graph.Reads i b.source := Graph.reads_of_binding? hs hb
    exact ih b.source source hreads hentry (hupstream.tail hreads) sourceOutput sourceKind
      hsourceKind (SocketKind.ne_color_of_feeds hfeeds hnumber)

/-- The answers of a module are the same by either name. -/
theorem answers_rename (h : g.freeze = .ok f) (h' : g'.freeze = .ok f')
    (hsame : g.SameUpstream ρ g' id) {e : Entry M α} (he : g.entry? id = some e) :
    f'.answers (e.rename ρ) = f.answers e := by
  obtain ⟨rfl, hschedule⟩ := Graph.freeze_ok h
  obtain ⟨rfl, -⟩ := Graph.freeze_ok h'
  obtain ⟨rank, hr⟩ := Graph.exists_ranking hschedule
  -- A module is asked after those that it reads, whose numbers are smaller.
  induction hn : rank id using Nat.strong_induction_on generalizing id e with
  | _ n ih =>
    have he' : f'.graph.entry? (ρ id) = some (e.rename ρ) := by
      rw [hsame.entry?, he, Option.map_some]
    rw [answers_eq h' he', answers_eq h he, Entry.module_rename, hsame.pull_rename he]
    intro input source output hsource
    obtain ⟨sourceId, hmem, hentry⟩ := Graph.exists_mem_sources he hsource
    have hlt : rank sourceId < rank id :=
      hr.falls id (Graph.mem_ids_of_lookup he) sourceId hmem
    exact ih (rank sourceId) (hn ▸ hlt) hentry
      (hsame.of_reads (Graph.mem_sources_iff.mp hmem).1) rfl

/-- The modules of a graph answer the same when it gains modules. -/
theorem answers_of_extends (hg : g.Consistent) (h : g.freeze = .ok f) (h' : g'.freeze = .ok f')
    (hext : g'.Extends g) {e : Entry M α} (he : g.entry? id = some e) :
    f'.answers e = f.answers e := by
  have hanswers := answers_rename h h' (hg.sameUpstream_of_extends he hext) he
  rwa [Entry.rename_id] at hanswers

/-- The four evaluations give the same results by either name. -/
theorem evaluate_rename (h : g.freeze = .ok f) (h' : g'.freeze = .ok f')
    (hsame : g.SameUpstream ρ g' id) (evaluation : Evaluation) (output : Nat) (q : Query α) :
    f'.evaluate evaluation ⟨ρ id, output⟩ q
      = (f.evaluate evaluation ⟨id, output⟩ q).mapError (EvaluationError.rename ρ) := by
  have hgraph := (Graph.freeze_ok h).1
  have hgraph' := (Graph.freeze_ok h').1
  have htarget := target_rename (hgraph ▸ hgraph' ▸ hsame) output q.blur
  cases hf : f.target ⟨id, output⟩ q.blur with
  | error e =>
    rw [hf] at htarget
    cases evaluation <;>
      simp only [evaluate, evaluateScalar, evaluateColor, estimateError, evaluateGradient, hf,
        htarget] <;>
      rfl
  | ok r =>
    obtain ⟨e, kind⟩ := r
    replace htarget : f'.target ⟨ρ id, output⟩ q.blur = .ok (e.rename ρ, kind) := by
      rw [htarget, hf]
      rfl
    have he : g.entry? id = some e := hgraph ▸ (target_ok hf).1
    have hanswers : f'.answers (e.rename ρ) = f.answers e := answers_rename h h' hsame he
    -- The kind of the output decides between a number and a color.
    cases evaluation <;> cases kind <;>
      simp only [evaluate, evaluateScalar, evaluateColor, estimateError, evaluateGradient, hf,
        htarget, bind, Except.bind, hanswers] <;>
      rfl

/-- **Evaluations rest on what lies upstream**:

* in two graphs that have the same modules and bindings upstream of a module, up to the names of the
  modules, all evaluations of it give the same, up to the names in errors;
* changes to other modules than those upstream of a module make no difference to the evaluations of
  it. -/
theorem evaluation_noninterference (h : g.freeze = .ok f) (h' : g'.freeze = .ok f') :
    (∀ ρ target, g.SameUpstream ρ g' target → ∀ evaluation output q,
        f'.evaluate evaluation ⟨ρ target, output⟩ q
          = (f.evaluate evaluation ⟨target, output⟩ q).mapError (EvaluationError.rename ρ)) ∧
      ∀ name edits changes, g = .ofEdits name edits → g' = .ofEdits name (edits ++ changes) →
        ∀ target, g.contains target →
          (∀ change ∈ changes, ∀ other, change.subject? = some other →
            ¬ g.Upstream target other) →
          ∀ evaluation output q,
            f'.evaluate evaluation ⟨target, output⟩ q
              = f.evaluate evaluation ⟨target, output⟩ q := by
  refine ⟨fun ρ target hsame => evaluate_rename h h' hsame,
    fun name edits changes hg hg' target htarget hfar evaluation output q => ?_⟩
  obtain ⟨e, he⟩ := Option.isSome_iff_exists.mp htarget
  have hconsistent : g.Consistent := hg ▸ Graph.consistent_ofEdits name edits
  have hrun : g' = changes.foldl Graph.edit g := by
    rw [hg, hg', Graph.ofEdits, Graph.ofEdits, List.foldl_append]
  have hsame := hconsistent.sameUpstream_edits he changes hfar
  rw [← hrun] at hsame
  have heval := evaluate_rename h h' hsame evaluation output q
  rw [EvaluationError.rename_id, mapError_id] at heval
  exact heval

/-- The sum of one and an unbound input, twice. -/
def twoSums : Graph (Catalog Float) Float :=
  Graph.ofEdits "one plus" ([.add (.source (.number 1.0)), .add (.operator .sum),
    .bind ⟨1⟩ 0 ⟨⟨0⟩, 0⟩] ++ [.add (.operator .sum), .add (.source (.number 1.0)),
    .bind ⟨2⟩ 0 ⟨⟨3⟩, 0⟩])

theorem freeze_twoSums : twoSums.freeze = .ok ⟨twoSums, ⟨[⟨0⟩, ⟨1⟩, ⟨3⟩, ⟨2⟩], 2⟩⟩ :=
  Graph.freeze_eq_ok (by decide +kernel)

/-- The names that the modules of the first sum go by in the second one. -/
def toSecondSum (i : ModuleId) : ModuleId :=
  ⟨3 - i.number⟩

theorem upstream_onePlus {i : ModuleId} (h : onePlus.Upstream ⟨1⟩ i) : i = ⟨0⟩ ∨ i = ⟨1⟩ := by
  have hconsistent : onePlus.Consistent := Graph.consistent_ofEdits _ _
  obtain ⟨e, he⟩ := hconsistent.entry?_of_upstream rfl h
  have hids : onePlus.ids = [⟨0⟩, ⟨1⟩] := rfl
  have hmem : i ∈ onePlus.ids := Graph.mem_ids_of_lookup he
  simpa [hids] using hmem

theorem evaluation_noninterference_onePlus :
    ∃ f f', onePlus.freeze = .ok f ∧ twoSums.freeze = .ok f' ∧
      ∀ evaluation output q,
        f'.evaluate evaluation ⟨⟨1⟩, output⟩ q = f.evaluate evaluation ⟨⟨1⟩, output⟩ q ∧
        f'.evaluate evaluation ⟨⟨2⟩, output⟩ q
          = (f.evaluate evaluation ⟨⟨1⟩, output⟩ q).mapError
            (EvaluationError.rename toSecondSum) := by
  obtain ⟨hrename, helsewhere⟩ := evaluation_noninterference freeze_onePlus freeze_twoSums
  refine ⟨_, _, freeze_onePlus, freeze_twoSums, fun evaluation output q => ⟨?_, ?_⟩⟩
  · refine helsewhere _ _ _ rfl rfl ⟨1⟩ rfl (fun change hchange other hother hup => ?_) _ _ _
    obtain rfl | rfl := upstream_onePlus hup <;>
      simp only [List.mem_cons, List.not_mem_nil, or_false] at hchange <;>
      rcases hchange with rfl | rfl | rfl <;> cases hother
  · refine hrename toSecondSum ⟨1⟩ (fun i hup => ?_) _ _ _
    obtain rfl | rfl := upstream_onePlus hup <;> rfl

/-! ### Equal modules with unequal sockets -/

/-- A channel of numbers whose default has been set to one value after another. -/
def defaulted (values : List Float) : Graph (Catalog Float) Float :=
  Graph.ofEdits "channel" (.add (.channel .standard) ::
    values.map fun a => .setParameter ⟨0⟩ "default" (.number a))

/-- A graph of a single channel whose default is negative zero, while its input falls back to
`a`. -/
def negativeZeroOver (a : Float) : Graph (Catalog Float) Float :=
  { name := "channel"
    entries := [(⟨0⟩, ⟨.channel (.scalar "Output" (-0.0)), (Channel.scalar "Output" a).signature,
      [none]⟩)]
    next := 1 }

/-- A change from zero to negative zero counts as none. -/
theorem defaulted_negativeZero : defaulted [-0.0] = negativeZeroOver 0.0 :=
  rfl

theorem defaulted_one_negativeZero : defaulted [1.0, -0.0] = negativeZeroOver (-0.0) :=
  rfl

theorem target_negativeZeroOver (a : Float) (s : Schedule) :
    (⟨negativeZeroOver a, s⟩ : FrozenGraph _ _).target ⟨⟨0⟩, 0⟩ (0.0 : Float)
      = .ok (⟨.channel (.scalar "Output" (-0.0)), (Channel.scalar "Output" a).signature, [none]⟩,
        .scalar) :=
  target_unblurred rfl rfl

/-- The channel yields what its input falls back to. -/
theorem evaluate_negativeZeroOver (a : Float) (s : Schedule) (hs : 0 < s.depth) :
    (⟨negativeZeroOver a, s⟩ : FrozenGraph _ _).evaluate .scalar ⟨⟨0⟩, 0⟩ atOrigin = .ok a := by
  obtain ⟨order, depth⟩ := s
  obtain ⟨n, rfl⟩ := Nat.exists_eq_succ_of_ne_zero hs.ne'
  rw [evaluate, evaluateScalar, atOrigin, target_negativeZeroOver]
  rfl

/-- **Equal modules may have unequal sockets**: two channels have the same name and default and are
bound to nothing, and yield different numbers. -/
theorem evaluation_by_fallback :
    ∃ f f', (defaulted [-0.0]).freeze = .ok f ∧ (defaulted [1.0, -0.0]).freeze = .ok f' ∧
      (∀ i, (f'.graph.entry? i).map (fun e => (e.module, e.bindings))
        = (f.graph.entry? i).map (fun e => (e.module, e.bindings))) ∧
      f.evaluate .scalar ⟨⟨0⟩, 0⟩ atOrigin ≠ f'.evaluate .scalar ⟨⟨0⟩, 0⟩ atOrigin := by
  have hfreeze : (negativeZeroOver 0.0).freeze = .ok ⟨negativeZeroOver 0.0, ⟨[⟨0⟩], 1⟩⟩ :=
    Graph.freeze_eq_ok (by decide +kernel)
  have hfreeze' : (negativeZeroOver (-0.0)).freeze = .ok ⟨negativeZeroOver (-0.0), ⟨[⟨0⟩], 1⟩⟩ :=
    Graph.freeze_eq_ok (by decide +kernel)
  rw [defaulted_negativeZero, defaulted_one_negativeZero]
  refine ⟨_, _, hfreeze, hfreeze', fun i => ?_, ?_⟩
  · simp only [Graph.entry?, negativeZeroOver, List.lookup_cons, List.lookup_nil]
    cases i == ⟨0⟩ <;> rfl
  · have hne : (0.0 : Float) ≠ -0.0 := by decide +kernel
    rw [evaluate_negativeZeroOver _ _ Nat.one_pos, evaluate_negativeZeroOver _ _ Nat.one_pos]
    exact fun heq => hne (Except.ok.inj heq)

end FrozenGraph

end TextureGraph
