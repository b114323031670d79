import TextureGraph.Graph.InPlace
import TextureGraph.Proofs.Graph.Consistency
import TextureGraph.Proofs.Graph.Links
import TextureGraph.Proofs.Module.InPlace
import Mathlib.Data.List.Induction

/-!
# Graphs changed in place stay wired

`representation_afterCalls`: whatever calls have been made on a graph, accepted or turned down, and whatever
its modules make of themselves, each module has one slot for every input that the graph goes by, every
binding fits, and the sockets that the graph goes by are those of the module, as far as the module itself
has not changed them in a call that it refused.

* `bindInPlace_apply`, `unbindInPlace_apply`, `removeInPlace_apply`: these calls lead to the graph that the
  change of the same name leads to, or are turned down before anything is written.
* `setParameterInPlace_accepted`, `setParameterInPlace_refused`: a module that refuses a value is left in
  the graph as its own call leaves it.
* `afterCalls_eq_ofEdits`: of modules whose changes are atomic, calls lead to the graphs that changes lead to.
-/

namespace TextureGraph

variable {M α β : Type}

/-- What the module `m` may be after a change that it has refused. -/
def Refusal (α : Type) [TextureModule M α] [InPlaceModule M α] (m left : M) : Prop :=
  ∃ (name : String) (v : ParameterValue α) (e : ParameterError α),
    (InPlaceModule.assign name v : InPlace M α Unit) m = (.error e, left)

namespace Graph

open GraphCall InPlace

variable {g : Graph M α} {id : ModuleId}

/-! ### Calls -/

theorem find_bind (f : Entry M α → GraphCall M α β) :
    (find id >>= f) g = match g.entry? id with
      | some e => f e g
      | none => (.error (.moduleNotFound id), g) := by
  cases he : g.entry? id with
  | none =>
    refine bind_of_eq_error (?_ : find id g = (.error (.moduleNotFound id), g)) f
    rw [find, get_bind, he]
    rfl
  | some e =>
    refine bind_of_eq_ok (?_ : find id g = (.ok e, g)) f
    rw [find, get_bind, he]
    rfl

/-- A binding is turned down before its slot is written. -/
theorem bindInPlace_apply (g : Graph M α) (id : ModuleId) (input : Nat) (b : Binding) :
    bindInPlace id input b g = settle g () (g.bind id input b) := by
  unfold bindInPlace Graph.bind
  -- The slot is written in the end, when everything that is asked for has been found.
  rw [find_bind]
  cases g.entry? b.source with
  | none => rfl
  | some source =>
    dsimp only
    cases source.signature.outputKind? b.output with
    | none => rfl
    | some outputKind =>
      rw [bind_of_eq_ok (rfl : demand (some outputKind) _ g = (.ok outputKind, g)), find_bind]
      cases g.entry? id with
      | none => rfl
      | some e =>
        dsimp only
        cases e.signature.inputKind? input with
        | none => rfl
        | some inputKind =>
          rw [bind_of_eq_ok (rfl : demand (some inputKind) _ g = (.ok inputKind, g))]
          dsimp only
          cases outputKind.feeds inputKind with
          | false => rfl
          | true => cases e.binding? input <;> rfl

theorem unbindInPlace_apply (g : Graph M α) (id : ModuleId) (input : Nat) :
    unbindInPlace id input g = match g.unbind id input with
      | .ok (previous, changed) => (.ok previous, changed)
      | .error e => (.error e, g) := by
  unfold unbindInPlace Graph.unbind
  rw [find_bind]
  cases g.entry? id with
  | none => rfl
  | some e => by_cases hinput : input < e.bindings.length <;> simp only [hinput] <;> rfl

theorem removeInPlace_apply (g : Graph M α) (id : ModuleId) :
    removeInPlace id g = match g.remove id with
      | some (m, changed) => (.ok (some m), changed)
      | none => (.ok none, g) := by
  rw [remove_eq]
  unfold removeInPlace
  rw [get_bind]
  cases g.entry? id <;> rfl

theorem addInPlace_apply [TextureModule M α] (m : M) :
    addInPlace m g = (.ok (g.add m).1, (g.add m).2) := rfl

variable [Arith α] [TextureModule M α] [InPlaceModule M α] {name : String} {v : ParameterValue α}

theorem setParameterInPlace_of_not_found (he : g.entry? id = none) :
    setParameterInPlace id name v g = (.error (.moduleNotFound id), g) := by
  rw [setParameterInPlace, find_bind, he]

/-- A module that refuses a value is left in the graph as its own call leaves it. -/
theorem setParameterInPlace_refused {e : Entry M α} (he : g.entry? id = some e) {left : M}
    {refusal : ParameterError α}
    (h : (InPlaceModule.assign name v : InPlace M α Unit) e.module = (.error refusal, left)) :
    setParameterInPlace id name v g
      = (.error (.parameter refusal), g.replaceEntry id { e with module := left }) := by
  rw [setParameterInPlace, find_bind, he]
  refine bind_of_eq_error ?_ _
  rw [onModule, h]
  rfl

/-- When a module accepts a value, the slots are brought in line with the sockets that it has then. -/
theorem setParameterInPlace_accepted {e : Entry M α} (he : g.entry? id = some e) {m : M}
    (h : (InPlaceModule.assign name v : InPlace M α Unit) e.module = (.ok (), m)) :
    setParameterInPlace id name v g = (.ok (), g.refreshed id e m) := by
  rw [setParameterInPlace, find_bind, he]
  have hmodule : onModule id e (InPlaceModule.assign name v) g
      = (.ok m, g.replaceEntry id { e with module := m }) := by
    rw [onModule, h]
    rfl
  refine (bind_of_eq_ok hmodule _).trans ?_
  unfold refreshed
  dsimp only
  split
  · rfl
  · -- the entry is written once for the module, once for its slots and once for its sockets
    show (Except.ok (), dropStale ((((g.replaceEntry id _).replaceEntry id _).replaceEntry id _))) = _
    rw [replaceEntry_replaceEntry, replaceEntry_replaceEntry]
    rfl

/-- What a call to change a parameter may do. -/
theorem setParameterInPlace_cases (g : Graph M α) (id : ModuleId) (name : String)
    (v : ParameterValue α) :
    g.entry? id = none ∧ setParameterInPlace id name v g = (.error (.moduleNotFound id), g) ∨
    (∃ e left refusal, g.entry? id = some e ∧
      (InPlaceModule.assign name v : InPlace M α Unit) e.module = (.error refusal, left) ∧
      setParameterInPlace id name v g
        = (.error (.parameter refusal), g.replaceEntry id { e with module := left })) ∨
    ∃ e m, g.entry? id = some e ∧
      (InPlaceModule.assign name v : InPlace M α Unit) e.module = (.ok (), m) ∧
      setParameterInPlace id name v g = (.ok (), g.refreshed id e m) := by
  cases he : g.entry? id with
  | none => exact .inl ⟨rfl, setParameterInPlace_of_not_found he⟩
  | some e =>
    obtain ⟨answer, m, h⟩ : ∃ answer m,
        (InPlaceModule.assign name v : InPlace M α Unit) e.module = (answer, m) := ⟨_, _, rfl⟩
    cases answer with
    | error refusal =>
      exact .inr (.inl ⟨e, m, refusal, rfl, h, setParameterInPlace_refused he h⟩)
    | ok u => exact .inr (.inr ⟨e, m, rfl, h, setParameterInPlace_accepted he h⟩)

/-- A call that does not ask a module to change makes the change, or leaves the graph as it is and is
turned down. -/
theorem call_apply (g : Graph M α) {change : Edit M α}
    (h : ∀ id name v, change ≠ .setParameter id name v) :
    change.call g = (.ok (), g.edit change) ∨
      ∃ e, change.call g = (.error e, g) ∧ g.edit change = g := by
  cases change with
  | add m => exact .inl rfl
  | remove id =>
    left
    have hcall := removeInPlace_apply g id
    show (removeInPlace id >>= fun _ => pure ()) g = _
    simp only [Graph.edit]
    cases hremove : g.remove id <;> (rw [hremove] at hcall; rw [bind_of_eq_ok hcall]; rfl)
  | setParameter id name v => exact absurd rfl (h id name v)
  | bind id input b =>
    have hcall := bindInPlace_apply g id input b
    simp only [Graph.edit]
    cases hbind : g.bind id input b with
    | error e =>
      rw [hbind] at hcall
      exact .inr ⟨e, hcall, rfl⟩
    | ok changed =>
      rw [hbind] at hcall
      exact .inl hcall
  | unbind id input =>
    have hcall := unbindInPlace_apply g id input
    show (unbindInPlace id input >>= fun _ => pure ()) g = _ ∨
      ∃ e, (unbindInPlace id input >>= fun _ => pure ()) g = _ ∧ _
    simp only [Graph.edit]
    cases hunbind : g.unbind id input with
    | error e =>
      rw [hunbind] at hcall
      exact .inr ⟨e, bind_of_eq_error hcall _, rfl⟩
    | ok found =>
      rw [hunbind] at hcall
      exact .inl (bind_of_eq_ok hcall _)

theorem call_eq_edit (g : Graph M α) {change : Edit M α}
    (h : ∀ id name v, change ≠ .setParameter id name v) : (change.call g).2 = g.edit change := by
  rcases call_apply g h with hcall | ⟨e, hcall, hkept⟩
  · rw [hcall]
  · rw [hcall, hkept]

/-! ### Atomic changes -/

/-- Of modules whose changes are atomic, a change of a parameter is made as a whole or not at all. -/
theorem setParameterInPlace_apply [AtomicModule M α] (hnodup : g.ids.Nodup) (id : ModuleId)
    (name : String) (v : ParameterValue α) :
    setParameterInPlace id name v g = settle g () (g.setParameter id name v) := by
  rcases setParameterInPlace_cases g id name v with
    ⟨he, h⟩ | ⟨e, left, refusal, he, hassign, h⟩ | ⟨e, m, he, hassign, h⟩
  · rw [h, setParameter, he]
    rfl
  · have hset : TextureModule.setParameter e.module name v = .error refusal := by
      rw [InPlaceModule.setParameter_eq, accepted, hassign]
    rw [h, setParameter_eq he, hset, AtomicModule.kept hassign, replaceEntry_self hnodup he]
    rfl
  · have hset : TextureModule.setParameter e.module name v = .ok m := by
      rw [InPlaceModule.setParameter_eq, accepted, hassign]
    rw [h, setParameter_eq he, hset]
    rfl

theorem call_eq_edit_of_atomic [AtomicModule M α] (hnodup : g.ids.Nodup) (change : Edit M α) :
    (change.call g).2 = g.edit change := by
  cases change with
  | setParameter id name v =>
    show (setParameterInPlace id name v g).2 = _
    rw [setParameterInPlace_apply hnodup]
    simp only [Graph.edit]
    cases g.setParameter id name v <;> rfl
  | add | remove | bind | unbind => exact call_eq_edit g (by rintro _ _ _ ⟨⟩)

/-! ### Histories -/

/-- **Step**: a call keeps a graph wired, be it accepted or turned down. -/
theorem Wired.call (hg : g.Wired) (change : Edit M α) : (change.call g).2.Wired := by
  cases change with
  | setParameter id name v =>
    show (setParameterInPlace id name v g).2.Wired
    rcases setParameterInPlace_cases g id name v with
      ⟨-, h⟩ | ⟨e, left, _, he, -, h⟩ | ⟨e, m, he, -, h⟩
    · rw [h]
      exact hg
    · rw [h]
      exact hg.setModule he left
    · rw [h]
      exact hg.refreshed he m
  | add | remove | bind | unbind =>
    rw [call_eq_edit g (by rintro _ _ _ ⟨⟩)]
    exact hg.edit _

theorem afterCalls_concat (name : String) (edits : List (Edit M α)) (change : Edit M α) :
    afterCalls name (edits ++ [change]) = (change.call (afterCalls name edits)).2 :=
  List.foldl_append

/-- **Run**: every graph is wired. -/
theorem wired_afterCalls (name : String) (edits : List (Edit M α)) :
    (afterCalls name edits).Wired := by
  induction edits using List.reverseRecOn with
  | nil => exact wired_empty name
  | append_singleton edits change ih =>
    rw [afterCalls_concat]
    exact ih.call change

/-- **Agreement**: of modules whose changes are atomic, the graphs that calls leave are those that
changes lead to. -/
theorem afterCalls_eq_ofEdits [AtomicModule M α] (name : String) (edits : List (Edit M α)) :
    afterCalls name edits = ofEdits name edits := by
  induction edits using List.reverseRecOn with
  | nil => rfl
  | append_singleton edits change ih =>
    have hnodup := (wired_afterCalls name edits).nodup
    rw [afterCalls_concat, call_eq_edit_of_atomic hnodup, ih, ofEdits, ofEdits, List.foldl_append]
    rfl

/-- The sockets that the graph goes by are those that the module had when it was added or last accepted
a value.  What the module is now, changes that it has refused have left of it since. -/
def LastKnown (m : M) (s : Signature α) : Prop :=
  ∃ before, Known before s ∧ Relation.ReflTransGen (Refusal α) before m

theorem isInvariant_lastKnown : IsInvariant (LastKnown (M := M) (α := α)) where
  changed _ _ _ _ changed _ _ := ⟨changed, ⟨rfl, rfl⟩, .refl⟩
  kept _ _ _ _ changed _ _ hsame := ⟨changed, known_of_beq hsame, .refl⟩

/-- **Step**: the graph goes on to go by the sockets that its modules last had. -/
theorem ForallEntry.call (hg : g.ForallEntry LastKnown) (change : Edit M α) :
    (change.call g).2.ForallEntry LastKnown := by
  cases change with
  | setParameter id name v =>
    show (setParameterInPlace id name v g).2.ForallEntry LastKnown
    rcases setParameterInPlace_cases g id name v with
      ⟨-, h⟩ | ⟨e, left, refusal, he, hrefused, h⟩ | ⟨e, m, he, -, h⟩
    · rw [h]
      exact hg
    · rw [h]
      obtain ⟨before, hknown, hsince⟩ := hg id e he
      exact hg.replaceEntry id (e := { e with module := left })
        ⟨before, hknown, hsince.tail ⟨name, v, refusal, hrefused⟩⟩
    · rw [h]
      exact hg.refreshed id ⟨m, ⟨rfl, rfl⟩, .refl⟩ fun hsame => ⟨m, known_of_beq hsame, .refl⟩
  | add | remove | bind | unbind =>
    rw [call_eq_edit g (by rintro _ _ _ ⟨⟩)]
    exact hg.edit isInvariant_lastKnown _ fun m _ => ⟨m, ⟨rfl, rfl⟩, .refl⟩

/-- What a refused change leaves of a module has the sockets that the module had. -/
def RefusalsKeepSockets (M α : Type) [TextureModule M α] [InPlaceModule M α] : Prop :=
  ∀ m left : M, Refusal α m left → ∀ s : Signature α, Known m s → Known left s

omit [Arith α] in
theorem LastKnown.known (h : RefusalsKeepSockets M α) {m : M} {s : Signature α}
    (hm : LastKnown m s) : Known m s := by
  obtain ⟨before, hknown, hsince⟩ := hm
  induction hsince with
  | refl => exact hknown
  | tail _ hrefused ih => exact h _ _ hrefused s ih

end Graph

end TextureGraph
