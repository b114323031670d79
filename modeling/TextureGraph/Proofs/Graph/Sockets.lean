import TextureGraph.Proofs.Graph.Upstream
import TextureGraph.Proofs.Module.Setting.Catalog

/-!
# The sockets that a graph goes by

A graph keeps the sockets of its modules.  When a parameter is changed it compares the sockets of the
changed module with those that it has kept, and goes on with the latter where they compare as equal.

* `Graph.signature_ofEdits`: the sockets that it has kept are those of the module, whatever changes have
  been made, but for the fallback of a channel, in which a zero may have the other sign; a channel that
  nothing is bound to yields this fallback.
* `Graph.signature_ofEdits_negativeZero`: it does have the other sign after a change from zero to negative
  zero, since these compare as equal.
-/

namespace TextureGraph

open Binary64

/-! ### Sockets that compare as equal -/

namespace ChannelValue

/-- Values of a channel that are the same, where the signs of zeros do not count. -/
def SameNumbers : ChannelValue Float → ChannelValue Float → Prop
  | .scalar a, .scalar b => SameNumber a b
  | .color c, .color d =>
    SameNumber c.red d.red ∧ SameNumber c.green d.green ∧ SameNumber c.blue d.blue
  | _, _ => False

variable {u u' : ChannelValue Float}

theorem sameNumbers_refl (u : ChannelValue Float) : u.SameNumbers u := by
  cases u with
  | scalar a => exact sameNumber_refl a
  | color c => exact ⟨sameNumber_refl c.red, sameNumber_refl c.green, sameNumber_refl c.blue⟩

theorem sameNumbers_of_beq (h : (u.fallback == u'.fallback) = true) : u.SameNumbers u' := by
  cases u with
  | scalar a =>
    cases u' with
    | scalar b => exact sameNumber_of_beq h
    | color d => cases h
  | color c =>
    cases u' with
    | scalar b => cases h
    | color d =>
      have hchannels : (c.red == d.red && (c.green == d.green && c.blue == d.blue)) = true := h
      rw [Bool.and_eq_true, Bool.and_eq_true] at hchannels
      obtain ⟨hred, hgreen, hblue⟩ := hchannels
      exact ⟨sameNumber_of_beq hred, sameNumber_of_beq hgreen, sameNumber_of_beq hblue⟩

/-- A number of the value is a zero. -/
def HasZero : ChannelValue Float → Prop
  | .scalar a => IsZero a
  | .color c => IsZero c.red ∨ IsZero c.green ∨ IsZero c.blue

theorem SameNumbers.eq (h : u.SameNumbers u') (hzero : ¬ u.HasZero) : u = u' := by
  cases u with
  | scalar a =>
    cases u' with
    | scalar b => rw [SameNumber.eq h hzero]
    | color d => exact absurd h id
  | color c =>
    cases u' with
    | scalar b => exact absurd h id
    | color d =>
      obtain ⟨hred, hgreen, hblue⟩ := h
      obtain ⟨hred', hrest⟩ := not_or.mp hzero
      obtain ⟨hgreen', hblue'⟩ := not_or.mp hrest
      obtain ⟨red, green, blue⟩ := c
      obtain rfl := hred.eq hred'
      obtain rfl := hgreen.eq hgreen'
      obtain rfl := hblue.eq hblue'
      rfl

end ChannelValue

/-- Channels whose sockets compare as equal have the same value, but for the signs of zeros. -/
theorem Channel.sameNumbers_of_beq {c c' : Channel Float} (h : (c.signature == c'.signature) = true) :
    c.unbound.SameNumbers c'.unbound := by
  obtain ⟨-, hinputs, -⟩ := Signature.beq_parts h
  have hinput := (List.cons_beq_cons (α := Socket Float)).symm.trans hinputs
  exact ChannelValue.sameNumbers_of_beq (Socket.fallback_beq (Bool.and_eq_true_iff.mp hinput).1)

/-! ### Modules other than channels -/

section Others

variable {α : Type} [Arith α] {v : ParameterValue α} {name : String}

theorem Axis.eq_of_label_beq {axis axis' : Axis} (h : (axis.label == axis'.label) = true) :
    axis = axis' := by
  have hlabel : axis.label = axis'.label := eq_of_beq h
  cases axis <;> cases axis' <;> first | rfl | exact absurd hlabel (by decide)

/-- The sockets of a source have the name of the axis that it yields, if it yields one. -/
theorem Source.signature_of_setParameter {m changed : Source α}
    (h : m.setParameter name v = .ok changed)
    (hsame : (changed.signature == m.signature) = true) : changed.signature = m.signature := by
  unfold setParameter at h
  split at h
  · obtain ⟨a, -, h⟩ := bind_eq_ok_iff.mp h
    cases h
    rfl
  · obtain ⟨c, -, h⟩ := bind_eq_ok_iff.mp h
    cases h
    rfl
  · obtain ⟨n, -, h⟩ := bind_eq_ok_iff.mp h
    cases h
    rfl
  · obtain ⟨a, -, h⟩ := bind_eq_ok_iff.mp h
    cases h
    rfl
  · obtain ⟨i, -, h⟩ := bind_eq_ok_iff.mp h
    cases h
    rw [Axis.eq_of_label_beq (Signature.beq_parts hsame).1]
  · cases h

theorem Texture.signature_of_setParameter {m changed : Texture α}
    (h : m.setParameter name v = .ok changed) : changed.signature = m.signature := by
  unfold setParameter at h
  split at h
  all_goals
    first
    | cases h
    | obtain ⟨_, -, h⟩ := bind_eq_ok_iff.mp h
      cases h
      rfl

theorem Matching.signature_of_setParameter {m changed : Matching α}
    (h : m.setParameter name v = .ok changed) : changed.signature = m.signature := by
  unfold setParameter at h
  split at h
  · obtain ⟨a, -, h⟩ := bind_eq_ok_iff.mp h
    cases h
    rfl
  · cases h

theorem Mapping.signature_of_setParameter {m changed : Mapping α}
    (h : m.setParameter name v = .ok changed) : changed.signature = m.signature := by
  cases m with
  | transform t =>
    obtain ⟨t', -, h⟩ := bind_eq_ok_iff.mp h
    cases h
    rfl
  | barycentric t =>
    obtain ⟨t', -, h⟩ := bind_eq_ok_iff.mp h
    cases h
    rfl

theorem Catalog.signature_of_setParameter {m changed : Catalog α} (hm : ∀ c, m ≠ .channel c)
    (h : m.setParameter name v = .ok changed)
    (hsame : (changed.signature == m.signature) = true) : changed.signature = m.signature := by
  cases m with
  | channel c => exact absurd rfl (hm c)
  | operator | shaping | composition => cases h
  | source m =>
    obtain ⟨m', hm', h⟩ := bind_eq_ok_iff.mp h
    cases h
    exact Source.signature_of_setParameter hm' hsame
  | expression m =>
    obtain ⟨m', -, h⟩ := bind_eq_ok_iff.mp h
    cases h
    rfl
  | matching m =>
    obtain ⟨m', hm', h⟩ := bind_eq_ok_iff.mp h
    cases h
    exact Matching.signature_of_setParameter hm'
  | texture m =>
    obtain ⟨m', hm', h⟩ := bind_eq_ok_iff.mp h
    cases h
    exact Texture.signature_of_setParameter hm'
  | mapping m =>
    obtain ⟨m', hm', h⟩ := bind_eq_ok_iff.mp h
    cases h
    exact Mapping.signature_of_setParameter hm'

/-- A module remains of its type. -/
theorem Catalog.channel_of_setParameter {m : Catalog α} {c : Channel α}
    (h : m.setParameter name v = .ok (.channel c)) : ∃ c', m = .channel c' ∧
      c'.setParameter name v = .ok c := by
  cases m with
  | channel c' =>
    obtain ⟨c'', hc, h⟩ := bind_eq_ok_iff.mp h
    cases h
    exact ⟨c', rfl, hc⟩
  | operator | shaping | composition => cases h
  | source m | expression m | matching m | texture m | mapping m =>
    obtain ⟨m', -, h⟩ := bind_eq_ok_iff.mp h
    cases h

end Others

/-! ### The sockets that a graph has kept -/

/-- The graph goes by these sockets of a module: its own, but for the signs of zeros in the fallback of a
channel. -/
def Catalog.GoesBy (m : Catalog Float) (s : Signature Float) : Prop :=
  match m with
  | .channel c => ∃ u : ChannelValue Float, c.unbound.SameNumbers u ∧
      s = ({ c with unbound := u } : Channel Float).signature
  | m => s = m.signature

namespace Catalog

theorem goesBy_self (m : Catalog Float) : m.GoesBy m.signature := by
  cases m with
  | channel c => exact ⟨c.unbound, c.unbound.sameNumbers_refl, rfl⟩
  | source | operator | shaping | expression | matching | composition | texture | mapping => rfl

theorem goesBy_iff_of_ne {m : Catalog Float} {s : Signature Float} (hm : ∀ c, m ≠ .channel c) :
    m.GoesBy s ↔ s = m.signature := by
  cases m with
  | channel c => exact absurd rfl (hm c)
  | source | operator | shaping | expression | matching | composition | texture | mapping => rfl

/-- **Step**: a change that leaves the graph with the sockets that it has kept. -/
theorem GoesBy.setParameter {m changed : Catalog Float} {s : Signature Float} (h : m.GoesBy s)
    {name : String} {v : ParameterValue Float} (hset : m.setParameter name v = .ok changed)
    (hsame : (changed.signature == s) = true) : changed.GoesBy s := by
  by_cases hm : ∃ c, m = .channel c
  · obtain ⟨c, rfl⟩ := hm
    obtain ⟨u, -, rfl⟩ := h
    obtain ⟨c', hc', hset⟩ := bind_eq_ok_iff.mp hset
    cases hset
    have htitle : c'.name = c.name := Channel.name_of_setParameter hc'
    refine ⟨u, Channel.sameNumbers_of_beq hsame, ?_⟩
    exact congrArg (fun title => (Channel.mk title u).signature) htitle.symm
  · have hm : ∀ c, m ≠ .channel c := not_exists.mp hm
    obtain rfl := (goesBy_iff_of_ne hm).mp h
    have hchanged : ∀ c, changed ≠ .channel c := by
      rintro c rfl
      obtain ⟨c', rfl, -⟩ := channel_of_setParameter hset
      exact hm c' rfl
    exact (goesBy_iff_of_ne hchanged).mpr (signature_of_setParameter hm hset hsame).symm

end Catalog

/-- **Run**: the graph goes by the sockets of its modules after any changes. -/
theorem Graph.goesBy_ofEdits (name : String) (edits : List (Edit (Catalog Float) Float)) {id : ModuleId}
    {e : Entry (Catalog Float) Float} (he : entry? (ofEdits name edits) id = some e) :
    e.module.GoesBy e.signature := by
  have hp : IsInvariant Catalog.GoesBy :=
    ⟨fun _ _ _ _ changed _ _ => changed.goesBy_self, fun _ _ _ _ _ h hset => h.setParameter hset⟩
  exact forallEntry_ofEdits hp name edits (fun m _ => m.goesBy_self) id e he

/-! ### Channels that nothing is bound to -/

section Unbound

variable {α : Type} [Arith α] {f : FrozenGraph (Catalog α) α} {g : Graph (Catalog α) α}
  {id : ModuleId} {e : Entry (Catalog α) α} {c c' : Channel α}

/-- A channel that nothing is bound to answers what its input falls back to. -/
theorem FrozenGraph.answers_unbound (h : g.freeze = .ok f) (he : f.graph.entry? id = some e)
    (hm : e.module = .channel c) (hs : e.signature = c'.signature) (hfree : e.binding? 0 = none)
    (output : Nat) (q : Query α) :
    (f.answers e).value output q = c'.unbound.fallback.value q ∧
      (f.answers e).color output q = c'.unbound.fallback.toColor q := by
  have hsource : f.graph.source? e 0 = none := by
    rw [Graph.source?, hfree]
    rfl
  have hfallback : e.signature.fallback 0 = c'.unbound.fallback := by
    rw [hs]
    rfl
  rw [answers_eq h he, hm]
  change (f.graph.pull f.answers e).value 0 q = _ ∧ (f.graph.pull f.answers e).color 0 q = _
  simp only [Graph.pull, hsource, hfallback, and_self]

/-- So all evaluations of it yield what its input falls back to. -/
theorem FrozenGraph.evaluate_unbound (h : g.freeze = .ok f) (he : f.graph.entry? id = some e)
    (hm : e.module = .channel c) (hs : e.signature = c'.signature) (hfree : e.binding? 0 = none)
    {q : Query α} (hblur : ¬ (!Arith.isFinite q.blur || decide (q.blur < 0.0)) = true) :
    f.evaluateColor ⟨id, 0⟩ q = .ok (c'.unbound.fallback.toColor q) ∧
      ∀ a, c'.unbound = .scalar a → f.evaluateScalar ⟨id, 0⟩ q = .ok a := by
  have hkind : e.signature.outputKind? 0 = some c'.unbound.kind := by
    rw [hs]
    rfl
  have htarget : f.target ⟨id, 0⟩ q.blur = .ok (e, c'.unbound.kind) := target_eq_ok hblur he hkind
  obtain ⟨hvalue, hcolor⟩ := answers_unbound h he hm hs hfree 0 q
  constructor
  · unfold evaluateColor
    rw [htarget]
    change (if c'.unbound.kind = .color then _ else _) = _
    rw [hvalue, hcolor]
    cases c'.unbound <;> rfl
  · intro a ha
    unfold evaluateScalar
    rw [htarget, ha]
    change Except.ok _ = _
    rw [hvalue, ha]
    rfl

end Unbound

/-! ### Reachable graphs -/

namespace Graph

/-- **The graph goes by the sockets of its modules**, whatever changes have been made to it.  It has kept
the sockets of every module exactly, unless the module is a channel whose value has a zero.  What it has
kept of a channel is the value but for the signs of zeros, and this is what the channel yields while
nothing is bound to it. -/
theorem signature_ofEdits (name : String) (edits : List (Edit (Catalog Float) Float)) {id : ModuleId}
    {e : Entry (Catalog Float) Float} (he : entry? (ofEdits name edits) id = some e) :
    ((∀ c, e.module = .channel c → ¬ c.unbound.HasZero) → e.signature = e.module.signature) ∧
      ∀ c, e.module = .channel c → c.unbound.parameter ∈ e.module.parameters ∧
        ∃ u : ChannelValue Float, c.unbound.SameNumbers u ∧
          e.signature = ({ c with unbound := u } : Channel Float).signature ∧
          ∀ f, (ofEdits name edits).freeze = .ok f → e.binding? 0 = none →
            ∀ q : Query Float, Arith.isFinite q.blur = true → ¬ q.blur < 0.0 →
              f.evaluateColor ⟨id, 0⟩ q = .ok (u.fallback.toColor q) ∧
                ∀ a, u = .scalar a → f.evaluateScalar ⟨id, 0⟩ q = .ok a := by
  have hgoes := goesBy_ofEdits name edits he
  constructor
  · intro hzero
    by_cases hm : ∃ c, e.module = .channel c
    · obtain ⟨c, hm⟩ := hm
      rw [hm] at hgoes ⊢
      obtain ⟨u, hu, hs⟩ := hgoes
      obtain rfl := hu.eq (hzero c hm)
      exact hs
    · exact (Catalog.goesBy_iff_of_ne (not_exists.mp hm)).mp hgoes
  · intro c hm
    rw [hm] at hgoes ⊢
    obtain ⟨u, hu, hs⟩ := hgoes
    refine ⟨c.parameter_mem, u, hu, hs, fun f h hfree q hfinite hblur => ?_⟩
    have he' : f.graph.entry? id = some e := (freeze_ok h).1 ▸ he
    refine FrozenGraph.evaluate_unbound h he' hm hs hfree ?_
    simp [hfinite, hblur]

open FrozenGraph

theorem signature_ofEdits_defaulted :
    ∃ e f, entry? (defaulted [1.0, 2.5]) ⟨0⟩ = some e ∧ (defaulted [1.0, 2.5]).freeze = .ok f ∧
      e.module = .channel (.scalar "Output" 2.5) ∧ e.signature = e.module.signature ∧
      ∃ u : ChannelValue Float, (ChannelValue.scalar 2.5).SameNumbers u ∧
        ∀ a, u = .scalar a → f.evaluateScalar ⟨⟨0⟩, 0⟩ atOrigin = .ok a := by
  have he : entry? (defaulted [1.0, 2.5]) ⟨0⟩
      = some (.ofModule (.channel (.scalar "Output" 2.5))) := rfl
  have hfreeze : (defaulted [1.0, 2.5]).freeze = .ok ⟨defaulted [1.0, 2.5], ⟨[⟨0⟩], 1⟩⟩ :=
    freeze_eq_ok (by decide +kernel)
  have hzero : ¬ (ChannelValue.scalar 2.5).HasZero := by
    change ¬ ((2.5 : Float) = 0.0 ∨ (2.5 : Float) = -0.0)
    decide +kernel
  obtain ⟨hexact, hchannel⟩ := signature_ofEdits _ _ he
  obtain ⟨-, u, hu, -, heval⟩ := hchannel _ rfl
  refine ⟨_, _, he, hfreeze, rfl, hexact fun c hc => ?_, u, hu, ?_⟩
  · cases hc
    exact hzero
  · exact (heval _ hfreeze rfl atOrigin (by decide +kernel) (by decide +kernel)).2

/-- **Zeros of either sign compare as equal**: a channel whose default has been changed from zero to
negative zero, and which nothing is bound to, yields zero, while its parameters list negative zero. -/
theorem signature_ofEdits_negativeZero :
    ∃ e f, entry? (defaulted [-0.0]) ⟨0⟩ = some e ∧ (defaulted [-0.0]).freeze = .ok f ∧
      e.signature ≠ e.module.signature ∧ e.binding? 0 = none ∧
      Parameter.number "default" (-0.0) ∈ e.module.parameters ∧
      f.evaluateScalar ⟨⟨0⟩, 0⟩ atOrigin = .ok 0.0 ∧ (0.0 : Float) ≠ -0.0 := by
  have hne : (0.0 : Float) ≠ -0.0 := by decide +kernel
  have hfreeze : (negativeZeroOver 0.0).freeze = .ok ⟨negativeZeroOver 0.0, ⟨[⟨0⟩], 1⟩⟩ :=
    freeze_eq_ok (by decide +kernel)
  rw [defaulted_negativeZero]
  refine ⟨_, _, rfl, hfreeze, fun hsame => hne ?_, rfl, .tail _ (.head _),
    evaluate_negativeZeroOver 0.0 _ Nat.one_pos, hne⟩
  have hfallback : Fallback.scalar (0.0 : Float) = .scalar (-0.0) :=
    congrArg (fun s : Signature Float => s.fallback 0) hsame
  exact Fallback.scalar.inj hfallback

end Graph

end TextureGraph
