import Mathlib.Data.List.GetD
import TextureGraph.Proofs.Module.InPlace
import TextureGraph.Proofs.Module.Restore.Source
import TextureGraph.Proofs.Module.Setting.Mapping

/-!
# Setting a parameter of a module of the catalog

`Catalog.parameterLaws`: the parameters of every module of the catalog follow the laws that a caller
relies on (`Catalog.ParameterLaws`).  All modules but channels take parameters in the sense of
`TakesParameters`, one type of modules after the other.  A channel has two parameters that belong
together: when its kind is set, its value is converted (`ChannelValue.convert`).
-/

namespace TextureGraph

open ParameterValue

variable {α : Type} [Arith α] {v : ParameterValue α} {name : String}

/-! ### Sources -/

theorem Source.shownIndex_toNat {n : Int} (h : 0 ≤ n ∧ n ≤ maxParameterIndex) :
    shownIndex n.toNat = n := by
  obtain ⟨hlow, hhigh⟩ := h
  rw [maxParameterIndex] at hhigh
  rw [shownIndex_of_le (by omega)]
  exact Int.toNat_of_nonneg hlow

theorem Axis.index_getD {i : Nat} (h : i < Axis.all.length) (axis : Axis) :
    (Axis.all.getD i axis).index = i := by
  rw [List.getD_eq_getElem _ _ h]
  match i with
  | 0 | 1 | 2 | 3 => rfl

theorem Source.takesParameters (m : Source α) : TakesParameters parameters setParameter m where
  nodup := by
    cases m with
    | parameter => exact (by decide : ["index", "default"].Nodup)
    | number | color | coordinate => exact List.nodup_singleton _
  unlisted name v h := by
    unfold setParameter
    split
    · exact absurd (.head _) h
    · exact absurd (.head _) h
    · exact absurd (.head _) h
    · exact absurd (.tail _ (.head _)) h
    · exact absurd (.head _) h
    · rfl
  listed name v h := by
    cases m with
    | number =>
      obtain rfl := List.mem_singleton.mp h
      exact (v.recognized_asNumber _).put _
    | color =>
      obtain rfl := List.mem_singleton.mp h
      exact (v.recognized_asColor _).put _
    | parameter =>
      rcases List.mem_pair.mp h with rfl | rfl
      · exact (v.recognized_asInteger _ _ _).put _
      · exact (v.recognized_asNumber _).put _
    | coordinate =>
      obtain rfl := List.mem_singleton.mp h
      exact (v.recognized_asChoice _ _).put _
  received name v changed h := by
    unfold setParameter at h
    split at h
    · obtain ⟨a, ha, h⟩ := bind_eq_ok_iff.mp h
      cases h
      exact congrArg (· :: []) (Parameter.receive_number ha _).symm
    · obtain ⟨c, hc, h⟩ := bind_eq_ok_iff.mp h
      cases h
      obtain rfl := asColor_eq_ok hc
      rfl
    · obtain ⟨n, hn, h⟩ := bind_eq_ok_iff.mp h
      cases h
      -- a number that is accepted is small, and shown as it is
      have hindex : ∀ index, Parameter.integer "index" (shownIndex n.toNat) 0 maxParameterIndex
          = (Parameter.integer "index" index 0 maxParameterIndex).receive "index" v := by
        intro index
        rw [shownIndex_toNat (asInteger_eq_ok hn)]
        exact (Parameter.receive_integer hn index _ _).symm
      exact congrArg₂ List.cons (hindex _) rfl
    · obtain ⟨a, ha, h⟩ := bind_eq_ok_iff.mp h
      cases h
      exact congrArg₂ List.cons rfl (congrArg (· :: []) (Parameter.receive_number ha _).symm)
    · obtain ⟨i, hchoice, h⟩ := bind_eq_ok_iff.mp h
      cases h
      obtain ⟨rfl, hi⟩ := asChoice_eq_ok hchoice
      exact congrArg (fun index => [Parameter.choice "axis" (Axis.all.map Axis.label) index])
        (Axis.index_getD hi _)
    · cases h

/-! ### Expressions and tests -/

theorem Expression.source_of_parse {source : String} {e : Expression α}
    (h : parse source = .ok e) : e.source = source := by
  obtain ⟨root, -, h⟩ := bind_eq_ok_iff.mp h
  cases h
  rfl

theorem Expression.takesParameters (e : Expression α) : TakesParameters parameters setParameter e where
  nodup := List.nodup_singleton _
  unlisted name v h := if_neg (mt List.mem_singleton.mpr h)
  listed name v h := by
    obtain rfl := List.mem_singleton.mp h
    refine (v.recognized_asText _).bind fun source n hn => ?_
    cases hparse : (parse source : Except ExpressionError (Expression α)) <;>
      · rw [hparse] at hn
        cases hn
  received name v changed h := by
    unfold setParameter at h
    split at h
    · subst name
      obtain ⟨source, htext, h⟩ := bind_eq_ok_iff.mp h
      obtain rfl := asText_eq_ok htext
      have hsource : changed.source = source := source_of_parse (mapError_eq_ok_iff.mp h)
      exact congrArg (fun source => [Parameter.text "expression" source]) hsource
    · cases h

theorem Matching.takesParameters (m : Matching α) : TakesParameters parameters setParameter m := by
  cases m with
  | select => exact takesParameters_nil rfl fun _ _ => rfl
  | colors => exact takesParameters_nil rfl fun _ _ => rfl
  | numbers tolerance =>
    exact
      { nodup := List.nodup_singleton _
        unlisted := fun name v h => by
          unfold setParameter
          split
          · exact absurd (.head _) h
          · rfl
        listed := fun name v h => by
          obtain rfl := List.mem_singleton.mp h
          exact (v.recognized_asPositive _).put _
        received := fun name v changed h => by
          unfold setParameter at h
          split at h
          · obtain ⟨a, ha, h⟩ := bind_eq_ok_iff.mp h
            cases h
            exact congrArg (· :: []) (Parameter.receive_positive ha _).symm
          · cases h }

/-! ### Patterns -/

theorem Octaves.takesParameters (o : Octaves α) : TakesParameters parameters setParameter o where
  nodup := (by decide : ["octaves", "amplitude"].Nodup)
  unlisted name v h := by
    unfold setParameter
    split
    · exact absurd (.head _) h
    · exact absurd (.tail _ (.head _)) h
    · rfl
  listed name v h := by
    rcases List.mem_pair.mp h with rfl | rfl
    · exact (v.recognized_asInteger _ _ _).put _
    · exact (v.recognized_asNumber _).put _
  received name v changed h := by
    unfold setParameter at h
    split at h
    · obtain ⟨n, hn, h⟩ := bind_eq_ok_iff.mp h
      cases h
      have hcount : ∀ count, Parameter.integer "octaves" (n.toNat : Int) 1 maxCount
          = (Parameter.integer "octaves" count 1 maxCount).receive "octaves" v := by
        intro count
        have hone := (asInteger_eq_ok hn).1
        rw [Int.toNat_of_nonneg (by omega)]
        exact (Parameter.receive_integer hn count _ _).symm
      exact congrArg₂ List.cons (hcount _) rfl
    · obtain ⟨a, ha, h⟩ := bind_eq_ok_iff.mp h
      cases h
      exact congrArg₂ List.cons rfl (congrArg (· :: []) (Parameter.receive_number ha _).symm)
    · cases h

theorem Metric.index_ofIndex {i : Nat} (h : i < Metric.all.length) : (Metric.ofIndex i).index = i := by
  match i with
  | 0 | 1 | 2 => rfl

/-- Wood has the parameters of its octaves and two of its own. -/
theorem Texture.takesParameters_wood (o : Octaves α) (spacing : α) (fractionOnly : Bool) :
    TakesParameters parameters setParameter (.wood o spacing fractionOnly) where
  nodup := (by decide : ["octaves", "amplitude", "spacing", "fraction_only"].Nodup)
  unlisted name v h := by
    have hspacing : name ≠ "spacing" := by
      rintro rfl
      exact h (.tail _ (.tail _ (.head _)))
    have hfraction : name ≠ "fraction_only" := by
      rintro rfl
      exact h (.tail _ (.tail _ (.tail _ (.head _))))
    have hoctaves : name ∉ Parameter.names o.parameters :=
      fun hname => h (List.mem_append_left ["spacing", "fraction_only"] hname)
    rw [setParameter.eq_5 _ _ _ _ _ hspacing hfraction, o.takesParameters.unlisted name v hoctaves]
    rfl
  listed name v h := by
    have hnames : name ∈ ["octaves", "amplitude"] ++ ["spacing", "fraction_only"] := h
    rcases List.mem_append.mp hnames with hoctaves | hown
    · have hset := (o.takesParameters.listed name v hoctaves).put (wood · spacing fractionOnly)
      rcases List.mem_pair.mp hoctaves with rfl | rfl
      · exact hset
      · exact hset
    · rcases List.mem_pair.mp hown with rfl | rfl
      · exact (v.recognized_asPositive _).put _
      · exact (v.recognized_asToggle _).put _
  received name v changed h := by
    -- the parameters of its own are listed after those of the octaves
    have hown (name : String) (hname : name ∉ ["octaves", "amplitude"]) :
        (parameters (.wood o spacing fractionOnly)).map (.receive name v)
          = o.parameters ++ [(Parameter.positive "spacing" spacing).receive name v,
            (Parameter.toggle "fraction_only" fractionOnly).receive name v] :=
      Parameter.map_receive_append_right hname _
    by_cases hspacing : name = "spacing"
    · subst hspacing
      obtain ⟨a, ha, h⟩ := bind_eq_ok_iff.mp h
      cases h
      rw [hown _ (by decide), Parameter.receive_positive ha]
      rfl
    · by_cases hfraction : name = "fraction_only"
      · subst hfraction
        obtain ⟨b, hb, h⟩ := bind_eq_ok_iff.mp h
        cases h
        obtain rfl := asToggle_eq_ok hb
        rw [hown _ (by decide)]
        rfl
      · rw [setParameter.eq_5 _ _ _ _ _ hspacing hfraction] at h
        obtain ⟨octaves, hoctaves, h⟩ := bind_eq_ok_iff.mp h
        cases h
        have hrest : name ∉ ["spacing", "fraction_only"] := by
          rw [List.mem_pair]
          exact not_or.mpr ⟨hspacing, hfraction⟩
        change octaves.parameters ++ _ = (o.parameters ++ _).map (.receive name v)
        rw [Parameter.map_receive_append_left hrest, o.takesParameters.received name v _ hoctaves]

theorem Texture.takesParameters (m : Texture α) : TakesParameters parameters setParameter m := by
  cases m with
  | noise o => exact o.takesParameters.onPart Texture.noise (fun _ => rfl) fun _ _ => rfl
  | turbulence o => exact o.takesParameters.onPart Texture.turbulence (fun _ => rfl) fun _ _ => rfl
  | wood o spacing fractionOnly => exact takesParameters_wood o spacing fractionOnly
  | cells metric =>
    exact
      { nodup := List.nodup_singleton _
        unlisted := fun name v h => setParameter.eq_7 _ _ _ (mt List.mem_singleton.mpr h)
        listed := fun name v h => by
          obtain rfl := List.mem_singleton.mp h
          exact (v.recognized_asChoice _ _).put _
        received := fun name v changed h => by
          by_cases hname : name = "metric"
          · subst hname
            obtain ⟨i, hchoice, h⟩ := bind_eq_ok_iff.mp h
            cases h
            obtain ⟨rfl, hi⟩ := asChoice_eq_ok hchoice
            exact congrArg
              (fun index => [Parameter.choice "metric" (Metric.all.map Metric.label) index])
              (Metric.index_ofIndex hi)
          · rw [setParameter.eq_7 _ _ _ hname] at h
            cases h }

/-! ### Channels -/

namespace ChannelValue

/-- The value as a parameter. -/
def parameter : ChannelValue α → Parameter α
  | .scalar a => .number "default" a
  | .color d => .color "default" d

/-- The value of a channel that is given a kind, by its number: a number becomes a gray, and a color its
brightness, unless it is of this kind already. -/
def convert (u : ChannelValue α) (kind : Nat) : ChannelValue α :=
  match kind, u with
  | 0, .color d => .scalar d.brightness
  | 1, .scalar a => .color (Color.gray a)
  | _, u => u

end ChannelValue

namespace Channel

omit [Arith α] in
/-- The value of a channel is one of its parameters. -/
theorem parameter_mem (c : Channel α) : c.unbound.parameter ∈ c.parameters := by
  obtain ⟨title, unbound⟩ := c
  cases unbound <;> exact .tail _ (.head _)

omit [Arith α] in
theorem nodup_names (c : Channel α) : (Parameter.names c.parameters).Nodup := by
  have hnames : Parameter.names c.parameters = ["kind", "default"] := by
    obtain ⟨title, unbound⟩ := c
    cases unbound <;> rfl
  rw [hnames]
  decide

omit [Arith α] in
theorem mem_names_iff (c : Channel α) :
    name ∈ Parameter.names c.parameters ↔ name = "kind" ∨ name = "default" := by
  obtain ⟨title, unbound⟩ := c
  cases unbound <;> exact List.mem_pair

theorem setParameter_unlisted (c : Channel α) (h : name ∉ Parameter.names c.parameters) :
    c.setParameter name v = .error (.unknown name) := by
  obtain ⟨hkind, hdefault⟩ := not_or.mp (mt c.mem_names_iff.mpr h)
  exact setParameter.eq_3 c name v hkind hdefault

/-- What a channel does with a kind that it accepts. -/
theorem setParameter_kind_eq (c : Channel α) :
    c.setParameter "kind" v = do
      return { c with unbound := c.unbound.convert (← v.asChoice "kind" kinds.length) } := by
  obtain ⟨title, unbound⟩ := c
  unfold setParameter
  cases v.asChoice "kind" kinds.length with
  | error e => rfl
  | ok kind =>
    -- the first two change the kind
    match kind, unbound with
    | 0, .color d => rfl
    | 1, .scalar a => rfl
    | 0, .scalar a => rfl
    | 1, .color d => rfl
    | _ + 2, .scalar a => rfl
    | _ + 2, .color d => rfl

theorem recognized_setParameter (c : Channel α) (h : name ∈ Parameter.names c.parameters) :
    Recognized (c.setParameter name v) := by
  rcases c.mem_names_iff.mp h with rfl | rfl
  · rw [setParameter_kind_eq]
    exact (v.recognized_asChoice _ _).put _
  · obtain ⟨title, unbound⟩ := c
    cases unbound with
    | scalar a => exact (v.recognized_asNumber _).put _
    | color d => exact (v.recognized_asColor _).put _

/-- The value of a channel is listed when it is set. -/
theorem parameters_of_setParameter {c changed : Channel α} (hname : name ≠ "kind")
    (h : c.setParameter name v = .ok changed) :
    changed.parameters = c.parameters.map (.receive name v) := by
  by_cases hdefault : name = "default"
  · subst hdefault
    obtain ⟨title, unbound⟩ := c
    cases unbound with
    | scalar a =>
      obtain ⟨b, hb, h⟩ := bind_eq_ok_iff.mp h
      cases h
      exact congrArg₂ List.cons rfl (congrArg (· :: []) (Parameter.receive_number hb _).symm)
    | color d =>
      obtain ⟨b, hb, h⟩ := bind_eq_ok_iff.mp h
      cases h
      obtain rfl := asColor_eq_ok hb
      rfl
  · -- no other name is accepted
    rw [setParameter.eq_3 c name v hname hdefault] at h
    cases h

/-- A kind is listed when it is set, and with it the value that the channel then has. -/
theorem parameters_of_setParameter_kind {c changed : Channel α}
    (h : c.setParameter "kind" v = .ok changed) :
    ∃ kind < kinds.length, v = .choice kind ∧
      changed.parameters = [.choice "kind" kinds kind, (c.unbound.convert kind).parameter] := by
  rw [setParameter_kind_eq] at h
  obtain ⟨kind, hchoice, h⟩ := bind_eq_ok_iff.mp h
  cases h
  obtain ⟨rfl, hkind⟩ := asChoice_eq_ok hchoice
  refine ⟨kind, hkind, rfl, ?_⟩
  obtain ⟨title, unbound⟩ := c
  match kind, unbound with
  | 0, .scalar a => rfl
  | 0, .color d => rfl
  | 1, .scalar a => rfl
  | 1, .color d => rfl

end Channel

/-! ### The catalog -/

/-- What a caller may expect of the parameters of a module, whose change in place is
`Catalog.assign`. -/
structure Catalog.ParameterLaws (m : Catalog α) : Prop where
  /-- Every parameter has a name of its own. -/
  nodup : (Parameter.names m.parameters).Nodup
  /-- A name is refused as unknown if and only if it is not listed. -/
  unknown : ∀ name v n, m.setParameter name v = .error (.unknown n) ↔
    n = name ∧ name ∉ Parameter.names m.parameters
  /-- Whenever a value is refused, the module is still what it was. -/
  refused : ∀ name v e, m.setParameter name v = .error e → assign name v m = (.error e, m)
  /-- A module that accepts a value has become the changed module. -/
  accepted : ∀ name v changed, m.setParameter name v = .ok changed →
    assign name v m = (.ok (), changed)
  /-- The value is then listed under its name, in the form that the parameter takes, and all other
  parameters are what they were.  This is so unless the kind of a channel is set. -/
  received : ∀ name v changed, m.setParameter name v = .ok changed →
    (∀ c, m = .channel c → name ≠ "kind") →
      changed.parameters = m.parameters.map (.receive name v)
  /-- The kind of a channel is listed as well, and with it the value that has been converted to it. -/
  converted : ∀ c v changed, m = .channel c → m.setParameter "kind" v = .ok changed →
    ∃ kind < Channel.kinds.length, v = .choice kind ∧
      changed.parameters
        = [.choice "kind" Channel.kinds kind, (c.unbound.convert kind).parameter]

namespace Catalog

theorem takesParameters (m : Catalog α) (h : ∀ c, m ≠ .channel c) :
    TakesParameters parameters setParameter m := by
  cases m with
  | source m => exact m.takesParameters.onPart Catalog.source (fun _ => rfl) fun _ _ => rfl
  | channel c => exact absurd rfl (h c)
  | expression m => exact m.takesParameters.onPart Catalog.expression (fun _ => rfl) fun _ _ => rfl
  | matching m => exact m.takesParameters.onPart Catalog.matching (fun _ => rfl) fun _ _ => rfl
  | texture m => exact m.takesParameters.onPart Catalog.texture (fun _ => rfl) fun _ _ => rfl
  | mapping m => exact m.takesParameters.onPart Catalog.mapping (fun _ => rfl) fun _ _ => rfl
  | operator | shaping | composition => exact takesParameters_nil rfl fun _ _ => rfl

theorem setParameter_unlisted (m : Catalog α) (h : name ∉ Parameter.names m.parameters) :
    m.setParameter name v = .error (.unknown name) := by
  by_cases hchannel : ∃ c, m = .channel c
  · obtain ⟨c, rfl⟩ := hchannel
    change (do return Catalog.channel (← c.setParameter name v)) = _
    rw [c.setParameter_unlisted h]
    rfl
  · exact (m.takesParameters (not_exists.mp hchannel)).unlisted name v h

theorem recognized_setParameter (m : Catalog α) (h : name ∈ Parameter.names m.parameters) :
    Recognized (m.setParameter name v) := by
  by_cases hchannel : ∃ c, m = .channel c
  · obtain ⟨c, rfl⟩ := hchannel
    exact (c.recognized_setParameter h).put Catalog.channel
  · exact (m.takesParameters (not_exists.mp hchannel)).listed name v h

/-- **Parameters are set lawfully and as a whole.**  A module, whatever its configuration, refuses a name
as unknown exactly if it does not list it.  A value that is refused, for this or for another reason,
leaves the module as it was.  A value that is accepted is listed under its name afterwards, and no other
parameter changes; only the kind of a channel brings a new value of the channel with it. -/
theorem parameterLaws (m : Catalog α) : m.ParameterLaws where
  nodup := by
    by_cases hchannel : ∃ c, m = .channel c
    · obtain ⟨c, rfl⟩ := hchannel
      exact c.nodup_names
    · exact (m.takesParameters (not_exists.mp hchannel)).nodup
  unknown name v n := by
    by_cases hname : name ∈ Parameter.names m.parameters
    · have hrecognized := m.recognized_setParameter (v := v) hname n
      constructor
      · intro h
        exact absurd h hrecognized
      · rintro ⟨-, hnot⟩
        exact absurd hname hnot
    · rw [m.setParameter_unlisted hname]
      constructor
      · intro h
        cases h
        exact ⟨rfl, hname⟩
      · rintro ⟨rfl, -⟩
        rfl
  refused name v e h := by
    rw [assign_apply, h]
    rfl
  accepted name v changed h := by
    rw [assign_apply, h]
    rfl
  received name v changed h hkind := by
    by_cases hchannel : ∃ c, m = .channel c
    · obtain ⟨c, rfl⟩ := hchannel
      obtain ⟨c', hc, h⟩ := bind_eq_ok_iff.mp h
      cases h
      exact Channel.parameters_of_setParameter (hkind c rfl) hc
    · exact (m.takesParameters (not_exists.mp hchannel)).received name v changed h
  converted c v changed hm h := by
    subst hm
    obtain ⟨c', hc, h⟩ := bind_eq_ok_iff.mp h
    cases h
    exact Channel.parameters_of_setParameter_kind hc

end Catalog

end TextureGraph
