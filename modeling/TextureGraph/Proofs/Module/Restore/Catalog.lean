import TextureGraph.Proofs.Module.Restore.Mapping
import TextureGraph.Proofs.Module.Restore.Source
import TextureGraph.Proofs.Module.Restore.Texture

/-!
# Modules are restored from their parameters

`Catalog.restore_parameters`: whatever a caller has done to the parameters of a module, to set the
parameters that it shows, in their order, makes a fresh module of its type equal to it, and leaves the
module itself as it is.  The exception is a channel of numbers whose value is not finite, which a change
of the kind of the channel may leave behind: this value is refused.

What is shared by a module and a fresh one of its type, and what holds of the values of its
parameters, is a relation between both (`Catalog.Configures`): it is kept when a parameter is set, and
it is all that is needed to restore the module.
-/

namespace TextureGraph

open TextureModule ParameterValue

section

variable {v : ParameterValue Float} {name : String}

/-! ### Expressions -/

/-- The text of an expression is read again as the same expression. -/
def Expression.IsRead (e : Expression Float) : Prop :=
  parse e.source = .ok e

theorem Expression.isRead_of_parse {source : String} {e : Expression Float}
    (h : parse source = .ok e) : e.IsRead := by
  obtain ⟨root, hroot, h⟩ := bind_eq_ok_iff.mp h
  cases h
  unfold IsRead parse
  rw [hroot]
  rfl

theorem Expression.isRead_of_setParameter {e changed : Expression Float}
    (hset : e.setParameter name v = .ok changed) : changed.IsRead := by
  unfold Expression.setParameter at hset
  split at hset
  · obtain ⟨source, -, hset⟩ := bind_eq_ok_iff.mp hset
    exact isRead_of_parse (mapError_eq_ok_iff.mp hset)
  · cases hset

theorem Expression.IsRead.restore {initial e : Expression Float} (h : e.IsRead) :
    restore initial e.parameters = .ok e := by
  have hset : Expression.setParameter initial "expression" (.text e.source) = .ok e := by
    unfold Expression.setParameter
    rw [if_pos rfl]
    change (parse e.source).mapError _ = _
    exact mapError_eq_ok_iff.mpr h
  exact restore_cons hset []

/-! ### Tests -/

/-- A test has the type of another one, and a tolerance that it takes. -/
inductive Matching.Configures : Matching Float → Matching Float → Prop where
  | select : Configures .select .select
  | numbers {b a : Float} (h : a.isFinite = true) (hpos : 0.0 < a) :
    Configures (.numbers b) (.numbers a)
  | colors : Configures .colors .colors

theorem Matching.Configures.set {initial m changed : Matching Float}
    (h : initial.Configures m) (hv : v.IsWord) (hset : m.setParameter name v = .ok changed) :
    initial.Configures changed := by
  unfold Matching.setParameter at hset
  split at hset
  · obtain ⟨a, ha, hset⟩ := bind_eq_ok_iff.mp hset
    obtain ⟨hnumber, hpos⟩ := asPositive_eq_ok_iff.mp ha
    cases hset
    cases h with
    | numbers => exact .numbers (isFinite_of_asNumber hv hnumber) hpos
  · cases hset

theorem Matching.Configures.self {initial m : Matching Float} (h : initial.Configures m) :
    m.Configures m := by
  cases h with
  | select => exact .select
  | numbers h hpos => exact .numbers h hpos
  | colors => exact .colors

theorem Matching.Configures.restore {initial m : Matching Float} (h : initial.Configures m) :
    restore initial m.parameters = .ok m := by
  cases h with
  | select => rfl
  | @numbers b a h hpos =>
    have hset : Matching.setParameter (.numbers b) "tolerance" (.number a) = .ok (.numbers a) := by
      simp only [Matching.setParameter, asPositive_number h hpos]
      rfl
    exact restore_cons hset []
  | colors => rfl

/-! ### The catalog -/

/-- A module has the type of another one, and values that its parameters take. -/
inductive Catalog.Configures : Catalog Float → Catalog Float → Prop where
  | source {initial m : Source Float} (h : initial.Configures m) :
    Configures (.source initial) (.source m)
  -- the kind of a channel may have changed
  | channel {initial m : Channel Float} (h : m.name = initial.name) :
    Configures (.channel initial) (.channel m)
  | operator {m : Operator} : Configures (.operator m) (.operator m)
  | shaping {m : Shaping} : Configures (.shaping m) (.shaping m)
  | expression {initial m : Expression Float} (h : m.IsRead) :
    Configures (.expression initial) (.expression m)
  | matching {initial m : Matching Float} (h : initial.Configures m) :
    Configures (.matching initial) (.matching m)
  | composition {m : Composition} : Configures (.composition m) (.composition m)
  | texture {initial m : Texture Float} (h : initial.Configures m) :
    Configures (.texture initial) (.texture m)
  | mapping {initial m : Mapping Float} (h : initial.Configures m) :
    Configures (.mapping initial) (.mapping m)

theorem Catalog.Configures.set {initial m changed : Catalog Float}
    (h : initial.Configures m) (hv : v.IsWord) (hset : m.setParameter name v = .ok changed) :
    initial.Configures changed := by
  cases h with
  | operator | shaping | composition => cases hset
  | source h =>
    obtain ⟨_, hm, hset⟩ := bind_eq_ok_iff.mp hset
    cases hset
    exact .source (h.set hv hm)
  | channel h =>
    obtain ⟨_, hm, hset⟩ := bind_eq_ok_iff.mp hset
    cases hset
    exact .channel ((Channel.name_of_setParameter hm).trans h)
  | expression =>
    obtain ⟨_, hm, hset⟩ := bind_eq_ok_iff.mp hset
    cases hset
    exact .expression (Expression.isRead_of_setParameter hm)
  | matching h =>
    obtain ⟨_, hm, hset⟩ := bind_eq_ok_iff.mp hset
    cases hset
    exact .matching (h.set hv hm)
  | texture h =>
    obtain ⟨_, hm, hset⟩ := bind_eq_ok_iff.mp hset
    cases hset
    exact .texture (h.set hv hm)
  | mapping h =>
    obtain ⟨_, hm, hset⟩ := bind_eq_ok_iff.mp hset
    cases hset
    exact .mapping (h.set hv hm)

theorem Catalog.Configures.self {initial m : Catalog Float} (h : initial.Configures m) :
    m.Configures m := by
  cases h with
  | source h => exact .source h.self
  | channel => exact .channel rfl
  | operator => exact .operator
  | shaping => exact .shaping
  | expression h => exact .expression h
  | matching h => exact .matching h.self
  | composition => exact .composition
  | texture h => exact .texture h.self
  | mapping h => exact .mapping h.self

/-- The value of a channel of numbers, when it is none that the channel accepts. -/
def Catalog.refused? : Catalog Float → Option Float
  | .channel ⟨_, .scalar a⟩ => if a.isFinite then none else some a
  | _ => none

theorem Catalog.Configures.restore {initial m : Catalog Float} (h : initial.Configures m) :
    restore initial m.parameters = match m.refused? with
      | none => .ok m
      | some a => .error (.outOfRange "default" (.number a)) := by
  cases h with
  | operator | shaping | composition => rfl
  | source h => exact restore_part (P := Catalog.source) (fun _ _ _ => rfl) h.restore
  | expression h => exact restore_part (P := Catalog.expression) (fun _ _ _ => rfl) h.restore
  | matching h => exact restore_part (P := Catalog.matching) (fun _ _ _ => rfl) h.restore
  | texture h => exact restore_part (P := Catalog.texture) (fun _ _ _ => rfl) h.restore
  | mapping h => exact restore_part (P := Catalog.mapping) (fun _ _ _ => rfl) h.restore
  | @channel initial c h =>
    obtain ⟨name, unbound⟩ := c
    obtain rfl : name = initial.name := h
    cases unbound with
    | color d =>
      exact restore_part (P := Catalog.channel) (fun _ _ _ => rfl) (Channel.restore_color d)
    | scalar a =>
      refine (restore_of_part (P := Catalog.channel) (fun _ _ _ => rfl) _ _).trans ?_
      change (do return Catalog.channel (← TextureModule.restore initial
        (Channel.scalar initial.name a).parameters)) = _
      rw [Channel.restore_scalar, refused?]
      split <;> rfl

end

namespace Catalog

theorem scan_standard : Token.scan 0 ['x'] = .ok [.name "x"] := by
  rw [Token.scan, if_neg (by decide +kernel), if_neg (by decide), if_pos (by decide)]
  dsimp only [List.takeWhile, List.dropWhile]
  rw [Token.scan]
  rfl

theorem isRead_standard : (Expression.standard : Expression Float).IsRead := by
  change (do
    return (⟨"x", ← (do Expr.ofTokens (← Token.scan 0 ['x']))⟩ : Expression Float)) = _
  rw [scan_standard]
  rfl

theorem configures_of_mem_registry (m : Catalog Float) (hm : m ∈ registry) : m.Configures m := by
  cases m with
  | operator => exact .operator
  | shaping => exact .shaping
  | composition => exact .composition
  | channel => exact .channel rfl
  | source m =>
    have hm : m = .number 0.0 ∨ m = .color Color.white ∨ m = .parameter 0 0.0 ∨ m = .coordinate .x := by
      simpa [registry] using hm
    rcases hm with rfl | rfl | rfl | rfl
    · exact .source (.number (by decide +kernel))
    · exact .source .color
    · exact .source (.parameter (by decide) (by decide +kernel))
    · exact .source .coordinate
  | expression m =>
    obtain rfl : m = .standard := by simpa [registry] using hm
    exact .expression isRead_standard
  | matching m =>
    have hm : m = .select ∨ m = .numbers Matching.standardTolerance ∨ m = .colors := by
      simpa [registry] using hm
    rcases hm with rfl | rfl | rfl
    · exact .matching .select
    · exact .matching (.numbers (by decide +kernel) (by decide +kernel))
    · exact .matching .colors
  | texture m =>
    have hm : m = .noise ⟨1, 1.0⟩ ∨ m = .turbulence ⟨1, 1.0⟩ ∨ m = .wood ⟨2, 1.0⟩ 0.25 true ∨
        m = .cells .euclidean := by
      simpa [registry] using hm
    have hfinite : (1.0 : Float).isFinite = true := by decide +kernel
    have haccepted : ∀ count, 1 ≤ count → count ≤ 16 → Octaves.IsAccepted ⟨count, 1.0⟩ :=
      fun count hone hle => ⟨hone, hle, hfinite⟩
    rcases hm with rfl | rfl | rfl | rfl
    · exact .texture (.noise (haccepted 1 (by omega) (by omega)))
    · exact .texture (.turbulence (haccepted 1 (by omega) (by omega)))
    · exact .texture (.wood (haccepted 2 (by omega) (by omega)) (by decide +kernel)
        (by decide +kernel))
    · exact .texture .cells
  | mapping m =>
    have hm : m = .transform .standard ∨ m = .barycentric .standard := by
      simpa [registry] using hm
    rcases hm with rfl | rfl
    · exact .mapping (.transform ⟨by decide +kernel, by decide +kernel, rfl, rfl⟩)
    · exact .mapping (.barycentric ⟨by decide +kernel, rfl, rfl⟩)

/-- **Modules are restored from their parameters.**  Whatever is done to the parameters of a module of
the registry, to set the parameters that it shows afterwards, in their order, makes the module out of a
fresh one of its type, and leaves the module itself as it is.  A channel of numbers whose value is none
that it accepts is the exception: this value is refused in both cases. -/
theorem restore_parameters {initial : Catalog Float} (hinitial : initial ∈ registry)
    {settings : List (String × ParameterValue Float)} (hsettings : ∀ s ∈ settings, s.2.IsWord) :
    let m := configure initial settings
    (m.refused? = none → restore initial m.parameters = .ok m ∧ restore m m.parameters = .ok m) ∧
      ∀ a, m.refused? = some a →
        restore initial m.parameters = .error (.outOfRange "default" (.number a)) ∧
          restore m m.parameters = .error (.outOfRange "default" (.number a)) := by
  have h : initial.Configures (configure initial settings) :=
    configure_induction (configures_of_mem_registry initial hinitial)
      fun _ s _ hs hm hset => hm.set (hsettings s hs) hset
  have hfresh := h.restore
  have hsame := h.self.restore
  refine ⟨fun hnone => ?_, fun a ha => ?_⟩
  · rw [hnone] at hfresh hsame
    exact ⟨hfresh, hsame⟩
  · rw [ha] at hfresh hsame
    exact ⟨hfresh, hsame⟩

theorem restore_parameters_wood :
    let initial : Catalog Float := .texture (.wood ⟨2, 1.0⟩ 0.25 true)
    let m := configure initial [("octaves", .integer 3), ("octaves", .integer 99),
      ("spacing", .number 0.5), ("amplitude", .integer 2)]
    m.refused? = none ∧ restore initial m.parameters = .ok m ∧ restore m m.parameters = .ok m := by
  refine ⟨rfl, ?_⟩
  refine (restore_parameters (by simp [registry]) fun s hs => ?_).1 rfl
  have hs : s = ("octaves", .integer 3) ∨ s = ("octaves", .integer 99) ∨
      s = ("spacing", .number 0.5) ∨ s = ("amplitude", .integer 2) := by
    simpa using hs
  rcases hs with rfl | rfl | rfl | rfl
  · exact ⟨by decide, by decide⟩
  · exact ⟨by decide, by decide⟩
  · trivial
  · exact ⟨by decide, by decide⟩

/-- A channel that was given a color and has turned back into one of numbers. -/
def turned (d : Color Float) : Catalog Float :=
  configure (.channel .standard) [("kind", .choice 1), ("default", .color d), ("kind", .choice 0)]

theorem configures_turned (d : Color Float) : Configures (.channel .standard) (turned d) :=
  .channel rfl

theorem refused?_turned (d : Color Float) :
    (turned d).refused? = if d.brightness.isFinite then none else some d.brightness := rfl

/-- A color that is too bright for a number. -/
def glare : Color Float :=
  ⟨1.0e308, 1.0e308, 1.0e308⟩

theorem restore_turned_glare :
    (turned glare).refused? = some glare.brightness ∧
      restore (.channel .standard : Catalog Float) (turned glare).parameters
        = .error (.outOfRange "default" (.number glare.brightness)) := by
  have hglare : ¬ glare.brightness.isFinite = true := by decide +kernel
  have hrefused : (turned glare).refused? = some glare.brightness := by
    rw [refused?_turned, if_neg hglare]
  have hrestore := (configures_turned glare).restore
  rw [hrefused] at hrestore
  exact ⟨hrefused, hrestore⟩

end Catalog

end TextureGraph
