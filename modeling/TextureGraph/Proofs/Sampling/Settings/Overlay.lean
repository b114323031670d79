import Mathlib.Data.Finset.Insert
import TextureGraph.Proofs.Sampling.Settings.Codec

/-!
# Texts that give some of the fields

`Settings.parse_overlay`: a text that gives some of the fields of settings that can be used, in any order and
with any blanks around its tokens, is read as the standard settings with these fields put over them
(`Settings.overlay`).  They may fail to fit together, and then the text is refused with the error of
`validate`: this happens only to a least depth that exceeds the standard greatest depth and comes without a
greatest depth of its own (`Settings.validate_overlay`).
-/

namespace TextureGraph.Settings

open Scan

/-- Settings with the listed fields of `s` and standard values elsewhere. -/
def overlay (listed : Finset Field) (s : Settings Float) : Settings Float :=
  let t : Settings Float := standard
  { version := if .version ∈ listed then s.version else t.version
    errorTolerance := if .errorTolerance ∈ listed then s.errorTolerance else t.errorTolerance
    minDepth := if .minDepth ∈ listed then s.minDepth else t.minDepth
    maxDepth := if .maxDepth ∈ listed then s.maxDepth else t.maxDepth
    baseBlur := if .baseBlur ∈ listed then s.baseBlur else t.baseBlur
    threads := if .threads ∈ listed then s.threads else t.threads }

variable {s t : Settings Float} {listed : Finset Field}

theorem setting_overlay (listed : Finset Field) (s : Settings Float) (f : Field) :
    (overlay listed s).setting f
      = if f ∈ listed then s.setting f else (standard : Settings Float).setting f := by
  cases f <;> exact apply_ite _ _ _ _

/-! ### Settings that fit together -/

/-- Settings whose fields can be used by themselves fail to fit together for their depths only. -/
theorem validate_of_fields (hversion : s.version ≤ formatVersion)
    (htolerance : isMeasure s.errorTolerance = true) (hblur : isMeasure s.baseBlur = true)
    (hlimit : s.maxDepth ≤ depthLimit) (hthreads : s.threads ≠ some 0) :
    s.validate = if s.maxDepth < s.minDepth then .error (.invalidDepth s.minDepth s.maxDepth)
      else .ok () := by
  unfold validate
  rw [if_neg (Nat.not_lt.mpr hversion), htolerance, hblur]
  simp [Nat.not_lt.mpr hlimit, hthreads]

theorem validate_standard_binary64 : (standard : Settings Float).validate = .ok () := by
  refine validate_eq_ok_iff.mpr ⟨?_, ?_, ?_, ?_, ?_, ?_⟩ <;> decide +kernel

/-- **Listed fields fit in with the standard ones**, except for a least depth above the standard greatest one
that comes without a greatest depth. -/
theorem validate_overlay (hvalid : s.validate = .ok ()) (listed : Finset Field) :
    (overlay listed s).validate =
      if .minDepth ∈ listed ∧ .maxDepth ∉ listed ∧ (standard : Settings Float).maxDepth < s.minDepth then
        .error (.invalidDepth s.minDepth (standard : Settings Float).maxDepth)
      else .ok () := by
  obtain ⟨hversion, htolerance, hblur, hlimit, hthreads, hdepths⟩ := validate_eq_ok_iff.mp hvalid
  obtain ⟨hversion', htolerance', hblur', hlimit', hthreads', -⟩ :=
    validate_eq_ok_iff.mp validate_standard_binary64
  have hleast : (standard : Settings Float).minDepth = 0 := rfl
  -- Each field comes from one of the two, and both of them can be used.
  rw [validate_of_fields (by unfold overlay; split_ifs <;> assumption)
    (by unfold overlay; split_ifs <;> assumption) (by unfold overlay; split_ifs <;> assumption)
    (by unfold overlay; split_ifs <;> assumption) (by unfold overlay; split_ifs <;> assumption)]
  by_cases hmin : Field.minDepth ∈ listed <;> by_cases hmax : Field.maxDepth ∈ listed
  · simp [overlay, hmin, hmax, hdepths]
  · simp [overlay, hmin, hmax]
  · simp [overlay, hmin, hmax, hleast]
  · simp [overlay, hmin, hmax, hleast]

/-! ### Texts -/

/-- **Texts of listed fields**: let `s` be settings that can be used, and let a text give some of their
fields, each of them once with a literal for its value, in any order and with any blanks around the tokens,
with or without the name of the record and a comma at the end.  Whatever library reads the texts of records,
if it does what is documented of it, the text is read as the standard settings with these fields put over
them, if they can be used, and it is refused with the error of `validate` otherwise.  They cannot be used
only if the text gives a least depth above the standard greatest one, and no greatest depth. -/
theorem parse_overlay {codec : RecordCodec} {literal : Setting → String → Prop}
    (h : codec.Lawful literal) (s : Settings Float) (hvalid : s.validate = .ok ())
    (listed : List Field) (hnodup : listed.Nodup) (literals : Field → String)
    (hliteral : ∀ f ∈ listed, literal (s.setting f) (literals f)) (named trailing : Bool) (text : String)
    (htext : consistsOf (tokens named trailing (listed.map fun f => (s.setting f, literals f)))
      text.toList = true) :
    ((overlay listed.toFinset s).validate = .ok () →
        parse codec text = .ok (overlay listed.toFinset s)) ∧
      (∀ e, (overlay listed.toFinset s).validate = .error e → parse codec text = .error e) ∧
      (overlay listed.toFinset s).validate =
        if .minDepth ∈ listed ∧ .maxDepth ∉ listed ∧ (standard : Settings Float).maxDepth < s.minDepth then
          .error (.invalidDepth s.minDepth (standard : Settings Float).maxDepth)
        else .ok () := by
  have hfields : (listed.map fun f => (s.setting f, literals f)).map Prod.fst = listed.map s.setting := by
    rw [List.map_map]
    rfl
  have hspelled : ∀ p ∈ listed.map fun f => (s.setting f, literals f), literal p.1 p.2 := by
    intro p hp
    obtain ⟨f, hf, rfl⟩ := List.mem_map.mp hp
    exact hliteral f hf
  obtain ⟨t, hread, ht⟩ := read_listed h hnodup hfields hspelled htext
  obtain rfl : t = overlay listed.toFinset s := by
    refine eq_of_setting fun f => ?_
    rw [ht, setting_overlay]
    simp only [List.mem_toFinset]
  obtain ⟨hok, herror⟩ := parse_of_read hread
  refine ⟨hok, herror, ?_⟩
  simpa only [List.mem_toFinset] using validate_overlay hvalid listed.toFinset

/-- Settings with a least depth above the standard greatest one, and a greatest depth that goes with it. -/
def deep : Settings Float :=
  { version := 1, errorTolerance := 0.01, minDepth := 5, maxDepth := 6, baseBlur := 0.5,
    threads := some 2 }

theorem fits_deep (f : Field) : (deep.setting f).Fits := by
  have hfits : deep.Fits := ⟨by decide, by decide, by decide, by simp [deep]⟩
  exact hfits.setting (by decide +kernel) (by decide +kernel) f

/-- The least depth of `deep` does not go with the standard greatest depth; its other fields go with the
standard ones. -/
theorem parse_overlay_deep :
    parse codec "(min_depth: 5)" = .error (.invalidDepth 5 4)
      ∧ parse codec "SamplerSettings (base_blur: 0.5, threads : Some(2),\n\tmax_depth: 6 ,)"
        = .ok { (standard : Settings Float) with maxDepth := 6, baseBlur := 0.5, threads := some 2 } := by
  have hvalid : deep.validate = .ok () := by
    refine validate_eq_ok_iff.mpr ⟨?_, ?_, ?_, ?_, ?_, ?_⟩ <;> decide +kernel
  constructor
  · obtain ⟨-, hrefused, hvalidate⟩ := parse_overlay codec_lawful deep hvalid [.minDepth] (by decide)
      (fun f => (deep.setting f).text) (fun f _ => ⟨fits_deep f, rfl⟩) false false
      "(min_depth: 5)" (by decide +kernel)
    exact hrefused _ hvalidate
  · obtain ⟨hread, -, hvalidate⟩ := parse_overlay codec_lawful deep hvalid
      [.baseBlur, .threads, .maxDepth] (by decide) (fun f => (deep.setting f).text)
      (fun f _ => ⟨fits_deep f, rfl⟩) true true
      "SamplerSettings (base_blur: 0.5, threads : Some(2),\n\tmax_depth: 6 ,)" (by decide +kernel)
    exact hread hvalidate

end TextureGraph.Settings
