import TextureGraph.Proofs.Sampling.Settings.Codec

/-!
# Written settings are read back

`Settings.parse_render`: whatever library writes and reads the texts of records, if it does what is documented
of it, what is written is read back when it can be used, and refused for the same reason otherwise.
-/

namespace TextureGraph.Settings

section Lawful

variable {codec : RecordCodec} {literal : Setting → String → Prop} {s : Settings Float}

/-- Settings are written with all their fields, but for the number of workers when it is not fixed, and this is
what the standard settings have. -/
theorem exists_render (h : codec.Lawful literal) (hs : s.Fits)
    (htolerance : s.errorTolerance.isFinite = true) (hblur : s.baseBlur.isFinite = true) :
    ∃ text, render codec s = .ok text ∧
      (codec.read recordName text).bind codec.assemble = some s := by
  let listed : List Field := Field.all.filter fun f => !s.isSkipped f
  have hfits : ∀ x ∈ codec.disassemble s, x.Fits := by
    intro x hx
    rw [h.disassemble_eq] at hx
    obtain ⟨f, -, rfl⟩ := List.mem_map.mp hx
    exact hs.setting htolerance hblur f
  obtain ⟨text, trailing, fields, hwrite, hfields, hliteral, htext⟩ := h.write_spells _ hfits
  rw [h.disassemble_eq] at hfields
  obtain ⟨t, hread, ht⟩ := read_listed h (Field.nodup_all.filter _ : listed.Nodup) hfields hliteral htext
  have hsame : t = s := by
    refine eq_of_setting fun f => ?_
    rw [ht]
    split_ifs with hf
    · rfl
    · -- Only a number of workers that is not fixed is skipped.
      rw [List.mem_filter, not_and, Bool.not_eq_true', Bool.not_eq_false] at hf
      have hskipped := hf f.mem_all
      rw [isSkipped, Bool.and_eq_true, beq_iff_eq, Option.isNone_iff_eq_none] at hskipped
      obtain ⟨rfl, hnone⟩ := hskipped
      exact congrArg Setting.threads hnone.symm
  refine ⟨text, ?_, hsame ▸ hread⟩
  rw [render, hwrite]

/-- **Written settings are read back** if they can be used.  Others are refused for the reason that they cannot
be used, as long as they hold finite numbers. -/
theorem parse_render (h : codec.Lawful literal) (s : Settings Float) (hs : s.Fits) :
    (s.validate = .ok () → ∃ text, render codec s = .ok text ∧ parse codec text = .ok s) ∧
      ∀ e, s.validate = .error e → s.errorTolerance.isFinite = true → s.baseBlur.isFinite = true →
        ∃ text, render codec s = .ok text ∧ parse codec text = .error e := by
  refine ⟨fun hvalid => ?_, fun e hinvalid htolerance hblur => ?_⟩
  · obtain ⟨htolerance, hblur⟩ := isFinite_of_validate hvalid
    obtain ⟨text, hrender, hread⟩ := exists_render h hs htolerance hblur
    exact ⟨text, hrender, (parse_of_read hread).1 hvalid⟩
  · obtain ⟨text, hrender, hread⟩ := exists_render h hs htolerance hblur
    exact ⟨text, hrender, (parse_of_read hread).2 e hinvalid⟩

end Lawful

/-- Settings with a tolerance that is zero and negative, and with the greatest finite blur. -/
def extreme (threads : Option ℕ) : Settings Float :=
  { version := 1, errorTolerance := -0.0, minDepth := 0, maxDepth := 16,
    baseBlur := 1.7976931348623157e308, threads := threads }

/-- The numbers of `extreme` can be measures. -/
theorem isMeasure_extreme (threads : Option ℕ) :
    isMeasure (extreme threads).errorTolerance = true
      ∧ isMeasure (extreme threads).baseBlur = true := by
  change isMeasure (-0.0 : Float) = true ∧ isMeasure (1.7976931348623157e308 : Float) = true
  decide +kernel

theorem fits_extreme {threads : Option ℕ} (h : ∀ n ∈ threads, n < 2 ^ 64) :
    (extreme threads).Fits :=
  { version := by simp [extreme]
    minDepth := by simp [extreme]
    maxDepth := by simp [extreme]
    threads := h }

theorem validate_extreme (threads : Option ℕ) : (extreme threads).validate
    = if threads = some 0 then .error .zeroThreads else .ok () := by
  obtain ⟨htolerance, hblur⟩ := isMeasure_extreme threads
  unfold validate
  rw [htolerance, hblur]
  simp [extreme, formatVersion, depthLimit]

theorem parse_render_extreme :
    (∃ text, render codec (extreme (some 2)) = .ok text ∧ parse codec text = .ok (extreme (some 2))) ∧
      (∃ text, render codec (extreme none) = .ok text ∧ parse codec text = .ok (extreme none)) ∧
      ∃ text, render codec (extreme (some 0)) = .ok text ∧
        parse codec text = .error .zeroThreads := by
  refine ⟨(parse_render codec_lawful _ (fits_extreme (by simp))).1 ?_,
    (parse_render codec_lawful _ (fits_extreme (by simp))).1 ?_,
    (parse_render codec_lawful _ (fits_extreme (by simp))).2 _ ?_ (by decide +kernel)
      (by decide +kernel)⟩
  · exact validate_extreme (some 2)
  · exact validate_extreme none
  · exact validate_extreme (some 0)

end TextureGraph.Settings
