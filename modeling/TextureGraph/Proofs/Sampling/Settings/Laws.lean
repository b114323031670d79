import Mathlib.Data.List.Nodup
import TextureGraph.Proofs.Sampling.Totality
import TextureGraph.Sampling.Settings.Record
import TextureGraph.Sampling.Settings.Scan

/-!
# What is known of the library for texts

The text of a record is made of tokens: its name, which may be left out, and in parentheses the fields, each a
name, a colon and a literal, with commas between them (`Settings.tokens`, `Scan.consistsOf`).
`RecordCodec.Lawful` collects what the documentation of the library says:

* what is written is such a text, with a literal for each value;
* such a text is read as the fields that it lists, with the values that the literals stand for;
* settings are taken apart into their fields in the order of declaration, without the one that is skipped;
* fields that are left out have their standard values when settings are put together.

Which literals there are is not fixed.  The round trip and the texts with some of the fields are derived from
these laws alone.
-/

namespace TextureGraph

namespace Scan

/-- The characters that may stand between tokens wherever. -/
def isSpace (c : Char) : Bool :=
  c == ' ' || c == '\t' || c == '\n' || c == '\r'

/-- Whether the characters are the given tokens, with nothing but blanks around them. -/
def consistsOf : List String → List Char → Bool
  | [], cs => cs.all isSpace
  | token :: tokens, cs => (literal token (cs.dropWhile isSpace)).any (consistsOf tokens)

end Scan

/-- The value is one that the field of the record can have: whole numbers fit the types that hold them, and
other numbers are finite. -/
def Setting.Fits : Setting → Prop
  | .version n | .minDepth n | .maxDepth n => n < 2 ^ 32
  | .errorTolerance x | .baseBlur x => x.isFinite = true
  | .threads n => ∀ k ∈ n, k < 2 ^ 64

namespace Settings

/-- The comma between a field and those behind it.  The last field has one behind it only if it is asked
for. -/
def separator (trailing : Bool) (fields : List (Setting × String)) : List String :=
  if fields.isEmpty && !trailing then [] else [","]

/-- Fields with their literals and with commas between them, up to the closing parenthesis. -/
def entries (trailing : Bool) : List (Setting × String) → List String
  | [] => [")"]
  | (x, literal) :: fields =>
    x.field.name :: ":" :: literal :: (separator trailing fields ++ entries trailing fields)

/-- The tokens of a text that lists fields, with or without the name of the record. -/
def tokens (named trailing : Bool) (fields : List (Setting × String)) : List String :=
  (if named then [recordName] else []) ++ "(" :: entries trailing fields

end Settings

open Scan Settings

/-- What is documented of a library for texts of records, and of what it derives for settings.  `literal` says
which texts stand for the value of a field. -/
structure RecordCodec.Lawful (codec : RecordCodec) (literal : Setting → String → Prop) : Prop where
  /-- A record is written with its name, its fields in order, and a literal for each of the values. -/
  write_spells : ∀ settings, (∀ x ∈ settings, x.Fits) →
    ∃ text trailing fields, codec.write recordName settings = some text ∧
      fields.map Prod.fst = settings ∧ (∀ p ∈ fields, literal p.1 p.2) ∧
      consistsOf (tokens true trailing fields) text.toList = true
  /-- A text that lists fields, each of them once, is read as these fields. -/
  read_spelled : ∀ named trailing fields (text : String), (∀ p ∈ fields, literal p.1 p.2) →
    (fields.map fun p => p.1.field).Nodup →
    consistsOf (tokens named trailing fields) text.toList = true →
    codec.read recordName text = some (fields.map Prod.fst)
  /-- Settings are taken apart into their fields, but for the one that is skipped. -/
  disassemble_eq : ∀ s : Settings Float,
    codec.disassemble s = (Field.all.filter fun f => !s.isSkipped f).map s.setting
  /-- Settings that are put together have the values given, and standard values where none are given. -/
  assemble_of_nodup : ∀ settings, (settings.map Setting.field).Nodup →
    ∃ s, codec.assemble settings = some s ∧ (∀ x ∈ settings, s.setting x.field = x) ∧
      ∀ f ∉ settings.map Setting.field, s.setting f = (standard : Settings Float).setting f

namespace Settings

variable {s t : Settings Float}

theorem field_setting (s : Settings Float) (f : Field) : (s.setting f).field = f := by
  cases f <;> rfl

theorem Field.mem_all (f : Field) : f ∈ all := by
  cases f <;> decide

theorem Field.nodup_all : all.Nodup := by
  decide

/-- Settings are the same if all fields have the same values. -/
theorem eq_of_setting (h : ∀ f, s.setting f = t.setting f) : s = t := by
  obtain ⟨version, errorTolerance, minDepth, maxDepth, baseBlur, threads⟩ := s
  obtain ⟨version', errorTolerance', minDepth', maxDepth', baseBlur', threads'⟩ := t
  rw [Settings.mk.injEq]
  exact ⟨Setting.version.inj (h .version), Setting.errorTolerance.inj (h .errorTolerance),
    Setting.minDepth.inj (h .minDepth), Setting.maxDepth.inj (h .maxDepth),
    Setting.baseBlur.inj (h .baseBlur), Setting.threads.inj (h .threads)⟩

/-- The whole numbers of settings fit the types that hold them. -/
structure Fits (s : Settings Float) : Prop where
  /-- The version has 32 bits. -/
  version : s.version < 2 ^ 32
  /-- The least depth has 32 bits. -/
  minDepth : s.minDepth < 2 ^ 32
  /-- The greatest depth has 32 bits. -/
  maxDepth : s.maxDepth < 2 ^ 32
  /-- The number of workers has 64 bits. -/
  threads : ∀ n ∈ s.threads, n < 2 ^ 64

theorem Fits.setting (hs : s.Fits) (htolerance : s.errorTolerance.isFinite = true)
    (hblur : s.baseBlur.isFinite = true) (f : Field) : (s.setting f).Fits := by
  cases f with
  | version => exact hs.version
  | errorTolerance => exact htolerance
  | minDepth => exact hs.minDepth
  | maxDepth => exact hs.maxDepth
  | baseBlur => exact hblur
  | threads => exact hs.threads

/-- The checks that settings pass when they can be used. -/
theorem validate_eq_ok_iff : s.validate = .ok () ↔
    s.version ≤ formatVersion ∧ isMeasure s.errorTolerance = true ∧ isMeasure s.baseBlur = true ∧
      s.maxDepth ≤ depthLimit ∧ s.threads ≠ some 0 ∧ s.minDepth ≤ s.maxDepth := by
  unfold validate
  split_ifs <;> simp_all
  omega

/-- The measures of settings that can be used are finite. -/
theorem isFinite_of_validate (h : s.validate = .ok ()) :
    s.errorTolerance.isFinite = true ∧ s.baseBlur.isFinite = true := by
  obtain ⟨-, htolerance, hblur, -⟩ := validate_eq_ok_iff.mp h
  exact ⟨(Bool.and_eq_true_iff.mp htolerance).1, (Bool.and_eq_true_iff.mp hblur).1⟩

/-! ### What follows from the laws -/

variable {codec : RecordCodec} {literal : Setting → String → Prop}

/-- What is read is checked. -/
theorem parse_of_read {text : String} (hread : (codec.read recordName text).bind codec.assemble = some t) :
    (t.validate = .ok () → parse codec text = .ok t) ∧
      ∀ e, t.validate = .error e → parse codec text = .error e := by
  unfold parse
  rw [hread]
  refine ⟨fun hok => ?_, fun e herror => ?_⟩
  · simp only [hok]
    rfl
  · simp only [herror]
    rfl

/-- A text that lists some of the fields of settings is read as settings with these values, and with standard
values elsewhere. -/
theorem read_listed (h : codec.Lawful literal) {listed : List Field} (hnodup : listed.Nodup)
    {fields : List (Setting × String)} (hfields : fields.map Prod.fst = listed.map s.setting)
    (hliteral : ∀ p ∈ fields, literal p.1 p.2) {named trailing : Bool} {text : String}
    (htext : consistsOf (tokens named trailing fields) text.toList = true) :
    ∃ t, (codec.read recordName text).bind codec.assemble = some t ∧
      ∀ f, t.setting f = if f ∈ listed then s.setting f else (standard : Settings Float).setting f := by
  have hnames : (listed.map s.setting).map Setting.field = listed := by
    rw [List.map_map]
    exact (List.map_congr_left fun f _ => s.field_setting f).trans (List.map_id _)
  have hdistinct : (fields.map fun p => p.1.field).Nodup := by
    have heq : (fields.map fun p => p.1.field) = (fields.map Prod.fst).map Setting.field := by
      rw [List.map_map]
      rfl
    rwa [heq, hfields, hnames]
  obtain ⟨t, hassemble, hlisted, hothers⟩ := h.assemble_of_nodup (listed.map s.setting) (by rwa [hnames])
  refine ⟨t, ?_, fun f => ?_⟩
  · rw [h.read_spelled named trailing fields text hliteral hdistinct htext, hfields]
    exact hassemble
  · split_ifs with hf
    · have hvalue := hlisted _ (List.mem_map_of_mem hf)
      rwa [s.field_setting] at hvalue
    · exact hothers f (by rwa [hnames])

end Settings

end TextureGraph
