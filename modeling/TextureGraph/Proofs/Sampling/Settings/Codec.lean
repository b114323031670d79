import TextureGraph.Proofs.Sampling.Settings.Reader
import TextureGraph.Sampling.Settings.Codec

/-!
# The codec keeps to its laws

`Settings.codec_lawful`: the codec does what is documented, where the text that stands for a value is the one
that the value is written as.

* `Setting.readFrom_text`: a value is read from the text that it is written as.
* `Settings.consistsOf_writeRecord`: what is written is made of the tokens of a record.
* `Settings.setting_foldl_put`: fields that are put one after the other keep their values.
-/

namespace TextureGraph

open Scan Settings

/-! ### Values -/

theorem Scan.isToken_of_toDigits {text : String} {n : ℕ} (h : text.toList = Nat.toDigits 10 n) :
    IsToken text := by
  obtain ⟨c, cs, hcs, hmark⟩ := exists_cons_toDigits n
  exact ⟨c, cs, h.trans hcs, hmark⟩

/-- A value is read from the text that it is written as. -/
theorem Setting.readFrom_text {x : Setting} (hx : x.Fits) : x.ReadFrom x.text := by
  cases x with
  | version n | minDepth n | maxDepth n =>
    have htext : (toString n).toList = Nat.toDigits 10 n := Nat.toList_repr
    refine ⟨isToken_of_toDigits htext, fun form rest hrest => ?_⟩
    show (count ((toString n).toList ++ rest)).map _ = _
    rw [htext, count, natural_toDigits hx hrest]
    rfl
  | errorTolerance a | baseBlur a =>
    refine ⟨exists_cons_numberText hx, fun form rest hrest => ?_⟩
    show (float ((numberText a).toList ++ rest)).map _ = _
    rw [float_numberText hx hrest]
    rfl
  | threads n =>
    cases n with
    | none =>
      refine ⟨⟨'N', ['o', 'n', 'e'], rfl, by decide, by decide⟩, fun form rest hrest => ?_⟩
      show (workers form ("None".toList ++ rest)).map _ = _
      rw [workers_none form hrest]
      rfl
    | some n =>
      have htext : ("Some(" ++ toString n ++ ")").toList
          = "Some(".toList ++ (Nat.toDigits 10 n ++ [')']) := by
        simp
      refine ⟨⟨'S', _, htext, by decide, by decide⟩, fun form rest hrest => ?_⟩
      show (workers form (("Some(" ++ toString n ++ ")").toList ++ rest)).map _ = _
      rw [htext, List.append_assoc, List.append_assoc]
      exact congrArg (Option.map _) (workers_some (hx n rfl) form rest)

/-! ### Writing -/

theorem Scan.consistsOf_space {c : Char} (hc : isSpace c = true) (tokens : List String)
    (cs : List Char) : consistsOf tokens (c :: cs) = consistsOf tokens cs := by
  cases tokens with
  | nil => simp [consistsOf, hc]
  | cons token tokens => rw [consistsOf, consistsOf, List.dropWhile_cons_of_pos hc]

namespace Settings

/-- The fields with the texts that their values are written as. -/
def written (settings : List Setting) : List (Setting × String) :=
  settings.map fun x => (x, x.text)

theorem map_fst_written (settings : List Setting) : (written settings).map Prod.fst = settings := by
  rw [written, List.map_map]
  exact List.map_id _

/-- The characters of a line that gives a field. -/
def lineChars (x : Setting) : List Char :=
  ("    " ++ x.field.name ++ ": " ++ x.text ++ ",\n").toList

theorem lineChars_append (x : Setting) (rest : List Char) :
    lineChars x ++ rest = ' ' :: ' ' :: ' ' :: ' ' :: (x.field.name.toList
      ++ (":".toList ++ (' ' :: (x.text.toList ++ (",".toList ++ ('\n' :: rest)))))) := by
  simp [lineChars]

/-- Lines that give fields are made of the entries of a record. -/
theorem consistsOf_lines {settings : List Setting} (h : ∀ x ∈ settings, IsToken x.text) :
    consistsOf (entries true (written settings)) (settings.flatMap lineChars ++ [')']) = true := by
  induction settings with
  | nil =>
    have hend : consistsOf [] [] = true := rfl
    exact consistsOf_append isToken_closing hend
  | cons x settings ih =>
    have hblank : isSpace ' ' = true := rfl
    have hbreak : isSpace '\n' = true := rfl
    have hentries : entries true (written (x :: settings))
        = x.field.name :: ":" :: x.text :: "," :: entries true (written settings) := by
      simp [written, entries, separator]
    rw [List.forall_mem_cons] at h
    rw [hentries, List.flatMap_cons, List.append_assoc, lineChars_append]
    rw [consistsOf_space hblank, consistsOf_space hblank, consistsOf_space hblank,
      consistsOf_space hblank]
    refine consistsOf_append (isToken_name _) (consistsOf_append isToken_colon ?_)
    rw [consistsOf_space hblank]
    refine consistsOf_append h.1 (consistsOf_append isToken_comma ?_)
    rw [consistsOf_space hbreak]
    exact ih h.2

/-- What is written is made of the tokens of a record. -/
theorem consistsOf_writeRecord {settings : List Setting} (h : ∀ x ∈ settings, IsToken x.text) :
    consistsOf (tokens true true (written settings)) (writeRecord recordName settings).toList = true := by
  have hbreak : isSpace '\n' = true := rfl
  have htext : (writeRecord recordName settings).toList
      = recordName.toList ++ ("(".toList ++ ('\n' :: (settings.flatMap lineChars ++ [')']))) := by
    have hopening : "(\n".toList = "(".toList ++ ['\n'] := rfl
    unfold writeRecord
    rw [String.toList_append, String.toList_append, String.toList_append, String.toList_join,
      List.flatMap_map, hopening]
    simp only [List.append_assoc, List.cons_append, List.nil_append]
    rfl
  rw [htext]
  refine consistsOf_append isToken_recordName (consistsOf_append isToken_opening ?_)
  rw [consistsOf_space hbreak]
  exact consistsOf_lines h

/-! ### Putting settings together -/

theorem setting_put (s : Settings Float) (x : Setting) (f : Field) :
    (s.put x).setting f = if f = x.field then x else s.setting f := by
  cases x <;> cases f <;> rfl

/-- **Run**: fields that are put one after the other, each of them once, keep their values. -/
theorem setting_foldl_put {settings : List Setting} (hnodup : (settings.map Setting.field).Nodup)
    (s : Settings Float) :
    (∀ x ∈ settings, (settings.foldl put s).setting x.field = x) ∧
      ∀ f ∉ settings.map Setting.field, (settings.foldl put s).setting f = s.setting f := by
  induction settings generalizing s with
  | nil => exact ⟨fun x hx => absurd hx List.not_mem_nil, fun f _ => rfl⟩
  | cons x settings ih =>
    rw [List.map_cons, List.nodup_cons] at hnodup
    obtain ⟨hlisted, hothers⟩ := ih hnodup.2 (s.put x)
    rw [List.foldl_cons]
    refine ⟨List.forall_mem_cons.mpr ⟨?_, hlisted⟩, fun f hf => ?_⟩
    · rw [hothers _ hnodup.1, setting_put, if_pos rfl]
    · rw [List.map_cons, List.mem_cons, not_or] at hf
      rw [hothers f hf.2, setting_put, if_neg hf.1]

/-- **The codec does what is documented.** -/
theorem codec_lawful : codec.Lawful fun x literal => x.Fits ∧ literal = x.text where
  write_spells settings hfits := by
    have htokens : ∀ x ∈ settings, IsToken x.text := fun x hx =>
      (Setting.readFrom_text (hfits x hx)).isToken
    refine ⟨_, true, written settings, rfl, map_fst_written settings, fun p hp => ?_,
      consistsOf_writeRecord htokens⟩
    obtain ⟨x, hx, rfl⟩ := List.mem_map.mp hp
    exact ⟨hfits x hx, rfl⟩
  read_spelled named trailing fields text hliteral _ htext := by
    refine readRecord_eq (fun p hp => ?_) htext
    obtain ⟨hfits, heq⟩ := hliteral p hp
    rw [heq]
    exact Setting.readFrom_text hfits
  disassemble_eq s := rfl
  assemble_of_nodup settings hnodup :=
    ⟨_, if_pos hnodup, setting_foldl_put hnodup standard⟩

end Settings

end TextureGraph
