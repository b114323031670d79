import Mathlib.Data.List.TakeWhile
import TextureGraph.Proofs.Sampling.Settings.Laws
import TextureGraph.Proofs.Sampling.Settings.Numeral
import TextureGraph.Sampling.Settings.Reader

/-!
# Reading the tokens of a record

A text that is made of the tokens of a record is read as its fields (`Settings.readRecord_eq`).  It is taken
apart token by token; what reads a value has to leave what stands behind it (`Setting.ReadFrom`).
-/

namespace TextureGraph

namespace Scan

variable {c : Char} {cs rest : List Char}

/-! ### Blanks -/

/-- A character that is neither a blank nor the beginning of a comment. -/
structure IsMark (c : Char) : Prop where
  /-- It is no blank. -/
  notBlank : isBlank c = false
  /-- It starts no comment. -/
  ne_slash : c ≠ '/'

/-- Only blanks are passed over in front of such a character. -/
theorem IsMark.blanks_eq (h : IsMark c) (hcs : cs.dropWhile isBlank = c :: rest) :
    blanks cs = some (c :: rest) := by
  unfold blanks blanksWithin
  rw [hcs]
  split
  · rename_i heq
    exact absurd (List.cons.inj heq).1 h.ne_slash
  · rename_i heq
    exact absurd (List.cons.inj heq).1 h.ne_slash
  · rename_i heq
    exact absurd (List.cons.inj heq).1 h.ne_slash
  · rfl

theorem IsMark.blanks_cons (h : IsMark c) (cs : List Char) : blanks (c :: cs) = some (c :: cs) :=
  h.blanks_eq (List.dropWhile_cons_of_neg (by simp [h.notBlank]))

/-! ### Names -/

theorem word_append {chars : List Char} (hstart : ∀ c ∈ chars.head?, isNameStart c = true)
    (hne : chars ≠ []) (hchars : ∀ c ∈ chars, Text.isIdentifierContinue c = true)
    (hmarks : ∀ mark ∈ "r#" :: textMarks, literal mark (chars ++ rest) = none)
    (hrest : ∀ c ∈ rest.head?, Text.isIdentifierContinue c = false) :
    word (chars ++ rest) = some (String.ofList chars, rest) := by
  obtain ⟨c, cs, rfl⟩ := List.exists_cons_of_ne_nil hne
  have hc : isNameStart c = true := hstart c rfl
  have hspan := span_append hchars hrest
  have hraw := hmarks "r#" (by simp)
  have htext : textMarks.any (fun mark => (literal mark (c :: cs ++ rest)).isSome) = false := by
    rw [List.any_eq_false]
    intro mark hmark
    rw [hmarks mark (List.mem_cons_of_mem _ hmark)]
    exact Bool.false_ne_true
  unfold word
  rw [List.cons_append] at hspan hraw htext ⊢
  dsimp only
  rw [hc, htext, hraw]
  simp only [Bool.not_true, Bool.or_self, Bool.false_eq_true, if_false, hspan]
  rfl

/-- What may stand behind the names in settings. -/
def nameEnds : List Char :=
  ':' :: '(' :: blankChars

/-- A colon, an opening parenthesis or a blank comes next. -/
def EndsName (rest : List Char) : Prop :=
  ∃ c tail, rest = c :: tail ∧ c ∈ nameEnds

theorem isIdentifierContinue_underscore : Text.isIdentifierContinue '_' = true := by
  unfold Text.isIdentifierContinue Text.isIdentifierStart Text.inRanges
  simp only [← Array.any_toList]
  decide +kernel

/-- What stands behind names and values does not continue them. -/
theorem not_isIdentifierContinue_ends :
    ∀ c ∈ nameEnds ++ valueEnds, Text.isIdentifierContinue c = false := by
  have hall : (nameEnds ++ valueEnds).all (fun c => !Text.isIdentifierContinue c) = true := by
    unfold Text.isIdentifierContinue Text.isIdentifierStart Text.inRanges
    simp only [← Array.any_toList]
    decide +kernel
  intro c hc
  rw [← Bool.not_eq_true']
  exact List.all_eq_true.mp hall c hc

theorem EndsName.isIdentifierContinue (h : EndsName rest) :
    ∀ c ∈ rest.head?, Text.isIdentifierContinue c = false := by
  obtain ⟨c, tail, rfl, hc⟩ := h
  rintro c ⟨⟩
  exact not_isIdentifierContinue_ends c (List.mem_append_left _ hc)

theorem keyword_eq {text : String} (h : literal text cs = some (c :: rest))
    (hc : Text.isIdentifierContinue c = false) : keyword text cs = some (c :: rest) := by
  unfold keyword
  rw [h]
  simp [hc]

theorem name_append {text : String} (hstart : ∀ c ∈ text.toList.head?, isNameStart c = true)
    (hne : text.toList ≠ []) (hchars : ∀ c ∈ text.toList, Text.isIdentifierContinue c = true)
    (hmarks : ∀ mark ∈ "r#" :: textMarks, literal mark (text.toList ++ rest) = none)
    (hrest : EndsName rest) : name (text.toList ++ rest) = some (text, rest) := by
  have hjoint : rest.head?.any isNameJoint = false := by
    obtain ⟨c, tail, rfl, hc⟩ := hrest
    have hends : ∀ c ∈ nameEnds, isNameJoint c = false := by
      simp [nameEnds, blankChars, isNameJoint]
    exact hends c hc
  unfold name
  rw [word_append hstart hne hchars hmarks hrest.isIdentifierContinue]
  simp [hjoint, String.ofList_toList]

/-! ### Tokens -/

/-- A token starts with neither a blank nor a comment. -/
def IsToken (token : String) : Prop :=
  ∃ c cs, token.toList = c :: cs ∧ IsMark c

variable {token : String} {tokens : List String}

theorem literal_eq_some_iff : literal token cs = some rest ↔ token.toList ++ rest = cs := by
  unfold literal
  exact List.isPrefixOf?_eq_some_iff_append_eq

theorem consistsOf_cons_iff : consistsOf (token :: tokens) cs = true ↔
    ∃ rest, cs.dropWhile isSpace = token.toList ++ rest ∧ consistsOf tokens rest = true := by
  rw [consistsOf, Option.any_eq_true]
  simp only [literal_eq_some_iff, eq_comm (b := List.dropWhile isSpace cs)]

theorem isBlank_of_isSpace (h : isSpace c = true) : isBlank c = true := by
  simp only [isSpace, Bool.or_eq_true, beq_iff_eq] at h
  rcases h with ((rfl | rfl) | rfl) | rfl <;> decide

theorem IsMark.not_isSpace (h : IsMark c) : ¬ isSpace c = true := fun hspace =>
  Bool.false_ne_true (h.notBlank.symm.trans (isBlank_of_isSpace hspace))

/-- Behind the blanks that may stand wherever, there are no others in front of a mark. -/
theorem IsMark.dropWhile_isBlank (h : IsMark c) (hcs : cs.dropWhile isSpace = c :: rest) :
    cs.dropWhile isBlank = c :: rest := by
  induction cs with
  | nil => cases hcs
  | cons d cs ih =>
    by_cases hd : isSpace d = true
    · rw [List.dropWhile_cons_of_pos hd] at hcs
      rw [List.dropWhile_cons_of_pos (isBlank_of_isSpace hd), ih hcs]
    · rw [List.dropWhile_cons_of_neg hd] at hcs
      rw [hcs]
      exact List.dropWhile_cons_of_neg (by simp [h.notBlank])

/-- The blanks in front of a token are passed over. -/
theorem blanks_token (htoken : IsToken token) (h : consistsOf (token :: tokens) cs = true) :
    ∃ rest, blanks cs = some (token.toList ++ rest) ∧ consistsOf tokens rest = true := by
  obtain ⟨rest, hcs, hrest⟩ := consistsOf_cons_iff.mp h
  obtain ⟨c, tail, htail, hmark⟩ := htoken
  refine ⟨rest, ?_, hrest⟩
  rw [htail, List.cons_append] at hcs ⊢
  exact hmark.blanks_eq (hmark.dropWhile_isBlank hcs)

/-- No blanks need to stand in front of a token. -/
theorem consistsOf_append (htoken : IsToken token) (h : consistsOf tokens rest = true) :
    consistsOf (token :: tokens) (token.toList ++ rest) = true := by
  obtain ⟨c, tail, htail, hmark⟩ := htoken
  refine consistsOf_cons_iff.mpr ⟨rest, ?_, h⟩
  rw [htail, List.cons_append]
  exact List.dropWhile_cons_of_neg hmark.not_isSpace

theorem blanks_nil (h : consistsOf [] cs = true) : blanks cs = some [] := by
  have hcs : cs.dropWhile isBlank = [] :=
    List.dropWhile_eq_nil_iff.mpr fun c hc => isBlank_of_isSpace (List.all_eq_true.mp h c hc)
  unfold blanks blanksWithin
  rw [hcs]

/-- What comes next is the first character of the next token or a blank in front of it. -/
theorem exists_cons_of_consistsOf (token : String) {c : Char} {ends tail : List Char}
    (hblank : blankChars ⊆ ends) (htoken : token.toList = c :: tail) (hc : c ∈ ends)
    (h : consistsOf (token :: tokens) cs = true) : ∃ d tail, cs = d :: tail ∧ d ∈ ends := by
  obtain ⟨rest, hcs, -⟩ := consistsOf_cons_iff.mp h
  rw [htoken, List.cons_append] at hcs
  cases cs with
  | nil => cases hcs
  | cons d cs =>
    refine ⟨d, cs, rfl, ?_⟩
    by_cases hd : isSpace d = true
    · exact hblank (List.contains_iff_mem.mp (isBlank_of_isSpace hd))
    · rw [List.dropWhile_cons_of_neg hd] at hcs
      rw [(List.cons.inj hcs).1]
      exact hc

/-- Tokens are no longer than the characters that they make up. -/
theorem sum_length_le_of_consistsOf (h : consistsOf tokens cs = true) :
    (tokens.map (·.toList.length)).sum ≤ cs.length := by
  induction tokens generalizing cs with
  | nil => exact Nat.zero_le _
  | cons token tokens ih =>
    obtain ⟨rest, hcs, hrest⟩ := consistsOf_cons_iff.mp h
    have hle := List.length_dropWhile_le isSpace cs
    rw [hcs, List.length_append] at hle
    have hothers := ih hrest
    rw [List.map_cons, List.sum_cons]
    omega

end Scan

namespace Settings

open Scan

variable {rest : List Char}

/-! ### Names -/

/-- The names of the fields. -/
def fieldNames : List String :=
  Field.all.map Field.name

/-- The names of the record and of its fields are read. -/
theorem name_toList : ∀ text ∈ recordName :: fieldNames, ∀ rest, EndsName rest →
    name (text.toList ++ rest) = some (text, rest) := by
  intro text htext rest hrest
  have hall : (recordName :: fieldNames).all (fun text => text.toList.head?.any Char.isAlpha
      && text.toList.all fun c => c.isAlpha || c == '_') = true := by
    decide +kernel
  have hletters := List.all_eq_true.mp hall text htext
  rw [Bool.and_eq_true, Option.any_eq_true, List.all_eq_true] at hletters
  obtain ⟨⟨first, hfirst, halpha⟩, hchars⟩ := hletters
  refine name_append (fun c hc => ?_) (fun hnil => ?_) (fun c hc => ?_) ?_ hrest
  · cases hfirst.symm.trans hc
    unfold isNameStart Text.isIdentifierStart
    rw [halpha]
    simp
  · rw [hnil] at hfirst
    cases hfirst
  · have hchar := hchars c hc
    rw [Bool.or_eq_true, beq_iff_eq] at hchar
    rcases hchar with hchar | rfl
    · unfold Text.isIdentifierContinue Text.isIdentifierStart
      rw [hchar]
      rfl
    · exact isIdentifierContinue_underscore
  intro mark hmark
  simp only [recordName, fieldNames, Field.all, Field.name, textMarks, List.map_cons, List.map_nil,
    List.mem_cons, List.not_mem_nil, or_false] at htext hmark
  rcases htext with rfl | rfl | rfl | rfl | rfl | rfl | rfl <;>
    rcases hmark with rfl | rfl | rfl | rfl | rfl | rfl | rfl | rfl <;> rfl

theorem Field.name_mem (f : Field) : f.name ∈ fieldNames :=
  List.mem_map_of_mem f.mem_all

theorem exists_cons_name (f : Field) : ∃ c cs, f.name.toList = c :: cs ∧ IsMark c ∧ c ≠ ')' := by
  cases f <;> exact ⟨_, _, rfl, ⟨by decide, by decide⟩, by decide⟩

/-- The name of the record stands in front of the parenthesis that opens it. -/
theorem skipRecordName_eq (form : SettingsForm) (hrest : EndsName rest) :
    skipRecordName recordName form (recordName.toList ++ rest) = some rest := by
  have hname := name_toList recordName List.mem_cons_self rest hrest
  obtain ⟨c, cs, hcs, hc⟩ : ∃ c cs, recordName.toList = c :: cs ∧ c.isAlpha = true :=
    ⟨'S', _, rfl, rfl⟩
  have hcontinue : Text.isIdentifierContinue c = true := by
    unfold Text.isIdentifierContinue Text.isIdentifierStart
    rw [hc]
    rfl
  rw [hcs, List.cons_append] at hname ⊢
  unfold skipRecordName
  simp [hcontinue, hname]

/-! ### Values -/

/-- The first digit of a number is neither a blank nor the beginning of a comment. -/
theorem isMark_of_isDigit {c : Char} (h : c.isDigit = true) : IsMark c := by
  refine ⟨?_, ne_of_isDigit h rfl⟩
  unfold isBlank blankChars
  simp [ne_of_isDigit h]

theorem exists_cons_toDigits (n : ℕ) : ∃ c cs, Nat.toDigits 10 n = c :: cs ∧ IsMark c := by
  obtain ⟨c, cs, hcs⟩ := List.exists_cons_of_ne_nil (Nat.toDigits_ne_nil (n := n) (b := 10))
  exact ⟨c, cs, hcs, isMark_of_isDigit (isDigit_of_mem_toDigits (hcs ▸ List.mem_cons_self))⟩

theorem exists_cons_numberText {x : Float} (hx : x.isFinite = true) :
    ∃ c cs, (numberText x).toList = c :: cs ∧ IsMark c := by
  obtain ⟨negative, whole, fraction, htext, hdigits, -⟩ := exists_numberText hx
  obtain ⟨d, ds, hds, hd⟩ := hdigits.exists_cons
  rw [htext, hds]
  cases negative with
  | true => exact ⟨'-', _, rfl, by decide, by decide⟩
  | false => exact ⟨d, _, rfl, isMark_of_isDigit hd⟩

/-- What follows the name of the variant that holds a count. -/
theorem workers_eq_payload {cs : List Char} (hnone : keyword "None" cs = none)
    (hsome : keyword "Some" cs = some rest) (form : SettingsForm) :
    workers form cs
      = payload form (fun cs => (natural 64 cs).map fun (n, rest) => (some n, rest))
          (fun cs => (natural 64 cs).map fun (n, rest) => (some n, rest)) rest := by
  unfold workers
  rw [hnone, hsome]

/-- A count of workers is read in its variant. -/
theorem workers_some {n : ℕ} (hn : n < 2 ^ 64) (form : SettingsForm) (rest : List Char) :
    workers form ("Some(".toList ++ (Nat.toDigits 10 n ++ ')' :: rest)) = some (some n, rest) := by
  obtain ⟨c, cs, hcs, hmark⟩ := exists_cons_toDigits n
  have hkeyword : keyword "Some" ("Some(".toList ++ (Nat.toDigits 10 n ++ ')' :: rest))
      = some ('(' :: (Nat.toDigits 10 n ++ ')' :: rest)) := by
    have hliteral : literal "Some" ("Some(".toList ++ (Nat.toDigits 10 n ++ ')' :: rest))
        = some ('(' :: (Nat.toDigits 10 n ++ ')' :: rest)) := rfl
    exact keyword_eq hliteral (not_isIdentifierContinue_ends '(' (by decide))
  have hopening : IsMark '(' := ⟨by decide, by decide⟩
  have hclosing : IsMark ')' := ⟨by decide, by decide⟩
  have hblanks : blanks (Nat.toDigits 10 n ++ ')' :: rest)
      = some (Nat.toDigits 10 n ++ ')' :: rest) := by
    rw [hcs]
    exact hmark.blanks_cons _
  have hcomma : comma (')' :: rest) = some (false, ')' :: rest) := by
    unfold comma
    rw [hclosing.blanks_cons]
    rfl
  have hnone : keyword "None" ("Some(".toList ++ (Nat.toDigits 10 n ++ ')' :: rest)) = none := rfl
  rw [workers_eq_payload hnone hkeyword form]
  unfold payload
  rw [hopening.blanks_cons]
  simp [hblanks, natural_toDigits hn (endsValue_closing rest), hcomma]

/-- That there are no workers is read in its variant. -/
theorem workers_none (form : SettingsForm) {rest : List Char} (hrest : EndsValue rest) :
    workers form ("None".toList ++ rest) = some (none, rest) := by
  obtain ⟨c, tail, rfl, hc⟩ := hrest
  have hliteral : literal "None" ("None".toList ++ c :: tail) = some (c :: tail) := rfl
  have hkeyword := keyword_eq hliteral (not_isIdentifierContinue_ends c (List.mem_append_right _ hc))
  unfold workers
  rw [hkeyword]

/-! ### Tokens -/

theorem isToken_name (f : Field) : IsToken f.name := by
  obtain ⟨c, cs, hcs, hmark, -⟩ := exists_cons_name f
  exact ⟨c, cs, hcs, hmark⟩

theorem exists_cons_recordName : ∃ cs, recordName.toList = 'S' :: cs :=
  ⟨"amplerSettings".toList, rfl⟩

theorem isToken_recordName : IsToken recordName := by
  obtain ⟨cs, hcs⟩ := exists_cons_recordName
  exact ⟨'S', cs, hcs, by decide, by decide⟩

theorem isToken_comma : IsToken "," :=
  ⟨',', [], rfl, by decide, by decide⟩

theorem isToken_colon : IsToken ":" :=
  ⟨':', [], rfl, by decide, by decide⟩

theorem isToken_opening : IsToken "(" :=
  ⟨'(', [], rfl, by decide, by decide⟩

theorem isToken_closing : IsToken ")" :=
  ⟨')', [], rfl, by decide, by decide⟩

/-- The entries start with a name or with the closing parenthesis. -/
theorem exists_cons_entries (trailing : Bool) (xs : List (Setting × String)) :
    ∃ token tokens, entries trailing xs = token :: tokens ∧ IsToken token := by
  cases xs with
  | nil => exact ⟨")", [], rfl, isToken_closing⟩
  | cons p xs => exact ⟨p.1.field.name, _, rfl, isToken_name _⟩

variable {trailing : Bool} {xs : List (Setting × String)} {cs : List Char}

/-- The comma behind a value is passed over, if there is one.  There is one unless all fields have been
read. -/
theorem comma_entries
    (h : consistsOf (separator trailing xs ++ entries trailing xs) cs = true) :
    ∃ hadComma rest, comma cs = some (hadComma, rest) ∧ (xs ≠ [] → hadComma = true) ∧
      consistsOf (entries trailing xs) rest = true := by
  obtain ⟨token, tokens, heq, htoken⟩ := exists_cons_entries trailing xs
  unfold separator at h
  split_ifs at h with hlast
  · obtain rfl : xs = [] := List.isEmpty_iff.mp (Bool.and_eq_true_iff.mp hlast).1
    obtain ⟨rest, hcs, hrest⟩ := blanks_token isToken_closing h
    refine ⟨false, ')' :: rest, ?_, fun h => absurd rfl h, consistsOf_append isToken_closing hrest⟩
    unfold comma
    rw [hcs]
    rfl
  · rw [heq] at h ⊢
    obtain ⟨rest, hcs, hrest⟩ := blanks_token isToken_comma h
    obtain ⟨rest', hrest', htokens⟩ := blanks_token htoken hrest
    refine ⟨true, token.toList ++ rest', ?_, fun _ => rfl, consistsOf_append htoken htokens⟩
    have hcs : blanks cs = some (',' :: rest) := hcs
    unfold comma
    rw [hcs]
    simp [hrest']

/-- A comma, the closing parenthesis or a blank stands behind a value. -/
theorem endsValue_entries
    (h : consistsOf (separator trailing xs ++ entries trailing xs) cs = true) : EndsValue cs := by
  have hblank : blankChars ⊆ valueEnds := fun c hc => List.mem_cons_of_mem _ (List.mem_cons_of_mem _ hc)
  unfold separator at h
  split_ifs at h with hlast
  · obtain rfl : xs = [] := List.isEmpty_iff.mp (Bool.and_eq_true_iff.mp hlast).1
    exact exists_cons_of_consistsOf ")" hblank rfl (by decide) h
  · exact exists_cons_of_consistsOf "," hblank rfl (by decide) h

theorem length_lt_sum_entries (trailing : Bool) (xs : List (Setting × String)) :
    xs.length < ((entries trailing xs).map (·.toList.length)).sum := by
  induction xs with
  | nil => exact Nat.one_pos
  | cons p xs ih =>
    have hcolon : ":".toList.length = 1 := rfl
    rw [entries]
    simp only [List.length_cons, List.map_cons, List.map_append, List.sum_cons, List.sum_append, hcolon]
    omega

end Settings

/-! ### Fields -/

/-- The value is read from a literal, wherever it may end. -/
structure Setting.ReadFrom (x : Setting) (literal : String) : Prop where
  /-- The literal starts with neither a blank nor a comment. -/
  isToken : Scan.IsToken literal
  /-- The value is read. -/
  read : ∀ form rest, Scan.EndsValue rest →
    x.field.read form (literal.toList ++ rest) = some (x, rest)

namespace Settings

open Scan

variable {trailing : Bool} {xs : List (Setting × String)} {cs : List Char} (form : SettingsForm)

/-- A known field is read with its value. -/
theorem entry_name {x : Setting} {literal : String} (hx : x.ReadFrom literal) {rest : List Char}
    (hrest : EndsValue rest) :
    entry form x.field.name (literal.toList ++ rest) = some ([x], rest) := by
  have hfind : Field.all.find? (·.name == x.field.name) = some x.field := by
    cases x.field <;> rfl
  unfold entry
  rw [hfind]
  simp only [hx.read form rest hrest, Option.map_some]

/-- **Run**: the fields are read one after the other. -/
theorem fields_entries (hxs : ∀ p ∈ xs, p.1.ReadFrom p.2) {budget : ℕ} (hbudget : xs.length < budget)
    {hadComma : Bool} (hcomma : xs ≠ [] → hadComma = true)
    (hcs : consistsOf (entries trailing xs) cs = true) :
    ∃ rest, fields form budget hadComma cs = some (xs.map Prod.fst, rest) ∧
      consistsOf [] rest = true := by
  induction xs generalizing budget hadComma cs with
  | nil =>
    obtain ⟨n, rfl⟩ := Nat.exists_eq_add_one_of_ne_zero (Nat.ne_of_gt hbudget)
    obtain ⟨rest, hblanks, hrest⟩ := blanks_token isToken_closing hcs
    refine ⟨rest, ?_, hrest⟩
    have hblanks : blanks cs = some (')' :: rest) := hblanks
    unfold fields
    rw [hblanks]
    rfl
  | cons p xs ih =>
    obtain ⟨x, literal⟩ := p
    obtain ⟨n, rfl⟩ := Nat.exists_eq_add_one_of_ne_zero (Nat.ne_of_gt (Nat.zero_lt_of_lt hbudget))
    obtain rfl : hadComma = true := hcomma (List.cons_ne_nil _ _)
    rw [List.forall_mem_cons] at hxs
    -- The tokens of the first field, and then the comma behind it if more fields follow.
    obtain ⟨afterName, hname, hafterName⟩ := blanks_token (isToken_name x.field) hcs
    obtain ⟨afterColon, hcolon, hafterColon⟩ := blanks_token isToken_colon hafterName
    obtain ⟨afterValue, hvalue, hafterValue⟩ := blanks_token hxs.1.isToken hafterColon
    obtain ⟨hadComma, rest, hread, hmore, hrest⟩ := comma_entries hafterValue
    obtain ⟨rest', hfields, hrest'⟩ := ih hxs.2 (Nat.lt_of_succ_lt_succ hbudget) hmore hrest
    have hends : EndsName afterName := by
      refine exists_cons_of_consistsOf ":" (fun c hc => ?_) rfl (by decide) hafterName
      exact List.mem_cons_of_mem _ (List.mem_cons_of_mem _ hc)
    have hcolon : blanks afterName = some (':' :: afterColon) := hcolon
    have hfield := name_toList x.field.name (List.mem_cons_of_mem _ x.field.name_mem) _ hends
    have hentry := entry_name form hxs.1 (endsValue_entries hafterValue)
    obtain ⟨c, name', hname', -, hclosing⟩ := exists_cons_name x.field
    refine ⟨rest', ?_, hrest'⟩
    conv_lhs => unfold fields
    rw [hname]
    rw [hname'] at hfield ⊢
    simp only [Option.bind_eq_bind, Option.bind_some, List.cons_append] at hfield ⊢
    split
    · rename_i heq
      exact absurd (List.cons.inj heq).1 hclosing
    · rw [hfield]
      simp [hcolon, hvalue, hentry, hread, hfields]

/-- The name of the record, if there is one, is passed over. -/
theorem exists_skipRecordName {named : Bool} (h : consistsOf (tokens named trailing xs) cs = true) :
    ∃ c rest rest', blanks cs = some (c :: rest) ∧ c ≠ '#' ∧
      skipRecordName recordName {} (c :: rest) = some rest' ∧
        consistsOf ("(" :: entries trailing xs) rest' = true := by
  cases named with
  | true =>
    obtain ⟨name, hname⟩ := exists_cons_recordName
    obtain ⟨rest, hblanks, hrest⟩ := blanks_token isToken_recordName h
    have hends : EndsName rest := by
      refine exists_cons_of_consistsOf "(" (fun c hc => ?_) rfl (by decide) hrest
      exact List.mem_cons_of_mem _ (List.mem_cons_of_mem _ hc)
    have hskip := skipRecordName_eq {} hends
    rw [hname, List.cons_append] at hblanks hskip
    exact ⟨_, _, _, hblanks, by decide, hskip, hrest⟩
  | false =>
    obtain ⟨rest, hblanks, hrest⟩ := blanks_token isToken_opening h
    refine ⟨'(', rest, '(' :: rest, hblanks, by decide, ?_, consistsOf_append isToken_opening hrest⟩
    have hopening := not_isIdentifierContinue_ends '(' (by decide)
    unfold skipRecordName
    simp [hopening]

/-- No attribute starts with another character. -/
theorem attributes_cons {c : Char} (hc : c ≠ '#') (budget : ℕ) :
    SettingsForm.attributes (budget + 1) form (c :: cs) = some (form, c :: cs) := by
  unfold SettingsForm.attributes
  split
  · rename_i heq
    exact absurd (List.cons.inj heq).1 hc
  · rfl

/-- A text of the tokens of a record is read as its fields. -/
theorem readRecord_eq {named : Bool} {text : String} (hxs : ∀ p ∈ xs, p.1.ReadFrom p.2)
    (htext : consistsOf (tokens named trailing xs) text.toList = true) :
    readRecord recordName text = some (xs.map Prod.fst) := by
  obtain ⟨c, cs, cs', hblanks, hc, hskip, hcs'⟩ := exists_skipRecordName htext
  obtain ⟨inside, hopening, hinside⟩ := blanks_token isToken_opening hcs'
  have hopening : blanks cs' = some ('(' :: inside) := hopening
  -- Every field takes more than one character, so the budget is enough for all of them.
  have hbudget : xs.length < inside.length + 1 :=
    Nat.lt_succ_of_lt ((length_lt_sum_entries _ _).trans_le (sum_length_le_of_consistsOf hinside))
  obtain ⟨rest, hfields, hrest⟩ := fields_entries {} hxs hbudget (fun _ => rfl) hinside
  unfold readRecord
  simp [hblanks, attributes_cons {} hc, hskip, hopening, hfields, blanks_nil hrest]

end Settings

end TextureGraph
