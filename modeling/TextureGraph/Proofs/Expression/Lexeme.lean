import Mathlib.Data.List.TakeWhile
import TextureGraph.Expression.Token
import TextureGraph.Proofs.Text.CodeRange
import TextureGraph.Proofs.Text.Span

/-!
# Lexemes

What an expression is written with: numerals, names and symbols (`Lexeme`), each of which stands for
one token.

* `isBlank_of_isNumberChar`, `isNumberChar_of_isNameStart`, `classes_of_mem_symbols` and others: the
  first character of a lexeme says which kind it is of, and it is not a blank.
* `number?_eq_some`, `number?_eq_none`: digits and points are read as a number exactly where they
  form a numeral (`IsNumeral`).
* `classes_toLower`: lower case changes the class of no character.
-/

namespace TextureGraph

namespace Token

variable {c : Char}

/-! ### Classes of characters -/

/-- The point and the digits. -/
def numberRanges : Array (Nat × Nat) := #[(0x2E, 0x2E), (0x30, 0x39)]

/-- Letters and digits that are told without the tables are in the tables. -/
theorem ascii_mem_ranges :
    (0x41, 0x5A) ∈ Text.alphabeticRanges.toList ∧ (0x61, 0x7A) ∈ Text.alphabeticRanges.toList ∧
      (0x30, 0x39) ∈ Text.numericRanges.toList := by
  decide +kernel

/-- Blanks, digits and letters are in tables that do not meet, and the underscore is no blank. -/
theorem apart_ranges :
    Text.apart Text.blankRanges numberRanges = true ∧
      Text.apart Text.blankRanges Text.alphabeticRanges = true ∧
      Text.apart Text.blankRanges Text.numericRanges = true ∧
      Text.apart numberRanges Text.alphabeticRanges = true ∧ Text.isBlank '_' = false := by
  decide +kernel

theorem isNumberChar_iff : isNumberChar c = true ↔ c.isDigit = true ∨ c = '.' := by
  unfold isNumberChar
  rw [Bool.or_eq_true, beq_iff_eq]

theorem inRanges_of_isNumberChar (h : isNumberChar c = true) :
    Text.inRanges numberRanges c = true := by
  refine Text.inRanges_iff.mpr ?_
  rcases isNumberChar_iff.mp h with hdigit | rfl
  · exact ⟨(0x30, 0x39), by decide, Char.isDigit_iff_toNat.mp hdigit⟩
  · exact ⟨(0x2E, 0x2E), by decide, by decide⟩

theorem toNat_of_isUpper (h : c.isUpper = true) : 0x41 ≤ c.toNat ∧ c.toNat ≤ 0x5A :=
  of_decide_eq_true h

theorem toNat_of_isLower (h : c.isLower = true) : 0x61 ≤ c.toNat ∧ c.toNat ≤ 0x7A :=
  have ⟨hlow, hhigh⟩ := Bool.and_eq_true_iff.mp h
  ⟨of_decide_eq_true hlow, of_decide_eq_true hhigh⟩

theorem inRanges_of_isAlphabetic (h : Text.isAlphabetic c = true) :
    Text.inRanges Text.alphabeticRanges c = true := by
  unfold Text.isAlphabetic at h
  rw [Bool.or_eq_true, Bool.and_eq_true] at h
  rcases h with hascii | ⟨-, h⟩
  · rcases Bool.or_eq_true_iff.mp hascii with hupper | hlower
    · exact Text.inRanges_iff.mpr ⟨_, ascii_mem_ranges.1, toNat_of_isUpper hupper⟩
    · exact Text.inRanges_iff.mpr ⟨_, ascii_mem_ranges.2.1, toNat_of_isLower hlower⟩
  · exact h

theorem inRanges_of_isNumericOnly (h : Text.isNumericOnly c = true) :
    Text.inRanges Text.numericRanges c = true := by
  unfold Text.isNumericOnly at h
  rw [Bool.or_eq_true, Bool.and_eq_true] at h
  rcases h with hdigit | ⟨-, h⟩
  · exact Text.inRanges_iff.mpr ⟨_, ascii_mem_ranges.2.2, Char.isDigit_iff_toNat.mp hdigit⟩
  · exact h

theorem isNameStart_iff : isNameStart c = true ↔ Text.isAlphabetic c = true ∨ c = '_' := by
  unfold isNameStart
  rw [Bool.or_eq_true, beq_iff_eq]

theorem isNameChar_of_isNameStart (h : isNameStart c = true) : isNameChar c = true := by
  unfold isNameChar
  rw [h, Bool.true_or]

/-- Blanks are part of no lexeme. -/
theorem isNumberChar_of_isBlank (h : Text.isBlank c = true) : isNumberChar c = false := by
  refine Bool.eq_false_iff.mpr fun hnumber => ?_
  obtain ⟨happart, -⟩ := apart_ranges
  exact Text.not_inRanges_of_apart happart h (inRanges_of_isNumberChar hnumber)

theorem isNameChar_of_isBlank (h : Text.isBlank c = true) : isNameChar c = false := by
  refine Bool.eq_false_iff.mpr fun hname => ?_
  rw [isNameChar, Bool.or_eq_true, isNameStart_iff] at hname
  obtain ⟨-, happart, happart', -, hunderscore⟩ := apart_ranges
  rcases hname with (halphabetic | rfl) | hnumeric
  · exact Text.not_inRanges_of_apart happart h (inRanges_of_isAlphabetic halphabetic)
  · exact Bool.eq_false_iff.mp hunderscore h
  · exact Text.not_inRanges_of_apart happart' h (inRanges_of_isNumericOnly hnumeric)

theorem isBlank_of_isNumberChar (h : isNumberChar c = true) : Text.isBlank c = false :=
  Bool.eq_false_iff.mpr fun hblank =>
    Bool.eq_false_iff.mp (isNumberChar_of_isBlank hblank) h

theorem isBlank_of_isNameStart (h : isNameStart c = true) : Text.isBlank c = false :=
  Bool.eq_false_iff.mpr fun hblank =>
    Bool.eq_false_iff.mp (isNameChar_of_isBlank hblank) (isNameChar_of_isNameStart h)

/-- Names do not start like numbers. -/
theorem isNumberChar_of_isNameStart (h : isNameStart c = true) : isNumberChar c = false := by
  refine Bool.eq_false_iff.mpr fun hnumber => ?_
  rcases isNameStart_iff.mp h with halphabetic | rfl
  · obtain ⟨-, -, -, happart, -⟩ := apart_ranges
    exact Text.not_inRanges_of_apart happart (inRanges_of_isNumberChar hnumber)
      (inRanges_of_isAlphabetic halphabetic)
  · exact absurd hnumber (by decide)

/-- Symbols are of no other class. -/
theorem classes_of_mem_symbols (h : c ∈ symbols) :
    Text.isBlank c = false ∧ isNumberChar c = false ∧ isNameChar c = false := by
  have hall : (symbols.all fun c => !Text.isBlank c && !isNumberChar c && !isNameChar c) = true := by
    decide +kernel
  simpa [and_assoc] using List.all_eq_true.mp hall c h

/-! ### Lower case -/

theorem toLower_of_not_isUpper (h : c.isUpper = false) : c.toLower = c :=
  dif_neg (of_decide_eq_false h)

/-- What is checked for each capital letter holds of all of them. -/
theorem of_isUpper {p : Char → Bool}
    (h : ((List.range' 0x41 26).all fun n => p (Char.ofNat n)) = true) (hc : c.isUpper = true) :
    p c = true := by
  have hrange := toNat_of_isUpper hc
  have hmem : c.toNat ∈ List.range' 0x41 26 := List.mem_range'_1.mpr ⟨hrange.1, by omega⟩
  have hp := List.all_eq_true.mp h c.toNat hmem
  rwa [Char.ofNat_toNat] at hp

/-- Two characters of the same classes and the same length. -/
def alike (c d : Char) : Bool :=
  Text.isBlank c == Text.isBlank d && isNumberChar c == isNumberChar d &&
    isNameStart c == isNameStart d && isNameChar c == isNameChar d && c.utf8Size == d.utf8Size

/-- Capital letters start names, and are like the small letters that they become. -/
theorem capital (h : c.isUpper = true) :
    isNameStart c = true ∧ alike c.toLower c = true ∧ c.toLower.toLower = c.toLower := by
  have hall := of_isUpper
    (p := fun c => isNameStart c && alike c.toLower c && c.toLower.toLower == c.toLower)
    (by decide +kernel) h
  simpa [and_assoc] using hall

theorem isNameStart_of_isUpper (h : c.isUpper = true) : isNameStart c = true :=
  (capital h).1

/-- Lower case changes neither the class nor the length of a character. -/
theorem classes_toLower (c : Char) :
    Text.isBlank c.toLower = Text.isBlank c ∧ isNumberChar c.toLower = isNumberChar c ∧
      isNameStart c.toLower = isNameStart c ∧ isNameChar c.toLower = isNameChar c ∧
      c.toLower.utf8Size = c.utf8Size := by
  cases hc : c.isUpper with
  | false => simp [toLower_of_not_isUpper hc]
  | true => simpa [alike, and_assoc] using (capital hc).2.1

theorem toLower_toLower (c : Char) : c.toLower.toLower = c.toLower := by
  cases hc : c.isUpper with
  | false => rw [toLower_of_not_isUpper hc, toLower_of_not_isUpper hc]
  | true => exact (capital hc).2.2

theorem toLower_of_not_isNameStart (h : ¬ isNameStart c = true) : c.toLower = c :=
  toLower_of_not_isUpper (Bool.eq_false_iff.mpr fun hupper => h (isNameStart_of_isUpper hupper))

/-- Digits and points are no letters. -/
theorem map_toLower_of_isNumberChar {word : List Char} (h : ∀ c ∈ word, isNumberChar c = true) :
    word.map Char.toLower = word := by
  refine (List.map_congr_left fun c hc => ?_).trans (List.map_id word)
  refine toLower_of_not_isNameStart fun hname => ?_
  exact Bool.eq_false_iff.mp (isNumberChar_of_isNameStart hname) (h c hc)

/-! ### Numerals -/

/-- Digits with at most one point, and at least one digit. -/
structure IsNumeral (word : List Char) : Prop where
  /-- There are only digits and points. -/
  chars : ∀ c ∈ word, c.isDigit = true ∨ c = '.'
  /-- There is a digit. -/
  digit : ∃ c ∈ word, c.isDigit = true
  /-- There is at most one point. -/
  point : word.count '.' ≤ 1

theorem isNumeral_singleton {c : Char} (h : c.isDigit = true) : IsNumeral [c] where
  chars _ hd := .inl (List.mem_singleton.mp hd ▸ h)
  digit := ⟨c, List.mem_singleton_self c, h⟩
  point := List.count_le_length

theorem isNumeral_point : IsNumeral ['.', '0'] where
  chars := List.forall_mem_cons.mpr ⟨.inr rfl, List.forall_mem_singleton.mpr (.inl rfl)⟩
  digit := ⟨'0', by simp, rfl⟩
  point := by decide

/-- The number of digits behind the point, if there is one. -/
def decimals (word : List Char) : Nat :=
  word.length - (word.idxOf '.' + 1)

/-- The token that a numeral stands for: its digits as a whole number, and how many of them are
behind the point. -/
def ofNumeral (word : List Char) : Token :=
  .number (Nat.ofDigitChars 10 (word.filter Char.isDigit) 0) (decimals word)

variable {word whole behind : List Char}

theorem isDigit_of_isNumberChar (h : ∀ c ∈ word, c.isDigit = true ∨ c = '.') (hpoint : '.' ∉ word) :
    ∀ c ∈ word, c.isDigit = true := by
  intro c hc
  rcases h c hc with hdigit | rfl
  · exact hdigit
  · exact absurd hc hpoint

theorem ne_point_of_not_mem (h : '.' ∉ word) : ∀ c ∈ word, (c != '.') = true :=
  fun _ hc => bne_iff_ne.mpr fun heq => h (heq ▸ hc)

theorem number?_whole (h : '.' ∉ word) :
    number? word = if word = [] then none else some (.number (Nat.ofDigitChars 10 word 0) 0) := by
  have hne := ne_point_of_not_mem h
  unfold number?
  rw [List.takeWhile_eq_self_iff.mpr hne, List.dropWhile_eq_nil_iff.mpr hne]
  cases word with
  | nil => rfl
  | cons c cs => simp [digitsValue, Nat.ofDigitChars]

theorem number?_point (h : '.' ∉ whole) :
    number? (whole ++ '.' :: behind) = if '.' ∈ behind ∨ whole = [] ∧ behind = [] then none
      else some (.number (Nat.ofDigitChars 10 (whole ++ behind) 0) behind.length) := by
  have hne := ne_point_of_not_mem h
  have hstops : ∀ c ∈ ('.' :: behind).head?, (c != '.') = false := by
    rintro c ⟨⟩
    rfl
  unfold number?
  rw [Text.takeWhile_append hne hstops, Text.dropWhile_append hne hstops, List.drop_one,
    List.tail_cons]
  simp [digitsValue, Nat.ofDigitChars]

/-- A numeral is read as the number that it stands for. -/
theorem number?_eq_some (h : IsNumeral word) : number? word = some (ofNumeral word) := by
  obtain ⟨d, hd, hdigit⟩ := h.digit
  by_cases hpoint : '.' ∈ word
  · obtain ⟨whole, behind, rfl, hwhole⟩ := List.eq_append_cons_of_mem hpoint
    have hcount := h.point
    rw [List.count_append, List.count_cons_self, List.count_eq_zero.mpr hwhole] at hcount
    have hbehind : '.' ∉ behind := List.count_eq_zero.mp (by omega)
    have hsome : ¬ (whole = [] ∧ behind = []) := by
      rintro ⟨rfl, rfl⟩
      rw [List.mem_singleton.mp hd] at hdigit
      cases hdigit
    have hdigits : (whole ++ '.' :: behind).filter Char.isDigit = whole ++ behind := by
      rw [List.filter_append, List.filter_cons_of_neg (by decide)]
      congr 1
      · exact List.filter_eq_self.mpr (isDigit_of_isNumberChar
          (fun c hc => h.chars c (List.mem_append_left _ hc)) hwhole)
      · exact List.filter_eq_self.mpr (isDigit_of_isNumberChar
          (fun c hc => h.chars c (List.mem_append_right _ (List.mem_cons_of_mem _ hc))) hbehind)
    have hdecimals : decimals (whole ++ '.' :: behind) = behind.length := by
      unfold decimals
      rw [List.idxOf_append, if_neg hwhole, List.idxOf_cons_self, List.length_append,
        List.length_cons]
      omega
    rw [number?_point hwhole, if_neg (not_or.mpr ⟨hbehind, hsome⟩), ofNumeral, hdigits, hdecimals]
  · have hdigits := isDigit_of_isNumberChar h.chars hpoint
    have hdecimals : decimals word = 0 := by
      unfold decimals
      rw [List.idxOf_eq_length hpoint]
      omega
    rw [number?_whole hpoint, if_neg (List.ne_nil_of_mem hd), ofNumeral,
      List.filter_eq_self.mpr hdigits, hdecimals]

/-- Digits and points that are no numeral are not read as a number. -/
theorem number?_eq_none (hchars : ∀ c ∈ word, c.isDigit = true ∨ c = '.') (h : ¬ IsNumeral word) :
    number? word = none := by
  have hdigit : ∀ part : List Char, (∀ c ∈ part, c ∈ word) → '.' ∉ part → part ≠ [] →
      ∃ c ∈ word, c.isDigit = true := by
    intro part hpart hpoint hne
    obtain ⟨c, cs, rfl⟩ := List.exists_cons_of_ne_nil hne
    have hc : c ∈ word := hpart c List.mem_cons_self
    exact ⟨c, hc, (hchars c hc).resolve_right fun heq => hpoint (heq ▸ List.mem_cons_self)⟩
  by_cases hpoint : '.' ∈ word
  · obtain ⟨whole, behind, rfl, hwhole⟩ := List.eq_append_cons_of_mem hpoint
    rw [number?_point hwhole]
    refine if_pos (Classical.byContradiction fun hgood => h ⟨hchars, ?_, ?_⟩)
    · obtain ⟨hbehind, hsome⟩ := not_or.mp hgood
      rcases Classical.not_and_iff_not_or_not.mp hsome with hne | hne
      · exact hdigit whole (fun c hc => List.mem_append_left _ hc) hwhole hne
      · exact hdigit behind (fun c hc => List.mem_append_right _ (List.mem_cons_of_mem _ hc))
          hbehind hne
    · rw [List.count_append, List.count_cons_self, List.count_eq_zero.mpr hwhole,
        List.count_eq_zero.mpr (not_or.mp hgood).1]
  · rw [number?_whole hpoint]
    refine if_pos (Classical.byContradiction fun hne => h ⟨hchars, ?_, ?_⟩)
    · exact hdigit word (fun c hc => hc) hpoint hne
    · rw [List.count_eq_zero.mpr hpoint]
      exact Nat.zero_le 1

end Token

/-! ### Lexemes -/

open Token

/-- What a token is written as. -/
inductive Lexeme where
  /-- A number. -/
  | number (word : List Char) (numeral : IsNumeral word)
  /-- A name. -/
  | name (first : Char) (others : List Char) (starts : isNameStart first = true)
      (continues : ∀ c ∈ others, isNameChar c = true)
  /-- An operator, parenthesis or comma. -/
  | symbol (character : Char) (known : character ∈ symbols)

namespace Lexeme

/-- The characters of a lexeme. -/
def chars : Lexeme → List Char
  | number word _ => word
  | name first others _ _ => first :: others
  | symbol c _ => [c]

/-- The token that a lexeme stands for. -/
def token : Lexeme → Token
  | number word _ => ofNumeral word
  | name first others _ _ => .name (String.ofList ((first :: others).map Char.toLower))
  | symbol c _ => .symbol c

/-- The characters with which a lexeme goes on. -/
def goesOn : Lexeme → Char → Bool
  | number _ _ => isNumberChar
  | name _ _ _ _ => isNameChar
  | symbol _ _ => fun _ => false

/-- The lexeme with lower case letters. -/
def lower : Lexeme → Lexeme
  | number word numeral => number word numeral
  | name first others starts continues =>
    name first.toLower (others.map Char.toLower) ((classes_toLower first).2.2.1.trans starts)
      (List.forall_mem_map.mpr fun c hc => (classes_toLower c).2.2.2.1.trans (continues c hc))
  | symbol c known => symbol c known

/-- The lexeme is a symbol. -/
def IsSymbol : Lexeme → Prop
  | symbol _ _ => True
  | _ => False

end Lexeme

end TextureGraph
