import Mathlib.Data.List.Chain
import TextureGraph.Expression.Parser
import TextureGraph.Proofs.Expression.Lexeme
import TextureGraph.Proofs.Outcome

/-!
# Correctness of the lexer

A text is lexemes with blanks between them (`Lexeme.Spelled`), up to its end or up to the first place
where there is no lexeme (`Token.Failure`).

* `scan_lexeme`, `scan_spelled`: lexemes make their tokens, one by one and all together.
* `exists_spelled`: every text is lexemes up to such a place, so that `scan_eq_ok_iff` and
  `scan_eq_error_iff` say for every text what is read from it.
* `Lexeme.Spaced.spelled`: lexemes that are written with enough blanks are read as they were written.
* `scan_map_toLower`, `scan_around_symbol`: neither letter case nor blanks around symbols matter.

`Expr.lexicalLaws` assembles them.
-/

namespace TextureGraph

open Token

variable {l : Lexeme} {ls : List Lexeme} {c : Char} {cs front rest : List Char} {offset : Nat}
  {e : ExpressionError} {tokens : List Token}

/-! ### Bytes -/

namespace Token

theorem byteLength_append (cs cs' : List Char) :
    byteLength (cs ++ cs') = byteLength cs + byteLength cs' := by
  induction cs with
  | nil => exact (Nat.zero_add _).symm
  | cons c cs ih => rw [List.cons_append, byteLength, byteLength, ih, Nat.add_assoc]

/-- The bytes of characters are those of the text that they make. -/
theorem byteLength_eq (cs : List Char) : byteLength cs = (String.ofList cs).utf8ByteSize := by
  induction cs with
  | nil => rfl
  | cons c cs ih =>
    rw [byteLength, ih, ← List.singleton_append, String.ofList_append, String.utf8ByteSize_append,
      ← String.singleton_eq_ofList, String.utf8ByteSize_singleton]

end Token

/-! ### Where a lexeme ends -/

namespace Lexeme

theorem goesOn_of_isBlank (l : Lexeme) (h : Text.isBlank c = true) : l.goesOn c = false := by
  cases l with
  | number => exact isNumberChar_of_isBlank h
  | name => exact isNameChar_of_isBlank h
  | symbol => rfl

theorem goesOn_of_mem_symbols (l : Lexeme) (h : c ∈ symbols) : l.goesOn c = false := by
  obtain ⟨-, hnumber, hname⟩ := classes_of_mem_symbols h
  cases l with
  | number => exact hnumber
  | name => exact hname
  | symbol => rfl

theorem IsSymbol.goesOn (h : l.IsSymbol) (c : Char) : l.goesOn c = false := by
  cases l with
  | number | name => exact h.elim
  | symbol => rfl

theorem IsSymbol.exists_chars (h : l.IsSymbol) : ∃ c ∈ symbols, l.chars = [c] := by
  cases l with
  | number | name => exact h.elim
  | symbol c known => exact ⟨c, known, rfl⟩

theorem chars_ne_nil (l : Lexeme) : l.chars ≠ [] := by
  cases l with
  | number word numeral =>
    obtain ⟨c, hc, -⟩ := numeral.digit
    exact List.ne_nil_of_mem hc
  | name | symbol => exact List.cons_ne_nil _ _

/-- The characters that start lexemes. -/
theorem exists_head_iff :
    (∃ l : Lexeme, l.chars.head? = some c) ↔
      isNumberChar c = true ∨ isNameStart c = true ∨ c ∈ symbols := by
  constructor
  · rintro ⟨l, hl⟩
    cases l with
    | number word numeral =>
      exact .inl (isNumberChar_iff.mpr (numeral.chars c (List.mem_of_head? hl)))
    | name first others starts continues =>
      obtain rfl : first = c := Option.some.inj hl
      exact .inr (.inl starts)
    | symbol d known =>
      obtain rfl : d = c := Option.some.inj hl
      exact .inr (.inr known)
  · rintro (hnumber | hname | hsymbol)
    · rcases isNumberChar_iff.mp hnumber with hdigit | rfl
      · exact ⟨.number [c] (isNumeral_singleton hdigit), rfl⟩
      · exact ⟨.number ['.', '0'] isNumeral_point, rfl⟩
    · exact ⟨.name c [] hname nofun, rfl⟩
    · exact ⟨.symbol c hsymbol, rfl⟩

end Lexeme

/-! ### Reading from the left -/

/-- In front of the rest of a text stand lexemes, with blanks before and between them, and each of
them goes on as long as the characters allow. -/
inductive Lexeme.Spelled : List Lexeme → List Char → List Char → Prop where
  /-- Nothing stands in front of the rest. -/
  | done (rest : List Char) : Spelled [] [] rest
  /-- A blank is skipped. -/
  | blank {ls : List Lexeme} {c : Char} {front rest : List Char} (skipped : Text.isBlank c = true)
      (after : Spelled ls front rest) : Spelled ls (c :: front) rest
  /-- A lexeme ends where the next character does not continue it. -/
  | lexeme {ls : List Lexeme} {front rest : List Char} (l : Lexeme)
      (ends : ∀ c ∈ (front ++ rest).head?, l.goesOn c = false) (after : Spelled ls front rest) :
      Spelled (l :: ls) (l.chars ++ front) rest

/-- A text starts with what is no lexeme; it stands that many bytes into the expression. -/
inductive Token.Failure (offset : Nat) : List Char → ExpressionError → Prop where
  /-- Digits and points, as many as there are, with two points or without a digit. -/
  | number {word rest : List Char} (nonempty : word ≠ [])
      (chars : ∀ c ∈ word, c.isDigit = true ∨ c = '.')
      (ends : ∀ c ∈ rest.head?, ¬ (c.isDigit = true ∨ c = '.'))
      (bad : 2 ≤ word.count '.' ∨ ∀ c ∈ word, c.isDigit = false) :
      Failure offset (word ++ rest) (.invalidNumber (String.ofList word))
  /-- A character that starts no lexeme, and is not a blank. -/
  | character {c : Char} {rest : List Char} (notBlank : Text.isBlank c = false)
      (startsNone : ∀ l : Lexeme, l.chars.head? ≠ some c) :
      Failure offset (c :: rest) (.unexpectedCharacter c offset)

namespace Token

theorem scan_blank (h : Text.isBlank c = true) (cs : List Char) :
    scan offset (c :: cs) = scan (offset + c.utf8Size) cs := by
  rw [scan, if_pos h]

/-- **Step**: a lexeme that ends makes its token. -/
theorem scan_lexeme (l : Lexeme) (ends : ∀ c ∈ cs.head?, l.goesOn c = false) :
    scan offset (l.chars ++ cs)
      = (scan (offset + byteLength l.chars) cs).map (l.token :: ·) := by
  cases l with
  | number word numeral =>
    have hall : ∀ c ∈ word, isNumberChar c = true := fun c hc =>
      isNumberChar_iff.mpr (numeral.chars c hc)
    have hnumber := number?_eq_some numeral
    change scan offset (word ++ cs) = _
    cases word with
    | nil => exact absurd numeral.digit (by simp)
    | cons d ds =>
      obtain ⟨hd, hds⟩ := List.forall_mem_cons.mp hall
      rw [List.cons_append, scan, if_neg (by rw [isBlank_of_isNumberChar hd]; decide), if_pos hd]
      simp only [Text.takeWhile_append hds ends, Text.dropWhile_append hds ends, hnumber]
      rfl
  | name first others starts continues =>
    change scan offset (first :: (others ++ cs)) = _
    rw [scan, if_neg (by rw [isBlank_of_isNameStart starts]; decide),
      if_neg (by rw [isNumberChar_of_isNameStart starts]; decide), if_pos starts]
    simp only [Text.takeWhile_append continues ends, Text.dropWhile_append continues ends]
    rfl
  | symbol c known =>
    obtain ⟨hblank, hnumber, hname⟩ := classes_of_mem_symbols known
    have hstart : ¬ isNameStart c = true := fun h => by
      rw [isNameChar_of_isNameStart h] at hname
      cases hname
    change scan offset (c :: cs) = _
    rw [scan, if_neg (by rw [hblank]; decide), if_neg (by rw [hnumber]; decide), if_neg hstart,
      if_pos (List.contains_iff_mem.mpr known)]
    rfl

/-- The lexemes in front make their tokens, and the rest is scanned on. -/
theorem scan_spelled (h : Lexeme.Spelled ls front rest) (offset : Nat) :
    scan offset (front ++ rest)
      = (scan (offset + byteLength front) rest).map (ls.map Lexeme.token ++ ·) := by
  induction h generalizing offset with
  | done rest =>
    rw [List.nil_append, byteLength, Nat.add_zero]
    cases scan offset rest <;> rfl
  | blank skipped _ ih =>
    rw [List.cons_append, scan_blank skipped, ih, byteLength, Nat.add_assoc]
  | lexeme l ends _ ih =>
    rw [List.append_assoc, scan_lexeme l ends, ih, byteLength_append, Nat.add_assoc]
    cases scan _ _ <;> rfl

theorem scan_failure (h : Failure offset cs e) : scan offset cs = .error e := by
  cases h with
  | @number word rest nonempty chars ends bad =>
    have hall : ∀ c ∈ word, isNumberChar c = true := fun c hc => isNumberChar_iff.mpr (chars c hc)
    have hends : ∀ c ∈ rest.head?, isNumberChar c = false := fun c hc =>
      Bool.eq_false_iff.mpr fun h => ends c hc (isNumberChar_iff.mp h)
    have hnumber : number? word = none := by
      refine number?_eq_none chars fun numeral => ?_
      rcases bad with hpoints | hdigits
      · exact absurd (Nat.le_trans hpoints numeral.point) (by decide)
      · obtain ⟨c, hc, hdigit⟩ := numeral.digit
        rw [hdigits c hc] at hdigit
        cases hdigit
    obtain ⟨d, ds, rfl⟩ := List.exists_cons_of_ne_nil nonempty
    obtain ⟨hd, hds⟩ := List.forall_mem_cons.mp hall
    rw [List.cons_append, scan, if_neg (by rw [isBlank_of_isNumberChar hd]; decide), if_pos hd]
    simp only [Text.takeWhile_append hds hends, hnumber]
  | character notBlank startsNone =>
    obtain ⟨hnumber, hname, hsymbol⟩ :
        ¬ isNumberChar _ = true ∧ ¬ isNameStart _ = true ∧ _ ∉ symbols := by
      rw [← not_or, ← not_or, ← Lexeme.exists_head_iff, not_exists]
      exact startsNone
    rw [scan, if_neg (by rw [notBlank]; decide), if_neg hnumber, if_neg hname,
      if_neg (mt List.contains_iff_mem.mp hsymbol)]

/-- A run of digits and points is a numeral or no lexeme. -/
theorem exists_of_isNumberChar (hc : isNumberChar c = true) (cs : List Char) :
    (∃ (l : Lexeme) (rest : List Char), c :: cs = l.chars ++ rest ∧
        ∀ d ∈ rest.head?, l.goesOn d = false) ∨
      ∀ offset, ∃ e, Failure offset (c :: cs) e := by
  let word := c :: cs.takeWhile isNumberChar
  let rest := cs.dropWhile isNumberChar
  have hsplit : c :: cs = word ++ rest :=
    congrArg (c :: ·) List.takeWhile_append_dropWhile.symm
  have hends : ∀ d ∈ rest.head?, isNumberChar d = false := Text.head?_dropWhile cs
  have hall : ∀ d ∈ word, isNumberChar d = true :=
    List.forall_mem_cons.mpr ⟨hc, List.all_eq_true.mp List.all_takeWhile⟩
  have hchars : ∀ d ∈ word, d.isDigit = true ∨ d = '.' := fun d hd =>
    isNumberChar_iff.mp (hall d hd)
  by_cases hnumeral : IsNumeral word
  · exact .inl ⟨.number word hnumeral, rest, hsplit, hends⟩
  · refine .inr fun offset => ⟨.invalidNumber (String.ofList word), ?_⟩
    rw [hsplit]
    refine .number (List.cons_ne_nil _ _) hchars
      (fun d hd h => Bool.eq_false_iff.mp (hends d hd) (isNumberChar_iff.mpr h)) ?_
    by_cases hdigit : ∃ d ∈ word, d.isDigit = true
    · exact .inl (Nat.lt_of_not_le fun hpoint => hnumeral ⟨hchars, hdigit, hpoint⟩)
    · exact .inr fun d hd => Bool.eq_false_iff.mpr fun h => hdigit ⟨d, hd, h⟩

/-- A text starts with a blank, a lexeme that ends, or what is no lexeme. -/
theorem exists_front (c : Char) (cs : List Char) :
    Text.isBlank c = true ∨
      (∃ (l : Lexeme) (rest : List Char), c :: cs = l.chars ++ rest ∧
        ∀ d ∈ rest.head?, l.goesOn d = false) ∨
      ∀ offset, ∃ e, Failure offset (c :: cs) e := by
  by_cases hblank : Text.isBlank c = true
  · exact .inl hblank
  refine .inr ?_
  by_cases hnumber : isNumberChar c = true
  · exact exists_of_isNumberChar hnumber cs
  by_cases hname : isNameStart c = true
  · have hrun : ∀ d ∈ cs.takeWhile isNameChar, isNameChar d = true :=
      List.all_eq_true.mp List.all_takeWhile
    exact .inl ⟨.name c (cs.takeWhile isNameChar) hname hrun, cs.dropWhile isNameChar,
      congrArg (c :: ·) List.takeWhile_append_dropWhile.symm, Text.head?_dropWhile cs⟩
  by_cases hsymbol : c ∈ symbols
  · exact .inl ⟨.symbol c hsymbol, cs, rfl, fun _ _ => rfl⟩
  · refine .inr fun offset => ⟨_, .character (Bool.eq_false_iff.mpr hblank) fun l hl => ?_⟩
    rcases Lexeme.exists_head_iff.mp ⟨l, hl⟩ with h | h | h
    · exact hnumber h
    · exact hname h
    · exact hsymbol h

/-- **Run**: every text is lexemes up to its end, or up to what is no lexeme. -/
theorem exists_spelled (cs : List Char) :
    ∃ (ls : List Lexeme) (front rest : List Char), cs = front ++ rest ∧
      Lexeme.Spelled ls front rest ∧ (rest = [] ∨ ∀ offset, ∃ e, Failure offset rest e) := by
  -- Induction on the length, since what is left after a lexeme is not the tail of the text.
  induction hlength : cs.length using Nat.strong_induction_on generalizing cs with
  | _ length ih =>
    cases cs with
    | nil => exact ⟨[], [], [], rfl, .done [], .inl rfl⟩
    | cons c cs =>
      rcases exists_front c cs with hblank | ⟨l, after, hsplit, hends⟩ | hfailure
      · obtain ⟨ls, front, rest, rfl, hspelled, hrest⟩ :=
          ih cs.length (hlength ▸ Nat.lt_succ_self _) cs rfl
        exact ⟨ls, c :: front, rest, rfl, .blank hblank hspelled, hrest⟩
      · have hshorter : after.length < length := by
          have hchars : l.chars ≠ [] := l.chars_ne_nil
          rw [← hlength, hsplit, List.length_append]
          have := List.length_pos_iff.mpr hchars
          omega
        obtain ⟨ls, front, rest, rfl, hspelled, hrest⟩ := ih after.length hshorter after rfl
        exact ⟨l :: ls, l.chars ++ front, rest, by rw [hsplit, List.append_assoc],
          .lexeme l hends hspelled, hrest⟩
      · exact ⟨[], [], c :: cs, rfl, .done _, .inr hfailure⟩

/-- A text is scanned exactly if it is lexemes up to its end, and its tokens are theirs. -/
theorem scan_eq_ok_iff :
    scan offset cs = .ok tokens ↔
      ∃ ls, Lexeme.Spelled ls cs [] ∧ tokens = ls.map Lexeme.token := by
  constructor
  · intro h
    obtain ⟨ls, front, rest, rfl, hspelled, hrest⟩ := exists_spelled cs
    rw [scan_spelled hspelled] at h
    rcases hrest with rfl | hfailure
    · rw [scan] at h
      rw [List.append_nil]
      exact ⟨ls, hspelled, (Except.ok.inj h).symm.trans (List.append_nil _)⟩
    · obtain ⟨e, he⟩ := hfailure (offset + byteLength front)
      rw [scan_failure he] at h
      cases h
  · rintro ⟨ls, hspelled, rfl⟩
    have hscan := scan_spelled hspelled offset
    rw [List.append_nil, scan] at hscan
    rw [hscan]
    exact congrArg Except.ok (List.append_nil _)

/-- A text is refused exactly at what is no lexeme, behind lexemes. -/
theorem scan_eq_error_iff :
    scan offset cs = .error e ↔
      ∃ (ls : List Lexeme) (front rest : List Char), cs = front ++ rest ∧
        Lexeme.Spelled ls front rest ∧ Failure (offset + byteLength front) rest e := by
  constructor
  · intro h
    obtain ⟨ls, front, rest, rfl, hspelled, hrest⟩ := exists_spelled cs
    refine ⟨ls, front, rest, rfl, hspelled, ?_⟩
    rw [scan_spelled hspelled] at h
    rcases hrest with rfl | hfailure
    · rw [scan] at h
      cases h
    · obtain ⟨e', he'⟩ := hfailure (offset + byteLength front)
      rw [scan_failure he'] at h
      cases h
      exact he'
  · rintro ⟨ls, front, rest, rfl, hspelled, hfailure⟩
    rw [scan_spelled hspelled, scan_failure hfailure]
    rfl

/-! ### Blanks between lexemes -/

theorem scan_blanks {gap : List Char} (h : ∀ c ∈ gap, Text.isBlank c = true) (cs : List Char) :
    scan offset (gap ++ cs) = scan (offset + byteLength gap) cs := by
  induction gap generalizing offset with
  | nil => rfl
  | cons c gap ih =>
    obtain ⟨hc, hgap⟩ := List.forall_mem_cons.mp h
    rw [List.cons_append, scan_blank hc, ih hgap, byteLength, Nat.add_assoc]

end Token

/-- Lexemes, each with the blanks behind it: there are some between two lexemes, unless one of the
two is a symbol. -/
structure Lexeme.Spaced (pieces : List (Lexeme × List Char)) : Prop where
  /-- Nothing but blanks stands behind a lexeme. -/
  blanks : ∀ p ∈ pieces, ∀ c ∈ p.2, Text.isBlank c = true
  /-- Blanks are left out next to symbols only. -/
  apart : pieces.IsChain fun p q => p.2 ≠ [] ∨ p.1.IsSymbol ∨ q.1.IsSymbol

/-- The characters of lexemes and of the blanks behind them. -/
def Lexeme.written (pieces : List (Lexeme × List Char)) : List Char :=
  pieces.flatMap fun p => p.1.chars ++ p.2

namespace Lexeme

variable {pieces : List (Lexeme × List Char)} {gap : List Char}

theorem Spelled.blanks (h : Spelled ls front rest) (hgap : ∀ c ∈ gap, Text.isBlank c = true) :
    Spelled ls (gap ++ front) rest := by
  induction gap with
  | nil => exact h
  | cons c gap ih =>
    obtain ⟨hc, hgap⟩ := List.forall_mem_cons.mp hgap
    exact .blank hc (ih hgap)

/-- A lexeme ends before a blank and before a symbol, and a symbol ends in any case. -/
theorem Spaced.ends {p : Lexeme × List Char} (h : Spaced (p :: pieces)) :
    ∀ c ∈ (p.2 ++ written pieces).head?, p.1.goesOn c = false := by
  intro c hc
  obtain ⟨l, gap⟩ := p
  cases gap with
  | cons b gap =>
    obtain rfl : b = c := Option.some.inj hc
    exact l.goesOn_of_isBlank (h.blanks _ List.mem_cons_self b List.mem_cons_self)
  | nil =>
    cases pieces with
    | nil => cases hc
    | cons q pieces =>
      rcases (List.isChain_cons_cons.mp h.apart).1 with hgap | hsymbol | hsymbol
      · exact absurd rfl hgap
      · exact hsymbol.goesOn c
      · obtain ⟨d, hd, hchars⟩ := hsymbol.exists_chars
        have hc' : (q.1.chars ++ q.2 ++ written pieces).head? = some c := hc
        rw [hchars] at hc'
        obtain rfl : d = c := Option.some.inj hc'
        exact l.goesOn_of_mem_symbols hd

theorem Spaced.spelled (h : Spaced pieces) : Spelled (pieces.map (·.1)) (written pieces) [] := by
  induction pieces with
  | nil => exact .done []
  | cons p pieces ih =>
    have hpieces : Spaced pieces :=
      ⟨fun q hq => h.blanks q (List.mem_cons_of_mem _ hq), h.apart.tail⟩
    rw [written, List.flatMap_cons, List.append_assoc]
    refine .lexeme p.1 ?_ ((ih hpieces).blanks (h.blanks p List.mem_cons_self))
    rw [List.append_nil]
    exact h.ends

end Lexeme

/-! ### Letter case -/

namespace Lexeme

theorem chars_lower (l : Lexeme) : l.lower.chars = l.chars.map Char.toLower := by
  cases l with
  | number word numeral =>
    exact (map_toLower_of_isNumberChar fun c hc => isNumberChar_iff.mpr (numeral.chars c hc)).symm
  | name => rfl
  | symbol c known =>
    have hname : ¬ isNameStart c = true := fun h =>
      Bool.eq_false_iff.mp (classes_of_mem_symbols known).2.2 (isNameChar_of_isNameStart h)
    exact congrArg (fun d => [d]) (toLower_of_not_isNameStart hname).symm

theorem token_lower (l : Lexeme) : l.lower.token = l.token := by
  cases l with
  | number | symbol => rfl
  | name first others starts continues =>
    have htwice : (others.map Char.toLower).map Char.toLower = others.map Char.toLower := by
      rw [List.map_map]
      exact List.map_congr_left fun c _ => toLower_toLower c
    change Token.name (String.ofList (first.toLower.toLower ::
      (others.map Char.toLower).map Char.toLower)) = _
    rw [htwice, toLower_toLower]
    rfl

theorem goesOn_lower (l : Lexeme) (c : Char) : l.lower.goesOn c.toLower = l.goesOn c := by
  cases l with
  | number => exact (classes_toLower c).2.1
  | name => exact (classes_toLower c).2.2.2.1
  | symbol => rfl

/-- The lower case of a text spells the lower case of its lexemes. -/
theorem Spelled.lower (h : Spelled ls front rest) :
    Spelled (ls.map Lexeme.lower) (front.map Char.toLower) (rest.map Char.toLower) := by
  induction h with
  | done rest => exact .done _
  | @blank ls c front rest skipped _ ih =>
    exact .blank ((classes_toLower c).1.trans skipped) ih
  | @lexeme ls front rest l ends _ ih =>
    rw [List.map_append, ← chars_lower]
    refine .lexeme l.lower (fun c hc => ?_) ih
    rw [← List.map_append, List.head?_map] at hc
    obtain ⟨d, hd, rfl⟩ := Option.map_eq_some_iff.mp hc
    rw [goesOn_lower]
    exact ends d hd

end Lexeme

namespace Token

/-- What is no lexeme is none in lower case. -/
theorem Failure.lower (h : Failure offset rest e) : Failure offset (rest.map Char.toLower) e := by
  cases h with
  | @number word rest nonempty chars ends bad =>
    rw [List.map_append,
      map_toLower_of_isNumberChar fun c hc => isNumberChar_iff.mpr (chars c hc)]
    refine .number nonempty chars (fun c hc => ?_) bad
    rw [List.head?_map] at hc
    obtain ⟨d, hd, rfl⟩ := Option.map_eq_some_iff.mp hc
    rw [← isNumberChar_iff, (classes_toLower d).2.1, isNumberChar_iff]
    exact ends d hd
  | @character c rest notBlank startsNone =>
    have hname : ¬ isNameStart c = true := fun h => by
      obtain ⟨l, hl⟩ := Lexeme.exists_head_iff.mpr (.inr (.inl h))
      exact startsNone l hl
    rw [List.map_cons, toLower_of_not_isNameStart hname]
    exact .character notBlank startsNone

theorem byteLength_map_toLower (cs : List Char) :
    byteLength (cs.map Char.toLower) = byteLength cs := by
  induction cs with
  | nil => rfl
  | cons c cs ih => rw [List.map_cons, byteLength, byteLength, (classes_toLower c).2.2.2.2, ih]

/-- Letter case does not matter: a text has the tokens of its lower case, or fails like it. -/
theorem scan_map_toLower (offset : Nat) (cs : List Char) :
    scan offset (cs.map Char.toLower) = scan offset cs := by
  obtain ⟨ls, front, rest, rfl, hspelled, hrest⟩ := exists_spelled cs
  have htokens : (ls.map Lexeme.lower).map Lexeme.token = ls.map Lexeme.token := by
    rw [List.map_map]
    exact List.map_congr_left fun l _ => l.token_lower
  rw [scan_spelled hspelled, List.map_append, scan_spelled hspelled.lower, htokens,
    byteLength_map_toLower]
  rcases hrest with rfl | hfailure
  · rfl
  · obtain ⟨e, he⟩ := hfailure (offset + byteLength front)
    rw [scan_failure he, scan_failure he.lower]

end Token

/-! ### Blanks around symbols -/

/-- Whatever lexeme stands in front of these characters, it ends there. -/
def Lexeme.EndBefore (cs : List Char) : Prop :=
  ∀ c ∈ cs.head?, ∀ l : Lexeme, l.goesOn c = false

variable {before after : List Char}

theorem Lexeme.endBefore_symbol (hbefore : ∀ c ∈ before, Text.isBlank c = true) (hc : c ∈ symbols)
    (cs : List Char) : Lexeme.EndBefore (before ++ c :: cs) := by
  intro d hd l
  cases before with
  | nil =>
    obtain rfl : c = d := Option.some.inj hd
    exact l.goesOn_of_mem_symbols hc
  | cons b before =>
    obtain rfl : b = d := Option.some.inj hd
    exact l.goesOn_of_isBlank (hbefore b List.mem_cons_self)

/-- More characters do no harm where the lexemes end before them. -/
theorem Lexeme.Spelled.append (h : Lexeme.Spelled ls front rest)
    (hends : rest = [] → Lexeme.EndBefore cs) : Lexeme.Spelled ls front (rest ++ cs) := by
  induction h with
  | done rest => exact .done _
  | blank skipped _ ih => exact .blank skipped (ih hends)
  | @lexeme ls front rest l ends _ ih =>
    refine .lexeme l (fun c hc => ?_) (ih hends)
    rw [← List.append_assoc, List.head?_append, Option.mem_def, Option.or_eq_some_iff] at hc
    rcases hc with hc | ⟨hnone, hc⟩
    · exact ends c hc
    · obtain ⟨-, hrest⟩ := List.append_eq_nil_iff.mp (List.head?_eq_none_iff.mp hnone)
      exact hends hrest c hc l

namespace Token

theorem Failure.append (h : Failure offset rest e) (hends : Lexeme.EndBefore cs) :
    Failure offset (rest ++ cs) e := by
  cases h with
  | @number word rest nonempty chars ends bad =>
    rw [List.append_assoc]
    refine .number nonempty chars (fun c hc => ?_) bad
    rw [List.head?_append, Option.mem_def, Option.or_eq_some_iff] at hc
    rcases hc with hc | ⟨-, hc⟩
    · exact ends c hc
    · rw [← isNumberChar_iff, Bool.not_eq_true]
      exact hends c hc (.number ['0'] (isNumeral_singleton rfl))
  | character notBlank startsNone => exact .character notBlank startsNone

/-- The tokens do not depend on where a text stands in the expression. -/
theorem scan_eq_ok_congr (offset offset' : Nat) :
    scan offset cs = .ok tokens ↔ scan offset' cs = .ok tokens := by
  rw [scan_eq_ok_iff, scan_eq_ok_iff]

/-- Two texts are scanned one after the other, if lexemes end where they meet. -/
theorem scan_append_eq_ok_iff (hends : Lexeme.EndBefore cs) :
    scan offset (front ++ cs) = .ok tokens ↔
      ∃ first second, scan 0 front = .ok first ∧ scan 0 cs = .ok second ∧
        tokens = first ++ second := by
  obtain ⟨ls, front, rest, rfl, hspelled, hrest⟩ := exists_spelled front
  rw [List.append_assoc, scan_spelled (hspelled.append fun _ => hends), scan_spelled hspelled]
  rcases hrest with rfl | hfailure
  · have hnil : ∀ offset, scan offset [] = .ok [] := fun offset => by rw [scan]
    rw [hnil, List.nil_append, map_eq_ok_iff]
    constructor
    · rintro ⟨second, hsecond, rfl⟩
      exact ⟨_, second, rfl, (scan_eq_ok_congr _ _).mp hsecond,
        congrArg (· ++ second) (List.append_nil _).symm⟩
    · rintro ⟨first, second, hfirst, hsecond, rfl⟩
      refine ⟨second, (scan_eq_ok_congr _ _).mp hsecond, ?_⟩
      rw [← Except.ok.inj hfirst]
      exact congrArg (· ++ second) (List.append_nil _).symm
  · obtain ⟨e, he⟩ := hfailure (offset + byteLength front)
    obtain ⟨e', he'⟩ := hfailure (0 + byteLength front)
    rw [scan_failure (he.append hends), scan_failure he']
    constructor
    · intro h
      cases h
    · rintro ⟨_, _, h, _⟩
      cases h

/-- Blanks around a symbol make no difference. -/
theorem scan_around_symbol (hc : c ∈ symbols) (hbefore : ∀ d ∈ before, Text.isBlank d = true)
    (hafter : ∀ d ∈ after, Text.isBlank d = true) :
    scan offset (front ++ (before ++ c :: (after ++ rest))) = .ok tokens ↔
      ∃ first second, scan 0 front = .ok first ∧ scan 0 rest = .ok second ∧
        tokens = first ++ .symbol c :: second := by
  have hsymbol : ∀ second, scan 0 (before ++ c :: (after ++ rest)) = .ok second ↔
      ∃ others, scan 0 rest = .ok others ∧ .symbol c :: others = second := by
    intro second
    have hlexeme : scan (0 + byteLength before) (c :: (after ++ rest))
        = (scan (0 + byteLength before + byteLength [c]) (after ++ rest)).map (.symbol c :: ·) :=
      scan_lexeme (.symbol c hc) fun _ _ => rfl
    rw [scan_blanks hbefore, hlexeme, map_eq_ok_iff]
    refine exists_congr fun others => and_congr_left fun _ => ?_
    rw [scan_blanks hafter]
    exact scan_eq_ok_congr _ _
  rw [scan_append_eq_ok_iff (Lexeme.endBefore_symbol hbefore hc _)]
  constructor
  · rintro ⟨first, second, hfirst, hsecond, rfl⟩
    obtain ⟨others, hothers, rfl⟩ := (hsymbol second).mp hsecond
    exact ⟨first, others, hfirst, hothers, rfl⟩
  · rintro ⟨first, others, hfirst, hothers, rfl⟩
    exact ⟨first, _, hfirst, (hsymbol _).mpr ⟨others, hothers, rfl⟩, rfl⟩

end Token

namespace Expr

theorem parse_eq_ok_iff {α : Type} [Arith α] {cs : List Char} {root : Expr α} :
    parse (String.ofList cs) = .ok root ↔
      ∃ tokens, scan 0 cs = .ok tokens ∧ ofTokens tokens = .ok root := by
  unfold parse
  rw [String.toList_ofList, bind_eq_ok_iff]

/-- **The laws of the lexer**:

* lexemes that are written with blanks behind them are read as their tokens in order, where blanks
  may be left out next to symbols;
* neither letter case nor blanks around symbols make a difference for the tree;
* the texts that are read are lexemes up to their end, each as long as the characters allow;
* any other text is refused where, behind lexemes, it first has digits and points that are no numeral
  or a character that starts no lexeme, and the error says which. -/
theorem lexicalLaws (α : Type) [Arith α] :
    (∀ (offset : Nat) (lead : List Char) (pieces : List (Lexeme × List Char)),
      (∀ c ∈ lead, Text.isBlank c = true) → Lexeme.Spaced pieces →
        scan offset (lead ++ Lexeme.written pieces) = .ok (pieces.map fun p => p.1.token)) ∧
    (∀ text text' : String, text.toList.map Char.toLower = text'.toList.map Char.toLower →
      (parse text : Except ExpressionError (Expr α)) = parse text') ∧
    (∀ (front before after before' after' rest : List Char) (c : Char) (root : Expr α),
      c ∈ symbols → (∀ d ∈ before ++ after ++ before' ++ after', Text.isBlank d = true) →
        (parse (String.ofList (front ++ (before ++ c :: (after ++ rest)))) = .ok root ↔
          parse (String.ofList (front ++ (before' ++ c :: (after' ++ rest)))) = .ok root)) ∧
    (∀ (text : String) (tokens : List Token), scan 0 text.toList = .ok tokens ↔
      ∃ ls, Lexeme.Spelled ls text.toList [] ∧ tokens = ls.map Lexeme.token) ∧
    ∀ (text : String) (e : ExpressionError), scan 0 text.toList = .error e ↔
      ∃ (ls : List Lexeme) (front rest : List Char), text.toList = front ++ rest ∧
        Lexeme.Spelled ls front rest ∧ Failure (String.ofList front).utf8ByteSize rest e := by
  refine ⟨fun offset lead pieces hlead hpieces => ?_, fun text text' hcase => ?_, ?_,
    fun text tokens => scan_eq_ok_iff, fun text e => ?_⟩
  · rw [scan_blanks hlead, scan_eq_ok_iff]
    exact ⟨_, hpieces.spelled, by rw [List.map_map]; rfl⟩
  · unfold parse
    rw [← scan_map_toLower, hcase, scan_map_toLower]
  · intro front before after before' after' rest c root hc hblank
    simp only [List.forall_mem_append] at hblank
    obtain ⟨⟨⟨hbefore, hafter⟩, hbefore'⟩, hafter'⟩ := hblank
    simp only [parse_eq_ok_iff, scan_around_symbol hc hbefore hafter,
      scan_around_symbol hc hbefore' hafter']
  · rw [scan_eq_error_iff]
    simp only [Nat.zero_add, byteLength_eq]

end Expr

end TextureGraph
