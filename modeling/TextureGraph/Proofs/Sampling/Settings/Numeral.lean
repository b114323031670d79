import Mathlib.Tactic.FinCases
import TextureGraph.Proofs.Number.Shortest
import TextureGraph.Proofs.Number.Whole
import TextureGraph.Proofs.Text.Span
import TextureGraph.Sampling.Settings.Numeral
import TextureGraph.Sampling.Settings.Writer

/-!
# Written numbers are read back

* `natural_toDigits`: a whole number that fits the bits it is read with is read back.
* `float_numberText`: every finite number is read back, zeros with their sign.

The digits of a number with a point are those of its shortest decimal, which is read as the number
that it is made for (`Decimal.roundsTo_shortest`); `decimalValue?_signed` takes the text apart into
them.
-/

namespace TextureGraph.Scan

/-! ### What ends a value -/

/-- What may stand behind a value. -/
def valueEnds : List Char :=
  ',' :: ')' :: blankChars

/-- A comma, a closing parenthesis or a blank comes next. -/
def EndsValue (rest : List Char) : Prop :=
  ∃ c tail, rest = c :: tail ∧ c ∈ valueEnds

theorem endsValue_closing (tail : List Char) : EndsValue (')' :: tail) :=
  ⟨')', tail, rfl, by decide⟩

theorem not_isIntegerChar_valueEnds : ∀ c ∈ valueEnds, isIntegerChar c = false := by
  simp [valueEnds, blankChars, isIntegerChar, Char.isDigit]

theorem not_isFloatChar_valueEnds : ∀ c ∈ valueEnds, isFloatChar c = false := by
  simp [valueEnds, blankChars, isFloatChar, Char.isDigit]

variable {word rest : List Char}

theorem EndsValue.literal_eq_none (h : EndsValue rest) {text : String}
    (htext : ∃ c ∈ text.toList.head?, c ∉ valueEnds) : literal text rest = none := by
  obtain ⟨c, tail, rfl, hc⟩ := h
  obtain ⟨d, hd, hd'⟩ := htext
  obtain ⟨ds, hds⟩ := List.head?_eq_some_iff.mp hd
  have hne : (d == c) = false := beq_false_of_ne fun h => hd' (h ▸ hc)
  unfold literal
  rw [hds]
  simp [List.isPrefixOf?, hne]

theorem EndsValue.typeMark?_eq_none (h : EndsValue rest) {β : Type} {mark : β → String}
    {types : List β} (hmark : ∀ type ∈ types, ∃ c ∈ (mark type).toList.head?, c ∉ valueEnds) :
    typeMark? mark types rest = none := by
  unfold typeMark? keyword
  rw [List.findSome?_eq_none_iff]
  intro type htype
  rw [h.literal_eq_none (hmark type htype)]
  rfl

theorem EndsValue.typeMark?_integer (h : EndsValue rest) :
    typeMark? IntegerType.mark IntegerType.all rest = none := by
  refine h.typeMark?_eq_none fun type htype => ?_
  fin_cases htype <;> exact ⟨_, rfl, by decide⟩

theorem EndsValue.typeMark?_float (h : EndsValue rest) : typeMark? id floatTypes rest = none := by
  refine h.typeMark?_eq_none fun type htype => ?_
  fin_cases htype <;> exact ⟨_, rfl, by decide⟩

theorem span_append {p : Char → Bool} (hword : ∀ c ∈ word, p c = true)
    (hrest : ∀ c ∈ rest.head?, p c = false) : (word ++ rest).span p = (word, rest) := by
  rw [List.span_eq_takeWhile_dropWhile, Text.takeWhile_append hword hrest,
    Text.dropWhile_append hword hrest]

theorem EndsValue.span_append {p : Char → Bool} (h : EndsValue rest)
    (hends : ∀ c ∈ valueEnds, p c = false) (hword : ∀ c ∈ word, p c = true) :
    (word ++ rest).span p = (word, rest) := by
  refine Scan.span_append hword ?_
  obtain ⟨c, tail, rfl, hc⟩ := h
  rintro c ⟨⟩
  exact hends c hc

/-! ### Digits -/

theorem ne_of_isDigit {c d : Char} (hc : c.isDigit = true) (hd : d.isDigit = false) : c ≠ d := by
  rintro rfl
  rw [hc] at hd
  cases hd

theorem isDigit_zero : ∀ c ∈ ['0'], c.isDigit = true := by
  intro c hc
  rw [List.mem_singleton.mp hc]
  rfl

theorem isDigit_of_mem_toDigits {n : ℕ} {c : Char} (h : c ∈ Nat.toDigits 10 n) :
    c.isDigit = true :=
  Nat.isDigit_of_mem_toDigits (by decide) (by decide) h

theorem isDigit_of_mem_replicate {n : ℕ} {c : Char} (h : c ∈ List.replicate n '0') :
    c.isDigit = true := by
  rw [List.eq_of_mem_replicate h]
  rfl

theorem digitValue_lt {c : Char} (hc : c.isDigit = true) : digitValue c < 10 := by
  have hrange := Char.isDigit_iff_toNat.mp hc
  have hzero : '0'.toNat = 48 := rfl
  have hnine : '9'.toNat = 57 := rfl
  unfold digitValue
  rw [if_pos hc]
  omega

/-- Digits spell the number that they are the digits of. -/
theorem digitsInBase_ten (h : ∀ c ∈ word, c.isDigit = true) :
    digitsInBase 10 word = some (Nat.ofDigitChars 10 word 0) := by
  unfold digitsInBase
  generalize (0 : ℕ) = n
  induction word generalizing n with
  | nil => rfl
  | cons c cs ih =>
    obtain ⟨hc, hcs⟩ := List.forall_mem_cons.mp h
    have hvalue : digitValue c = c.toNat - '0'.toNat := if_pos hc
    have hunderscore : (c == '_') = false := beq_false_of_ne (ne_of_isDigit hc rfl)
    rw [List.foldlM_cons, hunderscore, if_neg Bool.false_ne_true, if_pos (digitValue_lt hc),
      Nat.ofDigitChars_cons, ← hvalue]
    exact ih hcs _

theorem isIntegerChar_of_isDigit {c : Char} (hc : c.isDigit = true) : isIntegerChar c = true := by
  unfold isIntegerChar
  rw [hc]
  rfl

theorem isFloatChar_of_isDigit {c : Char} (hc : c.isDigit = true) : isFloatChar c = true := by
  unfold isFloatChar
  rw [hc]
  rfl

/-! ### Whole numbers -/

theorem sign_append (hword : ∀ c ∈ word, c.isDigit = true) (hne : word ≠ []) :
    sign (word ++ rest) = (false, word ++ rest) := by
  obtain ⟨d, ds, rfl⟩ := List.exists_cons_of_ne_nil hne
  have hd : d.isDigit = true := hword d (by simp)
  unfold sign
  split
  · rename_i heq
    exact absurd (List.cons.inj heq).1 (ne_of_isDigit hd rfl)
  · rename_i heq
    exact absurd (List.cons.inj heq).1 (ne_of_isDigit hd rfl)
  · rfl

/-- Digits in base ten carry no mark for another base. -/
theorem digits_append (hword : ∀ c ∈ word, c.isDigit = true) (hne : word ≠ [])
    (hrest : EndsValue rest) :
    digits (word ++ rest) = some (Nat.ofDigitChars 10 word 0, rest) := by
  have hspan : (word ++ rest).span isIntegerChar = (word, rest) :=
    hrest.span_append not_isIntegerChar_valueEnds fun c hc => isIntegerChar_of_isDigit (hword c hc)
  have hsecond : ∀ c tail, word ++ rest = '0' :: c :: tail → c ≠ 'x' ∧ c ≠ 'b' ∧ c ≠ 'o' := by
    intro c tail heq
    obtain ⟨d, ds, rfl⟩ := List.exists_cons_of_ne_nil hne
    rw [List.cons_append, List.cons.injEq] at heq
    cases ds with
    | nil =>
      obtain ⟨e, tail', rfl, he⟩ := hrest
      have hends : ∀ c ∈ valueEnds, c ≠ 'x' ∧ c ≠ 'b' ∧ c ≠ 'o' := by
        simp [valueEnds, blankChars]
      cases heq.2
      exact hends c he
    | cons d' ds =>
      have hd : d'.isDigit = true := hword d' (by simp)
      cases heq.2
      exact ⟨ne_of_isDigit hd rfl, ne_of_isDigit hd rfl, ne_of_isDigit hd rfl⟩
  obtain ⟨d, ds, rfl⟩ := List.exists_cons_of_ne_nil hne
  have hunderscore : d ≠ '_' := ne_of_isDigit (hword d (by simp)) rfl
  unfold digits
  generalize hcs : d :: ds ++ rest = cs at hspan hsecond ⊢
  split
  rename_i base digitsAhead hmark
  split at hmark
  · exact absurd rfl (hsecond _ _ rfl).1
  · exact absurd rfl (hsecond _ _ rfl).2.1
  · exact absurd rfl (hsecond _ _ rfl).2.2
  · cases hmark
    rw [hspan]
    dsimp only
    rw [digitsInBase_ten hword]
    split
    · contradiction
    · rename_i heq
      exact absurd (List.cons.inj heq).1 hunderscore
    · rfl

/-- A whole number that fits the bits it is read with is read back. -/
theorem natural_toDigits {bits n : ℕ} (hn : n < 2 ^ bits) (hrest : EndsValue rest) :
    natural bits (Nat.toDigits 10 n ++ rest) = some (n, rest) := by
  have hword : ∀ c ∈ Nat.toDigits 10 n, c.isDigit = true := fun c => isDigit_of_mem_toDigits
  have hspan : (Nat.toDigits 10 n ++ rest).dropWhile isIntegerChar = rest := by
    have h := hrest.span_append (p := isIntegerChar) not_isIntegerChar_valueEnds fun c hc =>
      isIntegerChar_of_isDigit (hword c hc)
    rw [List.span_eq_takeWhile_dropWhile] at h
    exact (Prod.mk.inj h).2
  have hsign : sign (Nat.toDigits 10 n ++ rest) = (false, Nat.toDigits 10 n ++ rest) :=
    sign_append hword Nat.toDigits_ne_nil
  have hfits : (IntegerType.mk false bits).contains n = true := by
    have hcast : (n : ℤ) < Int.pow 2 bits := by
      have hpow : Int.pow 2 bits = ((2 ^ bits : ℕ) : ℤ) := by push_cast; rfl
      rw [hpow]
      exact_mod_cast hn
    unfold IntegerType.contains
    simpa using hcast
  unfold natural numeral
  rw [hsign]
  dsimp only
  rw [digits_append hword Nat.toDigits_ne_nil hrest, hspan, hrest.typeMark?_integer,
    Nat.ofDigitChars_ten_toDigits]
  simp [hfits]

/-! ### Numbers with a point -/

/-- A minus in front of a negative number. -/
def signed (negative : Bool) (word : List Char) : List Char :=
  if negative then '-' :: word else word

theorem signed_append (negative : Bool) (word rest : List Char) :
    signed negative word ++ rest = signed negative (word ++ rest) := by
  cases negative <;> rfl

/-- A point in front of digits, where there are any. -/
def pointed : List Char → List Char
  | [] => []
  | fraction => '.' :: fraction

/-- The digits in front of the point and behind it. -/
structure Digits (whole fraction : List Char) : Prop where
  /-- There are some in front. -/
  ne_nil : whole ≠ []
  /-- Those in front are digits. -/
  whole : ∀ c ∈ whole, c.isDigit = true
  /-- Those behind are digits. -/
  fraction : ∀ c ∈ fraction, c.isDigit = true

/-- The decimal that digits spell. -/
def spelled (whole fraction : List Char) : Decimal :=
  ⟨Nat.ofDigitChars 10 (whole ++ fraction) 0, -fraction.length⟩

/-- A number with its sign. -/
def withSign (negative : Bool) (x : Float) : Float :=
  if negative then -x else x

variable {whole fraction : List Char}

theorem Digits.whole_append (h : Digits whole fraction) :
    ∀ c ∈ whole ++ fraction, c.isDigit = true := by
  intro c hc
  rcases List.mem_append.mp hc with hc | hc
  · exact h.whole c hc
  · exact h.fraction c hc

/-- The first character of a number is a digit, after the minus of a negative one. -/
theorem Digits.exists_cons (h : Digits whole fraction) :
    ∃ d ds, whole ++ pointed fraction = d :: ds ∧ d.isDigit = true := by
  obtain ⟨d, ds, rfl⟩ := List.exists_cons_of_ne_nil h.ne_nil
  exact ⟨d, ds ++ pointed fraction, rfl, h.whole d (by simp)⟩

theorem sign_signed (h : Digits whole fraction) (negative : Bool) :
    sign (signed negative (whole ++ pointed fraction)) = (negative, whole ++ pointed fraction) := by
  cases negative with
  | true => rfl
  | false => exact sign_append h.whole h.ne_nil

theorem decimalValue?_signed (h : Digits whole fraction) (negative : Bool) :
    decimalValue? (signed negative (whole ++ pointed fraction))
      = some (withSign negative (spelled whole fraction).toFloat) := by
  have hspan : (whole ++ pointed fraction).span Char.isDigit = (whole, pointed fraction) := by
    refine span_append h.whole ?_
    cases fraction with
    | nil => exact nofun
    | cons d ds =>
      rintro c ⟨⟩
      rfl
  have hempty : whole.isEmpty = false := List.isEmpty_eq_false_iff.mpr h.ne_nil
  have hdigits := digitsInBase_ten h.whole_append
  unfold decimalValue?
  rw [sign_signed h]
  dsimp only
  rw [hspan]
  cases fraction with
  | nil =>
    rw [List.append_nil] at hdigits
    simp only [pointed, hempty, exponent?]
    simp [hdigits, withSign, spelled]
  | cons d ds =>
    have hfraction : (d :: ds).span Char.isDigit = (d :: ds, []) := by
      have hnone : ∀ c ∈ ([] : List Char).head?, Char.isDigit c = false := nofun
      have hall := span_append h.fraction hnone
      rwa [List.append_nil] at hall
    simp only [pointed, hfraction, hempty, exponent?]
    simp [hdigits, withSign, spelled]

theorem isFloatChar_of_mem_signed (h : Digits whole fraction) {negative : Bool} {c : Char}
    (hc : c ∈ signed negative (whole ++ pointed fraction)) :
    c = '-' ∨ c = '.' ∨ c.isDigit = true := by
  have hc' : c = '-' ∨ c ∈ whole ++ pointed fraction := by
    cases negative with
    | true => exact List.mem_cons.mp hc
    | false => exact .inr hc
  rcases hc' with hminus | hc
  · exact .inl hminus
  · rcases List.mem_append.mp hc with hc | hc
    · exact .inr (.inr (h.whole c hc))
    · cases fraction with
      | nil => cases hc
      | cons d ds =>
        rcases List.mem_cons.mp hc with hpoint | hc
        · exact .inr (.inl hpoint)
        · exact .inr (.inr (h.fraction c hc))

/-- Nothing is dropped from a text without underscores. -/
theorem dropUnderscores_eq (h : '_' ∉ word) (allowed : Bool) :
    dropUnderscores allowed word = some word := by
  induction word generalizing allowed with
  | nil => rfl
  | cons c cs ih =>
    rw [List.mem_cons, not_or] at h
    obtain ⟨hc, hcs⟩ := h
    unfold dropUnderscores
    split
    · contradiction
    · rename_i heq
      exact absurd (List.cons.inj heq).1.symm hc
    · rename_i heq
      obtain ⟨rfl, rfl⟩ := List.cons.inj heq
      dsimp only
      rw [ih hcs]
      rfl

/-- The words for infinite and undefined numbers have no digit first, nor after a minus. -/
theorem special_toList : ∀ special ∈ specialNumbers, ∀ type ∈ ["", "f64"],
    ∃ c c' w, (special.1 ++ type).toList = c :: c' :: w ∧ c.isDigit = false ∧ c'.isDigit = false := by
  intro special hspecial type htype
  simp only [specialNumbers, List.mem_cons, List.not_mem_nil, or_false] at hspecial htype
  rcases hspecial with rfl | rfl | rfl | rfl | rfl | rfl <;> rcases htype with rfl | rfl <;>
    exact ⟨_, _, _, rfl, rfl, rfl⟩

theorem keyword_special_eq_none (h : Digits whole fraction) (negative : Bool) (rest : List Char) :
    ∀ special ∈ specialNumbers, ∀ type ∈ ["", "f64"],
      keyword (special.1 ++ type) (signed negative (whole ++ pointed fraction) ++ rest) = none := by
  intro special hspecial type htype
  obtain ⟨d, ds, heq, hd⟩ := h.exists_cons
  obtain ⟨c, c', w, hword, hc, hc'⟩ := special_toList special hspecial type htype
  have hliteral : literal (special.1 ++ type)
      (signed negative (whole ++ pointed fraction) ++ rest) = none := by
    have hne : (c == d) = false := beq_false_of_ne (ne_of_isDigit hd hc).symm
    have hne' : (c' == d) = false := beq_false_of_ne (ne_of_isDigit hd hc').symm
    unfold literal
    rw [hword, heq]
    cases negative <;> simp [signed, List.isPrefixOf?, hne, hne']
  unfold keyword
  rw [hliteral]
  rfl

/-- A written number is read up to what ends the value. -/
theorem float_signed (h : Digits whole fraction) (negative : Bool) (hrest : EndsValue rest) :
    float (signed negative (whole ++ pointed fraction) ++ rest)
      = some (withSign negative (spelled whole fraction).toFloat, rest) := by
  have hspan : (signed negative (whole ++ pointed fraction) ++ rest).span isFloatChar
      = (signed negative (whole ++ pointed fraction), rest) := by
    refine hrest.span_append not_isFloatChar_valueEnds fun c hc => ?_
    rcases isFloatChar_of_mem_signed h hc with rfl | rfl | hc
    · rfl
    · rfl
    · exact isFloatChar_of_isDigit hc
  have hunderscore : '_' ∉ signed negative (whole ++ pointed fraction) := by
    intro hc
    rcases isFloatChar_of_mem_signed h hc with hc | hc | hc <;> cases hc
  unfold float floatOf
  split
  · rename_i heq
    obtain ⟨special, hspecial, hfound⟩ := List.exists_of_findSome?_eq_some heq
    obtain ⟨type, htype, hfound⟩ := List.exists_of_findSome?_eq_some hfound
    rw [keyword_special_eq_none h negative rest special hspecial type htype] at hfound
    cases hfound
  · rw [hspan]
    simp [dropUnderscores_eq hunderscore, decimalValue?_signed h, hrest.typeMark?_float]

end TextureGraph.Scan

namespace TextureGraph.Decimal

open Scan

/-! ### The text of a decimal -/

variable {d : Decimal}

/-- With no places behind the point, zeros fill up the places in front of it. -/
theorem exists_positional_of_nonneg {k : ℕ} (hk : d.exponent = k) :
    ∃ whole, d.positional.toList = whole ++ pointed [] ∧ Digits whole [] ∧
      (spelled whole []).value = d.value := by
  refine ⟨Nat.toDigits 10 d.digits ++ List.replicate k '0', ?_, ⟨by simp, fun c hc => ?_, nofun⟩, ?_⟩
  · unfold positional
    rw [if_pos (hk ▸ Int.natCast_nonneg k), hk]
    simp [pointed]
  · exact (List.mem_append.mp hc).elim isDigit_of_mem_toDigits isDigit_of_mem_replicate
  · unfold spelled value
    rw [List.append_nil, Nat.ofDigitChars_append, Nat.ofDigitChars_ten_toDigits,
      Nat.ofDigitChars_replicate_zero, hk, zpow_natCast, List.length_nil, Int.natCast_zero, neg_zero,
      zpow_zero, mul_one, mul_comm]
    push_cast
    rfl

/-- Digits split at a point that has some of them on both sides. -/
theorem exists_split_digits {digits : List Char} {k : ℕ} (h : ∀ c ∈ digits, c.isDigit = true)
    (hk : k + 1 < digits.length) :
    ∃ whole fraction, digits.take (digits.length - (k + 1)) = whole ∧
      digits.drop (digits.length - (k + 1)) = fraction ∧ whole ++ fraction = digits ∧
      fraction.length = k + 1 ∧ Digits whole fraction := by
  refine ⟨_, _, rfl, rfl, List.take_append_drop _ _, ?_, fun hnil => ?_,
    fun c hc => h c (List.mem_of_mem_take hc), fun c hc => h c (List.mem_of_mem_drop hc)⟩
  · rw [List.length_drop]
    omega
  · have hcount := congrArg List.length hnil
    rw [List.length_take, List.length_nil] at hcount
    omega

/-- With places behind the point, zeros in front of the digits give the point a place. -/
theorem exists_positional_of_neg {k : ℕ} (hk : d.exponent = -(k + 1 : ℕ)) :
    ∃ whole fraction, d.positional.toList = whole ++ pointed fraction ∧ Digits whole fraction ∧
      (spelled whole fraction).value = d.value := by
  have hplaces : d.exponent.natAbs = k + 1 := by omega
  have hneg : ¬ 0 ≤ d.exponent := by omega
  unfold positional
  simp only [if_neg hneg, hplaces, String.length_ofList, String.toList_ofList]
  generalize hpadded : List.replicate (k + 1 + 1 - (Nat.toDigits 10 d.digits).length) '0'
    ++ Nat.toDigits 10 d.digits = padded
  have hlength : k + 1 < padded.length := by
    rw [← hpadded, List.length_append, List.length_replicate]
    omega
  have hall : ∀ c ∈ padded, c.isDigit = true := by
    intro c hc
    rw [← hpadded] at hc
    exact (List.mem_append.mp hc).elim isDigit_of_mem_replicate isDigit_of_mem_toDigits
  obtain ⟨whole, fraction, hwhole, hfraction, happend, hcount, hdigits⟩ :=
    exists_split_digits hall hlength
  rw [hwhole, hfraction]
  refine ⟨whole, fraction, ?_, hdigits, ?_⟩
  · obtain ⟨c, cs, rfl⟩ := List.exists_cons_of_length_eq_add_one hcount
    simp [pointed]
  · unfold spelled value
    rw [happend, hcount, ← hpadded, Nat.ofDigitChars_append, Nat.ofDigitChars_replicate_zero,
      Nat.mul_zero, Nat.ofDigitChars_ten_toDigits, hk]

/-- The text of a decimal is made of digits and a point, and spells the decimal. -/
theorem exists_positional (d : Decimal) :
    ∃ whole fraction, d.positional.toList = whole ++ pointed fraction ∧ Digits whole fraction ∧
      (spelled whole fraction).value = d.value ∧ (0 ≤ d.exponent → fraction = []) := by
  by_cases hnonneg : 0 ≤ d.exponent
  · obtain ⟨k, hk⟩ := Int.eq_ofNat_of_zero_le hnonneg
    obtain ⟨whole, htext, hdigits, hvalue⟩ := exists_positional_of_nonneg hk
    exact ⟨whole, [], htext, hdigits, hvalue, fun _ => rfl⟩
  · obtain ⟨k, hk⟩ : ∃ k : ℕ, d.exponent = -(k + 1 : ℕ) := ⟨d.exponent.natAbs - 1, by omega⟩
    obtain ⟨whole, fraction, htext, hdigits, hvalue⟩ := exists_positional_of_neg hk
    exact ⟨whole, fraction, htext, hdigits, hvalue, fun h => absurd h hnonneg⟩

/-- A zero behind the point changes the spelling only. -/
theorem value_spelled_zero (whole : List Char) :
    (spelled whole ['0']).value = (spelled whole []).value := by
  have hzero : Nat.ofDigitChars 10 (whole ++ ['0']) 0 = 10 * Nat.ofDigitChars 10 (whole ++ []) 0 := by
    rw [Nat.ofDigitChars_append, List.append_nil]
    rfl
  have hexponent : (-(['0'].length : ℤ)) = -1 := rfl
  have hexponent' : (-(([] : List Char).length : ℤ)) = 0 := rfl
  unfold spelled value
  rw [hzero, hexponent, hexponent', zpow_neg_one, zpow_zero]
  push_cast
  ring

end TextureGraph.Decimal

namespace TextureGraph.Settings

open Float.Model UnpackedFloat Scan Binary64

/-! ### Texts of numbers -/

variable {s : Sign} {m : ℕ} {e : ℤ} {hm : 0 < m} {x : Float}

theorem toList_text (hx : unpacked x = .finite s m e hm) :
    (Decimal.text x).toList = signed (s == .negative) (Decimal.shortest m e).positional.toList := by
  unfold Decimal.text
  rw [hx]
  refine String.toList_append.trans ?_
  cases s <;> rfl

/-- A decimal in the interval of a value is read as the value, with its sign. -/
theorem withSign_toFloat {d : Decimal} (hx : unpacked x = .finite s m e hm)
    (hd : RoundsTo d.value m e) : withSign (s == .negative) d.toFloat = x := by
  have hc := canonical_unpacked hx
  have he := exponent_le_of_unpacked hx
  rw [Decimal.toFloat_eq hm hc he hd]
  cases s with
  | positive =>
    change ofUnpacked (.finite .positive m e hm) = x
    rw [← hx, ofUnpacked_unpacked]
  | negative =>
    change ofUnpacked (UnpackedFloat.neg (unpacked (ofUnpacked (.finite .positive m e hm)))) = x
    rw [unpacked_ofUnpacked_finite hc, if_pos he]
    change ofUnpacked (.finite .negative m e hm) = x
    rw [← hx, ofUnpacked_unpacked]

theorem exists_numberText_zero (s : Sign) :
    ∃ negative, (numberText (ofUnpacked (.zero s))).toList
        = signed negative (['0'] ++ pointed ['0']) ∧
      withSign negative (spelled ['0'] ['0']).toFloat = ofUnpacked (.zero s) := by
  cases s with
  | negative => exact ⟨true, by decide +kernel, by decide +kernel⟩
  | positive => exact ⟨false, by decide +kernel, by decide +kernel⟩

theorem exists_numberText_finite (hx : unpacked x = .finite s m e hm) :
    ∃ whole fraction, (numberText x).toList
        = signed (s == .negative) (whole ++ pointed fraction) ∧
      Digits whole fraction ∧ RoundsTo (spelled whole fraction).value m e := by
  obtain ⟨whole, fraction, htext, hdigits, hvalue, hnone⟩ :=
    Decimal.exists_positional (Decimal.shortest m e)
  have hrounds := Decimal.roundsTo_shortest hm (canonical_unpacked hx).lt e
  rw [← hvalue] at hrounds
  unfold numberText
  split
  · rename_i hwhole
    obtain ⟨n, hn⟩ := exists_magnitude_of_isWhole hx hwhole
    obtain rfl : fraction = [] := hnone (Decimal.shortest_exponent_nonneg hm hn)
    refine ⟨whole, ['0'], ?_, ⟨hdigits.ne_nil, hdigits.whole, isDigit_zero⟩, ?_⟩
    · rw [String.toList_append, toList_text hx, htext, signed_append, pointed, List.append_nil]
      rfl
    · rwa [Decimal.value_spelled_zero]
  · exact ⟨whole, fraction, by rw [toList_text hx, htext], hdigits, hrounds⟩

/-- The text of a finite number is made of digits and a point, and is read as the number. -/
theorem exists_numberText (hx : x.isFinite = true) :
    ∃ negative whole fraction, (numberText x).toList = signed negative (whole ++ pointed fraction) ∧
      Digits whole fraction ∧ withSign negative (spelled whole fraction).toFloat = x := by
  have hfinite : (unpacked x).isFinite = true := hx
  cases hu : unpacked x with
  | notANumber | infinity =>
    rw [hu] at hfinite
    cases hfinite
  | zero s =>
    obtain ⟨negative, htext, hvalue⟩ := exists_numberText_zero s
    rw [← hu, ofUnpacked_unpacked] at htext hvalue
    exact ⟨negative, ['0'], ['0'], htext, ⟨nofun, isDigit_zero, isDigit_zero⟩, hvalue⟩
  | finite s m e hm =>
    obtain ⟨whole, fraction, htext, hdigits, hrounds⟩ := exists_numberText_finite hu
    exact ⟨_, whole, fraction, htext, hdigits, withSign_toFloat hu hrounds⟩

/-- Every finite number is read back. -/
theorem float_numberText (hx : x.isFinite = true) {rest : List Char} (hrest : EndsValue rest) :
    float ((numberText x).toList ++ rest) = some (x, rest) := by
  obtain ⟨negative, whole, fraction, htext, hdigits, hvalue⟩ := exists_numberText hx
  rw [htext, float_signed hdigits negative hrest, hvalue]

end TextureGraph.Settings
