import TextureGraph.Number.Decimal
import TextureGraph.Sampling.Settings.Scan

/-!
# Numbers in settings

A whole number is written in base ten, two, eight or sixteen, and may carry the type that it is
meant to have: `20u8`.  A number with a point may carry one as well: `2.5f64`.  Underscores may
stand between digits.
-/

namespace TextureGraph.Scan

/-- A sign at the front, `true` for a minus, and what follows it. -/
def sign : List Char → Bool × List Char
  | '+' :: cs => (false, cs)
  | '-' :: cs => (true, cs)
  | cs => (false, cs)

/-- A type that a number may carry at the front of the characters, and what follows it. -/
def typeMark? {β : Type} (mark : β → String) (types : List β) (cs : List Char) :
    Option (β × List Char) :=
  types.findSome? fun type => (keyword (mark type) cs).map (type, ·)

/-! ### Digits -/

/-- The characters of a whole number, in any base. -/
def isIntegerChar (c : Char) : Bool :=
  c.isDigit || ('a' ≤ c && c ≤ 'f') || ('A' ≤ c && c ≤ 'F') || c == '_'

/-- The value of a digit in base sixteen. -/
def digitValue (c : Char) : Nat :=
  if c.isDigit then c.toNat - '0'.toNat
  else if 'a' ≤ c then c.toNat - 'a'.toNat + 10
  else c.toNat - 'A'.toNat + 10

/-- The number spelled by digits of a base; underscores between them do not count. -/
def digitsInBase (base : Nat) (word : List Char) : Option Nat :=
  word.foldlM
    (fun n c =>
      if c == '_' then some n
      else if digitValue c < base then some (base * n + digitValue c)
      else none)
    0

/-- Reads digits, in the base that a mark in front of them names. -/
def digits (cs : List Char) : Option (Nat × List Char) :=
  let (base, cs) :=
    match cs with
    | '0' :: 'x' :: rest => (16, rest)
    | '0' :: 'b' :: rest => (2, rest)
    | '0' :: 'o' :: rest => (8, rest)
    | _ => (10, cs)
  let (word, rest) := cs.span isIntegerChar
  match word with
  | [] => none
  | '_' :: _ => none
  | _ => (digitsInBase base word).map (·, rest)

/-! ### Whole numbers -/

/-- A type of whole numbers: those that fit a number of bits. -/
structure IntegerType where
  /-- Whether there are negative numbers. -/
  signed : Bool
  /-- The number of bits. -/
  bits : Nat
deriving DecidableEq, Repr

namespace IntegerType

/-- How the type is written behind digits. -/
def mark (type : IntegerType) : String :=
  (if type.signed then "i" else "u") ++ toString type.bits

/-- Whether a number is of the type. -/
def contains (type : IntegerType) (n : Int) : Bool :=
  if type.signed then -Int.pow 2 (type.bits - 1) ≤ n && n < Int.pow 2 (type.bits - 1)
  else 0 ≤ n && n < Int.pow 2 type.bits

/-- The types that a whole number may carry. -/
def all : List IntegerType :=
  [true, false].flatMap fun signed => [8, 16, 32, 64].map (⟨signed, ·⟩)

end IntegerType

/-- A whole number as it is written. -/
structure Numeral where
  /-- The number. -/
  value : Int
  /-- The type behind the digits, if there is one. -/
  type : Option IntegerType

/-- Reads a whole number, which has to be of the type that it carries.  Digits after a mark for base
sixteen or eight never carry one: the type is looked for after the digit in front of the mark's
letter. -/
def numeral (cs : List Char) : Option (Numeral × List Char) := do
  let (negative, cs) := sign cs
  let (n, rest) ← digits cs
  let value : Int := if negative then -n else n
  match typeMark? IntegerType.mark IntegerType.all (cs.dropWhile isIntegerChar) with
  | some (type, rest) => if type.contains value then some (⟨value, some type⟩, rest) else none
  | none => some (⟨value, none⟩, rest)

/-- Reads a number of an unsigned type; it may not carry another one. -/
def natural (bits : Nat) (cs : List Char) : Option (Nat × List Char) := do
  let type : IntegerType := ⟨false, bits⟩
  let (number, rest) ← numeral cs
  guard (number.type.all (· == type) && type.contains number.value)
  return (number.value.toNat, rest)

/-- Passes over a whole number of any type.  One that carries none has to fit 64 bits. -/
def anyInteger (cs : List Char) : Option (List Char) := do
  let (number, rest) ← numeral cs
  guard (number.type.isSome || [true, false].any fun signed =>
    IntegerType.contains ⟨signed, 64⟩ number.value)
  return rest

/-! ### Numbers with a point -/

/-- The characters of a number with a point. -/
def isFloatChar (c : Char) : Bool :=
  c.isDigit || ['e', 'E', '.', '+', '-', '_'].contains c

/-- The characters of a number without underscores.  An underscore follows a digit, an exponent mark
or another underscore. -/
def dropUnderscores : Bool → List Char → Option (List Char)
  | _, [] => some []
  | allowed, '_' :: cs => if allowed then dropUnderscores allowed cs else none
  | allowed, c :: cs =>
    let allowed :=
      if c.isDigit || c == 'e' || c == 'E' then true else if c == '.' then false else allowed
    (dropUnderscores allowed cs).map (c :: ·)

/-- The exponent of a number: nothing, or a mark, a sign and digits. -/
def exponent? : List Char → Option Int
  | [] => some 0
  | c :: cs =>
    if c == 'e' || c == 'E' then
      let (negative, word) := sign cs
      if word.isEmpty || !word.all Char.isDigit then none
      else (digitsInBase 10 word).map fun n => if negative then -(n : Int) else n
    else none

/-- The value of a decimal number: a sign, digits with a point among them or beside them, and an
exponent. -/
def decimalValue? (word : List Char) : Option Float := do
  let (negative, word) := sign word
  let (whole, rest) := word.span Char.isDigit
  let (fraction, rest) :=
    match rest with
    | '.' :: rest => rest.span Char.isDigit
    | rest => ([], rest)
  if whole.isEmpty && fraction.isEmpty then none
  else
    let exponent := (← exponent? rest) - fraction.length
    let digits ← digitsInBase 10 (whole ++ fraction)
    let magnitude := Decimal.toFloat ⟨digits, exponent⟩
    return if negative then -magnitude else magnitude

/-- The words for infinite and undefined numbers. -/
def specialNumbers : List (String × Float) :=
  [ ("inf", 1.0 / 0.0), ("+inf", 1.0 / 0.0), ("-inf", -1.0 / 0.0),
    ("NaN", 0.0 / 0.0), ("+NaN", 0.0 / 0.0), ("-NaN", 0.0 / 0.0) ]

/-- The types that a number with a point may carry. -/
def floatTypes : List String :=
  ["f32", "f64"]

/-- Reads a number that carries one of the given types or none. -/
def floatOf (types : List String) (cs : List Char) : Option (Float × List Char) :=
  match specialNumbers.findSome? fun (special, x) =>
      ("" :: types).findSome? fun type => (keyword (special ++ type) cs).map (x, ·) with
  | some result => some result
  | none => do
    let (word, rest) := cs.span isFloatChar
    let x ← decimalValue? (← dropUnderscores false word)
    match typeMark? id floatTypes rest with
    | some (type, rest) => if types.contains type then some (x, rest) else none
    | none => some (x, rest)

/-- Reads a number of 64 bits; it may not carry the other type. -/
def float (cs : List Char) : Option (Float × List Char) :=
  floatOf ["f64"] cs

/-- Passes over a number of any type.  A whole number that carries no type and does not fit 64 bits
is read like one with a point. -/
def anyNumber (cs : List Char) : Option (List Char) :=
  let unsigned := (sign cs).2
  let (word, rest) := unsigned.span isIntegerChar
  let anyFloat := (floatOf floatTypes cs).map (·.2)
  if word.length < (unsigned.takeWhile isFloatChar).length then anyFloat
  else if (typeMark? IntegerType.mark IntegerType.all rest).isSome then anyInteger cs
  else anyInteger cs <|> anyFloat

end TextureGraph.Scan
