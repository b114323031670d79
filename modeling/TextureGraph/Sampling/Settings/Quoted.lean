import TextureGraph.Sampling.Settings.Numeral

/-!
# Texts and characters in settings

Text stands in double quotes and a character in single ones.  Behind the letter `b` they are made
of bytes.  An escape by two digits in base sixteen is a byte: in text, such bytes have to be the
encoding of a character.
-/

namespace TextureGraph.Scan

/-- What stands in quotes. -/
inductive Quoted where
  /-- A text, `"…"`. -/
  | text
  /-- A text of bytes, `b"…"`. -/
  | bytes
  /-- A character, `'…'`. -/
  | character
  /-- A byte, `b'…'`. -/
  | byte
deriving DecidableEq, Repr

/-! ### Escapes -/

/-- The value of a digit in base sixteen, if the character is one. -/
def hexDigit? (c : Char) : Option Nat :=
  if isIntegerChar c && c != '_' then some (digitValue c) else none

/-- The byte that two digits in base sixteen spell. -/
def hexByte? (a b : Char) : Option UInt8 := do
  return UInt8.ofNat (16 * (← hexDigit? a) + (← hexDigit? b))

/-- Whether bytes are the encoding of one character. -/
def isEncoding (bytes : List UInt8) : Bool :=
  match bytes.toByteArray.utf8DecodeChar? 0 with
  | some c => c.utf8Size == bytes.length
  | none => false

/-- Passes over at most `budget` more escapes of bytes, until together with those before they are
the encoding of a character. -/
def restOfEncoding (budget : Nat) (bytes : List UInt8) (cs : List Char) : Option (List Char) :=
  if isEncoding bytes then some cs
  else
    match budget, cs with
    | budget + 1, '\\' :: 'x' :: a :: b :: rest => do
      restOfEncoding budget (bytes ++ [← hexByte? a b]) rest
    | _, _ => none

/-- The escapes of one letter. -/
def shortEscapes : List Char :=
  ['\'', '"', '\\', 'n', 'r', 't', '0']

/-- Passes over what follows the backslash of an escape: one of the short ones, two digits after
`x`, or one to six digits in braces after `u`. -/
def escape (quoted : Quoted) : Skip
  | 'x' :: a :: b :: cs => do
    let byte ← hexByte? a b
    match quoted with
    | .text => restOfEncoding 3 [byte] cs
    | .character => if byte < 128 then some cs else none
    | .bytes | .byte => some cs
  | 'u' :: '\x7b' :: cs =>
    let (word, rest) := cs.span fun c => (hexDigit? c).isSome
    match rest, digitsInBase 16 word with
    | '\x7d' :: rest, some n =>
      if !word.isEmpty && word.length ≤ 6 && n.isValidChar && quoted != .byte then some rest
      else none
    | _, _ => none
  | c :: cs => if shortEscapes.contains c then some cs else none
  | [] => none

/-! ### Texts -/

/-- What comes of passing over a text. -/
inductive Passage where
  /-- The text ends, and these characters follow it. -/
  | closed (rest : List Char)
  /-- There is no text, or a malformed escape in it. -/
  | malformed
  /-- The text does not end. -/
  | unclosed

/-- The characters after the text, if it is well formed. -/
def Passage.rest? : Passage → Option (List Char)
  | .closed rest => some rest
  | .malformed | .unclosed => none

/-- The characters after the text, or `cs` where there is no well-formed text.  There are none if a
text starts that does not end. -/
def Passage.orStay (cs : List Char) : Passage → Option (List Char)
  | .closed rest => some rest
  | .malformed => some cs
  | .unclosed => none

/-- Passes over the rest of a text in quotes, which has at most `budget` more characters.  A text
whose closing quote is missing is not closed, even if an escape in it is malformed. -/
def afterQuote (quoted : Quoted) : Nat → List Char → Passage
  | 0, _ => .unclosed
  | budget + 1, cs =>
    match cs with
    | [] => .unclosed
    | '"' :: rest => .closed rest
    | '\\' :: rest =>
      if !rest.contains '"' then .unclosed
      else
        match escape quoted rest with
        | some rest => afterQuote quoted budget rest
        | none => .malformed
    | _ :: rest => afterQuote quoted budget rest

/-- The characters after the first place at which a given text stands. -/
def afterFirst (mark : String) : Skip
  | [] => literal mark []
  | c :: cs =>
    match literal mark (c :: cs) with
    | some rest => some rest
    | none => afterFirst mark cs

/-- Passes over a text without escapes: it ends with a quote and as many `#` as it starts with. -/
def rawText (cs : List Char) : Passage :=
  let (marks, rest) := cs.span (· == '#')
  match rest with
  | '"' :: rest =>
    match afterFirst ("\"" ++ String.ofList marks) rest with
    | some rest => .closed rest
    | none => .unclosed
  | _ => .malformed

/-- Passes over a text. -/
def text : List Char → Passage
  | '"' :: rest => afterQuote .text (rest.length + 1) rest
  | 'r' :: rest => rawText rest
  | _ => .malformed

/-- Passes over a text of bytes. -/
def byteText : List Char → Passage
  | 'b' :: '"' :: rest => afterQuote .bytes (rest.length + 1) rest
  | 'b' :: 'r' :: rest => rawText rest
  | _ => .malformed

/-! ### Characters -/

/-- Passes over what stands in single quotes: an escape, or a character of which `plain` tells
whether it may stand for itself. -/
def inSingleQuotes (quoted : Quoted) (plain : Char → Bool) : Skip
  | '\'' :: '\\' :: cs => do
    match ← escape quoted cs with
    | '\'' :: rest => some rest
    | _ => none
  | '\'' :: c :: '\'' :: rest => if plain c then some rest else none
  | _ => none

/-- Passes over a character. -/
def character : Skip :=
  inSingleQuotes .character fun _ => true

/-- Passes over a byte.  A character that stands for itself has to be one byte long. -/
def byte : Skip
  | 'b' :: cs => inSingleQuotes .byte (fun c => c.utf8Size == 1) cs
  | _ => none

end TextureGraph.Scan
