import TextureGraph.Text.Alphabetic
import TextureGraph.Text.Numeric
import TextureGraph.Text.Blank
import TextureGraph.Number.Decimal

/-!
# Tokens of an expression

An expression is a sequence of numbers, names and symbols; blanks between them are skipped.
Names are letters, numbers and underscores, starting with a letter or an underscore, and upper case
ASCII letters in them count as lower case.
-/

namespace TextureGraph

/-- A token of an expression. -/
inductive Token where
  /-- The number `digits / 10^decimals`. -/
  | number (digits decimals : Nat)
  /-- A name, in lower case. -/
  | name (text : String)
  /-- An operator, parenthesis or comma. -/
  | symbol (character : Char)
deriving DecidableEq, Repr

namespace Token

/-- How a token, or the end of the expression, is named in a message. -/
def describe : Option Token → String
  | some (.number digits decimals) => Decimal.text (Float.ofScientific digits true decimals)
  | some (.name text) => "'" ++ text ++ "'"
  | some (.symbol character) => "'" ++ String.singleton character ++ "'"
  | none => "end of expression"

/-! ### Character classes -/

/-- The characters of which numbers are made. -/
def isNumberChar (c : Char) : Bool :=
  c.isDigit || c == '.'

/-- The characters that start a name. -/
def isNameStart (c : Char) : Bool :=
  Text.isAlphabetic c || c == '_'

/-- The characters that continue a name. -/
def isNameChar (c : Char) : Bool :=
  isNameStart c || Text.isNumericOnly c

/-- The symbols. -/
def symbols : List Char :=
  ['+', '-', '*', '/', '%', '^', '(', ')', ',']

/-- The number spelled by digits. -/
def digitsValue (digits : List Char) : Nat :=
  digits.foldl (fun n c => 10 * n + (c.toNat - '0'.toNat)) 0

/-- The number spelled by digits and points: at least one digit and at most one point. -/
def number? (word : List Char) : Option Token :=
  let whole := word.takeWhile (· != '.')
  let decimals := (word.dropWhile (· != '.')).drop 1
  if decimals.contains '.' || (whole.isEmpty && decimals.isEmpty) then none
  else some (.number (digitsValue (whole ++ decimals)) decimals.length)

/-- The number of bytes that characters take in UTF-8. -/
def byteLength : List Char → Nat
  | [] => 0
  | c :: cs => c.utf8Size + byteLength cs

end Token

end TextureGraph
