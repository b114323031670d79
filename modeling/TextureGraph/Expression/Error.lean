import TextureGraph.Expression.Token

/-!
# Errors in an expression
-/

namespace TextureGraph

/-- What the reader of an expression was looking for. -/
inductive Expected where
  /-- The end of the expression or something that continues it. -/
  | operator
  /-- Something an operand starts with. -/
  | operand
  /-- The end of a parenthesis. -/
  | closing
  /-- The end of an argument. -/
  | separator
deriving DecidableEq, Repr

/-- The words for what was looked for. -/
def Expected.label : Expected → String
  | .operator => "an operator"
  | .operand => "a number, variable or '('"
  | .closing => "')'"
  | .separator => "',' or ')'"

/-- Why a text is not an expression. -/
inductive ExpressionError where
  /-- A character that starts no token, `offset` bytes into the text. -/
  | unexpectedCharacter (character : Char) (offset : Nat)
  /-- Digits and points that do not form a number. -/
  | invalidNumber (text : String)
  /-- A token, or the end of the text, in the wrong place. -/
  | unexpectedToken (found : Option Token) (expected : Expected)
  /-- A name that is no variable. -/
  | unknownVariable (name : String)
  /-- A name that is no function. -/
  | unknownFunction (name : String)
  /-- A function with the wrong number of arguments. -/
  | argumentCount (function : String) (expected found : Nat)
  /-- Too many parentheses, calls and signs within each other. -/
  | tooDeep
deriving DecidableEq, Repr

/-- The text shown for an error. -/
def ExpressionError.message : ExpressionError → String
  | .unexpectedCharacter c offset =>
    "Unexpected character '" ++ String.singleton c ++ "' at offset " ++ toString offset
  | .invalidNumber text => "Invalid number: " ++ text
  | .unexpectedToken found expected =>
    "Found " ++ Token.describe found ++ " where " ++ expected.label ++ " was expected"
  | .unknownVariable name => "Unknown variable: " ++ name
  | .unknownFunction name => "Unknown function: " ++ name
  | .argumentCount function expected found =>
    function ++ " expects " ++ toString expected ++ " arguments, but was called with "
      ++ toString found
  | .tooDeep => "Expression is nested too deeply"

end TextureGraph
