import TextureGraph.Expression.Lexer
import TextureGraph.Expression.Syntax

/-!
# From tokens to trees

The grammar, with the loosest operators first:

    expression := term (("+" | "-") term)*
    term       := power (("*" | "/" | "%") power)*
    power      := unary ("^" unary)*
    unary      := "-" unary | primary
    primary    := number | variable | function "(" arguments ")" | "(" expression ")"

All operators associate to the left, and a sign binds tighter than `^`: `-2^2` is four.  Each
`unary` within another one counts as a level of nesting, of which there are at most `maxNesting`.
-/

namespace TextureGraph.Expr

variable {α : Type} [Arith α]

/-- The deepest nesting that is accepted. -/
def maxNesting : Nat := 64

/-- What is read from the front of a list of tokens, with the tokens that remain. -/
abbrev Reader (β : Type) : Type :=
  List Token → Except ExpressionError (β × List Token)

/-! ### Names -/

/-- The number of an input named `input1`, `input2` or `input3`, counted from zero. -/
def inputIndex? (name : String) : Option (Fin 3) :=
  match name.toList with
  | 'i' :: 'n' :: 'p' :: 'u' :: 't' :: digits =>
    if digits.isEmpty || !digits.all Char.isDigit then none
    else
      match Token.digitsValue digits with
      | 1 => some 0
      | 2 => some 1
      | 3 => some 2
      | _ => none
  | _ => none

/-- The variable or constant with a given name. -/
def named? (name : String) : Option (Expr α) :=
  match name with
  | "x" => some (.coordinate .x)
  | "y" => some (.coordinate .y)
  | "z" => some (.coordinate .z)
  | "t" => some (.coordinate .time)
  | "e" => some (.number Arith.euler)
  | "pi" => some (.number Arith.pi)
  | _ => (inputIndex? name).map .input

/-- The function of one number with a given name. -/
def unaryNamed? : String → Option UnaryOp
  | "abs" => some .abs
  | "exp" => some .exp
  | "sin" => some .sin
  | "cos" => some .cos
  | "sqrt" => some .sqrt
  | "log" => some .log
  | _ => none

/-- The function of two numbers with a given name. -/
def binaryNamed? : String → Option BinaryOp
  | "pow" => some .power
  | "min" => some .min
  | "max" => some .max
  | "angle" => some .angle
  | _ => none

/-- A function applied to arguments. -/
def call (name : String) (arguments : List (Expr α)) : Except ExpressionError (Expr α) :=
  match unaryNamed? name, binaryNamed? name, arguments with
  | some op, _, [a] => .ok (.unary op a)
  | some _, _, _ => .error (.argumentCount name 1 arguments.length)
  | none, some op, [a, b] => .ok (.binary op a b)
  | none, some _, _ => .error (.argumentCount name 2 arguments.length)
  | none, none, _ => .error (.unknownFunction name)

/-! ### Levels of operators -/

/-- The operators of an expression. -/
def sumOp? : Char → Option BinaryOp
  | '+' => some .add
  | '-' => some .subtract
  | _ => none

/-- The operators of a term. -/
def productOp? : Char → Option BinaryOp
  | '*' => some .multiply
  | '/' => some .divide
  | '%' => some .modulo
  | _ => none

/-- The operator of a power. -/
def powerOp? : Char → Option BinaryOp
  | '^' => some .power
  | _ => none

/-- Continues `left` with at most `budget` further operands, each after an operator of the level. -/
def continueChain (op? : Char → Option BinaryOp) (operand : Reader (Expr α)) :
    Nat → Expr α → Reader (Expr α)
  | 0, left, tokens => .ok (left, tokens)
  | budget + 1, left, tokens =>
    match tokens with
    | .symbol c :: rest =>
      match op? c with
      | none => .ok (left, tokens)
      | some op => do
        let (right, rest) ← operand rest
        continueChain op? operand budget (.binary op left right) rest
    | _ => .ok (left, tokens)

/-- Operands joined by the operators of a level, to the left.  Every operator takes a token, so the
tokens that remain after the first operand bound their number. -/
def chain (op? : Char → Option BinaryOp) (operand : Reader (Expr α)) : Reader (Expr α) :=
  fun tokens => do
    let (left, rest) ← operand tokens
    continueChain op? operand rest.length left rest

/-- An expression whose innermost operands are read by `unary`. -/
def expressionOf (unary : Reader (Expr α)) : Reader (Expr α) :=
  chain sumOp? (chain productOp? (chain powerOp? unary))

/-- At most `budget` arguments, separated by commas, and the closing parenthesis. -/
def moreArguments (argument : Reader (Expr α)) : Nat → Reader (List (Expr α))
  | 0, tokens => .error (.unexpectedToken tokens.head? .separator)
  | budget + 1, tokens => do
    let (first, rest) ← argument tokens
    match rest with
    | .symbol ',' :: rest =>
      let (others, rest) ← moreArguments argument budget rest
      return (first :: others, rest)
    | .symbol ')' :: rest => return ([first], rest)
    | _ => .error (.unexpectedToken rest.head? .separator)

/-- The arguments of a call, after its opening parenthesis. -/
def argumentsOf (argument : Reader (Expr α)) : Reader (List (Expr α))
  | .symbol ')' :: rest => .ok ([], rest)
  | tokens => moreArguments argument (tokens.length + 1) tokens

/-- An operand without a sign, whose inner expressions are read by `inner`. -/
def primaryOf (inner : Reader (Expr α)) : Reader (Expr α)
  | .number digits decimals :: rest =>
    .ok (.number (OfScientific.ofScientific digits true decimals), rest)
  | .symbol '(' :: rest => do
    let (e, rest) ← inner rest
    match rest with
    | .symbol ')' :: rest => return (e, rest)
    | _ => .error (.unexpectedToken rest.head? .closing)
  | .name name :: .symbol '(' :: rest => do
    let (arguments, rest) ← argumentsOf inner rest
    return (← call name arguments, rest)
  | .name name :: rest =>
    match named? name with
    | some e => .ok (e, rest)
    | none => .error (.unknownVariable name)
  | tokens => .error (.unexpectedToken tokens.head? .operand)

/-- An operand, with at most the given number of operands within each other. -/
def unaryWithin : Nat → Reader (Expr α)
  | 0, _ => .error .tooDeep
  | depth + 1, tokens =>
    match tokens with
    | .symbol '-' :: rest => do
      let (operand, rest) ← unaryWithin depth rest
      return (.unary .negate operand, rest)
    | _ => primaryOf (expressionOf (unaryWithin depth)) tokens

/-- The tree of a whole list of tokens. -/
def ofTokens (tokens : List Token) : Except ExpressionError (Expr α) := do
  let (e, rest) ← expressionOf (unaryWithin maxNesting) tokens
  match rest with
  | [] => return e
  | token :: _ => .error (.unexpectedToken (some token) .operator)

/-- The tree of a text. -/
def parse (text : String) : Except ExpressionError (Expr α) := do
  ofTokens (← Token.scan 0 text.toList)

end TextureGraph.Expr
