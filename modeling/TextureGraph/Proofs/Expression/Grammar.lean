import TextureGraph.Expression.Parser

/-!
# The grammar of expressions

Which trees a list of tokens stands for, said without a reader:

    expression := term | expression ("+" | "-") term
    term       := power | term ("*" | "/" | "%") power
    power      := unary | power "^" unary
    unary      := "-" unary | primary
    primary    := number | variable | function "(" arguments ")" | "(" expression ")"
    arguments  := nothing | expression ("," expression)*

`Expr.DerivesWithin levels` are the derivations in which at most so many operands lie within each
other, and `Expr.Derives` are all derivations.
-/

namespace TextureGraph.Expr

/-- The levels of operators, the loosest first. -/
inductive Level where
  /-- Sums and differences. -/
  | expression
  /-- Products, quotients and remainders. -/
  | term
  /-- Powers. -/
  | power
deriving DecidableEq, Repr

/-- What a list of tokens may be read as. -/
inductive Part where
  /-- Operands joined by the operators of a level. -/
  | joined (level : Level)
  /-- An operand with its signs. -/
  | unary
  /-- An operand without a sign. -/
  | primary
deriving DecidableEq, Repr

namespace Level

/-- What the operators of a level join. -/
def operand : Level → Part
  | .expression => .joined .term
  | .term => .joined .power
  | .power => .unary

/-- The operators of a level. -/
inductive Operator : Level → Char → BinaryOp → Prop where
  /-- A sum. -/
  | plus : Operator .expression '+' .add
  /-- A difference. -/
  | minus : Operator .expression '-' .subtract
  /-- A product. -/
  | times : Operator .term '*' .multiply
  /-- A quotient. -/
  | slash : Operator .term '/' .divide
  /-- A remainder. -/
  | percent : Operator .term '%' .modulo
  /-- A power. -/
  | caret : Operator .power '^' .power

end Level

variable {α : Type} [Arith α]

/-- The arguments of a call, with a comma between each two. -/
def separated (arguments : List (List Token)) : List Token :=
  [Token.symbol ','].intercalate arguments

theorem separated_singleton (tokens : List Token) : separated [tokens] = tokens := by
  simp [separated]

theorem separated_cons {rest : List (List Token)} (tokens : List Token) (h : rest ≠ []) :
    separated (tokens :: rest) = tokens ++ .symbol ',' :: separated rest := by
  obtain ⟨next, others, rfl⟩ := List.exists_cons_of_ne_nil h
  simp [separated, List.intercalate]

/-- The derivations in which at most so many operands lie within each other: an operand after a
sign, in parentheses or among the arguments of a call lies within the operand that these form. -/
inductive DerivesWithin : Nat → Part → List Token → Expr α → Prop where
  /-- A single operand needs no operator. -/
  | operand {levels : Nat} {level : Level} {tokens : List Token} {e : Expr α}
      (only : DerivesWithin levels level.operand tokens e) :
      DerivesWithin levels (.joined level) tokens e
  /-- The operators of a level associate to the left. -/
  | operator {levels : Nat} {level : Level} {c : Char} {op : BinaryOp} {lefts rights : List Token}
      {left right : Expr α} (front : DerivesWithin levels (.joined level) lefts left)
      (sign : level.Operator c op) (last : DerivesWithin levels level.operand rights right) :
      DerivesWithin levels (.joined level) (lefts ++ .symbol c :: rights) (.binary op left right)
  /-- A sign applies to the operand after it. -/
  | negated {levels : Nat} {tokens : List Token} {e : Expr α}
      (operand : DerivesWithin levels .unary tokens e) :
      DerivesWithin (levels + 1) .unary (.symbol '-' :: tokens) (.unary .negate e)
  /-- An operand needs no sign. -/
  | unsigned {levels : Nat} {tokens : List Token} {e : Expr α}
      (primary : DerivesWithin levels .primary tokens e) : DerivesWithin levels .unary tokens e
  /-- A number. -/
  | number {levels : Nat} (digits decimals : Nat) :
      DerivesWithin (levels + 1) .primary [.number digits decimals]
        (.number (OfScientific.ofScientific digits true decimals))
  /-- A variable or a constant. -/
  | named {levels : Nat} {name : String} {e : Expr α} (known : named? name = some e) :
      DerivesWithin (levels + 1) .primary [.name name] e
  /-- A function that takes so many arguments. -/
  | called {levels : Nat} {name : String} {arguments : List (List Token × Expr α)} {e : Expr α}
      (each : ∀ argument ∈ arguments,
        DerivesWithin levels (.joined .expression) argument.1 argument.2)
      (accepted : call name (arguments.map (·.2)) = .ok e) :
      DerivesWithin (levels + 1) .primary
        (.name name :: .symbol '(' :: (separated (arguments.map (·.1)) ++ [.symbol ')'])) e
  /-- Parentheses. -/
  | grouped {levels : Nat} {tokens : List Token} {e : Expr α}
      (inner : DerivesWithin levels (.joined .expression) tokens e) :
      DerivesWithin (levels + 1) .primary (.symbol '(' :: (tokens ++ [.symbol ')'])) e

/-- A list of tokens stands for a tree. -/
def Derives (tokens : List Token) (e : Expr α) : Prop :=
  ∃ levels, DerivesWithin levels (.joined .expression) tokens e

namespace DerivesWithin

variable {levels : Nat} {part : Part} {tokens : List Token} {e : Expr α}

/-- Further levels do no harm. -/
theorem mono (h : DerivesWithin levels part tokens e) {levels' : Nat} (hle : levels ≤ levels') :
    DerivesWithin levels' part tokens e := by
  induction h generalizing levels' with
  | operand _ ih => exact .operand (ih hle)
  | operator _ sign _ ihFront ihLast => exact .operator (ihFront hle) sign (ihLast hle)
  | unsigned _ ih => exact .unsigned (ih hle)
  | negated _ ih =>
    obtain ⟨n, rfl⟩ := Nat.exists_eq_add_of_lt hle
    exact .negated (ih (by omega))
  | number digits decimals =>
    obtain ⟨n, rfl⟩ := Nat.exists_eq_add_of_lt hle
    exact .number digits decimals
  | named known =>
    obtain ⟨n, rfl⟩ := Nat.exists_eq_add_of_lt hle
    exact .named known
  | called _ accepted ih =>
    obtain ⟨n, rfl⟩ := Nat.exists_eq_add_of_lt hle
    exact .called (fun argument h => ih argument h (by omega)) accepted
  | grouped _ ih =>
    obtain ⟨n, rfl⟩ := Nat.exists_eq_add_of_lt hle
    exact .grouped (ih (by omega))

/-- Nothing can be read that starts with a closing parenthesis, or from no tokens. -/
theorem exists_cons (h : DerivesWithin levels part tokens e) :
    ∃ token rest, tokens = token :: rest ∧ token ≠ .symbol ')' := by
  induction h with
  | operand _ ih | unsigned _ ih => exact ih
  | operator _ _ _ ih _ =>
    obtain ⟨token, rest, rfl, hne⟩ := ih
    exact ⟨token, _, rfl, hne⟩
  | negated _ _ | number _ _ | named _ | called _ _ _ | grouped _ _ =>
    exact ⟨_, _, rfl, by simp⟩

end DerivesWithin

end TextureGraph.Expr
