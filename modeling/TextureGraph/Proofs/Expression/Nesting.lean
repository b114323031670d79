import Mathlib.Algebra.Order.BigOperators.Group.List
import Mathlib.Algebra.Order.Group.Nat
import TextureGraph.Proofs.Expression.Lexer
import TextureGraph.Proofs.Expression.Parser

/-!
# The limit on nesting

The nesting of an operand is the number of parentheses, those of calls included, and of signs around
it.  `Expr.Nested` are the derivations with the nestings of all operands, and the reader gives up
exactly at an operand that is nested `maxNesting` times.

* `Nested.derivesWithin`: operands that are nested less than a number of levels need no more levels.
* `Nested.reader_eq_tooDeep`: an operand that is nested as often as there are levels is too deep,
  whatever follows it.
* `exists_derivesWithin_chained`: operators need no levels, however many there are.

`nestingLimit` assembles them for texts.
-/

namespace TextureGraph.Expr

variable {α : Type}

/-! ### Nestings -/

/-- The nestings of operands that something more is put around. -/
def deeper (nestings : List Nat) : List Nat :=
  nestings.map (· + 1)

/-- The derivations with the nestings of the operands, each counted within the part.  An operand
after a sign, in parentheses or among the arguments of a call is nested once more than in the
operand that these form. -/
inductive Nested [Arith α] : Part → List Token → Expr α → List Nat → Prop where
  /-- A single operand needs no operator. -/
  | operand {level : Level} {tokens : List Token} {e : Expr α} {nestings : List Nat}
      (only : Nested level.operand tokens e nestings) : Nested (.joined level) tokens e nestings
  /-- Operators nest nothing. -/
  | operator {level : Level} {c : Char} {op : BinaryOp} {lefts rights : List Token}
      {left right : Expr α} {inLeft inRight : List Nat}
      (front : Nested (.joined level) lefts left inLeft) (sign : level.Operator c op)
      (last : Nested level.operand rights right inRight) :
      Nested (.joined level) (lefts ++ .symbol c :: rights) (.binary op left right)
        (inLeft ++ inRight)
  /-- A sign is put around the operand after it. -/
  | negated {tokens : List Token} {e : Expr α} {nestings : List Nat}
      (operand : Nested .unary tokens e nestings) :
      Nested .unary (.symbol '-' :: tokens) (.unary .negate e) (0 :: deeper nestings)
  /-- An operand needs no sign. -/
  | unsigned {tokens : List Token} {e : Expr α} {nestings : List Nat}
      (primary : Nested .primary tokens e nestings) : Nested .unary tokens e nestings
  /-- A number. -/
  | number (digits decimals : Nat) :
      Nested .primary [.number digits decimals]
        (.number (OfScientific.ofScientific digits true decimals)) [0]
  /-- A variable or a constant. -/
  | named {name : String} {e : Expr α} (known : named? name = some e) :
      Nested .primary [.name name] e [0]
  /-- A function that takes so many arguments. -/
  | called {name : String} {arguments : List (List Token × Expr α)} {e : Expr α}
      {inside : List Token × Expr α → List Nat}
      (each : ∀ argument ∈ arguments,
        Nested (.joined .expression) argument.1 argument.2 (inside argument))
      (accepted : call name (arguments.map (·.2)) = .ok e) :
      Nested .primary
        (.name name :: .symbol '(' :: (separated (arguments.map (·.1)) ++ [.symbol ')'])) e
        (0 :: deeper (arguments.flatMap inside))
  /-- Parentheses. -/
  | grouped {tokens : List Token} {e : Expr α} {nestings : List Nat}
      (inner : Nested (.joined .expression) tokens e nestings) :
      Nested .primary (.symbol '(' :: (tokens ++ [.symbol ')'])) e (0 :: deeper nestings)

variable {nestings : List Nat} {levels : Nat}

/-- What is put around operands takes one level. -/
theorem forall_mem_deeper_iff :
    (∀ n ∈ 0 :: deeper nestings, n < levels) ↔
      ∃ inner, levels = inner + 1 ∧ ∀ n ∈ nestings, n < inner := by
  simp only [deeper, List.forall_mem_cons, List.forall_mem_map]
  constructor
  · rintro ⟨hlevels, hnestings⟩
    obtain ⟨inner, rfl⟩ := Nat.exists_eq_add_of_le' hlevels
    exact ⟨inner, rfl, fun n hn => Nat.lt_of_succ_lt_succ (hnestings n hn)⟩
  · rintro ⟨inner, rfl, hnestings⟩
    exact ⟨Nat.succ_pos _, fun n hn => Nat.succ_lt_succ (hnestings n hn)⟩

/-- There are no levels, or an operand within is too deep for one level less. -/
theorem exists_mem_deeper_iff :
    (∃ n ∈ 0 :: deeper nestings, levels ≤ n) ↔
      levels = 0 ∨ ∃ inner, levels = inner + 1 ∧ ∃ n ∈ nestings, inner ≤ n := by
  cases levels with
  | zero => simp
  | succ inner => simp [deeper]

section Derivations

variable [Arith α] {part : Part} {tokens : List Token} {e : Expr α}

/-- Operands that are nested less than the number of levels do with these levels. -/
theorem Nested.derivesWithin (h : Nested part tokens e nestings)
    (hlevels : ∀ n ∈ nestings, n < levels) : DerivesWithin levels part tokens e := by
  induction h generalizing levels with
  | operand _ ih => exact .operand (ih hlevels)
  | operator _ sign _ ihFront ihLast =>
    obtain ⟨hfront, hlast⟩ := List.forall_mem_append.mp hlevels
    exact .operator (ihFront hfront) sign (ihLast hlast)
  | negated _ ih =>
    obtain ⟨inner, rfl, hinner⟩ := forall_mem_deeper_iff.mp hlevels
    exact .negated (ih hinner)
  | unsigned _ ih => exact .unsigned (ih hlevels)
  | number digits decimals =>
    obtain ⟨inner, rfl⟩ := Nat.exists_eq_add_of_le' (hlevels 0 List.mem_cons_self)
    exact .number digits decimals
  | named known =>
    obtain ⟨inner, rfl⟩ := Nat.exists_eq_add_of_le' (hlevels 0 List.mem_cons_self)
    exact .named known
  | called _ accepted ih =>
    obtain ⟨inner, rfl, hinner⟩ := forall_mem_deeper_iff.mp hlevels
    exact .called (fun argument hargument => ih argument hargument fun n hn =>
      hinner n (List.mem_flatMap_of_mem hargument hn)) accepted
  | grouped _ ih =>
    obtain ⟨inner, rfl, hinner⟩ := forall_mem_deeper_iff.mp hlevels
    exact .grouped (ih hinner)

/-- Every derivation has nestings. -/
theorem DerivesWithin.exists_nested (h : DerivesWithin levels part tokens e) :
    ∃ nestings, Nested part tokens e nestings := by
  induction h with
  | operand _ ih =>
    obtain ⟨nestings, h⟩ := ih
    exact ⟨nestings, .operand h⟩
  | operator _ sign _ ihFront ihLast =>
    obtain ⟨inLeft, hfront⟩ := ihFront
    obtain ⟨inRight, hlast⟩ := ihLast
    exact ⟨inLeft ++ inRight, .operator hfront sign hlast⟩
  | negated _ ih =>
    obtain ⟨nestings, h⟩ := ih
    exact ⟨0 :: deeper nestings, .negated h⟩
  | unsigned _ ih =>
    obtain ⟨nestings, h⟩ := ih
    exact ⟨nestings, .unsigned h⟩
  | number digits decimals => exact ⟨[0], .number digits decimals⟩
  | named known => exact ⟨[0], .named known⟩
  | @called _ name arguments e _ accepted ih =>
    choose! inside h using ih
    exact ⟨0 :: deeper (arguments.flatMap inside), .called h accepted⟩
  | grouped _ ih =>
    obtain ⟨nestings, h⟩ := ih
    exact ⟨0 :: deeper nestings, .grouped h⟩

/-- Nestings are numbers, so that some number of levels is enough. -/
theorem Nested.exists_derivesWithin (h : Nested part tokens e nestings) :
    ∃ levels, DerivesWithin levels part tokens e :=
  ⟨nestings.sum + 1, h.derivesWithin fun _ hn => Nat.lt_succ_of_le (List.le_sum_of_mem hn)⟩

end Derivations

/-! ### Too deep -/

/-- Each argument is read up to its end, or too deep. -/
def ReadsUnlessDeep (argument : Reader (Expr α)) (parts : List (List Token × Expr α)) : Prop :=
  ∀ part ∈ parts, (∀ rest, argument (part.1 ++ rest) = .error .tooDeep) ∨
    ∀ rest, (Part.joined .expression).StopsAt rest → argument (part.1 ++ rest) = .ok (part.2, rest)

/-- The first argument that is too deep ends the reading. -/
theorem moreArguments_eq_tooDeep {argument : Reader (Expr α)} {parts : List (List Token × Expr α)}
    (h : ReadsUnlessDeep argument parts)
    (hdeep : ∃ part ∈ parts, ∀ rest, argument (part.1 ++ rest) = .error .tooDeep)
    (rest : List Token) {budget : Nat} (hbudget : parts.length ≤ budget) :
    moreArguments argument budget (separated (parts.map (·.1)) ++ rest) = .error .tooDeep := by
  induction parts generalizing budget with
  | nil =>
    obtain ⟨part, hpart, -⟩ := hdeep
    cases hpart
  | cons part parts ih =>
    obtain ⟨hpart, hparts⟩ := List.forall_mem_cons.mp h
    obtain ⟨budget, rfl⟩ := Nat.exists_eq_add_of_le' (Nat.le_trans (Nat.le_add_left 1 _) hbudget)
    unfold moreArguments
    by_cases hfirst : ∀ rest, argument (part.1 ++ rest) = .error .tooDeep
    · obtain ⟨behind, hbehind⟩ :
          ∃ behind, separated ((part :: parts).map (·.1)) ++ rest = part.1 ++ behind := by
        by_cases hnil : parts = []
        · exact ⟨rest, by rw [hnil, List.map_singleton, separated_singleton]⟩
        · exact ⟨_, by rw [List.map_cons, separated_cons _ (by simpa using hnil), List.append_assoc]⟩
      rw [hbehind, hfirst]
      rfl
    · -- The first argument is read, so that another one is too deep.
      have hread := hpart.resolve_left hfirst
      obtain ⟨other, hother, hdeep⟩ := hdeep
      have hmem : other ∈ parts :=
        (List.mem_cons.mp hother).resolve_left fun heq => hfirst (heq ▸ hdeep)
      have hne : parts.map (·.1) ≠ [] := List.ne_nil_of_mem (List.mem_map_of_mem hmem)
      have hmore := ih hparts ⟨other, hmem, hdeep⟩ (Nat.le_of_succ_le_succ hbudget)
      rw [List.map_cons, separated_cons _ hne, List.append_assoc, List.cons_append,
        hread _ (Part.stopsAt_comma _ _)]
      simp only [bind, Except.bind, hmore]

theorem argumentsOf_eq_tooDeep {argument : Reader (Expr α)} {parts : List (List Token × Expr α)}
    (h : ReadsUnlessDeep argument parts)
    (hdeep : ∃ part ∈ parts, ∀ rest, argument (part.1 ++ rest) = .error .tooDeep)
    (hstart : ∀ part ∈ parts, ∃ token rest, part.1 = token :: rest ∧ token ≠ .symbol ')')
    (rest : List Token) :
    argumentsOf argument (separated (parts.map (·.1)) ++ rest) = .error .tooDeep := by
  have hne : parts.map (·.1) ≠ [] :=
    hdeep.elim fun _ hpart => List.ne_nil_of_mem (List.mem_map_of_mem hpart.1)
  have hlength := length_le_length_separated (parts.map (·.1))
  rw [List.length_map] at hlength
  rw [argumentsOf_of_ne_nil argument hne (List.forall_mem_map.mpr hstart)]
  refine moreArguments_eq_tooDeep h hdeep rest ?_
  rw [List.length_append]
  omega

section Depth

variable [Arith α] {part : Part} {tokens : List Token} {e : Expr α}

/-- **Too deep**: with an operand that is nested as often as there are levels nothing is read,
whatever follows. -/
theorem Nested.reader_eq_tooDeep (h : Nested part tokens e nestings)
    (hdeep : ∃ n ∈ nestings, levels ≤ n) (rest : List Token) :
    part.reader (unaryWithin (α := α) levels) (tokens ++ rest) = .error .tooDeep := by
  induction h generalizing levels rest with
  | operand _ ih =>
    rw [Part.reader_joined]
    unfold chain
    rw [ih hdeep]
    rfl
  | @operator level c op lefts rights left right inLeft inRight front sign _ ihFront ihLast =>
    rw [List.append_assoc, List.cons_append]
    by_cases hfront : ∃ n ∈ inLeft, levels ≤ n
    · exact ihFront hfront _
    · -- What is in front of the operator is read, so that the operand behind it is too deep.
      have hlast : ∃ n ∈ inRight, levels ≤ n := by
        obtain ⟨n, hn, hle⟩ := hdeep
        exact ⟨n, (List.mem_append.mp hn).resolve_left fun hn => hfront ⟨n, hn, hle⟩, hle⟩
      have hlevels : ∀ n ∈ inLeft, n < levels := fun n hn =>
        Nat.lt_of_not_le fun hle => hfront ⟨n, hn, hle⟩
      obtain ⟨budget, hbudget, hread⟩ :=
        (front.derivesWithin hlevels).completes (.symbol c :: (rights ++ rest)) (sign.stopsAt _)
      obtain ⟨budget, rfl⟩ := Nat.exists_eq_add_of_le' (Nat.le_trans (Nat.le_add_left 1 _) hbudget)
      rw [hread, continueChain]
      simp only [Level.op?_eq_some_iff.mpr sign, ihLast hlast]
      rfl
  | negated _ ih =>
    rcases exists_mem_deeper_iff.mp hdeep with rfl | ⟨inner, rfl, hinner⟩
    · rfl
    · have hread := ih hinner rest
      rw [Part.reader] at hread
      change (unaryWithin inner (_ ++ rest) >>= _) = _
      rw [hread]
      rfl
  | unsigned _ ih => exact ih hdeep rest
  | number _ _ | named _ =>
    obtain ⟨n, hn, hle⟩ := hdeep
    obtain rfl := List.mem_singleton.mp hn
    obtain rfl := Nat.le_zero.mp hle
    rfl
  | @called name arguments e inside each _ ih =>
    rcases exists_mem_deeper_iff.mp hdeep with rfl | ⟨inner, rfl, n, hn, hle⟩
    · rfl
    · obtain ⟨argument, hargument, hn⟩ := List.mem_flatMap.mp hn
      have hread : ReadsUnlessDeep (expressionOf (unaryWithin inner)) arguments := by
        intro part hpart
        by_cases hshallow : ∀ n ∈ inside part, n < inner
        · exact .inr fun rest hrest =>
            ((each part hpart).derivesWithin hshallow).completes.reader_append hrest
        · push Not at hshallow
          exact .inl fun rest => ih part hpart hshallow rest
      have hstart : ∀ part ∈ arguments, ∃ token rest, part.1 = token :: rest ∧ token ≠ .symbol ')' :=
        fun part hpart => (each part hpart).exists_derivesWithin.elim fun _ h => h.exists_cons
      rw [List.cons_append, List.cons_append, List.append_assoc]
      change (argumentsOf (expressionOf (unaryWithin inner)) _ >>= _) = _
      rw [argumentsOf_eq_tooDeep hread
        ⟨argument, hargument, fun rest => ih argument hargument ⟨n, hn, hle⟩ rest⟩ hstart]
      rfl
  | grouped _ ih =>
    rcases exists_mem_deeper_iff.mp hdeep with rfl | ⟨inner, rfl, hinner⟩
    · rfl
    · have hread := ih hinner (.symbol ')' :: rest)
      rw [Part.reader] at hread
      rw [List.cons_append, List.append_assoc, List.singleton_append]
      change (expressionOf (unaryWithin inner) _ >>= _) = _
      rw [hread]
      rfl

/-- The reader gives up where an operand is nested `maxNesting` times. -/
theorem Nested.ofTokens_eq_tooDeep (h : Nested (.joined .expression) tokens e nestings)
    (hdeep : ∃ n ∈ nestings, maxNesting ≤ n) :
    ofTokens tokens = (.error .tooDeep : Except ExpressionError (Expr α)) := by
  have hread := h.reader_eq_tooDeep hdeep []
  rw [List.append_nil, Part.reader] at hread
  unfold ofTokens
  rw [hread]
  rfl

theorem Nested.ofTokens_eq_ok (h : Nested (.joined .expression) tokens e nestings)
    (hshallow : ∀ n ∈ nestings, n < maxNesting) : ofTokens tokens = .ok e :=
  ofTokens_eq_ok_iff.mpr (h.derivesWithin hshallow)

end Depth

/-! ### Chains of operators -/

/-- Operands, each further one behind an operator. -/
def chained (first : List Token) (others : List (Char × List Token)) : List Token :=
  first ++ others.flatMap fun p => .symbol p.1 :: p.2

section Chains

variable [Arith α]

variable (α) in
/-- Whatever operand of the level follows these tokens, they and it make joined operands. -/
def Opens (levels : Nat) (level : Level) (front : List Token) : Prop :=
  ∀ (tokens : List Token) (e : Expr α), DerivesWithin levels level.operand tokens e →
    ∃ e' : Expr α, DerivesWithin levels (.joined level) (front ++ tokens) e'

theorem opens_nil (level : Level) : Opens α levels level [] :=
  fun _ e h => ⟨e, .operand h⟩

theorem opens_operator {level : Level} {c : Char} {op : BinaryOp} {tokens : List Token}
    {e : Expr α} (h : DerivesWithin levels (.joined level) tokens e) (sign : level.Operator c op) :
    Opens α levels level (tokens ++ [.symbol c]) := by
  intro rights right hright
  rw [List.append_assoc, List.singleton_append]
  exact ⟨_, .operator h sign hright⟩

/-- **Chains**: operands make an expression, whichever operators stand between them. -/
theorem exists_derivesWithin_chained {first : List Token} {others : List (Char × List Token)}
    (hsigns : ∀ p ∈ others, ∃ (level : Level) (op : BinaryOp), level.Operator p.1 op)
    (hoperands : ∀ operand ∈ first :: others.map (·.2),
      ∃ e : Expr α, DerivesWithin levels .unary operand e) :
    ∃ e : Expr α, DerivesWithin levels (.joined .expression) (chained first others) e := by
  -- In front of the operands that are left stand an open expression, term and power.
  suffices h : ∀ sums products powers, Opens α levels .expression sums →
      Opens α levels .term products → Opens α levels .power powers →
      ∃ e : Expr α, DerivesWithin levels (.joined .expression)
        (sums ++ (products ++ (powers ++ chained first others))) e from
    h [] [] [] (opens_nil _) (opens_nil _) (opens_nil _)
  intro sums products powers hsums hproducts hpowers
  induction others generalizing first sums products powers with
  | nil =>
    obtain ⟨operand, hoperand⟩ := hoperands first List.mem_cons_self
    obtain ⟨power, hpower⟩ := hpowers _ operand hoperand
    obtain ⟨product, hproduct⟩ := hproducts _ power hpower
    rw [chained, List.flatMap_nil, List.append_nil]
    exact hsums _ product hproduct
  | cons p others ih =>
    obtain ⟨⟨level, op, sign⟩, hsigns⟩ := List.forall_mem_cons.mp hsigns
    obtain ⟨⟨operand, hoperand⟩, hoperands⟩ := List.forall_mem_cons.mp hoperands
    obtain ⟨power, hpower⟩ := hpowers _ operand hoperand
    obtain ⟨product, hproduct⟩ := hproducts _ power hpower
    obtain ⟨sum, hsum⟩ := hsums _ product hproduct
    have hchained : chained first (p :: others) = first ++ [.symbol p.1] ++ chained p.2 others := by
      simp [chained]
    rw [hchained]
    have hmore := ih hsigns hoperands
    -- The operator ends what is tighter than its level.
    cases level with
    | expression =>
      simpa using hmore _ [] [] (opens_operator hsum sign) (opens_nil _) (opens_nil _)
    | term => simpa using hmore sums _ [] hsums (opens_operator hproduct sign) (opens_nil _)
    | power => simpa using hmore sums products _ hsums hproducts (opens_operator hpower sign)

end Chains

/-! ### Texts -/

/-- The first coordinate in that many parentheses. -/
def parenthesized (n : Nat) : String :=
  String.ofList (List.replicate n '(' ++ 'x' :: List.replicate n ')')

/-- The tokens of the first coordinate in that many parentheses. -/
def parenthesizedTokens (n : Nat) : List Token :=
  List.replicate n (.symbol '(') ++ .name "x" :: List.replicate n (.symbol ')')

/-- Symbols may stand next to each other. -/
theorem spelled_replicate {c : Char} (known : c ∈ Token.symbols) {ls : List Lexeme}
    {front : List Char} (h : Lexeme.Spelled ls front []) (n : Nat) :
    Lexeme.Spelled (List.replicate n (.symbol c known) ++ ls) (List.replicate n c ++ front) [] := by
  induction n with
  | zero => exact h
  | succ n ih => exact .lexeme (.symbol c known) (fun _ _ => rfl) ih

theorem scan_parenthesized (n : Nat) :
    Token.scan 0 (parenthesized n).toList = .ok (parenthesizedTokens n) := by
  have hopened : '(' ∈ Token.symbols := by decide
  have hclosed : ')' ∈ Token.symbols := by decide
  let name : Lexeme := .name 'x' [] (by decide) nofun
  have hends : ∀ c ∈ (List.replicate n ')' ++ [] ++ []).head?, name.goesOn c = false := by
    intro c hc
    have hmem : c ∈ List.replicate n ')' := by simpa using List.mem_of_head? hc
    exact List.eq_of_mem_replicate hmem ▸ name.goesOn_of_mem_symbols hclosed
  have hname := Lexeme.Spelled.lexeme name hends (spelled_replicate hclosed (.done []) n)
  have hspelled := spelled_replicate hopened hname n
  rw [parenthesized, String.toList_ofList, Token.scan_eq_ok_iff]
  refine ⟨_, by simpa [name, Lexeme.chars] using hspelled, ?_⟩
  simp [parenthesizedTokens, Lexeme.token]

section Whole

variable [Arith α]

theorem nested_parenthesized (n : Nat) :
    Nested (.joined .expression) (parenthesizedTokens n) (.coordinate .x : Expr α)
      (List.range (n + 1)) := by
  induction n with
  | zero => exact .operand (.operand (.operand (.unsigned (.named rfl))))
  | succ n ih =>
    have htokens : parenthesizedTokens (n + 1)
        = .symbol '(' :: (parenthesizedTokens n ++ [.symbol ')']) := by
      rw [parenthesizedTokens, List.replicate_succ, List.replicate_succ']
      simp [parenthesizedTokens]
    rw [htokens, List.range_succ_eq_map]
    exact .operand (.operand (.operand (.unsigned (.grouped ih))))

theorem parse_eq_ofTokens {text : String} {tokens : List Token}
    (hscan : Token.scan 0 text.toList = .ok tokens) :
    (parse text : Except ExpressionError (Expr α)) = ofTokens tokens := by
  unfold parse
  rw [hscan]
  rfl

/-- **The limit on nesting**: a text that stands for a tree is too deep exactly if an operand is
nested `maxNesting` times or more, and is read as the tree exactly if all are nested less.  Chains
of operands that are nested less are read, however long they are. -/
theorem nestingLimit {text : String} {tokens : List Token}
    (hscan : Token.scan 0 text.toList = .ok tokens) :
    (∀ e : Expr α, Derives tokens e →
      ∃ nestings, Nested (.joined .expression) tokens e nestings) ∧
    (∀ (e : Expr α) (nestings : List Nat), Nested (.joined .expression) tokens e nestings →
      ((parse text : Except ExpressionError (Expr α)) = .error .tooDeep ↔
        ∃ n ∈ nestings, maxNesting ≤ n) ∧
      (parse text = .ok e ↔ ∀ n ∈ nestings, n < maxNesting)) ∧
    ∀ (first : List Token) (others : List (Char × List Token)), tokens = chained first others →
      (∀ p ∈ others, ∃ (level : Level) (op : BinaryOp), level.Operator p.1 op) →
      (∀ operand ∈ first :: others.map (·.2), ∃ (e : Expr α) (nestings : List Nat),
        Nested .unary operand e nestings ∧ ∀ n ∈ nestings, n < maxNesting) →
      ∃ e : Expr α, parse text = .ok e := by
  rw [parse_eq_ofTokens hscan]
  refine ⟨fun e h => h.elim fun _ h => h.exists_nested, fun e nestings h => ?_, ?_⟩
  · by_cases hdeep : ∃ n ∈ nestings, maxNesting ≤ n
    · rw [h.ofTokens_eq_tooDeep hdeep]
      obtain ⟨n, hn, hle⟩ := hdeep
      exact ⟨iff_of_true rfl ⟨n, hn, hle⟩,
        iff_of_false nofun fun hshallow => absurd (hshallow n hn) (Nat.not_lt.mpr hle)⟩
    · have hshallow : ∀ n ∈ nestings, n < maxNesting := fun n hn =>
        Nat.lt_of_not_le fun hle => hdeep ⟨n, hn, hle⟩
      rw [h.ofTokens_eq_ok hshallow]
      exact ⟨iff_of_false nofun hdeep, iff_of_true rfl hshallow⟩
  · rintro first others rfl hsigns hoperands
    have hderives : ∀ operand ∈ first :: others.map (·.2),
        ∃ e : Expr α, DerivesWithin maxNesting .unary operand e := by
      intro operand hoperand
      obtain ⟨e, nestings, h, hshallow⟩ := hoperands operand hoperand
      exact ⟨e, h.derivesWithin hshallow⟩
    obtain ⟨e, he⟩ := exists_derivesWithin_chained hsigns hderives
    exact ⟨e, ofTokens_eq_ok_iff.mpr he⟩

/-- Less than `maxNesting` parentheses are read. -/
theorem nestingLimit_parenthesized :
    Token.scan 0 (parenthesized 63).toList = .ok (parenthesizedTokens 63) ∧
      parse (parenthesized 63) = .ok (.coordinate .x : Expr Float) := by
  have hscan := scan_parenthesized 63
  obtain ⟨-, hlimit, -⟩ := nestingLimit (α := Float) hscan
  obtain ⟨-, hread⟩ := hlimit _ _ (nested_parenthesized 63)
  exact ⟨hscan, hread.mpr (by decide)⟩

/-- As many as `maxNesting` parentheses are too many, although no operand is nested more often. -/
theorem parse_parenthesized_maxNesting :
    Token.scan 0 (parenthesized maxNesting).toList = .ok (parenthesizedTokens maxNesting) ∧
      (∃ nestings, Nested (.joined .expression) (parenthesizedTokens maxNesting)
        (.coordinate .x : Expr Float) nestings ∧ ¬ ∃ n ∈ nestings, maxNesting < n) ∧
      parse (parenthesized maxNesting) = (.error .tooDeep : Except ExpressionError (Expr Float)) := by
  have hscan := scan_parenthesized maxNesting
  have hnested := nested_parenthesized (α := Float) maxNesting
  refine ⟨hscan, ⟨_, hnested, by decide⟩, ?_⟩
  rw [parse_eq_ofTokens hscan]
  exact hnested.ofTokens_eq_tooDeep ⟨maxNesting, by decide, Nat.le_refl _⟩

end Whole

end TextureGraph.Expr
