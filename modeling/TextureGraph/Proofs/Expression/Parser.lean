import TextureGraph.Number.Binary64
import TextureGraph.Proofs.Expression.Grammar
import TextureGraph.Proofs.Outcome

/-!
# Correctness of the reader of expressions

The reader goes by the grammar as far as its levels of nesting reach.

* `reads_unaryWithin`: what it reads derives the tree that it yields.
* `DerivesWithin.reader_append`: what derives a tree is read as that tree.
* `unaryWithin_upTo`: further levels make a difference only where the reader runs out of them.
* `ofTokens_eq_ok_iff_derives` assembles them.  As tokens are read in one way only, they derive one
  tree only.
-/

namespace TextureGraph.Expr

variable {α β γ : Type}

/-! ### Readers of the parts -/

/-- The operators of a level as the reader finds them. -/
def Level.op? : Level → Char → Option BinaryOp
  | .expression => sumOp?
  | .term => productOp?
  | .power => powerOp?

theorem Level.op?_eq_some_iff {level : Level} {c : Char} {op : BinaryOp} :
    level.op? c = some op ↔ level.Operator c op := by
  constructor
  · intro h
    cases level
    case expression =>
      change sumOp? c = some op at h
      unfold sumOp? at h
      split at h <;> cases h <;> constructor
    case term =>
      change productOp? c = some op at h
      unfold productOp? at h
      split at h <;> cases h <;> constructor
    case power =>
      change powerOp? c = some op at h
      unfold powerOp? at h
      split at h
      · cases h
        constructor
      · cases h
  · intro h
    cases h <;> rfl

/-- What reads a part, where `unary` reads an operand with its signs. -/
def Part.reader (unary : Reader (Expr α)) : Part → Reader (Expr α)
  | .joined .expression => expressionOf unary
  | .joined .term => chain productOp? (chain powerOp? unary)
  | .joined .power => chain powerOp? unary
  | .unary | .primary => unary

theorem Part.reader_joined (unary : Reader (Expr α)) (level : Level) :
    (Part.joined level).reader unary = chain level.op? (level.operand.reader unary) := by
  cases level <;> rfl

/-! ### What is read is derived -/

/-- A reader takes tokens from the front that make what it yields. -/
def Reads (reader : Reader β) (makes : List Token → β → Prop) : Prop :=
  ∀ ⦃tokens b rest⦄, reader tokens = .ok (b, rest) → ∃ used, tokens = used ++ rest ∧ makes used b

section Soundness

variable [Arith α] {levels : Nat}

theorem reads_continueChain {level : Level} {operand : Reader (Expr α)}
    (h : Reads operand (DerivesWithin levels level.operand)) {budget : Nat}
    {front tokens rest : List Token} {left e : Expr α}
    (hleft : DerivesWithin levels (.joined level) front left)
    (hread : continueChain level.op? operand budget left tokens = .ok (e, rest)) :
    ∃ used, tokens = used ++ rest ∧ DerivesWithin levels (.joined level) (front ++ used) e := by
  -- Where the chain ends, no further tokens are used.
  have hend : ∀ {front tokens : List Token} {left : Expr α},
      DerivesWithin levels (.joined level) front left →
      (.ok (left, tokens) : Except ExpressionError _) = .ok (e, rest) →
      ∃ used, tokens = used ++ rest ∧ DerivesWithin levels (.joined level) (front ++ used) e := by
    intro front tokens left hleft h
    cases h
    exact ⟨[], rfl, by rwa [List.append_nil]⟩
  induction budget generalizing front left tokens with
  | zero => exact hend hleft hread
  | succ budget ih =>
    unfold continueChain at hread
    split at hread
    · rename_i c after
      split at hread
      · exact hend hleft hread
      · rename_i op hop
        obtain ⟨⟨right, behind⟩, hright, hmore⟩ := bind_eq_ok_iff.mp hread
        obtain ⟨rights, rfl, hrights⟩ := h hright
        have hjoined : DerivesWithin levels (.joined level) (front ++ .symbol c :: rights)
            (.binary op left right) := .operator hleft (Level.op?_eq_some_iff.mp hop) hrights
        obtain ⟨used, rfl, hused⟩ := ih hjoined hmore
        refine ⟨.symbol c :: (rights ++ used), by simp, ?_⟩
        simpa using hused
    · exact hend hleft hread

theorem reads_chain (level : Level) {operand : Reader (Expr α)}
    (h : Reads operand (DerivesWithin levels level.operand)) :
    Reads (chain level.op? operand) (DerivesWithin levels (.joined level)) := by
  intro tokens e rest hread
  obtain ⟨⟨left, after⟩, hleft, hmore⟩ := bind_eq_ok_iff.mp hread
  obtain ⟨front, rfl, hfront⟩ := h hleft
  obtain ⟨used, rfl, hused⟩ := reads_continueChain h (.operand hfront) hmore
  exact ⟨front ++ used, by rw [List.append_assoc], hused⟩

theorem reads_expressionOf {unary : Reader (Expr α)}
    (h : Reads unary (DerivesWithin levels .unary)) :
    Reads (expressionOf unary) (DerivesWithin levels (.joined .expression)) :=
  have hpower : Reads (chain powerOp? unary) (DerivesWithin levels (.joined .power)) :=
    reads_chain .power h
  have hterm : Reads (chain productOp? (chain powerOp? unary))
      (DerivesWithin levels (.joined .term)) :=
    reads_chain .term hpower
  reads_chain .expression hterm

/-- Tokens that make the arguments of a call, with the closing parenthesis. -/
def MakesArguments (levels : Nat) (tokens : List Token) (arguments : List (Expr α)) : Prop :=
  ∃ parts : List (List Token × Expr α),
    (∀ part ∈ parts, DerivesWithin levels (.joined .expression) part.1 part.2) ∧
      parts.map (·.2) = arguments ∧ tokens = separated (parts.map (·.1)) ++ [.symbol ')']

theorem reads_moreArguments {argument : Reader (Expr α)}
    (h : Reads argument (DerivesWithin levels (.joined .expression))) (budget : Nat) :
    Reads (moreArguments argument budget) fun tokens arguments =>
      arguments ≠ [] ∧ MakesArguments levels tokens arguments := by
  intro tokens arguments rest hread
  induction budget generalizing tokens arguments with
  | zero => cases hread
  | succ budget ih =>
    obtain ⟨⟨first, after⟩, hfirst, hmore⟩ := bind_eq_ok_iff.mp hread
    obtain ⟨used, rfl, hused⟩ := h hfirst
    dsimp only at hmore
    split at hmore
    · obtain ⟨⟨others, behind⟩, hothers, heq⟩ := bind_eq_ok_iff.mp hmore
      cases heq
      obtain ⟨more, rfl, hne, parts, hparts, rfl, rfl⟩ := ih hothers
      have hne : parts.map (·.1) ≠ [] := by simpa using hne
      refine ⟨used ++ .symbol ',' :: (separated (parts.map (·.1)) ++ [.symbol ')']), by simp,
        by simp, (used, first) :: parts, List.forall_mem_cons.mpr ⟨hused, hparts⟩, rfl, ?_⟩
      rw [List.map_cons, separated_cons used hne, List.append_assoc, List.cons_append]
    · cases hmore
      refine ⟨used ++ [.symbol ')'], by simp, by simp, [(used, first)], ?_, rfl, ?_⟩
      · exact List.forall_mem_singleton.mpr hused
      · rw [List.map_singleton, separated_singleton]
    · cases hmore

theorem reads_argumentsOf {argument : Reader (Expr α)}
    (h : Reads argument (DerivesWithin levels (.joined .expression))) :
    Reads (argumentsOf argument) (MakesArguments levels) := by
  intro tokens arguments rest hread
  unfold argumentsOf at hread
  split at hread
  · cases hread
    exact ⟨[.symbol ')'], rfl, [], by simp, rfl, rfl⟩
  · obtain ⟨used, rfl, -, hused⟩ := reads_moreArguments h _ hread
    exact ⟨used, rfl, hused⟩

theorem reads_primaryOf {inner : Reader (Expr α)}
    (h : Reads inner (DerivesWithin levels (.joined .expression))) :
    Reads (primaryOf inner) (DerivesWithin (levels + 1) .primary) := by
  intro tokens e rest hread
  unfold primaryOf at hread
  split at hread
  · rename_i digits decimals after
    cases hread
    exact ⟨[.number digits decimals], rfl, .number digits decimals⟩
  · obtain ⟨⟨e', after⟩, hinner, hmore⟩ := bind_eq_ok_iff.mp hread
    obtain ⟨used, rfl, hused⟩ := h hinner
    dsimp only at hmore
    split at hmore
    · cases hmore
      exact ⟨.symbol '(' :: (used ++ [.symbol ')']), by simp, .grouped hused⟩
    · cases hmore
  · rename_i name after
    obtain ⟨⟨arguments, behind⟩, hargs, hmore⟩ := bind_eq_ok_iff.mp hread
    obtain ⟨e', hcall, heq⟩ := bind_eq_ok_iff.mp hmore
    cases heq
    obtain ⟨used, rfl, parts, hparts, rfl, rfl⟩ := reads_argumentsOf h hargs
    exact ⟨_, rfl, .called hparts hcall⟩
  · rename_i name after hcall
    split at hread
    · rename_i hknown
      cases hread
      exact ⟨[.name name], rfl, .named hknown⟩
    · cases hread
  · cases hread

/-- **Soundness**: what is read derives the tree that is yielded. -/
theorem reads_unaryWithin (levels : Nat) :
    Reads (unaryWithin (α := α) levels) (DerivesWithin levels .unary) := by
  induction levels with
  | zero =>
    intro tokens e rest hread
    cases hread
  | succ levels ih =>
    intro tokens e rest hread
    unfold unaryWithin at hread
    split at hread
    · obtain ⟨⟨e', after⟩, hoperand, heq⟩ := bind_eq_ok_iff.mp hread
      cases heq
      obtain ⟨used, rfl, hused⟩ := ih hoperand
      exact ⟨_, rfl, .negated hused⟩
    · obtain ⟨used, rfl, hused⟩ := reads_primaryOf (reads_expressionOf ih) hread
      exact ⟨used, rfl, .unsigned hused⟩

end Soundness

/-! ### What is derived is read -/

/-- The symbols with which a part goes on where it can: after a name a parenthesis opens the
arguments of a call, and joined operands are followed by an operator of their level or of a tighter
one. -/
def Part.continuations : Part → List Char
  | .unary | .primary => ['(']
  | .joined .power => ['(', '^']
  | .joined .term => ['(', '^', '*', '/', '%']
  | .joined .expression => ['(', '^', '*', '/', '%', '+', '-']

/-- A part cannot go on with these tokens. -/
def Part.StopsAt (part : Part) (tokens : List Token) : Prop :=
  ∀ c ∈ part.continuations, tokens.head? ≠ some (.symbol c)

theorem Part.stopsAt_nil (part : Part) : part.StopsAt [] := by
  intro c _ h
  cases h

theorem Part.stopsAt_closing (part : Part) (tokens : List Token) :
    part.StopsAt (.symbol ')' :: tokens) := by
  intro c hc h
  cases h
  rcases part with (_ | _ | _) | _ | _ <;> simp [continuations] at hc

theorem Part.stopsAt_comma (part : Part) (tokens : List Token) :
    part.StopsAt (.symbol ',' :: tokens) := by
  intro c hc h
  cases h
  rcases part with (_ | _ | _) | _ | _ <;> simp [continuations] at hc

/-- Where joined operands cannot go on, neither can the last one of them. -/
theorem Part.StopsAt.operand {level : Level} {tokens : List Token}
    (h : (Part.joined level).StopsAt tokens) : level.operand.StopsAt tokens := by
  have hsubset : level.operand.continuations ⊆ (joined level).continuations := by
    cases level <;> simp [Level.operand, continuations]
  exact fun c hc => h c (hsubset hc)

/-- An operator ends the operand before it. -/
theorem Level.Operator.stopsAt {level : Level} {c : Char} {op : BinaryOp}
    (h : level.Operator c op) (tokens : List Token) :
    level.operand.StopsAt (.symbol c :: tokens) := by
  intro c' hc' heq
  cases heq
  cases h <;> simp [Level.operand, Part.continuations] at hc'

theorem Level.Operator.mem_continuations {level : Level} {c : Char} {op : BinaryOp}
    (h : level.Operator c op) : c ∈ (Part.joined level).continuations := by
  cases h <;> simp [Part.continuations]

theorem continueChain_of_stopsAt {level : Level} (operand : Reader (Expr α)) (budget : Nat)
    (e : Expr α) {tokens : List Token} (h : (Part.joined level).StopsAt tokens) :
    continueChain level.op? operand budget e tokens = .ok (e, tokens) := by
  cases budget with
  | zero => rfl
  | succ budget =>
    unfold continueChain
    split
    · rename_i c after
      split
      · rfl
      · rename_i op hop
        have hmem := (Level.op?_eq_some_iff.mp hop).mem_continuations
        exact absurd rfl (h c hmem)
    · rfl

/-- Each argument is read up to its end. -/
def ReadsArguments (argument : Reader (Expr α)) (parts : List (List Token × Expr α)) : Prop :=
  ∀ part ∈ parts, ∀ rest, (Part.joined .expression).StopsAt rest →
    argument (part.1 ++ rest) = .ok (part.2, rest)

theorem moreArguments_append {argument : Reader (Expr α)} {parts : List (List Token × Expr α)}
    (h : ReadsArguments argument parts) (hne : parts ≠ []) (rest : List Token) {budget : Nat}
    (hbudget : parts.length ≤ budget) :
    moreArguments argument budget (separated (parts.map (·.1)) ++ .symbol ')' :: rest)
      = .ok (parts.map (·.2), rest) := by
  induction parts generalizing budget with
  | nil => exact absurd rfl hne
  | cons part parts ih =>
    obtain ⟨hpart, hparts⟩ := List.forall_mem_cons.mp h
    obtain ⟨budget, rfl⟩ := Nat.exists_eq_add_of_le' (Nat.le_trans (Nat.le_add_left 1 _) hbudget)
    unfold moreArguments
    cases parts with
    | nil =>
      rw [List.map_singleton, separated_singleton, hpart _ (Part.stopsAt_closing _ _)]
      rfl
    | cons next others =>
      rw [List.map_cons, separated_cons _ (by simp), List.append_assoc, List.cons_append,
        hpart _ (Part.stopsAt_comma _ _)]
      have hmore := ih hparts (by simp) (Nat.le_of_succ_le_succ hbudget)
      simp only [bind, Except.bind, hmore]
      rfl

/-- Separators leave no fewer tokens than there are arguments. -/
theorem length_le_length_separated (arguments : List (List Token)) :
    arguments.length ≤ (separated arguments).length + 1 := by
  induction arguments with
  | nil => exact Nat.zero_le _
  | cons first rest ih =>
    by_cases hrest : rest = []
    · rw [hrest, separated_singleton]
      exact Nat.le_add_left 1 _
    · rw [separated_cons first hrest, List.length_append, List.length_cons, List.length_cons]
      omega

/-- Arguments do not start with the closing parenthesis that ends them. -/
theorem argumentsOf_of_ne_nil (argument : Reader (Expr α)) {parts : List (List Token)}
    (hne : parts ≠ [])
    (hstart : ∀ part ∈ parts, ∃ token rest, part = token :: rest ∧ token ≠ .symbol ')')
    (rest : List Token) :
    argumentsOf argument (separated parts ++ rest)
      = moreArguments argument ((separated parts ++ rest).length + 1) (separated parts ++ rest) := by
  unfold argumentsOf
  split
  · rename_i after heq
    obtain ⟨first, others, rfl⟩ := List.exists_cons_of_ne_nil hne
    obtain ⟨token, behind, hfirst, htoken⟩ := hstart first List.mem_cons_self
    have hhead : (separated (first :: others)).head? = some token := by
      cases others with
      | nil => rw [separated_singleton, hfirst]; rfl
      | cons next others =>
        rw [separated_cons _ (by simp), hfirst]
        rfl
    have heq := congrArg List.head? heq
    rw [List.head?_append, hhead] at heq
    cases heq
    exact absurd rfl htoken
  · rfl

theorem argumentsOf_append {argument : Reader (Expr α)} {parts : List (List Token × Expr α)}
    (h : ReadsArguments argument parts)
    (hstart : ∀ part ∈ parts, ∃ token rest, part.1 = token :: rest ∧ token ≠ .symbol ')')
    (rest : List Token) :
    argumentsOf argument (separated (parts.map (·.1)) ++ .symbol ')' :: rest)
      = .ok (parts.map (·.2), rest) := by
  by_cases hparts : parts = []
  · subst hparts
    rfl
  have hlength := length_le_length_separated (parts.map (·.1))
  rw [List.length_map] at hlength
  have hne : parts.map (·.1) ≠ [] := by simpa using hparts
  rw [argumentsOf_of_ne_nil argument hne (List.forall_mem_map.mpr hstart)]
  refine moreArguments_append h hparts rest ?_
  rw [List.length_append]
  omega

section Completeness

variable [Arith α] {levels : Nat} {part : Part} {tokens : List Token} {e : Expr α}

/-- A name without a parenthesis after it. -/
theorem primaryOf_named (inner : Reader (Expr α)) {name : String} (known : named? name = some e)
    {rest : List Token} (hrest : Part.primary.StopsAt rest) :
    primaryOf inner (.name name :: rest) = .ok (e, rest) := by
  unfold primaryOf
  split
  case h_1 heq => cases heq
  case h_2 heq => cases heq
  case h_3 heq =>
    cases heq
    exact absurd rfl (hrest '(' List.mem_cons_self)
  case h_4 heq =>
    cases heq
    simp only [known]
  case h_5 hname => exact absurd rfl (hname name rest)

/-- A name with arguments after it. -/
theorem primaryOf_called {inner : Reader (Expr α)} {name : String} {arguments : List (Expr α)}
    {rest : List Token} (h : argumentsOf inner tokens = .ok (arguments, rest))
    (accepted : call name arguments = .ok e) :
    primaryOf inner (.name name :: .symbol '(' :: tokens) = .ok (e, rest) := by
  change (argumentsOf inner tokens >>= _) = _
  rw [h]
  change (call name arguments >>= _) = _
  rw [accepted]
  rfl

/-- Parentheses. -/
theorem primaryOf_grouped {inner : Reader (Expr α)} {rest : List Token}
    (h : inner tokens = .ok (e, .symbol ')' :: rest)) :
    primaryOf inner (.symbol '(' :: tokens) = .ok (e, rest) := by
  change (inner tokens >>= _) = _
  rw [h]
  rfl

/-- What derives a tree is read as that tree from the front of other tokens with which the part
cannot go on.  Joined operands are read whatever follows the last one of them, which may be an
operator of their level, and then the chain is continued. -/
def Part.Completes (levels : Nat) : Part → List Token → Expr α → Prop
  | .joined level, tokens, e => ∀ rest, level.operand.StopsAt rest →
      ∃ budget, rest.length ≤ budget ∧
        (Part.joined level).reader (unaryWithin levels) (tokens ++ rest)
          = continueChain level.op? (level.operand.reader (unaryWithin levels)) budget e rest
  | part, tokens, e => ∀ rest, part.StopsAt rest →
      part.reader (unaryWithin levels) (tokens ++ rest) = .ok (e, rest)

theorem Part.Completes.reader_append (h : part.Completes levels tokens e) {rest : List Token}
    (hrest : part.StopsAt rest) :
    part.reader (unaryWithin levels) (tokens ++ rest) = .ok (e, rest) := by
  cases part with
  | joined level =>
    obtain ⟨budget, -, hread⟩ := h rest hrest.operand
    rw [hread, continueChain_of_stopsAt _ _ _ hrest]
  | unary => exact h rest hrest
  | primary => exact h rest hrest

theorem DerivesWithin.completes (h : DerivesWithin levels part tokens e) :
    part.Completes levels tokens e := by
  induction h with
  | @operand levels level tokens e _ ih =>
    intro rest hrest
    refine ⟨rest.length, Nat.le_refl _, ?_⟩
    rw [Part.reader_joined]
    unfold chain
    rw [ih.reader_append hrest]
    rfl
  | @operator levels level c op lefts rights left right _ sign _ ihFront ihLast =>
    intro rest hrest
    obtain ⟨budget, hbudget, hfront⟩ := ihFront (.symbol c :: (rights ++ rest)) (sign.stopsAt _)
    obtain ⟨budget, rfl⟩ := Nat.exists_eq_add_of_le' (Nat.le_trans (Nat.le_add_left 1 _) hbudget)
    have hlast := ihLast.reader_append hrest
    refine ⟨budget, ?_, ?_⟩
    · rw [List.length_cons, List.length_append] at hbudget
      omega
    · rw [List.append_assoc, List.cons_append, hfront, continueChain]
      simp only [Level.op?_eq_some_iff.mpr sign, hlast]
      rfl
  | negated _ ih =>
    intro rest hrest
    change (unaryWithin _ (_ ++ rest) >>= _) = _
    have hread := ih.reader_append hrest
    rw [Part.reader] at hread
    rw [hread]
    rfl
  | unsigned _ ih => exact ih
  | number digits decimals =>
    intro rest _
    rfl
  | named known =>
    intro rest hrest
    exact primaryOf_named _ known hrest
  | called each accepted ih =>
    intro rest _
    have hargs := argumentsOf_append
      (fun part hpart rest hrest => (ih part hpart).reader_append hrest)
      (fun part hpart => (each part hpart).exists_cons) rest
    rw [List.cons_append, List.cons_append, List.append_assoc, List.singleton_append]
    exact primaryOf_called hargs accepted
  | grouped _ ih =>
    intro rest _
    have hinner := ih.reader_append (Part.stopsAt_closing _ rest)
    rw [List.cons_append, List.append_assoc, List.singleton_append]
    exact primaryOf_grouped hinner

end Completeness

/-! ### Further levels -/

/-- Two outcomes are the same unless the first one is short of levels. -/
def UpToDepth (x x' : Except ExpressionError γ) : Prop :=
  x = .error .tooDeep ∨ x = x'

namespace UpToDepth

theorem refl (x : Except ExpressionError γ) : UpToDepth x x :=
  .inr rfl

theorem bind {x x' : Except ExpressionError β} {f f' : β → Except ExpressionError γ}
    (hx : UpToDepth x x') (hf : ∀ b, UpToDepth (f b) (f' b)) :
    UpToDepth (x >>= f) (x' >>= f') := by
  rcases hx with rfl | rfl
  · exact .inl rfl
  · cases x with
    | error e => exact .inr rfl
    | ok b => exact hf b

end UpToDepth

section Levels

variable {reader reader' : Reader (Expr α)}

theorem continueChain_upToDepth (h : ∀ tokens, UpToDepth (reader tokens) (reader' tokens))
    (op? : Char → Option BinaryOp) (budget : Nat) (left : Expr α) (tokens : List Token) :
    UpToDepth (continueChain op? reader budget left tokens)
      (continueChain op? reader' budget left tokens) := by
  induction budget generalizing left tokens with
  | zero => exact .refl _
  | succ budget ih =>
    unfold continueChain
    split
    · split
      · exact .refl _
      · exact (h _).bind fun _ => ih _ _
    · exact .refl _

theorem chain_upToDepth (h : ∀ tokens, UpToDepth (reader tokens) (reader' tokens))
    (op? : Char → Option BinaryOp) (tokens : List Token) :
    UpToDepth (chain op? reader tokens) (chain op? reader' tokens) :=
  (h tokens).bind fun _ => continueChain_upToDepth h op? _ _ _

theorem expressionOf_upToDepth (h : ∀ tokens, UpToDepth (reader tokens) (reader' tokens))
    (tokens : List Token) : UpToDepth (expressionOf reader tokens) (expressionOf reader' tokens) :=
  chain_upToDepth (chain_upToDepth (chain_upToDepth h powerOp?) productOp?) sumOp? tokens

theorem moreArguments_upToDepth (h : ∀ tokens, UpToDepth (reader tokens) (reader' tokens))
    (budget : Nat) (tokens : List Token) :
    UpToDepth (moreArguments reader budget tokens) (moreArguments reader' budget tokens) := by
  induction budget generalizing tokens with
  | zero => exact .refl _
  | succ budget ih =>
    refine (h tokens).bind fun r => ?_
    dsimp only
    split
    · exact (ih _).bind fun _ => .refl _
    · exact .refl _
    · exact .refl _

theorem argumentsOf_upToDepth (h : ∀ tokens, UpToDepth (reader tokens) (reader' tokens))
    (tokens : List Token) : UpToDepth (argumentsOf reader tokens) (argumentsOf reader' tokens) := by
  unfold argumentsOf
  split
  · exact .refl _
  · exact moreArguments_upToDepth h _ _

variable [Arith α]

theorem primaryOf_upToDepth (h : ∀ tokens, UpToDepth (reader tokens) (reader' tokens))
    (tokens : List Token) : UpToDepth (primaryOf reader tokens) (primaryOf reader' tokens) := by
  unfold primaryOf
  split
  · exact .refl _
  · exact (h _).bind fun _ => .refl _
  · exact (argumentsOf_upToDepth h _).bind fun _ => .refl _
  · exact .refl _
  · exact .refl _

theorem unaryWithin_upToDepth {levels levels' : Nat} (hle : levels ≤ levels')
    (tokens : List Token) :
    UpToDepth (unaryWithin (α := α) levels tokens) (unaryWithin levels' tokens) := by
  induction levels generalizing levels' tokens with
  | zero => exact .inl rfl
  | succ levels ih =>
    obtain ⟨levels', rfl⟩ := Nat.exists_eq_add_of_le' (Nat.le_trans (Nat.le_add_left 1 _) hle)
    have hless := ih (Nat.le_of_succ_le_succ hle)
    unfold unaryWithin
    split
    · exact (hless _).bind fun _ => .refl _
    · exact primaryOf_upToDepth (expressionOf_upToDepth hless) _

end Levels

/-! ### Whole lists of tokens -/

section Whole

variable [Arith α] {tokens : List Token} {e e' : Expr α}

/-- The reader goes by the grammar as far as its levels reach. -/
theorem expressionOf_eq_ok_iff {levels : Nat} :
    expressionOf (unaryWithin levels) tokens = .ok (e, []) ↔
      DerivesWithin levels (.joined .expression) tokens e := by
  constructor
  · intro h
    obtain ⟨used, rfl, hused⟩ := reads_expressionOf (reads_unaryWithin levels) h
    rwa [List.append_nil]
  · intro h
    have hread := h.completes.reader_append (Part.stopsAt_nil _)
    rwa [List.append_nil] at hread

theorem ofTokens_eq_ok_iff :
    ofTokens tokens = .ok e ↔ DerivesWithin maxNesting (.joined .expression) tokens e := by
  rw [← expressionOf_eq_ok_iff, ofTokens, bind_eq_ok_iff]
  constructor
  · rintro ⟨⟨root, rest⟩, hread, hrest⟩
    dsimp only at hrest
    split at hrest <;> cases hrest
    exact hread
  · intro hread
    exact ⟨(e, []), hread, rfl⟩

/-- The grammar is unambiguous: enough levels for two derivations let the reader find both trees. -/
theorem Derives.unique (h : Derives tokens e) (h' : Derives tokens e') : e = e' := by
  obtain ⟨levels, h⟩ := h
  obtain ⟨levels', h'⟩ := h'
  have hread := expressionOf_eq_ok_iff.mpr (h.mono (Nat.le_max_left levels levels'))
  have hread' := expressionOf_eq_ok_iff.mpr (h'.mono (Nat.le_max_right levels levels'))
  cases hread.symm.trans hread'
  rfl

/-- What is derived is read, unless the reader runs out of levels. -/
theorem Derives.ofTokens_eq (h : Derives tokens e)
    (hdeep : ofTokens tokens ≠ (.error .tooDeep : Except ExpressionError (Expr α))) :
    ofTokens tokens = .ok e := by
  obtain ⟨levels, h⟩ := h
  have hread := expressionOf_eq_ok_iff.mpr (h.mono (Nat.le_max_left levels maxNesting))
  have hlevels : UpToDepth (expressionOf (unaryWithin (α := α) maxNesting) tokens) _ :=
    expressionOf_upToDepth (unaryWithin_upToDepth (Nat.le_max_right levels maxNesting)) tokens
  rcases hlevels with hshort | heq
  · rw [ofTokens, hshort] at hdeep
    exact absurd rfl hdeep
  · rw [ofTokens, heq, hread]
    rfl

/-- **The reader goes by the grammar**: unless it finds an expression too deep, it succeeds exactly
for the tokens that derive a tree, with that tree; and no tokens derive two trees. -/
theorem ofTokens_eq_ok_iff_derives (tokens : List Token) :
    (ofTokens tokens ≠ (.error .tooDeep : Except ExpressionError (Expr α)) →
      ∀ e : Expr α, ofTokens tokens = .ok e ↔ Derives tokens e) ∧
        ∀ e e' : Expr α, Derives tokens e → Derives tokens e' → e = e' := by
  refine ⟨fun hdeep e => ⟨fun h => ⟨maxNesting, ofTokens_eq_ok_iff.mp h⟩, fun h => ?_⟩,
    fun e e' => Derives.unique⟩
  exact h.ofTokens_eq hdeep

/-- The tokens of `-2^2` derive the square of negative two, and nothing else. -/
theorem ofTokens_signed_square :
    ∀ e : Expr Float, Derives [.symbol '-', .number 2 0, .symbol '^', .number 2 0] e ↔
      e = .binary .power (.unary .negate (.number (.ofScientific 2 true 0)))
        (.number (.ofScientific 2 true 0)) := by
  intro e
  have hread : ofTokens [.symbol '-', .number 2 0, .symbol '^', .number 2 0]
      = .ok (.binary .power (.unary .negate (.number (.ofScientific 2 true 0)))
        (.number (.ofScientific 2 true 0) : Expr Float)) :=
    rfl
  obtain ⟨hreads, hunique⟩ := ofTokens_eq_ok_iff_derives (α := Float)
    [.symbol '-', .number 2 0, .symbol '^', .number 2 0]
  have hderives := (hreads (by rw [hread]; exact nofun) _).mp hread
  exact ⟨fun h => hunique _ _ h hderives, fun h => h ▸ hderives⟩

end Whole

end TextureGraph.Expr
