import TextureGraph.Text.Identifier

/-!
# The lexical form of settings

A settings file is a record of named fields in parentheses, such as
`(max_depth: 6, threads: Some(4))`.  This module reads what stands around the values: blanks and
comments, commas, names.  Every reader takes the characters that are left and yields those that
remain, or nothing where the text is malformed.
-/

namespace TextureGraph.Scan

/-- Passes over something at the front of the characters. -/
abbrev Skip : Type :=
  List Char → Option (List Char)

/-- Reads something from the front of the characters. -/
abbrev Read (β : Type) : Type :=
  List Char → Option (β × List Char)

/-! ### Blanks and comments -/

/-- The characters that stand between tokens. -/
def blankChars : List Char :=
  [' ', '\t', '\n', '\x0B', '\x0C', '\r', '\u0085', '\u200E', '\u200F', '\u2028', '\u2029']

/-- Whether a character stands between tokens. -/
def isBlank (c : Char) : Bool :=
  blankChars.contains c

/-- The characters after a block comment, `level` levels inside it.  Block comments nest. -/
def afterBlock : Nat → Skip
  | _, [] => none
  | level, '/' :: '*' :: cs => afterBlock (level + 1) cs
  | 0, '*' :: '/' :: cs => some cs
  | level + 1, '*' :: '/' :: cs => afterBlock level cs
  | level, _ :: cs => afterBlock level cs

/-- Passes over at most `budget` runs of blanks and comments. -/
def blanksWithin : Nat → Skip
  | 0, cs => some cs
  | budget + 1, cs =>
    match cs.dropWhile isBlank with
    | '/' :: '/' :: cs => blanksWithin budget (cs.dropWhile (· != '\n'))
    | '/' :: '*' :: cs => do blanksWithin budget (← afterBlock 0 cs)
    | '/' :: _ => none
    | cs => some cs

/-- Passes over blanks and comments.  A slash that starts no comment is malformed. -/
def blanks (cs : List Char) : Option (List Char) :=
  blanksWithin (cs.length + 1) cs

/-! ### Fixed words -/

/-- Passes over a given text. -/
def literal (text : String) (cs : List Char) : Option (List Char) :=
  text.toList.isPrefixOf? cs

/-- Passes over a name that is written out, and not continued by another character of a name. -/
def keyword (text : String) (cs : List Char) : Option (List Char) := do
  let rest ← literal text cs
  match rest with
  | c :: _ => if Text.isIdentifierContinue c then none else some rest
  | [] => some rest

/-- Passes over a comma, if there is one, and the blanks around it; says whether there was. -/
def comma (cs : List Char) : Option (Bool × List Char) := do
  match ← blanks cs with
  | ',' :: rest => return (true, ← blanks rest)
  | rest => return (false, rest)

/-! ### Names -/

/-- The characters that start a name. -/
def isNameStart (c : Char) : Bool :=
  c == '_' || Text.isIdentifierStart c

/-- The characters that only a name marked by `r#` may have besides those of every name. -/
def isNameJoint (c : Char) : Bool :=
  c == '.' || c == '+' || c == '-'

/-- The beginnings of texts and bytes that look like names. -/
def textMarks : List String :=
  ["b\"", "b'", "br#", "br\"", "r\"", "r#\"", "r##"]

/-- Reads a word: a name, or the part of one in front of a point or a sign.  A word marked by `r#`
goes on past points and signs. -/
def word (cs : List Char) : Option (String × List Char) :=
  match cs with
  | [] => none
  | first :: _ =>
    if !isNameStart first || textMarks.any (fun mark => (literal mark cs).isSome) then none
    else
      let (chars, rest) :=
        match literal "r#" cs with
        | some marked => marked.span fun c => Text.isIdentifierContinue c || isNameJoint c
        | none => cs.span Text.isIdentifierContinue
      if chars.isEmpty then none else some (String.ofList chars, rest)

/-- Reads a name.  A name with a point or a sign in it has to be marked by `r#`. -/
def name (cs : List Char) : Option (String × List Char) := do
  let (chars, rest) ← word cs
  if rest.head?.any isNameJoint then none else some (chars, rest)

end TextureGraph.Scan
