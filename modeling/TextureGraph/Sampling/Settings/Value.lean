import TextureGraph.Sampling.Settings.Form
import TextureGraph.Sampling.Settings.Quoted

/-!
# Values of unknown fields

A field that the settings do not have is passed over with its value, whatever that is: a number, a
text, a list, a map or a record.
-/

namespace TextureGraph.Scan

/-! ### Parts of values -/

/-- Passes over at most `budget` items, each after a comma but the first, as far as the character
`close`. `open'` tells whether an item may come next. -/
def itemsWithin (close : Char) (item : Skip) : Nat → Bool → Skip
  | 0, _, _ => none
  | budget + 1, open', cs => do
    match ← blanks cs with
    | [] => none
    | c :: rest =>
      if c == close then some (c :: rest)
      else if !open' then none
      else
        let (hadComma, rest) ← comma (← item (c :: rest))
        itemsWithin close item budget hadComma rest

/-- Passes over items separated by commas, as far as the character that closes them.  The last item
may be followed by a comma. -/
def itemsBefore (close : Char) (item : Skip) (cs : List Char) : Option (List Char) :=
  itemsWithin close item (cs.length + 1) true cs

/-- Passes over items separated by commas, and the character that closes them. -/
def items (close : Char) (item : Skip) (cs : List Char) : Option (List Char) :=
  (itemsBefore close item cs).map (·.drop 1)

/-- Passes over a key, a colon and a value. -/
def pair (key value : Skip) (cs : List Char) : Option (List Char) := do
  match ← blanks (← key cs) with
  | ':' :: rest => value (← blanks rest)
  | _ => none

/-- Passes over a name, a colon and a value. -/
def namedField (value : Skip) : Skip :=
  pair (fun cs => (name cs).map (·.2)) value

/-- Whether a record with named fields follows: a word and a colon. -/
def startsNamed (cs : List Char) : Bool :=
  match (do blanks (← word (← blanks cs)).2 : Option (List Char)) with
  | some (':' :: _) => true
  | _ => false

/-- Passes over what follows the opening parenthesis of a record: named fields, or values. -/
def record (element : Skip) (cs : List Char) : Option (List Char) :=
  items ')' (if startsNamed cs then namedField element else element) cs

/-- Reads what follows the word `Some`: a value in parentheses, by `wrapped`, or where `Some` may be
implicit a value without, by `bare`. -/
def payload {β : Type} (form : SettingsForm) (wrapped bare : Read β) (cs : List Char) :
    Option (β × List Char) := do
  match ← blanks cs with
  | '(' :: rest =>
    let (x, rest) ← wrapped (← blanks rest)
    match ← comma rest with
    | (_, ')' :: rest) => some (x, rest)
    | _ => none
  | rest => if form.implicitSome then bare rest else none

/-! ### Contents without parentheses of their own -/

/-- What stands in the parentheses of `Some`, where its contents may leave their own out. -/
inductive Contents where
  /-- Nothing, for the empty record. -/
  | nothing
  /-- The named fields of a record. -/
  | fields
  /-- The values of a record. -/
  | values
  /-- One value. -/
  | value
deriving DecidableEq, Repr

/-- Whether a closing parenthesis comes next. -/
def closesNext (cs : List Char) : Bool :=
  cs.head? == some ')'

/-- The contents that a comma after the first value shows: one value if nothing follows. -/
def contentsAfterComma (cs : List Char) : Option Contents :=
  (blanks cs).map fun rest => if closesNext rest then .value else .values

/-- Passes over a character in quotes, a text and a text of bytes, whichever there are. -/
def quotations (cs : List Char) : Option (List Char) := do
  let cs := (character cs).getD cs
  let cs ← (text cs).orStay cs
  (byteText cs).orStay cs

/-- The contents as at most `budget` steps show them, from a place `depth` brackets deep in them.
They are looked through for a comma outside of all brackets and quotes; brackets are only counted,
whichever kind they are. -/
def contentsWithin : Nat → Nat → List Char → Option Contents
  | 0, _, _ => none
  | budget + 1, depth, cs => do
    match ← quotations (← blanks cs) with
    | [] => none
    | c :: rest =>
      if ['(', '[', '\x7b'].contains c then contentsWithin budget (depth + 1) rest
      else if [')', ']', '\x7d'].contains c then
        match depth with
        | 0 => some .value
        | depth + 1 => contentsWithin budget depth rest
      else if c == ',' && depth == 0 then contentsAfterComma rest
      else contentsWithin budget depth rest

/-- What stands in the parentheses of `Some`, from behind the opening one. -/
def contents (cs : List Char) : Option Contents :=
  let lookThrough (cs : List Char) := contentsWithin (cs.length + 1) 0 cs
  if closesNext cs then some .nothing
  else
    match word cs with
    | none => lookThrough cs
    | some (_, rest) => do
      match ← blanks rest with
      | ':' :: _ => some .fields
      | ',' :: rest => contentsAfterComma rest
      | rest => lookThrough rest

/-! ### Values -/

/-- The words that are values. -/
def valueWords : List String :=
  ["true", "false", "None", "inf", "inff32", "inff64", "NaN", "NaNf32", "NaNf64"]

/-- Passes over a value that starts neither with a word nor with `()`.  `element` passes over what
lists, maps and records hold; `mayOpen` tells whether those may be opened. -/
def wordlessValue (mayOpen : Bool) (element : Skip) (cs : List Char) : Option (List Char) :=
  match cs with
  | '(' :: rest => if mayOpen then record element rest else none
  | '[' :: rest => if mayOpen then items ']' element rest else none
  | '\x7b' :: rest => if mayOpen then items '\x7d' (pair element element) rest else none
  | '"' :: _ | 'r' :: _ => (text cs).rest?
  | 'b' :: '\'' :: _ => byte cs
  | 'b' :: _ => (byteText cs).rest?
  | '\'' :: _ => character cs
  | _ => anyNumber cs

/-- Passes over a value.  `inner` passes over what `Some` holds, in parentheses or without, and
`element` over what lists, maps and records hold; `mayOpen` tells whether those may be opened. -/
def valueWith (form : SettingsForm) (mayOpen : Bool) (inner : Bool → Skip) (element : Skip)
    (cs : List Char) : Option (List Char) :=
  let read (wrapped : Bool) : Read Unit := fun cs => (inner wrapped cs).map ((), ·)
  match valueWords.findSome? (keyword · cs), keyword "Some" cs, literal "()" cs, word cs with
  | some rest, _, _, _ => some rest
  | none, some rest, _, _ => (payload form (read true) (read false) rest).map (·.2)
  | none, none, some rest, _ => some rest
  | none, none, none, some (_, rest) => do
    match ← blanks rest with
    | '(' :: rest => if mayOpen then record element rest else none
    | rest => some rest
  | none, none, none, none => wordlessValue mayOpen element cs

/-- Passes over what stands in the parentheses of `Some` where it may leave its own out.  The
closing parenthesis of the contents is that of `Some`, and is left. -/
def unwrappedWith (form : SettingsForm) (mayOpen : Bool) (inner : Bool → Skip) (element : Skip)
    (cs : List Char) : Option (List Char) := do
  match ← contents cs with
  | .nothing => some cs
  | .fields => if mayOpen then itemsBefore ')' (namedField element) cs else none
  | .values => if mayOpen then itemsBefore ')' element cs else none
  | .value => valueWith form mayOpen inner element cs

/-- Passes over a value that may still be nested `levels` levels deep; `wrapped` tells whether it
stands in the parentheses of `Some`.  `Some` takes a level, and lists, maps and records take two. -/
def value (form : SettingsForm) : Nat → Bool → Skip
  | 0, wrapped => at' wrapped false (fun _ _ => none) (fun _ => none)
  | 1, wrapped => at' wrapped true (value form 0) (fun _ => none)
  | levels + 2, wrapped => at' wrapped true (value form (levels + 1)) (value form levels false)
where
  /-- The value by itself, or unwrapped. -/
  at' (wrapped : Bool) : Bool → (Bool → Skip) → Skip → Skip :=
    if wrapped && form.unwrapVariants then unwrappedWith form else valueWith form

/-- How deep the value of a field may be nested. -/
def maxLevels : Nat := 126

end TextureGraph.Scan
