import TextureGraph.Sampling.Settings.Record
import TextureGraph.Sampling.Settings.Value

/-!
# Reading records

`Settings.readRecord` reads the fields that a text lists.  They come in any order, and unknown ones are passed
over.
-/

namespace TextureGraph

open Scan

namespace Settings

/-- Reads a count of 32 bits. -/
def count : Read Nat :=
  natural 32

/-- Reads the number of workers: `None`, or a count of 64 bits in `Some`. -/
def workers (form : SettingsForm) (cs : List Char) : Option (Option Nat × List Char) :=
  let counted : Read (Option Nat) := fun cs => (natural 64 cs).map fun (n, rest) => (some n, rest)
  match keyword "None" cs, keyword "Some" cs with
  | some rest, _ => some (none, rest)
  | none, some rest => payload form counted counted rest
  | none, none => if form.implicitSome then counted cs else none

/-- Reads the value of a field. -/
def Field.read (form : SettingsForm) (cs : List Char) : Field → Option (Setting × List Char)
  | .version => (count cs).map fun (n, rest) => (.version n, rest)
  | .errorTolerance => (float cs).map fun (x, rest) => (.errorTolerance x, rest)
  | .minDepth => (count cs).map fun (n, rest) => (.minDepth n, rest)
  | .maxDepth => (count cs).map fun (n, rest) => (.maxDepth n, rest)
  | .baseBlur => (float cs).map fun (x, rest) => (.baseBlur x, rest)
  | .threads => (workers form cs).map fun (n, rest) => (.threads n, rest)

/-- Reads what stands behind a name and a colon; the value of an unknown field is passed over. -/
def entry (form : SettingsForm) (name : String) (cs : List Char) :
    Option (List Setting × List Char) :=
  match Field.all.find? (·.name == name) with
  | some f => (f.read form cs).map fun (x, rest) => ([x], rest)
  | none => (value form maxLevels false cs).map ([], ·)

/-- Reads at most `budget` fields, up to the closing parenthesis; `open'` tells whether one may come
next. -/
def fields (form : SettingsForm) : Nat → Bool → Read (List Setting)
  | 0, _, _ => none
  | budget + 1, open', cs => do
    match ← blanks cs with
    | ')' :: rest => some ([], rest)
    | cs =>
      if !open' then none
      else
        let (field, rest) ← name cs
        match ← blanks rest with
        | ':' :: rest =>
          let (found, rest) ← entry form field (← blanks rest)
          let (hadComma, rest) ← comma rest
          let (others, rest) ← fields form budget hadComma rest
          some (found ++ others, rest)
        | _ => none

/-- Passes over the name of the record, which may be left out unless names are explicit. -/
def skipRecordName (record : String) (form : SettingsForm) (cs : List Char) : Option (List Char) :=
  match cs with
  | [] => none
  | c :: _ =>
    if Text.isIdentifierContinue c then do
      let (found, rest) ← name cs
      if found = record then some rest else none
    else if form.explicitNames then none
    else some cs

/-- Reads a whole text. -/
def readRecord (record text : String) : Option (List Setting) := do
  let cs ← blanks text.toList
  let (form, cs) ← SettingsForm.attributes (cs.length + 1) {} cs
  match ← blanks (← skipRecordName record form cs) with
  | '(' :: rest =>
    let (settings, rest) ← fields form (rest.length + 1) true rest
    match ← blanks rest with
    | [] => some settings
    | _ => none
  | _ => none

end Settings

end TextureGraph
