import TextureGraph.Sampling.Settings.Scan

/-!
# Extensions of the form of settings

Attributes such as `#![enable(implicit_some)]` stand in front of the record and change how it is
read.
-/

namespace TextureGraph

open Scan

/-- Extensions of the form that make a difference to settings. -/
structure SettingsForm where
  /-- Values may stand for themselves where `Some` is due. -/
  implicitSome : Bool := false
  /-- The record has to be named. -/
  explicitNames : Bool := false
  /-- What `Some` holds may leave its own parentheses out. -/
  unwrapVariants : Bool := false
deriving Repr

namespace SettingsForm

/-- The form with one more extension enabled, if there is such an extension. -/
def enable (form : SettingsForm) (extension : String) : Option SettingsForm :=
  match extension with
  | "implicit_some" => some { form with implicitSome := true }
  | "explicit_struct_names" => some { form with explicitNames := true }
  | "unwrap_variant_newtypes" => some { form with unwrapVariants := true }
  | "unwrap_newtypes" => some form
  | _ => none

/-- Reads at most `budget` names of extensions separated by commas. -/
def extensions : Nat → SettingsForm → Read SettingsForm
  | 0, _, _ => none
  | budget + 1, form, cs => do
    let (extension, cs) ← name cs
    let form ← form.enable extension
    let (hadComma, cs) ← comma cs
    match cs with
    | c :: _ => if hadComma && isNameStart c then extensions budget form cs else some (form, cs)
    | [] => some (form, cs)

/-- Passes over words with blanks behind each. -/
def wordsWithBlanks (words : List String) (cs : List Char) : Option (List Char) :=
  words.foldlM (fun cs word => do blanks (← literal word cs)) cs

/-- Reads at most `budget` attributes of the form `#![enable(…)]`. -/
def attributes : Nat → SettingsForm → Read SettingsForm
  | 0, form, cs => some (form, cs)
  | budget + 1, form, cs =>
    match cs with
    | '#' :: _ => do
      let cs ← wordsWithBlanks ["#", "!", "[", "enable", "("] cs
      let (form, cs) ← extensions (cs.length + 1) form cs
      let cs ← wordsWithBlanks [")", "]"] (← blanks cs)
      attributes budget form cs
    | _ => some (form, cs)

end SettingsForm

end TextureGraph
