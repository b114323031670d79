import TextureGraph.Number.Decimal

/-!
# Settings of the sampler
-/

namespace TextureGraph

/-- How finely a patch is sampled. -/
structure Settings (α : Type) where
  /-- The version of the format that the settings were written in. -/
  version : Nat
  /-- Cells with a larger error are refined. -/
  errorTolerance : α
  /-- Every cell is refined at least this often. -/
  minDepth : Nat
  /-- No cell is refined more often than this. -/
  maxDepth : Nat
  /-- The blur of every evaluation. -/
  baseBlur : α
  /-- The number of workers, when it is fixed. -/
  threads : Option Nat
deriving Repr

/-- Why settings cannot be used. -/
inductive SettingsError (α : Type) where
  /-- The file cannot be read or written. -/
  | file
  /-- The text does not describe settings. -/
  | unreadable
  /-- The settings have no text. -/
  | unwritable
  /-- The settings are of a later version. -/
  | unsupportedVersion (found supported : Nat)
  /-- The tolerance is negative or not a finite number. -/
  | invalidTolerance (tolerance : α)
  /-- The blur is negative or not a finite number. -/
  | invalidBlur (blur : α)
  /-- The least depth exceeds the greatest, or that exceeds the limit. -/
  | invalidDepth (min max : Nat)
  /-- There would be no workers. -/
  | zeroThreads
deriving Repr

/-- The text shown for an error. -/
def SettingsError.message : SettingsError Float → String
  | .file => "Settings I/O failed"
  | .unreadable => "Invalid settings file"
  | .unwritable => "Failed to write settings"
  | .unsupportedVersion found supported =>
    "Settings version " ++ toString found ++ " is newer than supported version "
      ++ toString supported
  | .invalidTolerance a =>
    "Error tolerance must be a non-negative number, got " ++ Decimal.text a
  | .invalidBlur a => "Base blur must be a non-negative number, got " ++ Decimal.text a
  | .invalidDepth min max =>
    "Invalid refinement depth: min " ++ toString min ++ ", max " ++ toString max
  | .zeroThreads => "Thread count must be at least 1 when set"

namespace Settings

/-- The version of the format that is written. -/
def formatVersion : Nat := 1

/-- The greatest depth that settings may ask for. -/
def depthLimit : Nat := 16

variable {α : Type} [Arith α]

/-- The settings that are used unless others are given. -/
def standard : Settings α where
  version := formatVersion
  errorTolerance := 0.01
  minDepth := 0
  maxDepth := 4
  baseBlur := 0.0
  threads := none

/-- Whether a number can be a tolerance or a blur. -/
def isMeasure (a : α) : Bool :=
  Arith.isFinite a && !(decide (a < 0.0))

/-- Checks that the sampler can use the settings, and otherwise names the first reason why not. -/
def validate (s : Settings α) : Except (SettingsError α) Unit :=
  if formatVersion < s.version then .error (.unsupportedVersion s.version formatVersion)
  else if !isMeasure s.errorTolerance then .error (.invalidTolerance s.errorTolerance)
  else if !isMeasure s.baseBlur then .error (.invalidBlur s.baseBlur)
  else if s.maxDepth < s.minDepth || depthLimit < s.maxDepth then
    .error (.invalidDepth s.minDepth s.maxDepth)
  else if s.threads == some 0 then .error .zeroThreads
  else .ok ()

end Settings

end TextureGraph
