import TextureGraph.Sampling.Settings.Basic

/-!
# Texts of settings

Settings are stored as texts that list the fields of a record.  A library writes and reads these texts; it
also derives how settings are taken apart into fields and put together from them (`RecordCodec`).  What is
left to the settings is which fields they have and under which names, which field need not be written, and
the check of what was read.
-/

namespace TextureGraph

namespace Settings

/-- The fields of settings. -/
inductive Field where
  /-- The version of the format. -/
  | version
  /-- The tolerance. -/
  | errorTolerance
  /-- The least depth. -/
  | minDepth
  /-- The greatest depth. -/
  | maxDepth
  /-- The blur. -/
  | baseBlur
  /-- The number of workers. -/
  | threads
deriving DecidableEq, Repr

namespace Field

/-- The fields in the order of their declaration. -/
def all : List Field :=
  [.version, .errorTolerance, .minDepth, .maxDepth, .baseBlur, .threads]

/-- The name of a field in texts. -/
def name : Field → String
  | .version => "version"
  | .errorTolerance => "error_tolerance"
  | .minDepth => "min_depth"
  | .maxDepth => "max_depth"
  | .baseBlur => "base_blur"
  | .threads => "threads"

end Field

end Settings

/-- A field of settings with a value. -/
inductive Setting where
  /-- The version of the format. -/
  | version (n : Nat)
  /-- The tolerance. -/
  | errorTolerance (x : Float)
  /-- The least depth. -/
  | minDepth (n : Nat)
  /-- The greatest depth. -/
  | maxDepth (n : Nat)
  /-- The blur. -/
  | baseBlur (x : Float)
  /-- The number of workers, when it is fixed. -/
  | threads (n : Option Nat)
deriving Repr

/-- The field that has the value. -/
def Setting.field : Setting → Settings.Field
  | .version _ => .version
  | .errorTolerance _ => .errorTolerance
  | .minDepth _ => .minDepth
  | .maxDepth _ => .maxDepth
  | .baseBlur _ => .baseBlur
  | .threads _ => .threads

/-- A library for texts of records, with what it derives for settings. -/
structure RecordCodec where
  /-- Takes settings apart into the fields that are written. -/
  disassemble : Settings Float → List Setting
  /-- Puts settings together from the fields that were read. -/
  assemble : List Setting → Option (Settings Float)
  /-- The text of a record with the given name and fields. -/
  write : String → List Setting → Option String
  /-- The fields of a record with the given name that a text lists, in the order of the text. -/
  read : String → String → Option (List Setting)

namespace Settings

/-- The name of a record of settings. -/
def recordName : String :=
  "SamplerSettings"

/-- A field with its value. -/
def setting (s : Settings Float) : Field → Setting
  | .version => .version s.version
  | .errorTolerance => .errorTolerance s.errorTolerance
  | .minDepth => .minDepth s.minDepth
  | .maxDepth => .maxDepth s.maxDepth
  | .baseBlur => .baseBlur s.baseBlur
  | .threads => .threads s.threads

/-- Whether a field is not written: the number of workers, when it is not fixed. -/
def isSkipped (s : Settings Float) (f : Field) : Bool :=
  f == .threads && s.threads.isNone

/-- The text of settings, which need not be usable. -/
def render (codec : RecordCodec) (s : Settings Float) : Except (SettingsError Float) String :=
  match codec.write recordName (codec.disassemble s) with
  | none => .error .unwritable
  | some text => .ok text

/-- Settings from a text that describes usable ones. -/
def parse (codec : RecordCodec) (text : String) : Except (SettingsError Float) (Settings Float) :=
  match (codec.read recordName text).bind codec.assemble with
  | none => .error .unreadable
  | some s => s.validate.map fun _ => s

/-- Settings from a file, whose content is missing when there is no such file. -/
def load (codec : RecordCodec) (content : Option String) :
    Except (SettingsError Float) (Settings Float) :=
  match content with
  | none => .error .file
  | some text => parse codec text

end Settings

end TextureGraph
