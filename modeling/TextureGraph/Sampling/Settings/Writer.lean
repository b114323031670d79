import TextureGraph.Number.Decimal
import TextureGraph.Sampling.Settings.Record

/-!
# Writing records

The written form of a record starts with its name and has each field on a line of its own.
-/

namespace TextureGraph

namespace Settings

/-- A number with a point: a whole one ends in `.0`. -/
def numberText (x : Float) : String :=
  if Arith.isWhole x then Decimal.text x ++ ".0" else Decimal.text x

end Settings

/-- The value of a field as it is written. -/
def Setting.text : Setting → String
  | .version n | .minDepth n | .maxDepth n => toString n
  | .errorTolerance x | .baseBlur x => Settings.numberText x
  | .threads none => "None"
  | .threads (some n) => "Some(" ++ toString n ++ ")"

namespace Settings

/-- The written form of a record. -/
def writeRecord (record : String) (settings : List Setting) : String :=
  record ++ "(\n"
    ++ String.join (settings.map fun x => "    " ++ x.field.name ++ ": " ++ x.text ++ ",\n")
    ++ ")"

end Settings

end TextureGraph
