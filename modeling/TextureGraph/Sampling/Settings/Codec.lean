import TextureGraph.Sampling.Settings.Reader
import TextureGraph.Sampling.Settings.Writer

/-!
# A codec for settings

Fields that are left out keep their standard values, and a field that is given twice is an error.
-/

namespace TextureGraph

/-- The settings with another value of a field. -/
def Settings.put (s : Settings Float) : Setting → Settings Float
  | .version n => { s with version := n }
  | .errorTolerance x => { s with errorTolerance := x }
  | .minDepth n => { s with minDepth := n }
  | .maxDepth n => { s with maxDepth := n }
  | .baseBlur x => { s with baseBlur := x }
  | .threads n => { s with threads := n }

/-- The codec that texts are written and read with. -/
def Settings.codec : RecordCodec where
  disassemble s := (Field.all.filter fun f => !s.isSkipped f).map s.setting
  assemble settings :=
    if (settings.map Setting.field).Nodup then some (settings.foldl put standard) else none
  write record settings := some (writeRecord record settings)
  read := readRecord

end TextureGraph
