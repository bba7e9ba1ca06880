/-!
# Tokens of YAML

What the text of a YAML document consists of.  The start and the end of a block are tokens of their
own, although no character stands for them: they follow from the indentation.
-/

namespace Markflow.Yaml

/-- A token. -/
inductive Token where
  | documentStart
  | documentEnd
  | blockSequenceStart
  | blockMappingStart
  | blockEnd
  | flowSequenceStart
  | flowSequenceEnd
  | flowMappingStart
  | flowMappingEnd
  | key
  | value
  | blockEntry
  | flowEntry
  /-- The text of a scalar, and whether it was written without quotes. -/
  | scalar (text : String) (plain : Bool)
  deriving DecidableEq, Repr, Inhabited

end Markflow.Yaml
