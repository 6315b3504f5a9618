/-! # YAML tokens

The tokens of a YAML text. Indentation appears as tokens that open and close block collections.
A tag is a row of octets, since its escapes name octets and not characters.
-/

namespace Notebook.Yaml

/-- How a scalar is written. A block is literal or folded. -/
inductive ScalarStyle where
  | plain
  | quoted
  | literal
  | folded
  deriving DecidableEq, Repr

def asciiOctets (s : String) : List UInt8 :=
  s.toList.map Char.toUInt8

inductive Token where
  | version (major minor : Nat)
  | tagDirective (handle : String) (start : List UInt8)
  | documentStart
  | documentEnd
  | blockSequenceStart
  | blockMappingStart
  | blockEnd
  | flowSequenceStart
  | flowSequenceEnd
  | flowMappingStart
  | flowMappingEnd
  | blockEntry
  | flowEntry
  | key
  | value
  | alias (name : String)
  | anchor (name : String)
  /-- A tag with the handle `""` is complete as it stands. -/
  | tag (handle : String) (suffix : List UInt8)
  | scalar (text : String) (style : ScalarStyle)
  deriving DecidableEq, Repr

end Notebook.Yaml
