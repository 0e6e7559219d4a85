/-!
Lexical elements of YAML text.

Indentation is made explicit: a block collection is enclosed by a start and an end, and each key of
a mapping is preceded by a mark of its own, also where the text shows it only by a later colon.
-/

namespace LayeredSettings.Yaml

/-- A tag or a part of it. Escapes may spell any octet, so a tag need not be text. -/
abbrev Octets := List UInt8

inductive Token
  | version (major minor : Nat)
  | tagHandle (handle : String) (replacement : Octets)
  | documentStart
  | documentEnd
  | streamEnd
  | blockSequenceStart
  | blockMappingStart
  | blockEnd
  | flowSequenceStart
  | flowSequenceEnd
  | flowMappingStart
  | flowMappingEnd
  | blockEntry
  | flowEntry
  | key
  | value
  | alias (name : String)
  | anchor (name : String)
  | tag (handle : String) (suffix : Octets)
  | scalar (text : String) (plain : Bool)
  deriving DecidableEq

end LayeredSettings.Yaml
