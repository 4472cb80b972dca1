import ApiSurface.Text

/-!
Tokens of a YAML document. Indentation shows as block starts and ends, and a key that is only
recognised by the colon after it is marked where it begins.
-/

namespace ApiSurface.Yaml

inductive Token
  | version (major : Nat)
  | tagHandle (handle expansion : Text)
  | otherDirective
  | documentStart
  | documentEnd
  | blockSequenceStart
  | blockMappingStart
  | blockEnd
  | flowSequenceStart
  | flowSequenceEnd
  | flowMappingStart
  | flowMappingEnd
  | blockEntry
  | flowEntry
  | key
  | value
  | reference (name : Text)
  | anchor (name : Text)
  | tag (handle : Option Text) (suffix : Text)
  | scalar (content : Text) (plain : Bool)
  deriving DecidableEq

end ApiSurface.Yaml
