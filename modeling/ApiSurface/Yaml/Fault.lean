/-!
What can be wrong with a YAML document. Faults of form are found while it is read; faults of
content are found when a scalar is turned into a value.
-/

namespace ApiSurface.Yaml

inductive Fault
  | encoding
  | character
  | token
  | unfinished
  | grammar
  /-- An alias without an anchor, or an anchor given twice. -/
  | anchor
  /-- A tag without meaning, or one that does not fit its node. -/
  | tag
  | key
  | merge
  | binary
  | codePoint
  /-- An escape names a number beyond all code points by far. -/
  | hugeCodePoint
  | depth
  /-- Further on the file is no text. -/
  | brokenText
  | number
  | emptyNumber
  | hugeNumber
  | flag
  | timestamp
  /-- The text of a timestamp is only the default of a mapping. -/
  | indirectTimestamp
  | calendar
  deriving DecidableEq

def Fault.isForm : Fault → Bool
  | .encoding | .character | .token | .unfinished | .grammar | .anchor | .tag | .key | .merge
  | .binary => true
  | _ => false

end ApiSurface.Yaml
