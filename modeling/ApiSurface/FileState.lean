import ApiSurface.Text

/-!
What stands where a file is looked for.
-/

namespace ApiSurface

inductive FileState
  | missing
  | directory
  | file (bytes : List UInt8)

structure NamedFile where
  path : Text
  state : FileState

end ApiSurface
