import ApiSurface.Text

/-!
Absolute paths of files in normal form: single slashes, no parts that are a dot. Parts of two dots
stay, and so do two slashes at the very beginning.
-/

namespace ApiSurface

def slash : CodePoint := '/'

def isPathPart (part : Text) : Bool := part != [] && part != "." && !part.contains slash

def pathParts (text : Text) : List Text := (text.splitOn slash).filter isPathPart

structure AbsolutePath where
  /-- Whether the path begins with exactly two slashes. -/
  isDoubled : Bool
  parts : List Text
  clean : ∀ part ∈ parts, isPathPart part = true
  deriving DecidableEq

namespace AbsolutePath

def startsDoubled : Text → Bool
  | first :: second :: rest => first == slash && second == slash && rest.head? != some slash
  | _ => false

def ofText? (text : Text) : Option AbsolutePath :=
  if text.head? = some slash then
    some ⟨startsDoubled text, pathParts text, fun _ member => (List.mem_filter.mp member).2⟩
  else none

def shown (path : AbsolutePath) : Text :=
  let root : Text := if path.isDoubled then "//" else "/"
  root ++ Text.join "/" path.parts

def below (path : AbsolutePath) (parts : List Text) (clean : ∀ part ∈ parts, isPathPart part = true) :
    AbsolutePath where
  isDoubled := path.isDoubled
  parts := path.parts ++ parts
  clean part member := (List.mem_append.mp member).elim (path.clean part) (clean part)

/-- The parts that name a file, without its directory and that directory again. -/
def resolvedParts (parts : List Text) : List Text :=
  let parent : Text := ".."
  (parts.foldl (fun done part => if part = parent then done.drop 1 else part :: done) []).reverse

end AbsolutePath

end ApiSurface
