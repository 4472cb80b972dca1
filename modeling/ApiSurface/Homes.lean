import ApiSurface.AbsolutePath
import ApiSurface.Text.Quoted

/-!
Home directories, and what a text names that may begin with one: a tilde, with the name of a user
behind it unless the user at work is meant.
-/

namespace ApiSurface

structure Homes where
  own : Text
  others : List (Text × Text) := []

namespace Homes

def isSurrogate (point : CodePoint) : Bool := 0xD800 ≤ point.val && point.val < 0xE000

/-- Surrogates of this range stand for single bytes. -/
def isByteSurrogate (point : CodePoint) : Bool := 0xDC80 ≤ point.val && point.val < 0xDD00

inductive Unusable
  /-- It has surrogates that stand for no bytes; the first and the last place of the first ones. -/
  | surrogates (first last : Nat) (point : CodePoint)
  | nul

namespace Unusable

def message : Unusable → Text
  | .surrogates first last point =>
    let which : Text :=
      if first = last then "character '\\u" ++ Text.hexadecimal 4 point.val ++ "' in position "
      else "characters in position "
    let place := if first = last then Text.ofNat first else Text.ofNat first ++ "-" ++ Text.ofNat last
    "'utf-8' codec can't encode " ++ which ++ place ++ ": surrogates not allowed"
  | .nul => "embedded null byte"

end Unusable

def strangeSurrogates? (name : Text) : Option Unusable :=
  match name.dropWhile fun point => !isSurrogate point || isByteSurrogate point with
  | [] => none
  | point :: rest =>
    let first := name.length - (rest.length + 1)
    some (.surrogates first (first + (rest.takeWhile isSurrogate).length) point)

def unusable? (name : Text) : Option Unusable :=
  (strangeSurrogates? name).or (if name.contains (CodePoint.ofChar '\x00') then some .nul else none)

inductive Located
  | found (path : AbsolutePath)
  | relative
  | unknownUser
  | unusable (cause : Unusable)

def withoutSlashes (home : Text) : Text := (home.reverse.dropWhile (· == slash)).reverse

/-- The place of parts below a home directory, which may not lead to a further home. -/
def locateBelow (home : Text) (parts : List Text) (clean : ∀ part ∈ parts, isPathPart part = true) :
    Located :=
  let directory : Text := if (withoutSlashes home).isEmpty then "/" else withoutSlashes home
  if directory.head? = some (CodePoint.ofChar '~') then .unknownUser
  else match AbsolutePath.ofText? directory with
    | some path => .found (path.below parts clean)
    | none => .relative

/-- A relative text may begin with a home directory. -/
def locate (homes : Homes) (text : Text) : Located :=
  match AbsolutePath.ofText? text with
  | some path => .found path
  | none =>
    match parts : pathParts text with
    | [] => .relative
    | first :: rest =>
      if first.head? = some (CodePoint.ofChar '~') then
        have clean : ∀ part ∈ rest, isPathPart part = true := fun part member => by
          have present : part ∈ pathParts text := by
            rw [parts]
            exact List.mem_cons_of_mem first member
          exact (List.mem_filter.mp present).2
        let user := first.drop 1
        if user = [] then locateBelow homes.own rest clean
        else match unusable? user, homes.others.lookup user with
          | some cause, _ => .unusable cause
          | none, some home => locateBelow home rest clean
          | none, none => .unknownUser
      else .relative

end Homes

end ApiSurface
