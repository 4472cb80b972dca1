import ApiSurface.AbsolutePath
import ApiSurface.Assoc
import ApiSurface.Failure
import ApiSurface.Text.Utf8

/-!
The streams and files that lines are written to. Lines are only ever added; a file is created, with
the directories on its path, before the first line is written.
-/

namespace ApiSurface

inductive Sink
  | stdout
  | stderr
  | file (parts : List Text)
  deriving DecidableEq

structure Journal where
  directories : List (List Text) := [[]]
  written : List (Sink × List Text) := []

namespace Journal

def lines (journal : Journal) (sink : Sink) : List Text := (journal.written.lookup sink).getD []

def hasFile (journal : Journal) (parts : List Text) : Bool :=
  (journal.written.lookup (.file parts)).isSome

def isDirectory (journal : Journal) (parts : List Text) : Bool := journal.directories.contains parts

def append (journal : Journal) (sink : Sink) (added : List Text) : Journal :=
  { journal with written := Assoc.put sink (journal.lines sink ++ added) journal.written }

def isNul (point : CodePoint) : Bool := point.val == 0

def isLongPart (part : Text) : Bool := 255 < part.byteCount

def isLongPath (parts : List Text) : Bool :=
  4096 ≤ parts.foldl (fun count part => count + part.byteCount + 1) 0

/-- Makes the directories on a path, from the outermost one inwards, below the parts that are done;
a file may not be in the way. -/
def makeDirectories (journal : Journal) (done : List Text) : List Text → Journal × Option Failure
  | [] => (journal, none)
  | part :: rest =>
    let path := done ++ [part]
    let place := AbsolutePath.resolvedParts path
    if isLongPart part then (journal, some .longPath)
    else if journal.hasFile place then
      (journal, some (if rest.isEmpty then .fileInTheWay else .pathThroughFile))
    else if journal.isDirectory place then makeDirectories journal path rest
    else makeDirectories { journal with directories := place :: journal.directories } path rest

def makeParents (journal : Journal) (parts : List Text) : Journal × Option Failure :=
  if parts.any (·.any isNul) then (journal, some .strangePath)
  else if isLongPath parts then (journal, some .longPath)
  else journal.makeDirectories [] parts

def refusal? (journal : Journal) (place : List Text) : Option Failure :=
  if place.any (·.any isNul) then some .strangePath
  else if isLongPath place || place.any isLongPart then some .longPath
  else if journal.isDirectory place then some .directory
  else none

def openFile (journal : Journal) (path : AbsolutePath) : Journal × Option Failure :=
  let (prepared, failure) := journal.makeParents path.parts.dropLast
  let place := AbsolutePath.resolvedParts path.parts
  match failure.or (prepared.refusal? place) with
  | some failure => (prepared, some failure)
  | none => (prepared.append (.file place) [], none)

end Journal

end ApiSurface
