import ApiSurface.Text

/-!
The lines of a text. A line ends at a line feed, a carriage return or both, at a vertical tab, a
form feed or one of the separators above them, and at the line ends beyond ASCII.
-/

namespace ApiSurface.Text

def lineFeed : CodePoint := '\n'

def carriageReturn : CodePoint := '\r'

def isLineEnd (point : CodePoint) : Bool :=
  [0x0A, 0x0B, 0x0C, 0x0D, 0x1C, 0x1D, 0x1E, 0x85, 0x2028, 0x2029].contains point.val

/-- The lines of a text with one more line feed behind it. A carriage return in front of a line feed
is a part of that line end. -/
def closedLines : Text → List Text
  | [] => [[]]
  | point :: rest =>
    if point = carriageReturn ∧ rest.head?.getD lineFeed = lineFeed then closedLines rest
    else if isLineEnd point then [] :: closedLines rest
    else match closedLines rest with
      | [] => [[point]]
      | line :: lines => (point :: line) :: lines

end ApiSurface.Text
