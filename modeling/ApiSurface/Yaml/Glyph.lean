import ApiSurface.Yaml.Fault

/-!
Characters with their places. Line ends are unified, and a NUL stands after the last character of a
document.
-/

namespace ApiSurface.Yaml

structure Glyph where
  char : Char
  index : Nat
  line : Nat
  column : Nat
  deriving Inhabited

def isBreak (char : Char) : Bool :=
  char == '\n' || char == '\u2028' || char == '\u2029'

def isBlank (char : Char) : Bool := char == ' ' || char == '\t'

def isEnd (char : Char) : Bool := char == '\x00'

def isLineEnd (char : Char) : Bool := isBreak char || isEnd char

def isGap (char : Char) : Bool := isBlank char || isLineEnd char

def isSpaceGap (char : Char) : Bool := char == ' ' || isLineEnd char

def isAllowed (char : Char) : Bool :=
  let number := char.toNat
  number == 0x09 || number == 0x0A || number == 0x0D || (0x20 ≤ number && number ≤ 0x7E)
    || number == 0x85 || (0xA0 ≤ number && number ≤ 0xD7FF) || (0xE000 ≤ number && number ≤ 0xFFFD)
    || 0x10000 ≤ number

/-- A byte order mark takes no column. -/
def nextColumn (char : Char) (column : Nat) : Nat := if char == '\uFEFF' then column else column + 1

def place (index line column : Nat) : List Char → List Glyph
  | [] => [⟨'\x00', index, line, column⟩]
  | '\r' :: '\n' :: rest => ⟨'\n', index, line, column⟩ :: place (index + 2) (line + 1) 0 rest
  | char :: rest =>
    if char == '\r' || char == '\u0085' then
      ⟨'\n', index, line, column⟩ :: place (index + 1) (line + 1) 0 rest
    else if isBreak char then
      ⟨char, index, line, column⟩ :: place (index + 1) (line + 1) 0 rest
    else ⟨char, index, line, column⟩ :: place (index + 1) line (nextColumn char column) rest

/-- The characters of a document, up to something that cannot be read if there is such a thing. -/
structure Source where
  chars : List Char
  barrier : Option Fault := none

/-- The placed characters of a document; a byte order mark at its start is left out. Nothing stands
before a barrier. -/
def Source.glyphs (source : Source) : List Glyph :=
  let placed := place 0 0 0 source.chars
  let placed := if source.barrier.isSome then placed.dropLast else placed
  match placed with
  | first :: rest => if first.char == '\uFEFF' then rest else first :: rest
  | [] => []

namespace Glyph

def peek (glyphs : List Glyph) : Char := (glyphs.head?.map Glyph.char).getD '\x00'

def startsMark (mark : Char) : List Glyph → Bool
  | a :: b :: c :: rest => a.char == mark && b.char == mark && c.char == mark && isGap (peek rest)
  | _ => false

def startsDocumentMark (glyphs : List Glyph) : Bool := startsMark '-' glyphs || startsMark '.' glyphs

end Glyph

end ApiSurface.Yaml
