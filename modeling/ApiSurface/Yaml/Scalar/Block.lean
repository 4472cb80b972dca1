import ApiSurface.Yaml.Glyph

/-!
Literal and folded block scalars: a header line, then the lines that are indented enough. The
header tells what becomes of the breaks at the end.
-/

namespace ApiSurface.Yaml.Block

inductive Chomping
  | strip
  | clip
  | keep
  deriving DecidableEq

structure Header where
  chomping : Chomping
  indent : Option Nat
  remaining : List Glyph

def chomping? : Char → Option Chomping
  | '+' => some .keep
  | '-' => some .strip
  | _ => none

def indentDigit? (char : Char) : Except Fault (Option Nat) :=
  if char.isDigit then
    if char == '0' then .error .token else .ok (some (char.toNat - '0'.toNat))
  else .ok none

def ignoredLine (glyphs : List Glyph) : Except Fault (List Glyph) :=
  let afterSpaces := glyphs.dropWhile (·.char == ' ')
  let afterComment :=
    if Glyph.peek afterSpaces == '#' then afterSpaces.dropWhile fun glyph => !isLineEnd glyph.char
    else afterSpaces
  match afterComment with
  | [] => .ok []
  | glyph :: rest =>
    if isBreak glyph.char then .ok rest
    else if isEnd glyph.char then .ok (glyph :: rest)
    else .error .token

def header (glyphs : List Glyph) : Except Fault Header := do
  let first := Glyph.peek glyphs
  let ⟨chomping, indent, rest⟩ ← match chomping? first with
    | some chomping => do
      let indent ← indentDigit? (Glyph.peek (glyphs.drop 1))
      pure (Header.mk chomping indent (glyphs.drop (if indent.isSome then 2 else 1)))
    | none => do
      match ← indentDigit? first with
      | none => pure (Header.mk .clip none glyphs)
      | some indent =>
        match chomping? (Glyph.peek (glyphs.drop 1)) with
        | some chomping => pure (Header.mk chomping (some indent) (glyphs.drop 2))
        | none => pure (Header.mk .clip (some indent) (glyphs.drop 1))
  if isSpaceGap (Glyph.peek rest) then return ⟨chomping, indent, ← ignoredLine rest⟩
  else throw .token

/-- Leading spaces and breaks: the breaks, the greatest column reached, and what follows. -/
def leading (widest : Nat) : List Glyph → List Char × Nat × List Glyph
  | [] => ([], widest, [])
  | glyph :: rest =>
    if glyph.char == ' ' then leading (max widest (glyph.column + 1)) rest
    else if isBreak glyph.char then
      let (breaks, widest, remaining) := leading widest rest
      (glyph.char :: breaks, widest, remaining)
    else ([], widest, glyph :: rest)

def emptyLines (indent : Nat) : List Glyph → List Char × List Glyph
  | [] => ([], [])
  | glyph :: rest =>
    if glyph.char == ' ' && glyph.column < indent then emptyLines indent rest
    else if isBreak glyph.char then
      let (breaks, remaining) := emptyLines indent rest
      (glyph.char :: breaks, remaining)
    else ([], glyph :: rest)

/-- The text of the lines, with the break of the last line and the empty lines after it apart. -/
structure Body where
  chars : List Char
  lastBreak : List Char
  further : List Char
  remaining : List Glyph

def continues (indent : Nat) (glyphs : List Glyph) : Bool :=
  match glyphs with
  | [] => false
  | glyph :: _ => glyph.column = indent && !isEnd glyph.char

/-- Reads lines after the given empty ones, as long as `bound` allows, which is more than there
can be. A folded break between two lines that start with text becomes a space. -/
def body (fold : Bool) (indent : Nat) (empty : List Char) : Nat → List Glyph → Body
  | 0, glyphs => ⟨[], [], empty, glyphs⟩
  | bound + 1, glyphs =>
    if continues indent glyphs then
      let line := (glyphs.takeWhile fun glyph => !isLineEnd glyph.char).map Glyph.char
      let afterLine := glyphs.dropWhile fun glyph => !isLineEnd glyph.char
      let lineBreak := (afterLine.takeWhile fun glyph => isBreak glyph.char).map Glyph.char |>.take 1
      let (further, next) := emptyLines indent (afterLine.drop lineBreak.length)
      if continues indent next then
        let flows := fold && lineBreak == ['\n'] && !isBlank (Glyph.peek glyphs)
          && !isBlank (Glyph.peek next)
        let joint := if flows then (if further.isEmpty then [' '] else []) else lineBreak
        let tail := body fold indent further bound next
        ⟨empty ++ line ++ joint ++ tail.chars, tail.lastBreak, tail.further, tail.remaining⟩
      else ⟨empty ++ line, lineBreak, further, next⟩
    else ⟨[], [], empty, glyphs⟩

/-- Scans a scalar after its indicator; `least` is the smallest indentation that it can have. -/
def scan (fold : Bool) (least : Nat) (glyphs : List Glyph) :
    Except Fault (List Char × List Glyph) := do
  let header ← header glyphs
  let (indent, empty, rest) := match header.indent with
    | none =>
      let (breaks, widest, rest) := leading 0 header.remaining
      (max least widest, breaks, rest)
    | some step =>
      let indent := least + step - 1
      let (breaks, rest) := emptyLines indent header.remaining
      (indent, breaks, rest)
  let body := body fold indent empty rest.length rest
  let ending := match header.chomping with
    | .strip => []
    | .clip => body.lastBreak
    | .keep => body.lastBreak ++ body.further
  return (body.chars ++ ending, body.remaining)

end ApiSurface.Yaml.Block
