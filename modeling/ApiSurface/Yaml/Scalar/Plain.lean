import ApiSurface.Text
import ApiSurface.Yaml.Glyph

/-!
Scalars without quotes. Words are joined over lines as long as the lines are indented enough; a
single break between two words becomes a space.
-/

namespace ApiSurface.Yaml.Plain

/-- Whether a word ends before the glyphs: at a gap, at a colon that ends a key, and between
brackets also at an indicator. -/
def endsWord (inFlow : Bool) : List Glyph → Bool
  | [] => true
  | glyph :: rest =>
    let next := Glyph.peek rest
    isGap glyph.char
      || (glyph.char == ':' && (isGap next || (inFlow && [',', '[', ']', '{', '}'].contains next)))
      || (inFlow && [',', '?', '[', ']', '{', '}'].contains glyph.char)

def word (inFlow : Bool) : List Glyph → List Char × List Glyph
  | [] => ([], [])
  | glyph :: rest =>
    if endsWord inFlow (glyph :: rest) then ([], glyph :: rest)
    else
      let (chars, remaining) := word inFlow rest
      (glyph.char :: chars, remaining)

def furtherBreaks : List Glyph → Option (List Char) × List Glyph
  | [] => (some [], [])
  | glyph :: rest =>
    if glyph.char == ' ' then furtherBreaks rest
    else if isBreak glyph.char then
      if Glyph.startsDocumentMark rest then (none, rest)
      else
        let (breaks, remaining) := furtherBreaks rest
        (breaks.map (glyph.char :: ·), remaining)
    else (some [], glyph :: rest)

/-- What stands between two words: the text that it becomes, and whether a line ended. An empty
text ends the scalar. -/
structure Gap where
  text : List Char
  broken : Bool
  remaining : List Glyph

/-- Breaks as text: one line feed alone is a space, after others it is dropped. -/
def folded (first : Char) (further : List Char) : List Char :=
  if first != '\n' then first :: further else if further.isEmpty then [' '] else further

def gap (glyphs : List Glyph) : Gap :=
  let spaces := (glyphs.takeWhile (·.char == ' ')).map Glyph.char
  match glyphs.dropWhile (·.char == ' ') with
  | [] => ⟨spaces, false, []⟩
  | glyph :: rest =>
    if isBreak glyph.char then
      if Glyph.startsDocumentMark rest then ⟨[], true, rest⟩
      else match furtherBreaks rest with
        | (none, remaining) => ⟨[], true, remaining⟩
        | (some further, remaining) => ⟨folded glyph.char further, true, remaining⟩
    else ⟨spaces, false, glyph :: rest⟩

/-- A scanned scalar; `broken` says whether its last gap ended a line. -/
structure Scanned where
  chars : List Char
  broken : Bool
  remaining : List Glyph

def words (inFlow : Bool) (indent : Nat) (before : List Char) (broken : Bool) :
    Nat → List Glyph → Scanned
  | 0, glyphs => ⟨[], broken, glyphs⟩
  | bound + 1, glyphs =>
    if Glyph.peek glyphs == '#' then ⟨[], broken, glyphs⟩
    else
      let (chars, afterWord) := word inFlow glyphs
      if chars.isEmpty then ⟨[], broken, glyphs⟩
      else
        let between := gap afterWord
        let next := between.remaining
        let column := (next.head?.map Glyph.column).getD 0
        if between.text.isEmpty || Glyph.peek next == '#' || (!inFlow && column < indent) then
          ⟨before ++ chars, between.broken, next⟩
        else
          let tail := words inFlow indent between.text between.broken bound next
          ⟨before ++ chars ++ tail.chars, tail.broken, tail.remaining⟩

def scan (inFlow : Bool) (indent : Nat) (glyphs : List Glyph) : Scanned :=
  words inFlow indent [] false glyphs.length glyphs

end ApiSurface.Yaml.Plain
