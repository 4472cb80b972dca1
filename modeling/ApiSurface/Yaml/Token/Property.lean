import ApiSurface.Decimal.Digits
import ApiSurface.Yaml.Encoding
import ApiSurface.Yaml.Scalar.Block
import ApiSurface.Yaml.Token

/-!
Scanning directives, anchors, aliases and tags.
-/

namespace ApiSurface.Yaml

abbrev Scanned := Except Fault (Token × List Glyph)

def isNameChar (char : Char) : Bool := char.isAlphanum || char == '-' || char == '_'

def scanName (glyphs : List Glyph) : Except Fault (List Char × List Glyph) :=
  let name := (glyphs.takeWhile fun glyph => isNameChar glyph.char).map Glyph.char
  if name.isEmpty then .error .token else .ok (name, glyphs.drop name.length)

def scanAnchor (glyphs : List Glyph) : Except Fault (Text × List Glyph) := do
  let (name, rest) ← scanName glyphs
  let next := Glyph.peek rest
  if isGap next || ['?', ':', ',', ']', '}', '%', '@', '`'].contains next then
    return (Text.ofChars name, rest)
  else throw .token

def scanHandle (glyphs : List Glyph) : Except Fault (List Char × List Glyph) :=
  match glyphs with
  | [] => .error .token
  | mark :: rest =>
    if mark.char != '!' then .error .token
    else if Glyph.peek rest == ' ' then .ok (['!'], rest)
    else
      let name := (rest.takeWhile fun glyph => isNameChar glyph.char).map Glyph.char
      match rest.drop name.length with
      | close :: remaining =>
        if close.char == '!' then .ok ('!' :: name ++ ['!'], remaining) else .error .token
      | [] => .error .token

def isAddressChar (char : Char) : Bool :=
  char.isAlphanum || ['-', ';', '/', '?', ':', '@', '&', '=', '+', '$', ',', '_', '.', '!', '~', '*',
    '\'', '(', ')', '[', ']'].contains char

/-- The address so far in reverse, with the bytes of the escapes at its end, also in reverse. -/
def addressText (reversed : List Char) (bytes : List UInt8) : Except Fault (List Char) :=
  match Text.utf8? bytes.reverse with
  | some chars => .ok (chars.reverse ++ reversed)
  | none => .error .token

def scanAddressFrom (reversed : List Char) (bytes : List UInt8) :
    List Glyph → Except Fault (List Char × List Glyph)
  | [] => .error .unfinished
  | glyph :: rest =>
    if glyph.char == '%' then
      match rest with
      | a :: b :: remaining =>
        match Digits.hexadecimal? [a.char, b.char] with
        | some number => scanAddressFrom reversed (number.toUInt8 :: bytes) remaining
        | none => .error .token
      | _ => .error .token
    else do
      let reversed ← addressText reversed bytes
      if isAddressChar glyph.char then scanAddressFrom (glyph.char :: reversed) [] rest
      else if reversed.isEmpty then throw .token
      else return (reversed.reverse, glyph :: rest)

def scanAddress (glyphs : List Glyph) : Except Fault (List Char × List Glyph) :=
  scanAddressFrom [] [] glyphs

def hasHandle (glyphs : List Glyph) : Bool :=
  (glyphs.takeWhile fun glyph => !isSpaceGap glyph.char).any (·.char == '!')

def scanTag (glyphs : List Glyph) : Scanned := do
  let rest := glyphs.drop 1
  let next := Glyph.peek rest
  let (handle, suffix, remaining) ←
    if next == '<' then do
      let (suffix, remaining) ← scanAddress (rest.drop 1)
      if Glyph.peek remaining == '>' then pure (none, suffix, remaining.drop 1) else throw .token
    else if isGap next then pure (none, ['!'], rest)
    else if hasHandle rest then do
      let (handle, afterHandle) ← scanHandle glyphs
      let (suffix, remaining) ← scanAddress afterHandle
      pure (some handle, suffix, remaining)
    else do
      let (suffix, remaining) ← scanAddress rest
      pure (some ['!'], suffix, remaining)
  if isSpaceGap (Glyph.peek remaining) then
    return (.tag (handle.map Text.ofChars) (Text.ofChars suffix), remaining)
  else throw .token

def skipSpaces (glyphs : List Glyph) : List Glyph := glyphs.dropWhile (·.char == ' ')

def scanNumber (glyphs : List Glyph) : Except Fault (Nat × List Glyph) :=
  let digits := (glyphs.takeWhile (·.char.isDigit)).map Glyph.char
  if digits.isEmpty then .error .token
  else if Digits.most < digits.length then .error .number
  else .ok (Digits.decimal digits, glyphs.drop digits.length)

def scanVersion (glyphs : List Glyph) : Scanned := do
  let (major, rest) ← scanNumber (skipSpaces glyphs)
  if Glyph.peek rest != '.' then throw .token
  let (_, rest) ← scanNumber (rest.drop 1)
  if isSpaceGap (Glyph.peek rest) then return (.version major, rest) else throw .token

def scanTagHandle (glyphs : List Glyph) : Scanned := do
  let (handle, rest) ← scanHandle (skipSpaces glyphs)
  if Glyph.peek rest != ' ' then throw .token
  let (expansion, rest) ← scanAddress (skipSpaces rest)
  if isSpaceGap (Glyph.peek rest) then
    return (.tagHandle (Text.ofChars handle) (Text.ofChars expansion), rest)
  else throw .token

def scanDirective (glyphs : List Glyph) : Scanned := do
  let (name, rest) ← scanName glyphs
  if !isSpaceGap (Glyph.peek rest) then throw .token
  let (token, rest) ←
    if name == ['Y', 'A', 'M', 'L'] then scanVersion rest
    else if name == ['T', 'A', 'G'] then scanTagHandle rest
    else pure (.otherDirective, rest.dropWhile fun glyph => !isLineEnd glyph.char)
  return (token, ← Block.ignoredLine rest)

end ApiSurface.Yaml
