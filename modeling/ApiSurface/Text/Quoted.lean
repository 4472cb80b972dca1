import ApiSurface.Text.Printable

/-!
The quoted form of a text. Single quotes are used unless the text holds a single quote and no
double one; a code point without a visible form is written by its number.
-/

namespace ApiSurface.Text

/-- Hexadecimal digits in lower case, filled with zeros to a width. -/
def hexadecimal (width number : Nat) : Text :=
  let digits := Nat.toDigits 16 number
  ofChars (List.replicate (width - digits.length) '0' ++ digits)

def quotedPoint (quote : Char) (point : CodePoint) : Text :=
  if point = CodePoint.ofChar quote then [CodePoint.ofChar '\\', point]
  else if point = CodePoint.ofChar '\\' then "\\\\"
  else if point = CodePoint.ofChar '\n' then "\\n"
  else if point = CodePoint.ofChar '\r' then "\\r"
  else if point = CodePoint.ofChar '\t' then "\\t"
  else if isPrintable point then [point]
  else if point.val < 0x100 then "\\x" ++ hexadecimal 2 point.val
  else if point.val < 0x10000 then "\\u" ++ hexadecimal 4 point.val
  else "\\U" ++ hexadecimal 8 point.val

def quoteOf (text : Text) : Char :=
  if CodePoint.ofChar '\'' ∈ text ∧ CodePoint.ofChar '"' ∉ text then '"' else '\''

def quoted (text : Text) : Text :=
  let quote := quoteOf text
  [CodePoint.ofChar quote] ++ text.flatMap (quotedPoint quote) ++ [CodePoint.ofChar quote]

end ApiSurface.Text
