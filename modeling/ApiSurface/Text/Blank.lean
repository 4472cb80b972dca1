/-!
White space: the characters that separate words, after Unicode.
-/

namespace ApiSurface.Text

def isBlank (char : Char) : Bool :=
  let number := char.toNat
  (9 ≤ number && number ≤ 13) || number == 0x20 || number == 0x85 || number == 0xA0
    || number == 0x1680 || (0x2000 ≤ number && number ≤ 0x200A) || number == 0x2028
    || number == 0x2029 || number == 0x202F || number == 0x205F || number == 0x3000

def trimmed (chars : List Char) : List Char :=
  ((chars.dropWhile isBlank).reverse.dropWhile isBlank).reverse

end ApiSurface.Text
