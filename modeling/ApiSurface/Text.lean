/-!
Text as a sequence of Unicode code points. Surrogate code points are allowed, because an escape in
a document can name one of them alone; everything else is the text of a `String`.
-/

namespace ApiSurface

abbrev CodePoint := Fin 0x110000

abbrev Text := List CodePoint

instance : LawfulBEq Text := inferInstance

def CodePoint.ofChar (c : Char) : CodePoint :=
  ⟨c.toNat, by
    have bound : c.toNat.isValidChar := c.valid
    simp only [Nat.isValidChar] at bound
    omega⟩

def CodePoint.toChar? (point : CodePoint) : Option Char :=
  if valid : point.val.isValidChar then some (Char.ofNatAux point.val valid) else none

def CodePoint.ofNat? (number : Nat) : Option CodePoint :=
  if bound : number < 0x110000 then some ⟨number, bound⟩ else none

namespace Text

def ofChars (chars : List Char) : Text := chars.map CodePoint.ofChar

def ofString (text : String) : Text := ofChars text.toList

instance : Coe Char CodePoint := ⟨CodePoint.ofChar⟩

instance : Coe String Text := ⟨ofString⟩

def toChars? (text : Text) : Option (List Char) := text.mapM CodePoint.toChar?

def ofNat (number : Nat) : Text := ofChars (Nat.toDigits 10 number)

def ofInt : Int → Text
  | .ofNat number => ofNat number
  | .negSucc number => CodePoint.ofChar '-' :: ofNat (number + 1)

def join (separator : Text) (parts : List Text) : Text := separator.intercalate parts

def afterLastDot (text : Text) : Text :=
  (text.reverse.takeWhile (· != CodePoint.ofChar '.')).reverse

def asciiLower (text : Text) : Text :=
  text.map fun point =>
    if upper : 0x41 ≤ point.val ∧ point.val ≤ 0x5A then ⟨point.val + 0x20, by omega⟩ else point

def splitOn (separator : CodePoint) : Text → List Text
  | [] => [[]]
  | point :: rest =>
    if point = separator then [] :: splitOn separator rest
    else match splitOn separator rest with
      | [] => [[point]]
      | part :: parts => (point :: part) :: parts

end Text

end ApiSurface
