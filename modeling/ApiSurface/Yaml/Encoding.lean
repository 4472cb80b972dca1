import ApiSurface.Text.Utf8
import ApiSurface.Yaml.Glyph

/-!
From bytes to characters. A document given as bytes is UTF-16 when it begins with a byte order mark
of that form, otherwise UTF-8; a text file is UTF-8. Both are read piece by piece, so that what
cannot be read shows only when the document is read up to its piece.
-/

namespace ApiSurface.Yaml

open Text (charOf?)

/-- The end of the last piece that is taken before something at a place is needed. At first there
are two pieces. -/
def pieceEnd (piece place : Nat) : Nat :=
  let whole := place / piece
  if whole < 2 then 0 else whole * piece

def pieceLength : Nat := 4096

def totalSize (size : Char → Nat) (chars : List Char) : Nat :=
  chars.foldl (fun count char => count + size char) 0

def charsWithin (size : Char → Nat) (room : Nat) : List Char → List Char
  | [] => []
  | char :: rest =>
    if size char ≤ room then char :: charsWithin size (room - size char) rest else []

def Source.before (size : Char → Nat) (chars : List Char) (place : Nat) (fault : Fault) : Source :=
  ⟨charsWithin size (pieceEnd pieceLength place) chars, some fault⟩

inductive Trouble
  /-- Bytes that are known to be none at some place. -/
  | broken (place : Nat)
  /-- The end of the bytes, which shows only after all pieces unless one holds them all. -/
  | cut (length : Nat)

def Source.ofPieces (size : Char → Nat) (chars : List Char) (trouble : Option Trouble) : Source :=
  match chars.findIdx? fun char => !isAllowed char, trouble with
  | some index, _ =>
    Source.before size chars (totalSize size (chars.take (index + 1)) - 1) .character
  | none, none => { chars }
  | none, some (.broken place) => Source.before size chars place .encoding
  | none, some (.cut length) => ⟨if length ≤ pieceLength then [] else chars, some .encoding⟩

def units (lowFirst : Bool) : List UInt8 → List Nat
  | a :: b :: rest =>
    (if lowFirst then a.toNat + 256 * b.toNat else 256 * a.toNat + b.toNat) :: units lowFirst rest
  | _ => []

def utf16Size (char : Char) : Nat := if char.toNat < 0x10000 then 2 else 4

def isHighUnit (unit : Nat) : Bool := 0xD800 ≤ unit && unit < 0xDC00

def utf16Prefix : List Nat → List Char
  | high :: low :: rest =>
    if isHighUnit high ∧ 0xDC00 ≤ low ∧ low < 0xE000 then
      match charOf? (0x10000 + (high - 0xD800) * 0x400 + (low - 0xDC00)) with
      | some char => char :: utf16Prefix rest
      | none => []
    else match charOf? high with
      | some char => char :: utf16Prefix (low :: rest)
      | none => []
  | [unit] => (charOf? unit).toList
  | [] => []

def Source.ofUtf16 (lowFirst : Bool) (bytes : List UInt8) : Source :=
  let units := units lowFirst bytes
  let chars := utf16Prefix units
  let length := totalSize utf16Size chars
  let trouble := match units.drop (length / 2) with
    | [] => if length = bytes.length then none else some (.cut bytes.length)
    | [unit] => some (if isHighUnit unit then .cut bytes.length else .broken (length + 1))
    | unit :: _ => some (.broken (if isHighUnit unit then length + 3 else length + 1))
  Source.ofPieces utf16Size chars trouble

def Source.ofUtf8 (bytes : List UInt8) : Source :=
  let (length, chars) := Text.utf8Prefix bytes
  let trouble :=
    if length = bytes.length then none
    else match Text.refutation? bytes length with
      | some place => some (.broken place)
      | none => some (.cut bytes.length)
  Source.ofPieces (·.utf8Size) chars trouble

def Source.ofBytes (bytes : List UInt8) : Source :=
  match bytes with
  | 0xFF :: 0xFE :: _ => Source.ofUtf16 true bytes
  | 0xFE :: 0xFF :: _ => Source.ofUtf16 false bytes
  | _ => Source.ofUtf8 bytes

def decodedLength : Nat := 8192

/-- The document of a text file. Its line ends are unified before anything else. -/
def Source.ofFile (bytes : List UInt8) : Source :=
  let (length, chars) := Text.utf8Prefix bytes
  let chars := Text.unifyLineEnds chars
  let broken :=
    if length = bytes.length then none
    else
      let taken := match Text.refutation? bytes length with
        | some place => place / decodedLength * decodedLength
        | none => bytes.length
      let (_, decoded) := Text.utf8Prefix (bytes.take taken)
      some (pieceEnd pieceLength (Text.unifyLineEnds decoded).length, Fault.brokenText)
  let strange := (chars.findIdx? fun char => !isAllowed char).map fun index =>
    (pieceEnd pieceLength index, Fault.character)
  match broken, strange with
  | none, none => { chars }
  | some (place, fault), none => ⟨chars.take place, some fault⟩
  | none, some (place, fault) => ⟨chars.take place, some fault⟩
  | some (place, fault), some (other, otherFault) =>
    if place ≤ other then ⟨chars.take place, some fault⟩ else ⟨chars.take other, some otherFault⟩

end ApiSurface.Yaml
