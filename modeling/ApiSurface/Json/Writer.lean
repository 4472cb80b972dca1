import ApiSurface.Value.Display

/-!
JSON text of values, in ASCII. What has no form of its own in JSON is written as a text.
-/

namespace ApiSurface.Json

def escapedUnit (unit : Nat) : List Char :=
  ['\\', 'u'] ++ List.replicate (4 - (Nat.toDigits 16 unit).length) '0' ++ Nat.toDigits 16 unit

/-- A code point beyond the first plane is written as two surrogates. -/
def escapedPoint (point : CodePoint) : List Char :=
  if point.val < 0x10000 then escapedUnit point.val
  else
    escapedUnit (0xD800 + (point.val - 0x10000) / 0x400)
      ++ escapedUnit (0xDC00 + (point.val - 0x10000) % 0x400)

def writtenPoint (point : CodePoint) : List Char :=
  match point.toChar? with
  | some '"' => ['\\', '"']
  | some '\\' => ['\\', '\\']
  | some '\n' => ['\\', 'n']
  | some '\r' => ['\\', 'r']
  | some '\t' => ['\\', 't']
  | some '\x08' => ['\\', 'b']
  | some '\x0c' => ['\\', 'f']
  | some char => if 0x20 ≤ char.toNat ∧ char.toNat < 0x7F then [char] else escapedPoint point
  | none => escapedPoint point

def writtenText (text : Text) : List Char := ['"'] ++ text.flatMap writtenPoint ++ ['"']

def writtenNumber : Binary64 → List Char
  | .nan _ => ['N', 'a', 'N']
  | .infinite negative =>
    (if negative then ['-'] else []) ++ ['I', 'n', 'f', 'i', 'n', 'i', 't', 'y']
  | number => number.render

def writtenInt (number : Int) : List Char :=
  (if number < 0 then ['-'] else []) ++ Nat.toDigits 10 number.natAbs

/-- Keys are texts; other scalars stand for the texts that they are written as. -/
def keyText : Value → List Char
  | .text content => writtenText content
  | .null => ['"', 'n', 'u', 'l', 'l', '"']
  | .bool flag => writtenText (if flag then "true" else "false" : String)
  | .float number => ['"'] ++ writtenNumber number ++ ['"']
  | key => writtenText key.shown

def joined (items : List (List Char)) : List Char := [',', ' '].intercalate items

mutual

def written : Value → List Char
  | .null => ['n', 'u', 'l', 'l']
  | .bool flag => if flag then ['t', 'r', 'u', 'e'] else ['f', 'a', 'l', 's', 'e']
  | .int number => writtenInt number
  | .float number => writtenNumber number
  | .text content => writtenText content
  | .list items => ['['] ++ joined (writtenItems items) ++ [']']
  | .pair first second => ['['] ++ joined [written first, written second] ++ [']']
  | .map entries => ['{'] ++ joined (writtenEntries entries) ++ ['}']
  | .loop _ content => written content
  | value => writtenText value.written

def writtenItems : List Value → List (List Char)
  | [] => []
  | item :: rest => written item :: writtenItems rest

def writtenEntries : List (Value × Value) → List (List Char)
  | [] => []
  | (key, value) :: rest => (keyText key ++ [':', ' '] ++ written value) :: writtenEntries rest

end

end ApiSurface.Json
