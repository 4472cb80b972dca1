import ApiSurface.Decimal.Digits
import ApiSurface.Text.Blank
import ApiSurface.Text.DecimalDigit
import ApiSurface.Value
import ApiSurface.Yaml.Fault

/-!
Numbers in scalars: integers in four bases and base sixty, and floats, which need a point. Digits
may be grouped with underscores. Under a tag of its own a number may be written in the digits of
any script.
-/

namespace ApiSurface.Yaml

def isGroupedDigit (char : Char) : Bool := char.isDigit || char == '_'

def isSign (char : Char) : Bool := char == '+' || char == '-'

def dropSign : List Char → List Char
  | char :: rest => if isSign char then rest else char :: rest
  | [] => []

def splitChars (separator : Char) : List Char → List (List Char)
  | [] => [[]]
  | char :: rest =>
    if char == separator then [] :: splitChars separator rest
    else match splitChars separator rest with
      | [] => [[char]]
      | part :: parts => (char :: part) :: parts

/-- One digit, or two of which the first is at most five. -/
def isSixtieth : List Char → Bool
  | [digit] => digit.isDigit
  | [tens, digit] => tens.isDigit && tens ≤ '5' && digit.isDigit
  | _ => false

def isInteger (chars : List Char) : Bool :=
  match dropSign chars with
  | '0' :: 'b' :: digits =>
    !digits.isEmpty && digits.all fun char => char == '0' || char == '1' || char == '_'
  | '0' :: 'x' :: digits =>
    !digits.isEmpty && digits.all fun char => (Digits.hexadecimalDigit? char).isSome || char == '_'
  | '0' :: digits => digits.all fun char => (char.isDigit && char ≤ '7') || char == '_'
  | char :: rest =>
    char.isDigit && match splitChars ':' rest with
      | [] => false
      | digits :: parts => digits.all isGroupedDigit && parts.all isSixtieth
  | [] => false

def isExponent : List Char → Bool
  | [] => true
  | mark :: sign :: digits =>
    (mark == 'e' || mark == 'E') && isSign sign && !digits.isEmpty && digits.all Char.isDigit
  | _ => false

def isInfinity (chars : List Char) : Bool :=
  [['.', 'i', 'n', 'f'], ['.', 'I', 'n', 'f'], ['.', 'I', 'N', 'F']].contains chars

def isNotANumber (chars : List Char) : Bool :=
  [['.', 'n', 'a', 'n'], ['.', 'N', 'a', 'N'], ['.', 'N', 'A', 'N']].contains chars

/-- Whole digits, a point and places, with an exponent if there is no colon before the point. -/
def isPointed (chars : List Char) : Bool :=
  match splitChars ':' (chars.takeWhile (· != '.')), chars.dropWhile (· != '.') with
  | first :: parts, '.' :: rest =>
    (first.head?.map Char.isDigit).getD false && first.all isGroupedDigit && parts.all isSixtieth
      && (if parts.isEmpty then isExponent (rest.dropWhile isGroupedDigit)
        else rest.all isGroupedDigit)
  | _, _ => false

def isFloat (chars : List Char) : Bool :=
  let unsigned := dropSign chars
  let bare := match chars with
    | '.' :: digit :: rest => digit.isDigit && isExponent (rest.dropWhile isGroupedDigit)
    | _ => false
  isPointed unsigned || bare || isInfinity unsigned || isNotANumber chars

def digitIn? (base : Nat) (char : Char) : Option Nat := do
  let digit ← Digits.hexadecimalDigit? char
  guard (digit < base)
  return digit

def isSpaceChar (char : Char) : Bool :=
  char == ' ' || char == '\t' || char == '\n' || char == '\r' || char == '\x0b' || char == '\x0c'

def trim (chars : List Char) : List Char :=
  ((chars.dropWhile isSpaceChar).reverse.dropWhile isSpaceChar).reverse

def spelledChar? (char : Char) : Option Char :=
  if char.toNat < 0x80 then some char
  else if Text.isBlank char then some ' '
  else Text.asciiDigit? char

def spelled (chars : List Char) : Except Fault (List Char) :=
  match chars.mapM spelledChar? with
  | some chars => .ok (trim chars)
  | none => .error .number

def dropBaseMark (base : Nat) : List Char → List Char
  | '0' :: mark :: rest =>
    let mark := mark.toLower
    if (base == 2 && mark == 'b') || (base == 8 && mark == 'o') || (base == 16 && mark == 'x') then
      rest
    else '0' :: mark :: rest
  | chars => chars

def integerIn (base : Nat) (chars : List Char) : Except Fault Int := do
  let trimmed ← spelled chars
  let digits := dropBaseMark base (dropSign trimmed)
  if digits.isEmpty || (base == 10 && Digits.most < digits.length) then throw .number
  match digits.foldlM (fun number char => (digitIn? base char).map (base * number + ·)) 0 with
  | none => throw .number
  | some size => return if trimmed.head? == some '-' then -(size : Int) else size

/-- Adds digits of base sixty, the first of them being the highest. -/
def sixtieths (digits : List Int) : Int := digits.foldl (fun number digit => number * 60 + digit) 0

def integerOf (chars : List Char) : Except Fault Int := do
  match chars.filter (· != '_') with
  | [] => throw .emptyNumber
  | first :: rest =>
    let negative := first == '-'
    let body := if isSign first then rest else first :: rest
    let size ← match body with
      | ['0'] => pure 0
      | '0' :: 'b' :: digits => integerIn 2 digits
      | '0' :: 'x' :: digits => integerIn 16 digits
      | '0' :: _ => integerIn 8 body
      | [] => throw .emptyNumber
      | _ =>
        if body.contains ':' then sixtieths <$> (splitChars ':' body).mapM (integerIn 10)
        else integerIn 10 body
    return if negative then -size else size

def specialFloat? (chars : List Char) : Option Binary64 :=
  match String.ofList chars with
  | "inf" => some (.infinite false)
  | "infinity" => some (.infinite false)
  | "nan" => some (.nan 0)
  | _ => none

def decimal? (chars : List Char) : Option Binary64 := do
  let whole := chars.takeWhile Char.isDigit
  let rest := chars.dropWhile Char.isDigit
  let (places, rest) := match rest with
    | '.' :: after => (after.takeWhile Char.isDigit, after.dropWhile Char.isDigit)
    | _ => ([], rest)
  guard (!(whole ++ places).isEmpty)
  let exponent ← match rest with
    | [] => some (0 : Int)
    | mark :: after => do
      guard (mark == 'e')
      let digits := dropSign after
      guard (!digits.isEmpty && digits.all Char.isDigit)
      let size : Int := Digits.decimal digits
      some (if after.head? == some '-' then -size else size)
  return Binary64.ofDecimal false (Digits.decimal (whole ++ places)) (exponent - places.length)

def floatIn (chars : List Char) : Except Fault Binary64 := do
  let trimmed ← spelled chars
  let body := dropSign trimmed
  match (specialFloat? body).or (decimal? body) with
  | none => throw .number
  | some number => return if trimmed.head? == some '-' then number.negate else number

/-- Adds floats of base sixty, lowest first, rounding at every step. A power of sixty that is no
float any more is refused. -/
def floatSixtieths (power : Nat) (sum : Binary64) : List Binary64 → Except Fault Binary64
  | [] => .ok sum
  | digit :: rest =>
    match Binary64.ofNat power with
    | .infinite _ => .error .hugeNumber
    | unit => floatSixtieths (power * 60) (sum.add (digit.multiply unit)) rest

def withPayload (payload : Nat) : Binary64 → Binary64
  | .nan _ => .nan payload
  | number => number

/-- The float of a scalar without its underscores, in any case of letters. The word for what is not
a number always means the same, and `payload` tells any other such float from it. -/
def floatOf (payload : Nat) (chars : List Char) : Except Fault Binary64 := do
  match (chars.filter (· != '_')).map Char.toLower with
  | [] => throw .emptyNumber
  | first :: rest =>
    let negative := first == '-'
    let signed (size : Binary64) : Binary64 :=
      withPayload payload (if negative then size.negate else size)
    let body := if isSign first then rest else first :: rest
    if body == ['.', 'n', 'a', 'n'] then return .nan 0
    else if body == ['.', 'i', 'n', 'f'] then return .infinite negative
    else if body.contains ':' then
      let digits ← (splitChars ':' body).mapM floatIn
      return signed (← floatSixtieths 1 (.zero false) digits.reverse)
    else return signed (← floatIn body)

end ApiSurface.Yaml
