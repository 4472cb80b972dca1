import ApiSurface.Decimal.Binary64
import ApiSurface.Text

/-!
The shortest decimal that reads back as a given binary number. Of the decimals with the fewest
digits the nearest to the number is taken.
-/

namespace ApiSurface.Binary64

/-- A positive fraction with the two bounds of the interval that rounds to it, over a common
denominator; the bounds belong to the interval when `closed` holds. -/
structure Rounding where
  lower : Nat
  value : Nat
  upper : Nat
  denominator : Nat
  closed : Bool

/-- The interval of reals that round to `significand * 2 ^ exponent`. Below a power of two the
numbers lie twice as dense. -/
def rounding (significand : Nat) (exponent : Int) : Rounding :=
  let gap := if significand = 1 <<< 52 ∧ least < exponent then 1 else 2
  let unit := scaled 1 1 (2 - exponent)
  { lower := (4 * significand - gap) * unit.1
    value := 4 * significand * unit.1
    upper := (4 * significand + 2) * unit.1
    denominator := unit.2
    closed := significand % 2 = 0 }

def decimalExponent (numerator denominator : Nat) : Int :=
  if denominator ≤ numerator then (Nat.toDigits 10 (numerator / denominator)).length - 1
  else -(Nat.toDigits 10 ((denominator - 1) / numerator)).length

def Rounding.holds (r : Rounding) (digits : Nat) (exponent : Int) : Bool :=
  let point := digits * Nat.pow 10 exponent.toNat * r.denominator
  let raise := Nat.pow 10 (-exponent).toNat
  if r.closed then r.lower * raise ≤ point && point ≤ r.upper * raise
  else r.lower * raise < point && point < r.upper * raise

def Rounding.nearest? (r : Rounding) (exponent : Int) : Option Nat :=
  let unit := Nat.pow 10 exponent.toNat * r.denominator
  let value := r.value * Nat.pow 10 (-exponent).toNat
  let below := value / unit
  let above := below + 1
  match r.holds below exponent, r.holds above exponent with
  | true, true =>
    let twice := 2 * (value % unit)
    some (if twice < unit ∨ (twice = unit ∧ below % 2 = 0) then below else above)
  | true, false => some below
  | false, true => some above
  | false, false => none

/-- The shortest decimal of a positive number: its digits and the exponent of the last of them. -/
def shortest (significand : Nat) (exponent : Int) : Nat × Int :=
  let r := rounding significand exponent
  let first := decimalExponent r.value r.denominator
  let candidate (count : Nat) : Option (Nat × Int) :=
    let last := first - count
    (r.nearest? last).map fun digits => (digits, last)
  ((List.range 17).findSome? candidate).getD (significand, exponent)

def leading (digits : Nat) (last : Int) : List Char × Int :=
  let all := Nat.toDigits 10 digits
  let kept := (all.reverse.dropWhile (· == '0')).reverse
  (kept, last + all.length - 1)

def positional (digits : List Char) (exponent : Int) : List Char :=
  if exponent < 0 then
    '0' :: '.' :: List.replicate (-exponent - 1).toNat '0' ++ digits
  else
    let whole := exponent.toNat + 1
    let left := digits.take whole ++ List.replicate (whole - digits.length) '0'
    let right := digits.drop whole
    left ++ '.' :: (if right.isEmpty then ['0'] else right)

def exponential (digits : List Char) (exponent : Int) : List Char :=
  let size := Nat.toDigits 10 exponent.natAbs
  let mantissa := match digits with
    | first :: second :: rest => first :: '.' :: second :: rest
    | _ => digits
  mantissa ++ 'e' :: (if exponent < 0 then '-' else '+')
    :: (List.replicate (2 - size.length) '0' ++ size)

/-- A number is written positionally when its first digit has an exponent from -4 to 15. -/
def render : Binary64 → List Char
  | .nan _ => ['n', 'a', 'n']
  | .infinite negative => (if negative then ['-'] else []) ++ ['i', 'n', 'f']
  | .finite negative significand exponent =>
    let sign := if negative then ['-'] else []
    if significand = 0 then sign ++ ['0', '.', '0'] else
    let decimal := shortest significand exponent
    let (digits, first) := leading decimal.1 decimal.2
    sign ++ if -4 ≤ first ∧ first < 16 then positional digits first else exponential digits first

end ApiSurface.Binary64
