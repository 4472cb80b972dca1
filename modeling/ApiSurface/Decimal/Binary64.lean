/-!
Binary floating-point numbers of 64 bits, kept as exact dyadic fractions. A number that has no
such fraction is rounded to the nearest one, and a tie goes to the even significand.
-/

namespace ApiSurface

/-- A finite number is `significand * 2 ^ exponent` under its sign, with `significand < 2 ^ 53`.
What is not a number carries a payload, by which it can be told from others of its kind. -/
inductive Binary64
  | nan (payload : Nat)
  | infinite (negative : Bool)
  | finite (negative : Bool) (significand : Nat) (exponent : Int)
  deriving DecidableEq, Inhabited

namespace Binary64

def least : Int := -1074

def greatest : Int := 971

def zero (negative : Bool) : Binary64 := .finite negative 0 least

/-- The quotient rounded to the nearest natural number, ties to even. -/
def roundDiv (numerator denominator : Nat) : Nat :=
  let quotient := numerator / denominator
  let twice := 2 * (numerator % denominator)
  if twice < denominator then quotient
  else if denominator < twice then quotient + 1
  else quotient + quotient % 2

def scaled (numerator denominator : Nat) (exponent : Int) : Nat × Nat :=
  match exponent with
  | .ofNat up => (numerator, denominator <<< up)
  | .negSucc down => (numerator <<< (down + 1), denominator)

/-- The exponent that leaves a quotient of 53 bits, but never one below the least. -/
def exponentOf (numerator denominator : Nat) : Int :=
  let guess : Int := numerator.log2 - denominator.log2 - 52
  let fraction := scaled numerator denominator guess
  let exact := if fraction.1 / fraction.2 < 1 <<< 52 then guess - 1 else guess
  max exact least

/-- The number nearest to a fraction; `denominator` is not zero. -/
def ofRatio (negative : Bool) (numerator denominator : Nat) : Binary64 :=
  if numerator = 0 then zero negative else
  let exponent := exponentOf numerator denominator
  let fraction := scaled numerator denominator exponent
  let significand := roundDiv fraction.1 fraction.2
  let carried := significand = 1 <<< 53
  let significand := if carried then 1 <<< 52 else significand
  let exponent := if carried then exponent + 1 else exponent
  if greatest < exponent then .infinite negative else .finite negative significand exponent

/-- The number nearest to `digits * 10 ^ exponent`; exponents far outside the range are cut off. -/
def ofDecimal (negative : Bool) (digits : Nat) (exponent : Int) : Binary64 :=
  let magnitude := exponent + (Nat.toDigits 10 digits).length
  if digits = 0 ∨ magnitude < -400 then zero negative
  else if 400 < magnitude then .infinite negative
  else match exponent with
    | .ofNat up => ofRatio negative (digits * Nat.pow 10 up) 1
    | .negSucc down => ofRatio negative digits (Nat.pow 10 (down + 1))

def ofNat (number : Nat) : Binary64 := ofRatio false number 1

def negate : Binary64 → Binary64
  | .nan payload => .nan payload
  | .infinite negative => .infinite !negative
  | .finite negative significand exponent => .finite (!negative) significand exponent

def ofDyadic (negative : Bool) (significand : Nat) : Int → Binary64
  | .ofNat up => ofRatio negative (significand <<< up) 1
  | .negSucc down => ofRatio negative significand (1 <<< (down + 1))

def multiply : Binary64 → Binary64 → Binary64
  | .finite n₁ s₁ e₁, .finite n₂ s₂ e₂ => ofDyadic (n₁ != n₂) (s₁ * s₂) (e₁ + e₂)
  | .infinite n₁, .finite n₂ s _ => if s = 0 then .nan 0 else .infinite (n₁ != n₂)
  | .finite n₁ s _, .infinite n₂ => if s = 0 then .nan 0 else .infinite (n₁ != n₂)
  | .infinite n₁, .infinite n₂ => .infinite (n₁ != n₂)
  | _, _ => .nan 0

def aligned (negative : Bool) (significand : Nat) (exponent lower : Int) : Int :=
  let shifted : Int := significand <<< (exponent - lower).toNat
  if negative then -shifted else shifted

def add : Binary64 → Binary64 → Binary64
  | .finite n₁ s₁ e₁, .finite n₂ s₂ e₂ =>
    let lower := min e₁ e₂
    let sum := aligned n₁ s₁ e₁ lower + aligned n₂ s₂ e₂ lower
    if sum = 0 then zero (n₁ && n₂) else ofDyadic (sum < 0) sum.natAbs lower
  | .infinite n₁, .infinite n₂ => if n₁ = n₂ then .infinite n₁ else .nan 0
  | .infinite n, .finite .. => .infinite n
  | .finite .., .infinite n => .infinite n
  | _, _ => .nan 0

def isZero : Binary64 → Bool
  | .finite _ significand _ => significand == 0
  | _ => false

def toInt? : Binary64 → Option Int
  | .finite negative significand exponent =>
    let signed (magnitude : Nat) : Int := if negative then -magnitude else magnitude
    match exponent with
    | .ofNat up => some (signed (significand <<< up))
    | .negSucc down =>
      let unit := 1 <<< (down + 1)
      if significand % unit = 0 then some (signed (significand / unit)) else none
  | _ => none

end Binary64

end ApiSurface
