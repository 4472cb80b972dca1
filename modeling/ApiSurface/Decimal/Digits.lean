/-!
Whole numbers from their digits.
-/

namespace ApiSurface.Digits

/-- The greatest count of decimal digits in which an integer is read or written. -/
def most : Nat := 4300

def decimal (digits : List Char) : Nat :=
  digits.foldl (fun number digit => 10 * number + (digit.toNat - '0'.toNat)) 0

def hexadecimalDigit? (char : Char) : Option Nat :=
  if '0' ≤ char ∧ char ≤ '9' then some (char.toNat - '0'.toNat)
  else if 'a' ≤ char ∧ char ≤ 'f' then some (char.toNat - 'a'.toNat + 10)
  else if 'A' ≤ char ∧ char ≤ 'F' then some (char.toNat - 'A'.toNat + 10)
  else none

def hexadecimal? (chars : List Char) : Option Nat :=
  chars.foldlM (fun number char => (hexadecimalDigit? char).map (16 * number + ·)) 0

end ApiSurface.Digits
