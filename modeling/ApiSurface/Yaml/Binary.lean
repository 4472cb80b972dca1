import ApiSurface.Yaml.Fault

/-!
Bytes written in base 64. Characters outside the alphabet are skipped, and padding ends the data.
-/

namespace ApiSurface.Yaml

def sextet? (char : Char) : Option Nat :=
  if 'A' ≤ char ∧ char ≤ 'Z' then some (char.toNat - 'A'.toNat)
  else if 'a' ≤ char ∧ char ≤ 'z' then some (char.toNat - 'a'.toNat + 26)
  else if '0' ≤ char ∧ char ≤ '9' then some (char.toNat - '0'.toNat + 52)
  else if char == '+' then some 62
  else if char == '/' then some 63
  else none

/-- Reads on inside a group of four characters: `held` are the bits not yet written. -/
def bytesFrom (group pads held : Nat) : List Char → Except Fault (List UInt8)
  | [] => if group = 0 then .ok [] else .error .binary
  | char :: rest =>
    if char == '=' then
      if 2 ≤ group then
        if 4 ≤ group + pads + 1 then .ok [] else bytesFrom group (pads + 1) held rest
      else bytesFrom group pads held rest
    else match sextet? char with
      | none => bytesFrom group pads held rest
      | some bits =>
        match group with
        | 0 => bytesFrom 1 0 bits rest
        | 1 => (bytesFrom 2 0 (bits % 16) rest).map ((held * 4 + bits / 16).toUInt8 :: ·)
        | 2 => (bytesFrom 3 0 (bits % 4) rest).map ((held * 16 + bits / 4).toUInt8 :: ·)
        | _ => (bytesFrom 0 0 0 rest).map ((held * 64 + bits).toUInt8 :: ·)

def binary (chars : List Char) : Except Fault (List UInt8) :=
  if chars.all fun char => char.toNat < 0x80 then bytesFrom 0 0 0 chars else .error .binary

end ApiSurface.Yaml
