import ApiSurface.Text

/-!
Text files: characters from UTF-8 bytes, and the three ways to end a line as one.
-/

namespace ApiSurface.Text

def charOf? (number : Nat) : Option Char :=
  if valid : number.isValidChar then some (Char.ofNatAux number valid) else none

/-- The number that the first byte starts with and how many bytes follow, with the least number
that needs so many. -/
def leadByte? (byte : Nat) : Option (Nat × Nat × Nat) :=
  if byte < 0x80 then some (byte, 0, 0)
  else if 0xC0 ≤ byte ∧ byte < 0xE0 then some (byte - 0xC0, 1, 0x80)
  else if 0xE0 ≤ byte ∧ byte < 0xF0 then some (byte - 0xE0, 2, 0x800)
  else if 0xF0 ≤ byte ∧ byte < 0xF8 then some (byte - 0xF0, 3, 0x10000)
  else none

/-- Reads bytes inside a character that still needs `more` bytes and must reach `least`. -/
def utf8Tail (number more least : Nat) : List UInt8 → Option (List Char)
  | [] => if more = 0 then some [] else none
  | byte :: rest =>
    match more with
    | 0 => do
      let (number, more, least) ← leadByte? byte.toNat
      if more = 0 then return (← charOf? number) :: (← utf8Tail 0 0 0 rest)
      else utf8Tail number more least rest
    | left + 1 =>
      if 0x80 ≤ byte.toNat ∧ byte.toNat < 0xC0 then
        let number := number * 64 + (byte.toNat - 0x80)
        if left = 0 then do
          guard (least ≤ number)
          return (← charOf? number) :: (← utf8Tail 0 0 0 rest)
        else utf8Tail number left least rest
      else none

def utf8? (bytes : List UInt8) : Option (List Char) := utf8Tail 0 0 0 bytes

def followers (byte : Nat) : Nat :=
  match leadByte? byte with
  | some (_, more, _) => more
  | none => 0

def utf8Prefix (bytes : List UInt8) : Nat × List Char := takeChars 0 bytes.length bytes
where
  takeChars (taken : Nat) : Nat → List UInt8 → Nat × List Char
    | 0, _ => (taken, [])
    | _ + 1, [] => (taken, [])
    | bound + 1, byte :: rest =>
      let more := followers byte.toNat
      match utf8? (byte :: rest.take more) with
      | some [char] =>
        let (length, chars) := takeChars (taken + more + 1) bound (rest.drop more)
        (length, char :: chars)
      | _ => (taken, [])

def beginsChar (bytes : List UInt8) : Bool :=
  let missing := match bytes with
    | [] => 0
    | byte :: rest => followers byte.toNat - rest.length
  [0x80, 0xBF].any fun byte => (utf8? (bytes ++ List.replicate missing byte)).isSome

/-- The place of the byte at which the bytes from a place on are known not to begin a character. The
end may come before that byte. -/
def refutation? (bytes : List UInt8) (place : Nat) : Option Nat :=
  let rest := bytes.drop place
  ((List.range (min 4 rest.length)).find? fun count => !beginsChar (rest.take (count + 1))).map
    (place + ·)

def byteCount (text : Text) : Nat :=
  text.foldl (fun count point => count +
    if point.val < 0x80 then 1 else if point.val < 0x800 then 2 else if point.val < 0x10000 then 3
    else 4) 0

def unifyLineEnds : List Char → List Char
  | [] => []
  | '\r' :: '\n' :: rest => '\n' :: unifyLineEnds rest
  | '\r' :: rest => '\n' :: unifyLineEnds rest
  | char :: rest => char :: unifyLineEnds rest

end ApiSurface.Text
