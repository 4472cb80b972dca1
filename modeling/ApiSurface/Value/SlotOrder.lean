import ApiSurface.Value

/-!
The order in which sets of numbers are shown. Every number has a key of 64 bits; the key leads to a
first slot of a table, and if that is taken to further ones. Numbers are shown in the order of their
slots. A set that holds anything else keeps the order in which it was filled.
-/

namespace ApiSurface

namespace Value

def keyLimit : Nat := (1 <<< 61) - 1

def signedKey (negative : Bool) (key : Nat) : Int :=
  if !negative then key else if key = 1 then -2 else -key

/-- Equal numbers have one key, also if one of them is a float. -/
def slotKey? : Value → Option Int
  | .bool flag => some flag.toInt
  | .int number => some (signedKey (number < 0) (number.natAbs % keyLimit))
  | .float (.finite negative significand exponent) =>
    some (signedKey negative ((significand <<< (exponent % 61).toNat) % keyLimit))
  | .float (.infinite negative) => some (signedKey negative 314159)
  | _ => none

end Value

namespace SlotTable

/-- How many slots after one are tried before another place is sought. -/
def reach : Nat := 9

def tried (size slot : Nat) : List Nat :=
  if slot + reach < size then (List.range (reach + 1)).map (slot + ·) else [slot]

def free? (table : Array (Option Value)) (slot rest : Nat) : Nat → Option Nat
  | 0 => none
  | bound + 1 =>
    match (tried table.size slot).find? fun place => table[place]?.join.isNone with
    | some place => some place
    | none =>
      let rest := rest / 32
      free? table ((slot * 5 + 1 + rest) % table.size) rest bound

/-- Puts a number into its slot. All of the key is used up after thirteen steps, and from then on
every slot is come by. -/
def insert (table : Array (Option Value)) (key : Int) (value : Value) : Array (Option Value) :=
  let key := (key % 0x10000000000000000).toNat
  match free? table (key % table.size) key (table.size + 13) with
  | some place => table.setIfInBounds place (some value)
  | none => table

/-- The size of a table for some numbers: a power of two, above twice their count if they are more
than four. -/
def sizeFor (count : Nat) : Nat := if count < 5 then 8 else 1 <<< ((2 * count).log2 + 1)

end SlotTable

def Value.slotOrder (items : List Value) : List Value :=
  match items.mapM slotKey? with
  | none => items
  | some keys =>
    let empty : Array (Option Value) := Array.replicate (SlotTable.sizeFor items.length) none
    let table := (keys.zip items).foldl (fun table member => SlotTable.insert table member.1 member.2)
      empty
    table.toList.filterMap id

end ApiSurface
