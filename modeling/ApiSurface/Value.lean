import ApiSurface.Calendar
import ApiSurface.Decimal.Binary64
import ApiSurface.Text

/-!
The data that documents and settings are made of. A map keeps its entries in order of insertion,
and its keys may be any scalars.
-/

namespace ApiSurface

inductive Value
  | null
  | bool (flag : Bool)
  | int (number : Int)
  | float (number : Binary64)
  | text (content : Text)
  | date (day : Date)
  | moment (time : Moment)
  | bytes (content : List UInt8)
  | list (items : List Value)
  | pair (first second : Value)
  | set (items : List Value)
  | map (entries : List (Value × Value))
  /-- A collection that holds itself, in itself again under the same label. -/
  | loop (label : Nat) (content : Value)
  deriving Inhabited

abbrev Entries := List (Value × Value)

namespace Value

instance : Coe String Value := ⟨fun content => .text content⟩

instance : Coe Text Value := ⟨.text⟩

instance : Coe Nat Value := ⟨fun number => .int number⟩

def bare : Value → Value
  | .loop _ content => content
  | value => value

/-- Flags count as the numbers 0 and 1, and a whole float as its integer. -/
def toInt? : Value → Option Int
  | .bool flag => some flag.toInt
  | .int number => some number
  | .float number => number.toInt?
  | _ => none

def sameScalar : Value → Value → Bool
  | .null, .null => true
  | .float left, .float right => left == right
  | .text left, .text right => left == right
  | .date left, .date right => left == right
  | .moment left, .moment right => left.isSameInstant right
  | .bytes left, .bytes right => left == right
  | _, _ => false

/-- Whether two scalars are one key of a map: numbers by their value, all else by equality. -/
def sameKey (left right : Value) : Bool :=
  match left.toInt?, right.toInt? with
  | some leftNumber, some rightNumber => leftNumber == rightNumber
  | none, none => sameScalar left right
  | _, _ => false

def isKey : Value → Bool
  | .list _ | .set _ | .map _ | .loop .. => false
  | .pair first second => isKey first && isKey second
  | _ => true

/-- Puts something under a key. The first one under a key gives its place, the last one stays. -/
def assign {α : Type} (key : Value) (held : α) : List (Value × α) → List (Value × α)
  | [] => [(key, held)]
  | entry :: rest =>
    if entry.1.sameKey key then (entry.1, held) :: rest else entry :: assign key held rest

def isBlank : Value → Bool
  | .null => true
  | .bool flag => !flag
  | .int number => number == 0
  | .float number => number.isZero
  | .text content => content.isEmpty
  | .bytes content => content.isEmpty
  | .list items => items.isEmpty
  | .set items => items.isEmpty
  | .map entries => entries.isEmpty
  | _ => false

def fields? (value : Value) : Option Entries :=
  match value.bare with
  | .map entries => some entries
  | _ => none

/-- The entries of a whole document; a document that says nothing has none. -/
def rootEntries? (value : Value) : Option Entries :=
  match value.bare with
  | .map entries => some entries
  | content => if content.isBlank then some [] else none

end Value

namespace Entries

def get? (entries : Entries) (key : Value) : Option Value :=
  (entries.find? fun entry => entry.1.sameKey key).map (·.2)

def put (key value : Value) (entries : Entries) : Entries := key.assign value entries

def ofPairs (pairs : List (Value × Value)) : Entries :=
  pairs.foldl (fun entries pair => put pair.1 pair.2 entries) []

end Entries

end ApiSurface
