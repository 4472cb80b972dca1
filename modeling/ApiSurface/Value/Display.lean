import ApiSurface.Decimal.Digits
import ApiSurface.Decimal.Shortest
import ApiSurface.Text.Quoted
import ApiSurface.Value

/-!
The written form of values in messages and log lines. Texts are quoted inside a collection and
plain when they stand alone.
-/

namespace ApiSurface

open Text (ofNat ofInt ofChars join)

def paddedNat (width number : Nat) : Text :=
  let digits := Nat.toDigits 10 number
  ofChars (List.replicate (width - digits.length) '0' ++ digits)

namespace Date

def shown (date : Date) : Text :=
  join "-" [paddedNat 4 date.year, paddedNat 2 date.month, paddedNat 2 date.day]

def fields (date : Date) : List Text := [ofNat date.year, ofNat date.month, ofNat date.day]

def written (date : Date) : Text := "datetime.date(" ++ join ", " date.fields ++ ")"

end Date

namespace Moment

def shownOffset (minutes : Int) : Text :=
  let sign : Text := if minutes < 0 then "-" else "+"
  sign ++ paddedNat 2 (minutes.natAbs / 60) ++ ":" ++ paddedNat 2 (minutes.natAbs % 60)

def shown (moment : Moment) : Text :=
  let time := [paddedNat 2 moment.hour, paddedNat 2 moment.minute, paddedNat 2 moment.second]
  let fraction : Text := if moment.microsecond = 0 then "" else "." ++ paddedNat 6 moment.microsecond
  let zone : Text := (moment.offset.map shownOffset).getD []
  moment.date.shown ++ " " ++ join ":" time ++ fraction ++ zone

def writtenOffset (minutes : Int) : Text :=
  if minutes = 0 then "datetime.timezone.utc"
  else
    let days : Text := if minutes < 0 then "days=-1, " else ""
    let seconds := (if minutes < 0 then minutes + 1440 else minutes) * 60
    "datetime.timezone(datetime.timedelta(" ++ days ++ "seconds=" ++ ofInt seconds ++ "))"

/-- Seconds are left out when they and the microseconds are zero. -/
def written (moment : Moment) : Text :=
  let time := [ofNat moment.hour, ofNat moment.minute]
  let fine :=
    if moment.microsecond ≠ 0 then [ofNat moment.second, ofNat moment.microsecond]
    else if moment.second ≠ 0 then [ofNat moment.second]
    else []
  let zone := match moment.offset with
    | none => []
    | some minutes => ["tzinfo=" ++ writtenOffset minutes]
  "datetime.datetime(" ++ join ", " (moment.date.fields ++ time ++ fine ++ zone) ++ ")"

end Moment

def writtenByte (quote : Char) (byte : UInt8) : Text :=
  let char := Char.ofNat byte.toNat
  if char = quote ∨ char = '\\' then ofChars ['\\', char]
  else if char = '\t' then "\\t"
  else if char = '\n' then "\\n"
  else if char = '\r' then "\\r"
  else if 0x20 ≤ byte.toNat ∧ byte.toNat < 0x7F then ofChars [char]
  else "\\x" ++ Text.hexadecimal 2 byte.toNat

def writtenBytes (bytes : List UInt8) : Text :=
  let single := '\''.toUInt8
  let quote := if single ∈ bytes ∧ '"'.toUInt8 ∉ bytes then '"' else '\''
  "b" ++ ofChars [quote] ++ bytes.flatMap (writtenByte quote) ++ ofChars [quote]

namespace Value

def elision : Value → Text
  | .list _ => "[...]"
  | _ => "\x7b...\x7d"

mutual

/-- The written form inside the collections with the given labels. -/
def writtenWithin (labels : List Nat) : Value → Text
  | .null => "None"
  | .bool flag => if flag then "True" else "False"
  | .int number => ofInt number
  | .float number => ofChars number.render
  | .text content => content.quoted
  | .date day => day.written
  | .moment time => time.written
  | .bytes content => writtenBytes content
  | .list items => "[" ++ join ", " (writtenItems labels items) ++ "]"
  | .pair first second =>
    "(" ++ join ", " [writtenWithin labels first, writtenWithin labels second] ++ ")"
  | .set items =>
    if items.isEmpty then "set()" else "\x7b" ++ join ", " (writtenItems labels items) ++ "\x7d"
  | .map entries => "\x7b" ++ join ", " (writtenEntries labels entries) ++ "\x7d"
  | .loop label content =>
    if labels.contains label then elision content else writtenWithin (label :: labels) content

def writtenItems (labels : List Nat) : List Value → List Text
  | [] => []
  | item :: rest => writtenWithin labels item :: writtenItems labels rest

def writtenEntries (labels : List Nat) : List (Value × Value) → List Text
  | [] => []
  | (key, value) :: rest =>
    (writtenWithin labels key ++ ": " ++ writtenWithin labels value) :: writtenEntries labels rest

end

def written (value : Value) : Text := writtenWithin [] value

def shown : Value → Text
  | .text content => content
  | .date day => day.shown
  | .moment time => time.shown
  | value => value.written

mutual

def isShowableWithin (labels : List Nat) : Value → Bool
  | .int number => number.natAbs < Nat.pow 10 Digits.most
  | .list items => areShowable labels items
  | .pair first second => isShowableWithin labels first && isShowableWithin labels second
  | .set items => areShowable labels items
  | .map entries => areEntriesShowable labels entries
  | .loop label content => labels.contains label || isShowableWithin (label :: labels) content
  | _ => true

def areShowable (labels : List Nat) : List Value → Bool
  | [] => true
  | item :: rest => isShowableWithin labels item && areShowable labels rest

def areEntriesShowable (labels : List Nat) : List (Value × Value) → Bool
  | [] => true
  | (key, value) :: rest =>
    isShowableWithin labels key && isShowableWithin labels value && areEntriesShowable labels rest

end

def isShowable (value : Value) : Bool := isShowableWithin [] value

end Value

end ApiSurface
