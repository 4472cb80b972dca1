import ApiSurface.Decimal.Digits
import ApiSurface.Value
import ApiSurface.Yaml.Fault

/-!
Dates and times in scalars. A date alone needs all its digits to be recognised without a tag.
-/

namespace ApiSurface.Yaml

/-- The digits of a time of day; the fraction is kept as written. -/
structure Clock where
  hour : List Char
  minute : List Char
  second : List Char
  fraction : List Char

inductive Zone
  | universal
  | offset (negative : Bool) (hours minutes : List Char)

structure Timestamp where
  year : List Char
  month : List Char
  day : List Char
  time : Option (Clock × Option Zone)

def withoutLineEnd (chars : List Char) : List Char :=
  if 1 < chars.length && chars.getLast? == some '\n' then chars.dropLast else chars

def takeDigits? (least most : Nat) (chars : List Char) : Option (List Char × List Char) :=
  let digits := (chars.take most).takeWhile Char.isDigit
  if least ≤ digits.length then some (digits, chars.drop digits.length) else none

def takeChar? (expected : Char) : List Char → Option (List Char)
  | char :: rest => if char == expected then some rest else none
  | [] => none

def isTimeBlank (char : Char) : Bool := char == ' ' || char == '\t'

def takeTimeMark? : List Char → Option (List Char)
  | 'T' :: rest => some rest
  | 't' :: rest => some rest
  | char :: rest => if isTimeBlank char then some (rest.dropWhile isTimeBlank) else none
  | [] => none

def zone? (chars : List Char) : Option (Option Zone) :=
  match chars with
  | [] => some none
  | _ => match chars.dropWhile isTimeBlank with
    | ['Z'] => some (some .universal)
    | sign :: rest => do
      guard (sign == '+' || sign == '-')
      let (hours, rest) ← takeDigits? 1 2 rest
      match rest with
      | [] => return some (.offset (sign == '-') hours [])
      | _ =>
        let (minutes, rest) ← takeDigits? 2 2 (← takeChar? ':' rest)
        guard rest.isEmpty
        return some (.offset (sign == '-') hours minutes)
    | [] => none

def clock? (chars : List Char) : Option (Clock × Option Zone) := do
  let (hour, rest) ← takeDigits? 1 2 chars
  let (minute, rest) ← takeDigits? 2 2 (← takeChar? ':' rest)
  let (second, rest) ← takeDigits? 2 2 (← takeChar? ':' rest)
  let (fraction, rest) := match rest with
    | '.' :: rest => (rest.takeWhile Char.isDigit, rest.dropWhile Char.isDigit)
    | _ => ([], rest)
  return (⟨hour, minute, second, fraction⟩, ← zone? rest)

def timestamp? (chars : List Char) : Option Timestamp := do
  let (year, rest) ← takeDigits? 4 4 chars
  let (month, rest) ← takeDigits? 1 2 (← takeChar? '-' rest)
  let (day, rest) ← takeDigits? 1 2 (← takeChar? '-' rest)
  match rest with
  | [] => return ⟨year, month, day, none⟩
  | _ => return ⟨year, month, day, some (← clock? (← takeTimeMark? rest))⟩

def isTimestamp (chars : List Char) : Bool :=
  match timestamp? chars with
  | none => false
  | some time => time.time.isSome || (time.month.length == 2 && time.day.length == 2)

def Timestamp.date (time : Timestamp) : Except Fault Date :=
  let year := Digits.decimal time.year
  let month := Digits.decimal time.month
  let day := Digits.decimal time.day
  if 1 ≤ year ∧ 1 ≤ month ∧ month ≤ 12 ∧ 1 ≤ day ∧ day ≤ daysInMonth year month then
    .ok ⟨year, month, day⟩
  else .error .calendar

def Zone.minutes : Zone → Except Fault Int
  | .universal => .ok 0
  | .offset negative hours minutes =>
    let size : Int := Digits.decimal hours * 60 + Digits.decimal minutes
    if size < 1440 then .ok (if negative then -size else size) else .error .calendar

def microseconds (fraction : List Char) : Nat :=
  let digits := fraction.take 6
  Digits.decimal (digits ++ List.replicate (6 - digits.length) '0')

def Timestamp.value (time : Timestamp) : Except Fault Value := do
  match time.time with
  | none => return .date (← time.date)
  | some (clock, zone) =>
    let offset ← match zone with
      | none => pure none
      | some zone => some <$> zone.minutes
    let date ← time.date
    let hour := Digits.decimal clock.hour
    let minute := Digits.decimal clock.minute
    let second := Digits.decimal clock.second
    if hour < 24 ∧ minute < 60 ∧ second < 60 then
      return .moment ⟨date, hour, minute, second, microseconds clock.fraction, offset⟩
    else throw .calendar

end ApiSurface.Yaml
