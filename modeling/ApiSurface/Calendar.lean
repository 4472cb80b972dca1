/-!
Dates of the Gregorian calendar and times of day. Two moments with an offset are one instant when
they agree in universal time.
-/

namespace ApiSurface

structure Date where
  year : Nat
  month : Nat
  day : Nat
  deriving DecidableEq

/-- A date with a time of day and, when it was given, the offset from universal time in minutes. -/
structure Moment where
  date : Date
  hour : Nat
  minute : Nat
  second : Nat
  microsecond : Nat
  offset : Option Int
  deriving DecidableEq

def daysBeforeYear (year : Nat) : Nat :=
  let last := year - 1
  last * 365 + last / 4 - last / 100 + last / 400

def isLeapYear (year : Nat) : Bool := year % 4 == 0 && (year % 100 != 0 || year % 400 == 0)

def daysInMonth (year month : Nat) : Nat :=
  if month == 2 then (if isLeapYear year then 29 else 28)
  else if [4, 6, 9, 11].contains month then 30
  else 31

def Date.ordinal (date : Date) : Nat :=
  (List.range date.month).tail.foldl (fun days month => days + daysInMonth date.year month)
    (daysBeforeYear date.year) + date.day

def Moment.universalMinutes (moment : Moment) (offset : Int) : Int :=
  (moment.date.ordinal * 1440 + moment.hour * 60 + moment.minute : Nat) - offset

/-- Whether two moments are one instant; a moment without an offset is one only with its like. -/
def Moment.isSameInstant (left right : Moment) : Bool :=
  match left.offset, right.offset with
  | some leftOffset, some rightOffset =>
    left.universalMinutes leftOffset == right.universalMinutes rightOffset
      && left.second == right.second && left.microsecond == right.microsecond
  | _, _ => left == right

end ApiSurface
