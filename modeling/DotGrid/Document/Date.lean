/-!
# Dates

A date of the calendar, with a time of the day or without one, and with the distance from universal time where that is
known. Dates of one kind are ordered: days among themselves, times without a zone among themselves, and times with a
zone by the instants that they are.
-/

namespace DotGrid

/-- A time of the day. -/
structure Clock where
  hour : Nat
  minute : Nat
  second : Nat
  microsecond : Nat
deriving DecidableEq

/-- A date, with a time of the day and the distance of its zone in seconds if there are any. -/
structure Date where
  year : Nat
  month : Nat
  day : Nat
  clock : Option Clock
  zone : Option Int
deriving DecidableEq

namespace Date

/-- Tells a year with a day more. -/
def isLeap (year : Nat) : Bool := year % 4 = 0 ∧ (year % 100 ≠ 0 ∨ year % 400 = 0)

/-- The number of days of a month. -/
def daysOf (year month : Nat) : Nat :=
  if month = 2 then (if isLeap year then 29 else 28)
  else if month = 4 ∨ month = 6 ∨ month = 9 ∨ month = 11 then 30
  else 31

/-- Tells a date of the calendar with a time of the day, in a zone less than a day away. -/
def isValid (d : Date) : Bool :=
  0 < d.year && 0 < d.month && d.month ≤ 12 && 0 < d.day && d.day ≤ daysOf d.year d.month &&
    d.clock.all (fun c => c.hour < 24 && c.minute < 60 && c.second < 60) && d.zone.all fun z => z.natAbs < 86400

/-! ## Order -/

/-- The number of days before a year. -/
def daysBeforeYear (year : Nat) : Nat :=
  let y := year - 1
  y * 365 + y / 4 - y / 100 + y / 400

/-- The number of days before a month of its year. -/
def daysBeforeMonth (year month : Nat) : Nat :=
  (List.range (month - 1)).foldl (fun days m => days + daysOf year (m + 1)) 0

/-- The microseconds from the start of the calendar, by universal time where the zone is known. -/
def instant (d : Date) : Int :=
  let days := daysBeforeYear d.year + daysBeforeMonth d.year d.month + d.day
  let seconds := match d.clock with
    | some c => (days * 24 + c.hour) * 3600 + c.minute * 60 + c.second
    | none => days * 86400
  let fraction := match d.clock with
    | some c => c.microsecond
    | none => 0
  ((seconds : Int) - d.zone.getD 0) * 1000000 + fraction

/-- Tells dates that have an order: both with or both without a time of the day, and with a zone or without one. -/
def isComparable (a b : Date) : Bool :=
  a.clock.isSome = b.clock.isSome && a.zone.isSome = b.zone.isSome

/-- Tells whether one date is before another; nothing if they have no order. -/
def before? (a b : Date) : Option Bool :=
  if a.isComparable b then some (a.instant < b.instant) else none

/-- Tells two dates of one kind that are the same instant. -/
def isSame (a b : Date) : Bool := a.isComparable b && a.instant = b.instant

/-! ## Text -/

/-- The name of the type of a date. -/
def typeName (d : Date) : String := if d.clock.isSome then "datetime" else "date"

/-- The name of the type of a date, after the name of the module that it belongs to. -/
def qualifiedType (d : Date) : String := "datetime." ++ d.typeName

/-- The distance of a zone as days and seconds of a day. -/
def zoneText (seconds : Int) : String :=
  (if seconds < 0 then "days=" ++ toString (seconds / 86400) ++ ", " else "") ++
    "seconds=" ++ toString (seconds % 86400)

/-- A date on one line. -/
def shown (d : Date) : String :=
  let parts := [d.year, d.month, d.day] ++ match d.clock with
    | some c =>
      [c.hour, c.minute] ++
        if c.microsecond ≠ 0 then [c.second, c.microsecond] else if c.second ≠ 0 then [c.second] else []
    | none => []
  let zone := match d.zone with
    | some 0 => ", tzinfo=datetime.timezone.utc"
    | some z => ", tzinfo=datetime.timezone(datetime.timedelta(" ++ zoneText z ++ "))"
    | none => ""
  d.qualifiedType ++ "(" ++ String.intercalate ", " (parts.map Nat.repr) ++ zone ++ ")"

end Date

end DotGrid
