import DaemonKeeper.Text.Decimal
set_option autoImplicit false

/-!
# Calendar: days, dates and build directory names (SPEC §2)

`buildName?` is the name that all builds of one cycle share, `build<YYYY-MM-DD-HH:MM:SS>` by the
local clock.  The calendar behind it is the proleptic Gregorian one with a year zero.  Days are
counted from 1970-01-01.  Inside a 400-year era, years run from March, so that a leap day is the
last day of its year.
-/

namespace DaemonKeeper.Calendar

/-- A calendar date. -/
structure Date where
  year : Int
  month : Nat
  day : Nat
  deriving DecidableEq, Repr

/-- A leap year of the Gregorian calendar. -/
def isLeap (year : Int) : Bool := year % 4 = 0 && (year % 100 ≠ 0 || year % 400 = 0)

/-- The number of days in a month. -/
def monthLength (year : Int) (month : Nat) : Nat :=
  if month = 2 then if isLeap year then 29 else 28
  else if month = 4 || month = 6 || month = 9 || month = 11 then 30
  else 31

namespace Date

/-- Days in an era of 400 years. -/
def eraDays : Nat := 146097

/-- Days from 0000-03-01 to 1970-01-01. -/
def epochShift : Int := 719468

/-- The first day of a March-based year of an era. -/
def yearStart (y : Nat) : Nat := 365 * y + y / 4 - y / 100 + y / 400

/-- The March-based year of an era that holds a day of it. -/
def yearOfDay (day : Nat) : Nat :=
  if yearStart (day / 365) ≤ day then day / 365 else day / 365 - 1

/-- The first day of a month of a March-based year, March being month zero. -/
def monthStart (m : Nat) : Nat := (153 * m + 2) / 5

/-- The month of a March-based year that holds a day of it. -/
def monthOfDay (day : Nat) : Nat := (5 * day + 2) / 153

/-- The date a number of days after 1970-01-01. -/
def ofDays (days : Int) : Date :=
  let shifted := days + epochShift
  let era := shifted / eraDays
  let day := (shifted % eraDays).toNat
  let y := yearOfDay day
  let dayOfYear := day - yearStart y
  let m := monthOfDay dayOfYear
  let year : Int := era * 400 + y
  { year := if m < 10 then year else year + 1
    month := if m < 10 then m + 3 else m - 9
    day := dayOfYear - monthStart m + 1 }

/-- The number of days from 1970-01-01 to a date. -/
def toDays (d : Date) : Int :=
  let year := if d.month ≤ 2 then d.year - 1 else d.year
  let m := if d.month ≤ 2 then d.month + 9 else d.month - 3
  let era := year / 400
  let y := (year % 400).toNat
  era * eraDays + (yearStart y + monthStart m + d.day - 1 : Nat) - epochShift

end Date

/-! ## Time of day -/

/-- A date with a time of day. -/
structure LocalTime where
  date : Date
  hour : Nat
  minute : Nat
  second : Nat
  deriving DecidableEq, Repr

/-- The local time a number of seconds after 1970-01-01 00:00:00. -/
def LocalTime.ofSeconds (seconds : Int) : LocalTime :=
  let rest := (seconds % 86400).toNat
  { date := Date.ofDays (seconds / 86400)
    hour := rest / 3600
    minute := rest / 60 % 60
    second := rest % 60 }

/-- An instant: seconds since 1970-01-01 00:00:00 UTC and a part of a second.  A part of a whole
second or more marks the second as the one before a leap second. -/
structure Instant where
  seconds : Int
  nanoseconds : Nat
  deriving DecidableEq, Repr

namespace Instant

/-- The first day that can be told. -/
def firstDay : Int := Date.toDays ⟨-262143, 1, 1⟩

/-- The last day that can be told. -/
def lastDay : Int := Date.toDays ⟨262142, 12, 31⟩

/-- A day that can be told; a leap second only follows second 59. -/
def isTellable (t : Instant) : Bool :=
  let day := t.seconds / 86400
  firstDay ≤ day && day ≤ lastDay
    && (t.nanoseconds < 1000000000
      || (t.nanoseconds < 2000000000 && t.seconds % 60 = 59))

/-- The wall clock `offset` seconds east of UTC; a leap second counts one more. -/
def localTime (t : Instant) (offset : Int) : LocalTime :=
  let l := LocalTime.ofSeconds (t.seconds + offset)
  { l with second := l.second + t.nanoseconds / 1000000000 }

end Instant

/-! ## Build directory names -/

/-- Four digits for the years 0 to 9999, otherwise a sign and at least four digits. -/
def yearText (year : Int) : String :=
  if 0 ≤ year && year ≤ 9999 then Text.padZeros 4 (toString year.toNat)
  else (if year < 0 then "-" else "+") ++ Text.padZeros 4 (toString year.natAbs)

/-- Two digits. -/
def twoDigits (n : Nat) : String := Text.padZeros 2 (toString n)

/-- The build directory name of a cycle that starts at a wall clock time. -/
def LocalTime.buildName (l : LocalTime) : String :=
  "build" ++ yearText l.date.year ++ "-" ++ twoDigits l.date.month ++ "-" ++ twoDigits l.date.day
    ++ "-" ++ twoDigits l.hour ++ ":" ++ twoDigits l.minute ++ ":" ++ twoDigits l.second

/-- The build directory name of a cycle that starts at an instant, seen `offset` seconds east of
UTC.  Offsets of a day or more and instants that cannot be told have none. -/
def buildName? (t : Instant) (offset : Int) : Option String :=
  if t.isTellable && -86400 < offset && offset < 86400 then some (t.localTime offset).buildName
  else none

end DaemonKeeper.Calendar
