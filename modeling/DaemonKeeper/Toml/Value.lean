import DaemonKeeper.Text.Decimal
set_option autoImplicit false

/-!
# TOML: values

A document is read into a tree whose tables keep their keys in the order in which the document
brings them.  Numbers are kept exactly: an integer has any size and a float is the decimal that
was written.
-/

namespace DaemonKeeper.Toml

/-- The sign and offset of a zoned time. -/
inductive Offset where
  | utc
  | minutes (count : Int)
  deriving DecidableEq, Repr

/-- A clock time; the seconds may be left out. -/
structure Time where
  hour : Nat
  minute : Nat
  second : Option Nat
  nanosecond : Option Nat
  deriving DecidableEq, Repr

/-- A day. -/
structure Day where
  year : Nat
  month : Nat
  day : Nat
  deriving DecidableEq, Repr

/-- A day, a time, both, or both with an offset. -/
structure Datetime where
  day : Option Day
  time : Option Time
  offset : Option Offset
  deriving DecidableEq, Repr

/-- A float as written. -/
inductive Float where
  | finite (negative : Bool) (digits : Nat) (exponent : Int)
  | infinite (negative : Bool)
  | notANumber
  deriving DecidableEq, Repr

/-- A value.  An integer with a base prefix and no digits has no number. -/
inductive Value where
  | text (s : String)
  | integer (n : Option Int)
  | float (f : Float)
  | boolean (b : Bool)
  | datetime (d : Datetime)
  | array (elements : List Value)
  | table (entries : List (String × Value))
  deriving Repr, Inhabited

/-- The keys of a table with their values, in order. -/
abbrev Table := List (String × Value)

/-! ## Shown form of dates and times -/

/-- A number of at least two digits. -/
def two (n : Nat) : String := Text.padZeros 2 (toString n)

/-- The part of a second after the point, without trailing zeros but not empty. -/
def fractionText (nanosecond : Nat) : String :=
  let kept := ((Text.padZeros 9 (toString nanosecond)).toList.reverse.dropWhile (· == '0')).reverse
  if kept.isEmpty then "0" else String.ofList kept

namespace Datetime

/-- The day. -/
def dayText (d : Day) : String :=
  Text.padZeros 4 (toString d.year) ++ "-" ++ two d.month ++ "-" ++ two d.day

/-- The time of day. -/
def timeText (t : Time) : String :=
  two t.hour ++ ":" ++ two t.minute
    ++ (match t.second with | some s => ":" ++ two s | none => "")
    ++ (match t.nanosecond with | some n => "." ++ fractionText n | none => "")

/-- The offset. -/
def offsetText : Offset → String
  | .utc => "Z"
  | .minutes count =>
    (if count < 0 then "-" else "+") ++ two (count.natAbs / 60) ++ ":" ++ two (count.natAbs % 60)

/-- The whole, with a `T` between day and time. -/
def text (d : Datetime) : String :=
  let day := match d.day with | some x => dayText x | none => ""
  let time := match d.time with | some x => timeText x | none => ""
  let offset := match d.offset with | some x => offsetText x | none => ""
  day ++ (if d.day.isSome && d.time.isSome then "T" else "") ++ time ++ offset

end Datetime

/-- What a value is called in a message. -/
def Value.kindName : Value → String
  | .text _ => "string"
  | .integer _ => "integer"
  | .float _ => "float"
  | .boolean _ => "boolean"
  | .datetime _ => "datetime"
  | .array _ => "array"
  | .table _ => "table"

end DaemonKeeper.Toml
