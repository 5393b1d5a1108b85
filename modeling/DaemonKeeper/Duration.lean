import DaemonKeeper.Text.Blank
import DaemonKeeper.Text.Decimal
import DaemonKeeper.Text.LowerCase
import DaemonKeeper.Word
set_option autoImplicit false

/-!
# Durations (SPEC §4.1)

A span of time is an exact number of nanoseconds.  The intervals of a configuration are written by
people as a whole number and a unit (`250ms`, `3s`, `1m`, `2h`), which `parse` reads, and shown in
the largest unit of which they hold at least one.
-/

namespace DaemonKeeper

/-- A span of time. -/
structure Duration where
  nanoseconds : Nat
  deriving DecidableEq, Repr, Inhabited

namespace Duration

/-- Whole milliseconds. -/
def ofMillis (n : Nat) : Duration := ⟨n * 1000000⟩

/-- Whole seconds. -/
def ofSeconds (n : Nat) : Duration := ⟨n * 1000000000⟩

/-- The whole seconds in the span. -/
def seconds (d : Duration) : Nat := d.nanoseconds / 1000000000

/-- What is left after the whole seconds. -/
def subsecond (d : Duration) : Nat := d.nanoseconds % 1000000000

/-! ## Shown form -/

/-- `n / unit` in decimals, where `unit` is `10 ^ places`; trailing zeros are dropped. -/
def decimalText (n places : Nat) : String :=
  let unit := Nat.pow 10 places
  let fraction := (Text.padZeros places (toString (n % unit))).toList
  let kept := (fraction.reverse.dropWhile (· == '0')).reverse
  if n % unit = 0 then toString (n / unit)
  else toString (n / unit) ++ "." ++ String.ofList kept

/-- The span in its largest unit of at least one. -/
def text (d : Duration) : String :=
  if 1000000000 ≤ d.nanoseconds then decimalText d.nanoseconds 9 ++ "s"
  else if 1000000 ≤ d.nanoseconds then decimalText d.nanoseconds 6 ++ "ms"
  else if 1000 ≤ d.nanoseconds then decimalText d.nanoseconds 3 ++ "µs"
  else toString d.nanoseconds ++ "ns"

/-! ## Written form -/

/-- Why a text is not a duration. -/
inductive Fault where
  | blank
  | noUnit
  | noDigits
  | numberTooLarge (digits : String)
  | unknownUnit (unit : String)
  | tooLong (text : String)
  deriving DecidableEq, Repr

/-- How a fault is reported. -/
def Fault.message : Fault → String
  | .blank => "empty duration string"
  | .noUnit => "duration missing unit suffix"
  | .noDigits => "invalid duration number '': cannot parse integer from empty string"
  | .numberTooLarge digits =>
    "invalid duration number '" ++ digits ++ "': number too large to fit in target type"
  | .unknownUnit unit => "unsupported duration unit '" ++ unit ++ "'; expected ms, s, m, or h"
  | .tooLong text => "duration '" ++ text ++ "' is too large"

/-- Numbers and second counts stay below this bound. -/
def bound : Nat := Word.bound64

/-- `value` times a unit of `seconds` seconds, if the seconds stay below the bound. -/
def scaled (text : String) (value seconds : Nat) : Except Fault Duration :=
  if value * seconds < bound then .ok (ofSeconds (value * seconds)) else .error (.tooLong text)

/-- A number below the bound in a unit that is already in lower case. -/
def ofUnit (text : String) (value : Nat) (unit : String) : Except Fault Duration :=
  if unit = "ms" then .ok (ofMillis value)
  else if unit = "s" then scaled text value 1
  else if unit = "m" then scaled text value 60
  else if unit = "h" then scaled text value 3600
  else .error (.unknownUnit unit)

/-- Reads a trimmed text: digits, then a unit. -/
def parseTrimmed (cs : List Char) : Except Fault Duration :=
  let digits := cs.takeWhile Char.isDigit
  let unit := cs.dropWhile Char.isDigit
  if cs.isEmpty then .error .blank
  else if unit.isEmpty then .error .noUnit
  else if digits.isEmpty then .error .noDigits
  else if Nat.ofDigitChars 10 digits 0 < bound then
    ofUnit (String.ofList cs) (Nat.ofDigitChars 10 digits 0)
      (Text.toLower (String.ofList (Text.trimChars unit)))
  else .error (.numberTooLarge (String.ofList digits))

/-- Reads a duration; white space may surround it and stand before the unit. -/
def parse (s : String) : Except Fault Duration := parseTrimmed (Text.trimChars s.toList)

end Duration

end DaemonKeeper
