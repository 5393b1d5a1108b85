import DaemonKeeper.Text.Pieces
import DaemonKeeper.Toml.Value
set_option autoImplicit false

/-!
# TOML: values without quotes

Booleans, numbers, dates and times are runs of a few ASCII characters, and the run decides by
itself what it is.
-/

namespace DaemonKeeper.Toml

/-- A character that may stand in a boolean, a number, a date or a time. -/
def isScalarChar (c : Char) : Bool :=
  c.isAlphanum || c = '+' || c = '-' || c = '.' || c = '_' || c = ':'

/-! ## Numbers -/

/-- The digits of a run in which single underscores stand between digits only. -/
def plainDigits (digit : Char → Bool) (cs : List Char) : Option (List Char) :=
  if cs.isEmpty then some []
  else
    let parts := Text.pieces '_' cs
    if parts.all fun part => !part.isEmpty && part.all digit then some parts.flatten else none

/-- A non-empty run of decimal digits. -/
def decimalDigits (cs : List Char) : Option (List Char) :=
  if cs.isEmpty then none else plainDigits Char.isDigit cs

/-- The digits of a whole part, which starts with a zero only when it is the zero. -/
def wholeDigits (cs : List Char) : Option (List Char) :=
  if cs.head? = some '0' && 1 < cs.length then none else decimalDigits cs

/-- Takes a sign off the front; `true` for minus. -/
def takeSign : List Char → Bool × List Char
  | '-' :: rest => (true, rest)
  | '+' :: rest => (false, rest)
  | cs => (false, cs)

/-- An exponent with an optional sign. -/
def exponentValue (cs : List Char) : Option Int :=
  let (negative, digits) := takeSign cs
  (decimalDigits digits).map fun ds =>
    if negative then -(Nat.ofDigitChars 10 ds 0 : Int) else Nat.ofDigitChars 10 ds 0

/-- The value of a hexadecimal digit. -/
def hexDigitValue (c : Char) : Nat :=
  if c.isDigit then c.toNat - '0'.toNat
  else if c.isLower then c.toNat - 'a'.toNat + 10
  else c.toNat - 'A'.toNat + 10

/-- A hexadecimal digit. -/
def isHexDigit (c : Char) : Bool :=
  c.isDigit || ('a' ≤ c && c ≤ 'f') || ('A' ≤ c && c ≤ 'F')

/-- The number that digits of a base write; none at all write no number. -/
def basedValue (base : Nat) (cs : List Char) : Option Int :=
  if cs.isEmpty then none
  else some (cs.foldl (fun v c => v * base + hexDigitValue c) 0 : Nat)

/-- An integer after a base prefix. -/
def basedInteger (base : Nat) (digit : Char → Bool) (cs : List Char) : Option Value :=
  (plainDigits digit cs).map fun ds => .integer (basedValue base ds)

/-- A decimal integer or a float, without its sign. -/
def decimalNumber (negative : Bool) (cs : List Char) : Option Value := do
  let isExponent := fun c : Char => c = 'e' || c = 'E'
  let whole := cs.takeWhile fun c => c ≠ '.' && !isExponent c
  let wholePart ← wholeDigits whole
  match cs.drop whole.length with
  | [] =>
    let n : Int := Nat.ofDigitChars 10 wholePart 0
    return .integer (some (if negative then -n else n))
  | '.' :: rest =>
    let fraction := rest.takeWhile fun c => !isExponent c
    let fractionPart ← decimalDigits fraction
    let exponent ← match rest.drop fraction.length with
      | [] => some 0
      | _ :: exponent => exponentValue exponent
    return .float (.finite negative (Nat.ofDigitChars 10 (wholePart ++ fractionPart) 0)
      (exponent - fractionPart.length))
  | _ :: rest =>
    let exponent ← exponentValue rest
    return .float (.finite negative (Nat.ofDigitChars 10 wholePart 0) exponent)

/-! ## Dates and times -/

/-- A number of exactly `width` digits at the front. -/
def takeDigits (width : Nat) (cs : List Char) : Option (Nat × List Char) :=
  let digits := cs.take width
  if digits.length = width && digits.all Char.isDigit then
    some (Nat.ofDigitChars 10 digits 0, cs.drop width)
  else none

/-- Takes one given character off the front. -/
def takeChar (c : Char) : List Char → Option (List Char)
  | d :: rest => if d = c then some rest else none
  | [] => none

/-- The days of a month. -/
def daysInMonth (year month : Nat) : Nat :=
  if month = 2 then
    if year % 4 = 0 && (year % 100 ≠ 0 || year % 400 = 0) then 29 else 28
  else if month = 4 || month = 6 || month = 9 || month = 11 then 30
  else 31

/-- A day at the front. -/
def takeDay (cs : List Char) : Option (Day × List Char) := do
  let (year, cs) ← takeDigits 4 cs
  let cs ← takeChar '-' cs
  let (month, cs) ← takeDigits 2 cs
  let cs ← takeChar '-' cs
  let (day, cs) ← takeDigits 2 cs
  guard (1 ≤ month ∧ month ≤ 12 ∧ 1 ≤ day ∧ day ≤ daysInMonth year month)
  return (⟨year, month, day⟩, cs)

/-- The first nine digits after the point, as nanoseconds. -/
def nanoseconds (digits : List Char) : Nat :=
  Nat.ofDigitChars 10 ((digits ++ List.replicate 9 '0').take 9) 0

/-- A part of a second at the front, if a point stands there. -/
def takeFraction : List Char → Option (Option Nat × List Char)
  | '.' :: cs =>
    let digits := cs.takeWhile Char.isDigit
    if digits.isEmpty then none else some (some (nanoseconds digits), cs.drop digits.length)
  | cs => some (none, cs)

/-- A time of day at the front.  Second 60 is a leap second. -/
def takeTime (cs : List Char) : Option (Time × List Char) := do
  let (hour, cs) ← takeDigits 2 cs
  let cs ← takeChar ':' cs
  let (minute, cs) ← takeDigits 2 cs
  guard (hour ≤ 23 ∧ minute ≤ 59)
  match cs with
  | ':' :: cs =>
    let (second, cs) ← takeDigits 2 cs
    guard (second ≤ 60)
    let (fraction, cs) ← takeFraction cs
    return (⟨hour, minute, some second, fraction⟩, cs)
  | _ => return (⟨hour, minute, none, none⟩, cs)

/-- An offset that fills the rest. -/
def readOffset : List Char → Option (Option Offset)
  | [] => some none
  | ['Z'] | ['z'] => some (some .utc)
  | sign :: cs => do
    guard (sign = '+' ∨ sign = '-')
    let (hours, cs) ← takeDigits 2 cs
    let cs ← takeChar ':' cs
    let (minutes, cs) ← takeDigits 2 cs
    guard (hours ≤ 23 ∧ minutes ≤ 59 ∧ cs = [])
    let count : Int := hours * 60 + minutes
    return some (.minutes (if sign = '-' then -count else count))

/-- A date, a time or both. -/
def readDatetime (cs : List Char) : Option Datetime :=
  match takeDay cs with
  | none => do
    let (time, rest) ← takeTime cs
    guard (rest = [])
    return ⟨none, some time, none⟩
  | some (day, []) => some ⟨some day, none, none⟩
  | some (day, mark :: rest) => do
    guard (mark = 'T' ∨ mark = 't' ∨ mark = ' ')
    let (time, rest) ← takeTime rest
    let offset ← readOffset rest
    return ⟨some day, some time, offset⟩

/-- The run begins like a date or a time. -/
def looksLikeDatetime (cs : List Char) : Bool :=
  let digits := cs.takeWhile Char.isDigit
  !digits.isEmpty && match cs.drop digits.length with
    | c :: _ => c = '-' || c = ':'
    | [] => false

/-- The value that a run of scalar characters writes. -/
def readScalar (cs : List Char) : Option Value :=
  match cs with
  | ['t', 'r', 'u', 'e'] => some (.boolean true)
  | ['f', 'a', 'l', 's', 'e'] => some (.boolean false)
  | '0' :: 'x' :: rest => basedInteger 16 isHexDigit rest
  | '0' :: 'o' :: rest => basedInteger 8 (fun c => '0' ≤ c && c ≤ '7') rest
  | '0' :: 'b' :: rest => basedInteger 2 (fun c => c = '0' || c = '1') rest
  | _ =>
    if looksLikeDatetime cs then (readDatetime cs).map .datetime
    else
      let (negative, rest) := takeSign cs
      if rest = ['i', 'n', 'f'] then some (.float (.infinite negative))
      else if rest = ['n', 'a', 'n'] then some (.float .notANumber)
      else decimalNumber negative rest

end DaemonKeeper.Toml
