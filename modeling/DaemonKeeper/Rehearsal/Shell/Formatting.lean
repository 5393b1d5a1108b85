import DaemonKeeper.Text.Decimal
import DaemonKeeper.Text.Utf8
set_option autoImplicit false

/-!
# Rehearsal: formatted output

Escapes that stand for characters and bytes, and formats with places for arguments.
-/

namespace DaemonKeeper.Rehearsal.Shell

/-- One of the eight octal digits. -/
def isOctal (c : Char) : Bool := '0' ≤ c && c ≤ '7'

/-- The octal digits at the front, a few at most. -/
def octalFront (limit : Nat) (cs : List Char) : List Char := (cs.take limit).takeWhile isOctal

/-- The byte that a letter stands for behind a backslash. -/
def letterEscape? : Char → Option UInt8
  | 'a' => some 7
  | 'b' => some 8
  | 't' => some 9
  | 'n' => some 10
  | 'v' => some 11
  | 'f' => some 12
  | 'r' => some 13
  | '\\' => some 92
  | _ => none

/-- What an escape stands for, and what follows it.  `none` for what is no escape. -/
def escape (leadingZero : Bool) : List Char → Option (UInt8 × List Char)
  | [] => none
  | c :: rest =>
    match letterEscape? c with
    | some b => some (b, rest)
    | none =>
      let digits := octalFront (if leadingZero && c = '0' then 3 else 2) rest
      if isOctal c then some (UInt8.ofNat (Nat.ofDigitChars 8 (c :: digits) 0), rest.drop digits.length)
      else none

theorem escape_length {leadingZero : Bool} {cs after : List Char} {b : UInt8}
    (h : escape leadingZero cs = some (b, after)) : after.length < cs.length := by
  cases cs with
  | nil => simp [escape] at h
  | cons c rest =>
    simp only [escape] at h
    split at h
    · cases h; simp
    · split at h
      · cases h
        simp only [List.length_drop, List.length_cons]
        omega
      · cases h

/-- The bytes of a text with escapes, and whether an escape asked to end all output. -/
def unescape (cs : List Char) : List UInt8 × Bool :=
  match cs with
  | [] => ([], false)
  | '\\' :: 'c' :: _ => ([], true)
  | '\\' :: rest =>
    match _h : escape true rest with
    | some (b, after) =>
      let (more, ended) := unescape after
      (b :: more, ended)
    | none =>
      let (more, ended) := unescape rest
      (92 :: more, ended)
  | c :: rest =>
    let (more, ended) := unescape rest
    (Text.encodeChar c ++ more, ended)
termination_by cs.length
decreasing_by
  all_goals simp only [List.length_cons]
  all_goals try omega
  have := escape_length _h
  omega

/-! ## Formats -/

/-- A place for an argument. -/
structure Slot where
  left : Bool := false
  zeros : Bool := false
  plus : Bool := false
  width : Nat := 0
  precision : Option Nat := none
  kind : Char
  deriving DecidableEq, Repr

/-- A part of a format. -/
inductive FormatPart where
  | bytes (bs : List UInt8)
  | slot (s : Slot)
  deriving DecidableEq, Repr

/-- The number at the front and what follows it. -/
def frontNumber (cs : List Char) : Nat × List Char :=
  (Nat.ofDigitChars 10 (cs.takeWhile Char.isDigit) 0, cs.dropWhile Char.isDigit)

/-- The slot behind a percent sign, and how many characters it takes. -/
def slot? (cs : List Char) : Option (Slot × Nat) :=
  let flags := cs.takeWhile fun c => c ∈ ['-', '0', '+', ' ', '#']
  let (width, rest) := frontNumber (cs.drop flags.length)
  let (precision, rest) := match rest with
    | '.' :: rest =>
      let (n, rest) := frontNumber rest
      (some n, rest)
    | _ => (none, rest)
  match rest with
  | kind :: after =>
    some ({ left := '-' ∈ flags, zeros := '0' ∈ flags, plus := '+' ∈ flags, width, precision, kind },
      cs.length - after.length)
  | [] => none

/-- The parts of a format. -/
def formatParts (bound : Nat) (cs : List Char) : List FormatPart :=
  match bound with
  | 0 => []
  | bound + 1 =>
    match cs with
    | [] => []
    | '%' :: '%' :: rest => .bytes [37] :: formatParts bound rest
    | '%' :: rest =>
      match slot? rest with
      | some (s, n) => .slot s :: formatParts bound (rest.drop n)
      | none => [.bytes [37]]
    | '\\' :: rest =>
      match escape false rest with
      | some (b, after) => .bytes [b] :: formatParts bound after
      | none => .bytes [92] :: formatParts bound rest
    | c :: rest => .bytes (Text.encodeChar c) :: formatParts bound rest

/-- Fills up with a byte to a width. -/
def padded (s : Slot) (bytes : List UInt8) : List UInt8 :=
  let fill := s.width - bytes.length
  if s.left then bytes ++ List.replicate fill 32
  else List.replicate fill 32 ++ bytes

/-- The whole number that a text writes; zero for none. -/
def readNumber (text : String) : Int := (text.toInt?).getD 0

/-- The bytes of a number in a slot. -/
def numberBytes (s : Slot) (n : Int) (digits : String) : List UInt8 :=
  let sign := if n < 0 then "-" else if s.plus then "+" else ""
  let least := s.precision.getD (if s.zeros && !s.left then s.width - sign.length else 0)
  padded s (Text.bytes (sign ++ Text.padZeros least digits))

/-- The bytes of an argument in a slot, and whether all output ends there. -/
def slotBytes (s : Slot) (argument : String) : List UInt8 × Bool :=
  let n := readNumber argument
  match s.kind with
  | 'd' | 'i' | 'u' => (numberBytes s n (toString n.natAbs), false)
  | 'x' => (numberBytes s n (String.ofList (Nat.toDigits 16 n.natAbs)), false)
  | 'X' => (numberBytes s n (String.ofList (Nat.toDigits 16 n.natAbs)).toUpper, false)
  | 'o' => (numberBytes s n (String.ofList (Nat.toDigits 8 n.natAbs)), false)
  | 'c' => (padded s (Text.encode (argument.toList.take 1)), false)
  | 'b' =>
    let (bytes, ended) := unescape argument.toList
    (padded s bytes, ended)
  | _ =>
    let cs := argument.toList
    (padded s (Text.encode (match s.precision with | some n => cs.take n | none => cs)), false)

/-- One pass over a format: the bytes, the arguments that are left, and whether all output ends. -/
def formatOnce : List FormatPart → List String → List UInt8 × List String × Bool
  | [], arguments => ([], arguments, false)
  | .bytes bs :: rest, arguments =>
    let (more, left, ended) := formatOnce rest arguments
    (bs ++ more, left, ended)
  | .slot s :: rest, arguments =>
    let (bs, stop) := slotBytes s (arguments.headD "")
    if stop then (bs, [], true)
    else
      let (more, left, ended) := formatOnce rest (arguments.drop 1)
      (bs ++ more, left, ended)

/-- Passes over a format as long as arguments are left and some are used. -/
def formatAll (parts : List FormatPart) : Nat → List String → List UInt8
  | 0, _ => []
  | bound + 1, arguments =>
    let (bytes, left, ended) := formatOnce parts arguments
    if ended || left.isEmpty || left.length = arguments.length then bytes
    else bytes ++ formatAll parts bound left

/-- The bytes of a format with arguments. -/
def formatted (format : String) (arguments : List String) : List UInt8 :=
  formatAll (formatParts (format.length + 1) format.toList) (arguments.length + 1) arguments

end DaemonKeeper.Rehearsal.Shell
