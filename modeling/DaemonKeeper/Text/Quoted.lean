import DaemonKeeper.Text.Printable
set_option autoImplicit false

/-!
# Text: quoted form

A text is shown between double quotes with everything that a reader could not tell apart made
explicit: the quote, the backslash, line breaks, and by number every character without a visible
form and every combining mark.
-/

namespace DaemonKeeper.Text

/-- `\u` with the code point in lower-case hexadecimal between braces. -/
def numberedEscape (c : Char) : List Char :=
  ['\\', 'u', '\x7b'] ++ Nat.toDigits 16 c.toNat ++ ['\x7d']

/-- How one character is written between the quotes. -/
def quotedChar (c : Char) : List Char :=
  if c = '\x00' then ['\\', '0']
  else if c = '\t' then ['\\', 't']
  else if c = '\r' then ['\\', 'r']
  else if c = '\n' then ['\\', 'n']
  else if c = '\\' || c = '"' then ['\\', c]
  else if isCombining c || isInvisible c then numberedEscape c
  else [c]

/-- The text in double quotes. -/
def quoted (s : String) : String :=
  String.ofList (['"'] ++ s.toList.flatMap quotedChar ++ ['"'])

/-- A bracketed, comma-separated list of items that are already written. -/
def bracketed (items : List String) : String :=
  "[" ++ String.intercalate ", " items ++ "]"

/-- A list of texts, each quoted. -/
def quotedList (ss : List String) : String := bracketed (ss.map quoted)

end DaemonKeeper.Text
