import DaemonKeeper.Toml.Scalar
set_option autoImplicit false

/-!
# TOML: quoted texts

Four forms: basic (double quotes, with escapes) and literal (single quotes, none), each on one line
or, with tripled quotes, over several.  Each reader starts after the opening quotes and returns the
text with what follows the closing ones.
-/

namespace DaemonKeeper.Toml

/-- A control character other than the tab. -/
def isControl (c : Char) : Bool := (c.toNat < 0x20 && c ≠ '\t') || c.toNat = 0x7F

/-- The character with this number, unless it is a surrogate or out of range. -/
def scalarChar? (n : Nat) : Option Char :=
  if n.isValidChar then some (Char.ofNat n) else none

/-- A character given by exactly `width` hexadecimal digits. -/
def takeNumbered (width : Nat) (cs : List Char) : Option (Char × List Char) := do
  let digits := cs.take width
  guard (digits.length = width ∧ digits.all isHexDigit)
  let c ← scalarChar? (digits.foldl (fun v c => v * 16 + hexDigitValue c) 0)
  return (c, cs.drop width)

/-- The character of an escape, from after its backslash. -/
def takeEscape : List Char → Option (Char × List Char)
  | 'b' :: cs => some ('\x08', cs)
  | 't' :: cs => some ('\t', cs)
  | 'n' :: cs => some ('\n', cs)
  | 'f' :: cs => some ('\x0c', cs)
  | 'r' :: cs => some ('\r', cs)
  | 'e' :: cs => some ('\x1b', cs)
  | '"' :: cs => some ('"', cs)
  | '\\' :: cs => some ('\\', cs)
  | 'x' :: cs => takeNumbered 2 cs
  | 'u' :: cs => takeNumbered 4 cs
  | 'U' :: cs => takeNumbered 8 cs
  | _ => none

/-- The rest of a basic text.  `fuel` bounds the number of characters read. -/
def takeBasic : Nat → List Char → Option (List Char × List Char)
  | _, '"' :: rest => some ([], rest)
  | fuel + 1, '\\' :: rest => do
    let (c, rest) ← takeEscape rest
    let (text, rest) ← takeBasic fuel rest
    return (c :: text, rest)
  | fuel + 1, c :: rest => do
    guard (!isControl c)
    let (text, rest) ← takeBasic fuel rest
    return (c :: text, rest)
  | _, _ => none

/-- The rest of a literal text. -/
def takeLiteral : List Char → Option (List Char × List Char)
  | [] => none
  | c :: rest =>
    if c = '\'' then some ([], rest)
    else if isControl c then none
    else (takeLiteral rest).map fun (text, rest) => (c :: text, rest)

/-- Drops a line break right after the opening quotes. -/
def dropFirstBreak : List Char → List Char
  | '\n' :: rest => rest
  | '\r' :: '\n' :: rest => rest
  | cs => cs

/-- A blank inside a line, or a line break. -/
def isSpaceOrBreak (c : Char) : Bool := c = ' ' || c = '\t' || c = '\n' || c = '\r'

/-- Drops white space, line breaks included. -/
def dropGap : List Char → List Char
  | ' ' :: rest | '\t' :: rest | '\n' :: rest => dropGap rest
  | '\r' :: '\n' :: rest => dropGap rest
  | cs => cs

/-- What follows a backslash at the end of a line, from the next character on. -/
def dropContinuation : List Char → Option (List Char)
  | ' ' :: rest | '\t' :: rest => dropContinuation rest
  | '\n' :: rest | '\r' :: '\n' :: rest => some (dropGap rest)
  | _ => none

/-- A run of closing quotes: the last three close, one or two before them belong to the text. -/
def closingRun (quote : Char) (cs : List Char) : Option (List Char × List Char) :=
  let run := (cs.take 5).takeWhile (· = quote)
  if 3 ≤ run.length then some (run.drop 3, cs.drop run.length) else none

/-- The rest of a basic text over several lines. -/
def takeBasicLines : Nat → List Char → Option (List Char × List Char)
  | 0, _ | _, [] => none
  | fuel + 1, c :: rest =>
    match closingRun '"' (c :: rest) with
    | some closed => some closed
    | none =>
      match c, rest with
      | '\\', rest => do
        match rest with
        | d :: _ =>
          if isSpaceOrBreak d then takeBasicLines fuel (← dropContinuation rest)
          else
            let (e, rest) ← takeEscape rest
            let (text, rest) ← takeBasicLines fuel rest
            return (e :: text, rest)
        | [] => none
      | '\r', '\n' :: rest => (takeBasicLines fuel rest).map fun (text, rest) =>
          ('\r' :: '\n' :: text, rest)
      | c, rest =>
        if isControl c && c ≠ '\n' then none
        else (takeBasicLines fuel rest).map fun (text, rest) => (c :: text, rest)

/-- The rest of a literal text over several lines. -/
def takeLiteralLines : List Char → Option (List Char × List Char)
  | [] => none
  | c :: rest =>
    match closingRun '\'' (c :: rest) with
    | some closed => some closed
    | none =>
      if (isControl c && c ≠ '\n' && c ≠ '\r') || (c = '\r' && rest.head? ≠ some '\n') then none
      else (takeLiteralLines rest).map fun (text, rest) => (c :: text, rest)

end DaemonKeeper.Toml
