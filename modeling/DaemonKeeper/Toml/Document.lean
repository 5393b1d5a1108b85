import DaemonKeeper.Toml.Assembly
import DaemonKeeper.Toml.Quotation
set_option autoImplicit false

/-!
# TOML: documents

A reader takes characters off the front of the text, or refuses the text.  What is refused is not
TOML; why is not told.  Nesting is limited: arrays and inline tables may stand inside one another
eighty deep.
-/

namespace DaemonKeeper.Toml

/-- Takes something off the front of a text, or refuses it. -/
abbrev Reader := StateT (List Char) Option

namespace Reader

/-- The next character, left where it is. -/
def peek : Reader (Option Char) := do return (← get).head?

/-- Takes one given character. -/
def expect (c : Char) : Reader Unit := fun cs => (takeChar c cs).map ((), ·)

/-- Takes one given character if it is next. -/
def accept (c : Char) : Reader Bool := fun cs =>
  match takeChar c cs with
  | some rest => some (true, rest)
  | none => some (false, cs)

/-- Takes the longest run of characters of a class. -/
def run (p : Char → Bool) : Reader (List Char) := fun cs =>
  some (cs.takeWhile p, cs.dropWhile p)

/-- Skips blanks inside a line. -/
def blanks : Reader Unit := do
  let _ ← run fun c => c = ' ' || c = '\t'

/-- Takes a line break if one is next. -/
def lineBreak? : Reader Bool := fun cs =>
  match cs with
  | '\n' :: rest | '\r' :: '\n' :: rest => some (true, rest)
  | _ => some (false, cs)

/-- Takes a comment if one is next; it ends before the line break. -/
def comment? : Reader Bool := do
  if ← accept '#' then
    let _ ← run fun c => !isControl c
    return true
  return false

/-- The end of a line: blanks, perhaps a comment, then a line break or the end of the text.
Answers whether there is more text. -/
def lineEnd : Reader Bool := do
  blanks
  let _ ← comment?
  if ← lineBreak? then return true
  guard (← get).isEmpty
  return false

/-- Skips blanks, comments and line breaks. -/
def gap : Nat → Reader Unit
  | 0 => return
  | fuel + 1 => do
    blanks
    let comment ← comment?
    let lineBreak ← lineBreak?
    if comment || lineBreak then gap fuel else return

/-- Skips blanks, comments and line breaks between the parts of an array or inline table. -/
def gaps : Reader Unit := do gap ((← get).length + 1)

/-! ## Keys -/

/-- A character of a key without quotes. -/
def isBareKeyChar (c : Char) : Bool := c.isAlphanum || c = '-' || c = '_'

/-- One name of a key. -/
def name : Reader String := do
  match ← peek with
  | some '"' =>
    expect '"'
    let cs ← get
    let (text, rest) ← takeBasic cs.length cs
    set rest
    return String.ofList text
  | some '\'' =>
    expect '\''
    let (text, rest) ← takeLiteral (← get)
    set rest
    return String.ofList text
  | _ =>
    let cs ← run isBareKeyChar
    guard !cs.isEmpty
    return String.ofList cs

/-- Names with dots between them; blanks may surround the dots. -/
def names : Nat → Reader (List String)
  | 0 => failure
  | fuel + 1 => do
    let first ← name
    blanks
    if ← accept '.' then
      blanks
      return first :: (← names fuel)
    return [first]

/-- A key: the names before the last dot, and the last name. -/
def key : Reader (List String × String) := do
  let all ← names ((← get).length + 1)
  let last ← all.getLast?
  return (all.dropLast, last)

/-! ## Values -/

/-- How deep arrays and inline tables may be nested. -/
def depthLimit : Nat := 80

/-- A quoted text. -/
def quotation : Reader Value := do
  let cs ← get
  let (text, rest) ← match cs with
    | '"' :: '"' :: '"' :: rest => takeBasicLines rest.length (dropFirstBreak rest)
    | '\'' :: '\'' :: '\'' :: rest => takeLiteralLines (dropFirstBreak rest)
    | '"' :: rest => takeBasic rest.length rest
    | '\'' :: rest => takeLiteral rest
    | _ => none
  set rest
  return .text (String.ofList text)

/-- A boolean, a number, a date or a time.  One blank may stand between a day and a time. -/
def scalar : Reader Value := do
  let cs ← run isScalarChar
  match takeDay cs, ← get with
  | some (_, []), ' ' :: d :: rest =>
    if d.isDigit then
      set (d :: rest)
      readScalar (cs ++ ' ' :: (← run isScalarChar))
    else readScalar cs
  | _, _ => readScalar cs

mutual
/-- A value inside `depth` more levels of nesting. -/
def value (fuel depth : Nat) : Reader Value :=
  match fuel with
  | 0 => failure
  | fuel + 1 => do
    match ← peek with
    | some '[' =>
      guard (0 < depth)
      expect '['
      return .array (← elements fuel (depth - 1))
    | some '\x7b' =>
      guard (0 < depth)
      expect '\x7b'
      gaps
      if ← accept '\x7d' then return .table []
      return .table (← tableOfAssignments (← pairs fuel (depth - 1)))
    | some '"' | some '\'' => quotation
    | _ => scalar

/-- The elements of an array up to its closing bracket. -/
def elements (fuel depth : Nat) : Reader (List Value) :=
  match fuel with
  | 0 => failure
  | fuel + 1 => do
    gaps
    if ← accept ']' then return []
    let first ← value fuel depth
    gaps
    if ← accept ',' then return first :: (← elements fuel depth)
    expect ']'
    return [first]

/-- The assignments of an inline table up to its closing brace; there is at least one. -/
def pairs (fuel depth : Nat) : Reader (List Assignment) :=
  match fuel with
  | 0 => failure
  | fuel + 1 => do
    let (path, last) ← key
    expect '='
    blanks
    let v ← value fuel depth
    gaps
    if ← accept ',' then
      gaps
      if ← accept '\x7d' then return [⟨path, last, v⟩]
      return ⟨path, last, v⟩ :: (← pairs fuel depth)
    expect '\x7d'
    return [⟨path, last, v⟩]
end

/-! ## Lines -/

/-- `key = value`. -/
def assignment : Reader Assignment := do
  let (path, last) ← key
  expect '='
  blanks
  return ⟨path, last, ← value (2 * (← get).length + 2) depthLimit⟩

/-- A header, from after its first bracket. -/
def header : Reader Header := do
  let element ← accept '['
  blanks
  let (path, last) ← key
  expect ']'
  if element then expect ']'
  return ⟨path, last, element⟩

/-- One line of a document. -/
inductive Line where
  | nothing
  | header (h : Header)
  | assignment (a : Assignment)

/-- The content of one line. -/
def line : Reader Line := do
  blanks
  match ← peek with
  | none | some '#' | some '\n' | some '\r' => return .nothing
  | some '[' =>
    expect '['
    return .header (← header)
  | _ => return .assignment (← assignment)

/-- Every line. -/
def allLines : Nat → Reader (List Line)
  | 0 => failure
  | fuel + 1 => do
    let first ← line
    if ← lineEnd then return first :: (← allLines fuel)
    return [first]

end Reader

/-- The assignments before the first header, and the sections. -/
def sectionsOfLines : List Reader.Line → List Assignment × List Section
  | [] => ([], [])
  | .nothing :: rest => sectionsOfLines rest
  | .assignment a :: rest =>
    let (body, sections) := sectionsOfLines rest
    (a :: body, sections)
  | .header h :: rest =>
    let (body, sections) := sectionsOfLines rest
    ([], ⟨h, body⟩ :: sections)

/-- Reads a document.  A byte order mark at the very front is skipped. -/
def read (text : String) : Option Table := do
  let cs := match text.toList with
    | '\uFEFF' :: rest => rest
    | cs => cs
  let (lines, _) ← Reader.allLines (cs.length + 1) cs
  let (body, sections) := sectionsOfLines lines
  tableOfSections body sections

end DaemonKeeper.Toml
