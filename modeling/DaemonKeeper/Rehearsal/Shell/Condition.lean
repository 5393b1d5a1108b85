import DaemonKeeper.Rehearsal.Files
set_option autoImplicit false

/-!
# Rehearsal: conditions

The expressions of `test`: about files, texts and numbers.
-/

namespace DaemonKeeper.Rehearsal.Shell.Condition

/-- What conditions are about. -/
structure View where
  files : Files
  here : Place

/-- A condition that was read: its value and what follows, or a complaint. -/
abbrev Verdict := Except String (Bool × List String)

/-- There is a file of some bytes. -/
def holdsSomething (v : View) (path : String) : Bool :=
  match v.files.find v.here path with
  | .ok (_, .file _ bytes) => !bytes.isEmpty
  | .ok (_, .directory) => true
  | _ => false

/-- There is a regular file. -/
def isFile (v : View) (path : String) : Bool :=
  match v.files.find v.here path with
  | .ok (_, .file _ _) | .ok (_, .tool _) => true
  | _ => false

/-- There is a symbolic link. -/
def isLink (v : View) (path : String) : Bool :=
  match v.files.locate false v.here path with
  | .ok (.found _ (.link _)) => true
  | _ => false

/-- A condition about one operand. -/
def unary? (v : View) (operator operand : String) : Option Bool :=
  match operator with
  | "-n" => some (!operand.isEmpty)
  | "-z" => some operand.isEmpty
  | "-e" => some (v.files.exists? v.here operand)
  | "-f" => some (isFile v operand)
  | "-d" => some (v.files.isDirectory v.here operand)
  | "-r" | "-w" => some (v.files.exists? v.here operand)
  | "-x" => some (v.files.isExecutable v.here operand || v.files.isDirectory v.here operand)
  | "-s" => some (holdsSomething v operand)
  | "-h" | "-L" => some (isLink v operand)
  | "-t" => some false
  | _ => none

/-- A number of a condition. -/
def number (text : String) : Except String Int :=
  match text.trimAscii.toString.toInt? with
  | some n => .ok n
  | none => .error ("Illegal number: " ++ text)

/-- A condition about two numbers. -/
def compared (test : Int → Int → Bool) (a b : String) : Except String Bool := do
  return test (← number a) (← number b)

/-- A condition about two operands. -/
def binary? (a operator b : String) : Option (Except String Bool) :=
  match operator with
  | "=" | "==" => some (.ok (a = b))
  | "!=" => some (.ok (a != b))
  | "-eq" => some (compared (· == ·) a b)
  | "-ne" => some (compared (· != ·) a b)
  | "-lt" => some (compared (· < ·) a b)
  | "-le" => some (compared (· ≤ ·) a b)
  | "-gt" => some (compared (· > ·) a b)
  | "-ge" => some (compared (· ≥ ·) a b)
  | _ => none

mutual

/-- A condition without connectives. -/
def primary (v : View) (bound : Nat) (arguments : List String) : Verdict :=
  match bound with
  | 0 => .error "too many arguments"
  | bound + 1 =>
    let simple : Verdict := match arguments with
      | [] => .error "argument expected"
      | "!" :: rest =>
        if rest.isEmpty then .ok (true, [])
        else (primary v bound rest).map fun (b, rest) => (!b, rest)
      | "(" :: rest =>
        if rest.isEmpty then .ok (true, [])
        else do
          match ← alternatives v bound rest with
          | (b, ")" :: rest) => return (b, rest)
          | _ => .error "closing paren expected"
      | operator :: operand :: rest =>
        match unary? v operator operand with
        | some b => .ok (b, rest)
        | none => .ok (!operator.isEmpty, operand :: rest)
      | [text] => .ok (!text.isEmpty, [])
    match arguments with
    | a :: operator :: b :: rest =>
      match binary? a operator b with
      | some verdict => verdict.map (·, rest)
      | none => simple
    | _ => simple

/-- Conditions that all hold. -/
def conjunction (v : View) (bound : Nat) (arguments : List String) : Verdict :=
  match bound with
  | 0 => .error "too many arguments"
  | bound + 1 => do
    match ← primary v bound arguments with
    | (a, "-a" :: rest) => return (← conjunction v bound rest).map (a && ·) id
    | verdict => return verdict

/-- Conditions of which one holds. -/
def alternatives (v : View) (bound : Nat) (arguments : List String) : Verdict :=
  match bound with
  | 0 => .error "too many arguments"
  | bound + 1 => do
    match ← conjunction v bound arguments with
    | (a, "-o" :: rest) => return (← alternatives v bound rest).map (a || ·) id
    | verdict => return verdict

end

/-- The value of a whole condition; an empty one does not hold. -/
def evaluate (v : View) (arguments : List String) : Except String Bool :=
  if arguments.isEmpty then .ok false
  else
    match alternatives v (3 * arguments.length + 3) arguments with
    | .ok (b, []) => .ok b
    | .ok (_, extra :: _) => .error (extra ++ ": unexpected operator")
    | .error complaint => .error complaint

end DaemonKeeper.Rehearsal.Shell.Condition
