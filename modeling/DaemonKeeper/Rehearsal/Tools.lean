import DaemonKeeper.Rehearsal.Program
import DaemonKeeper.Rehearsal.Shell.Condition
import DaemonKeeper.Rehearsal.Shell.Formatting
import DaemonKeeper.Text.Lines
set_option autoImplicit false

/-!
# Rehearsal: the programs that come with the machine

Small programs about files, texts and time that scripts and commands may start.  Each takes its
arguments and answers its exit status.
-/

namespace DaemonKeeper.Rehearsal.Tools

open Running

/-- Complains about something with a name. -/
def blame (tool what : String) (fault : IoFault) : Running Nat :=
  complain (tool ++ ": " ++ what ++ ": " ++ fault.wording)

/-- Does something to every argument; the worst status is answered. -/
def forEach (f : String → Running Nat) : List String → Running Nat
  | [] => return 0
  | a :: rest => do
    let first ← f a
    return max first (← forEach f rest)

/-- Changes the files, or complains. -/
def change (onFault : IoFault → Running Nat) (f : Files → Place → Except IoFault Files) :
    Running Nat := do
  let here := (← get).directory
  match f (← files) here with
  | .ok changed =>
    ask (.keep changed)
    return 0
  | .error fault => onFault fault

/-- The options before the operands, and the operands. -/
def options (arguments : List String) : List String × List String :=
  let isOption (a : String) := begins a && a != "-" && a != "--"
  let front := arguments.takeWhile isOption
  let rest := arguments.drop front.length
  (front, if rest.head? = some "--" then rest.drop 1 else rest)
where
  /-- Begins with a dash. -/
  begins (a : String) : Bool := a.toList.head? = some '-'

/-- A letter stands in some option. -/
def hasLetter (c : Char) (front : List String) : Bool := front.any fun a => c ∈ a.toList.drop 1

/-! ## Texts -/

/-- Prints its arguments. -/
def echo (escapes : Bool) (arguments : List String) : Running Nat := do
  let isFlag (a : String) := a ∈ ["-n", "-e", "-E", "-ne", "-en"]
  let flags := if escapes then (if arguments.head? = some "-n" then ["-n"] else [])
    else arguments.takeWhile isFlag
  let text := String.intercalate " " (arguments.drop flags.length)
  let expand := escapes || flags.any fun a => 'e' ∈ a.toList
  let (bytes, ended) := if expand then Shell.unescape text.toList else (Text.bytes text, false)
  let newline := !(ended || flags.any fun a => 'n' ∈ a.toList)
  emit 1 (if newline then bytes ++ [10] else bytes)
  return 0

/-- Prints its arguments in a format. -/
def printf : List String → Running Nat
  | [] => do
    let _ ← complain "printf: usage: printf format [arg ...]"
    return 2
  | "--" :: format :: arguments | format :: arguments => do
    emit 1 (Shell.formatted format arguments)
    return 0

/-- Answers whether a condition holds. -/
def test (name : String) (arguments : List String) : Running Nat := do
  let here := (← get).directory
  let view : Shell.Condition.View := ⟨← files, here⟩
  match Shell.Condition.evaluate view arguments with
  | .ok b => return if b then 0 else 1
  | .error complaint =>
    let s ← get
    let _ ← complain (s.name ++ ": " ++ toString s.line ++ ": " ++ name ++ ": " ++ complaint)
    return 2

/-- The bytes of a file, or of standard input for a dash. -/
def source (tool path : String) : Running (Option (List UInt8)) := do
  if path = "-" then return some (← takeInput)
  let here := (← get).directory
  match (← files).read here path with
  | .ok bytes => return some bytes
  | .error fault =>
    let _ ← blame tool path fault
    return none

/-- Prints what a function makes of every file. -/
def filter (tool : String) (f : List UInt8 → List UInt8) (paths : List String) : Running Nat :=
  forEach (fun path => do
    match ← source tool path with
    | some bytes =>
      emit 1 (f bytes)
      return 0
    | none => return 1) (if paths.isEmpty then ["-"] else paths)

/-- The lines of bytes, each with its ending. -/
def endedLines (bytes : List UInt8) : List (List UInt8) :=
  let step (b : UInt8) : List (List UInt8) → List (List UInt8)
    | [] => [[b]]
    | line :: rest => if b = 10 then [b] :: line :: rest else (b :: line) :: rest
  bytes.foldr step []

/-- How much of a file is asked for. -/
inductive Extent where
  | lines (n : Nat)
  | bytes (n : Nat)
  deriving DecidableEq, Repr

/-- What the options ask for, and the files. -/
def extent : List String → Extent × List String
  | "-n" :: n :: rest => (.lines (n.toNat?.getD 10), rest)
  | "-c" :: n :: rest => (.bytes (n.toNat?.getD 10), rest)
  | a :: rest =>
    let isNumber (cs : List Char) : Bool := !cs.isEmpty && cs.all Char.isDigit
    match a.toList with
    | '-' :: 'c' :: digits =>
      if isNumber digits then (.bytes (Nat.ofDigitChars 10 digits 0), rest) else (.lines 10, a :: rest)
    | '-' :: 'n' :: digits | '-' :: digits =>
      if isNumber digits then (.lines (Nat.ofDigitChars 10 digits 0), rest) else (.lines 10, a :: rest)
    | _ => (.lines 10, a :: rest)
  | [] => (.lines 10, [])

/-- Prints the front of files. -/
def head (arguments : List String) : Running Nat :=
  let (extent, paths) := extent arguments
  filter "head" (fun bytes =>
    match extent with
    | .lines n => ((endedLines bytes).take n).flatten
    | .bytes n => bytes.take n) paths

/-- Prints the end of files. -/
def tail (arguments : List String) : Running Nat :=
  let (extent, paths) := extent arguments
  filter "tail" (fun bytes =>
    let lines := endedLines bytes
    match extent with
    | .lines n => (lines.drop (lines.length - n)).flatten
    | .bytes n => bytes.drop (bytes.length - n)) paths

/-- Counts lines, words or bytes. -/
def wc (arguments : List String) : Running Nat :=
  let (front, paths) := options arguments
  let isSpace (b : UInt8) := b = 32 || (9 ≤ b && b ≤ 13)
  let words (bytes : List UInt8) := ((false, 0) |> bytes.foldl fun (inside, n) b =>
    if isSpace b then (false, n) else (true, if inside then n else n + 1)).2
  let counts (bytes : List UInt8) : List Nat :=
    (if hasLetter 'l' front || front.isEmpty then [bytes.count 10] else [])
      ++ (if hasLetter 'w' front || front.isEmpty then [words bytes] else [])
      ++ (if hasLetter 'c' front || front.isEmpty then [bytes.length] else [])
  filter "wc" (fun bytes =>
    Text.bytes (String.intercalate " " ((counts bytes).map fun n => toString n) ++ "\n")) paths

/-- Prints lines in order, or in the opposite order if asked to. -/
def sort (arguments : List String) : Running Nat :=
  let (front, paths) := options arguments
  filter "sort" (fun bytes =>
    let lines := (Text.splitLines bytes).mergeSort (· ≤ ·)
    (if hasLetter 'r' front then lines.reverse else lines).flatMap fun l =>
      Text.bytes (l ++ "\n")) paths

/-- Prints numbers in a row. -/
def seq (arguments : List String) : Running Nat := do
  let numbers := arguments.map fun a => a.toInt?.getD 0
  let (first, step, last) := match numbers with
    | [last] => (1, 1, last)
    | [first, last] => (first, 1, last)
    | first :: step :: last :: _ => (first, step, last)
    | [] => (1, 1, 0)
  let count := if step = 0 then 0 else ((last - first) / step + 1).toNat
  print (String.join ((List.range count).map fun i : Nat => toString (first + step * (i : Int)) ++ "\n"))
  return 0

/-! ## Files -/

/-- Lists names. -/
def ls (arguments : List String) : Running Nat := do
  let (front, paths) := options arguments
  let all := hasLetter 'a' front
  let most := hasLetter 'A' front
  let here := (← get).directory
  let fs ← files
  let shown (place : Place) : List String :=
    (if all then [".", ".."] else []) ++ (fs.names place).filter fun n =>
      all || most || n.toList.head? != some '.'
  let lines (ns : List String) : String := String.join (ns.map (· ++ "\n"))
  let targets := if paths.isEmpty then ["."] else paths.mergeSort (· ≤ ·)
  let status ← forEach (fun path => do
    match fs.locate true here path with
    | .ok (.found _ .directory) => return 0
    | .ok (.found _ _) =>
      print (lines [path])
      return 0
    | .ok (.vacant ..) =>
      let _ ← complain ("ls: cannot access '" ++ path ++ "': " ++ IoFault.notFound.wording)
      return 2
    | .error fault =>
      let _ ← complain ("ls: cannot access '" ++ path ++ "': " ++ fault.wording)
      return 2) targets
  let directories := targets.filterMap fun path =>
    match fs.find here path with
    | .ok (place, .directory) => some (path, place)
    | _ => none
  if targets.length = 1 then
    print (String.join (directories.map fun d => lines (shown d.2)))
  else
    print (String.intercalate "\n" (directories.map fun d => d.1 ++ ":\n" ++ lines (shown d.2)))
  return status

/-- Creates files that are not there. -/
def touch (arguments : List String) : Running Nat :=
  forEach (fun path => change
    (fun fault => complain ("touch: cannot touch '" ++ path ++ "': " ++ fault.wording))
    fun fs here =>
      if fs.exists? here path then .ok fs else fs.write here path []) (options arguments).2

/-- Creates directories. -/
def mkdir (arguments : List String) : Running Nat :=
  let (front, paths) := options arguments
  forEach (fun path => change
    (fun fault => complain ("mkdir: cannot create directory '" ++ path ++ "': " ++ fault.wording))
    fun fs here =>
      if hasLetter 'p' front then
        let (outcome, fs) := fs.createDirectory here path
        outcome.map fun _ => fs
      else fs.makeDirectory here (isAbsolute path) (stepsOf path)) paths

/-- Removes files, and directories if asked to. -/
def rm (arguments : List String) : Running Nat :=
  let (front, paths) := options arguments
  let force := hasLetter 'f' front
  let recursive := hasLetter 'r' front || hasLetter 'R' front
  forEach (fun path => change
    (fun fault =>
      if force && fault = .notFound then return 0
      else complain ("rm: cannot remove '" ++ path ++ "': " ++ fault.wording))
    fun fs here =>
      match fs.locate false here path with
      | .ok (.found _ .directory) =>
        if recursive then fs.remove here path else .error .isADirectory
      | _ => fs.remove here path) paths

/-- Removes empty directories. -/
def rmdir (arguments : List String) : Running Nat :=
  forEach (fun path => change
    (fun fault => complain ("rmdir: failed to remove '" ++ path ++ "': " ++ fault.wording))
    fun fs here =>
      match fs.locate false here path with
      | .ok (.found place .directory) =>
        if (fs.names place).isEmpty then fs.remove here path else .error .notEmpty
      | .ok (.found ..) => .error .notADirectory
      | _ => fs.remove here path) (options arguments).2

/-- The place that something is moved or copied to: below a directory, or instead of a file. -/
def destination (fs : Files) (here : Place) (name target : String) : Except IoFault Place :=
  match fs.locate true here target with
  | .ok (.found place .directory) => .ok (place ++ [name])
  | .ok (.found place _) => .ok place
  | .ok (.vacant directory name _) => .ok (directory ++ [name])
  | .error fault => .error fault

/-- Moves or copies sources to the last argument. -/
def transfer (tool : String) (f : Files → Place → Place → Files) (arguments : List String) :
    Running Nat := do
  let paths := (options arguments).2
  match paths.getLast?, paths.dropLast with
  | some target, source :: more =>
    forEach (fun path => change
      (fun fault => complain (tool ++ ": cannot stat '" ++ path ++ "': " ++ fault.wording))
      fun fs here => do
        match ← fs.locate false here path with
        | .vacant .. => .error .notFound
        | .found place _ =>
          let goal ← destination fs here (place.getLast?.getD "") target
          return if goal = place then fs else f fs place goal) (source :: more)
  | _, _ => complain (tool ++ ": missing file operand")

/-- Moves files and directories. -/
def mv (arguments : List String) : Running Nat :=
  transfer "mv" (fun fs source target => fs.relocate source target) arguments

/-- Copies files. -/
def cp (arguments : List String) : Running Nat :=
  transfer "cp" (fun fs source target =>
    match fs.node? source with
    | some node => fs.put target node
    | none => fs) arguments

/-- Makes symbolic links. -/
def ln (arguments : List String) : Running Nat :=
  let (front, paths) := options arguments
  match paths with
  | [target, path] => change
    (fun fault => complain ("ln: failed to create symbolic link '" ++ path ++ "': " ++ fault.wording))
    fun fs here =>
      let cleared := if hasLetter 'f' front then (fs.remove here path).toOption.getD fs else fs
      cleared.symlink here path target
  | _ => complain "ln: missing file operand"

/-- The permissions that a text asks for. -/
def modeOf (old : Nat) (text : String) : Nat :=
  match text with
  | "+x" | "a+x" => old ||| 0o111
  | "u+x" => old ||| 0o100
  | "-x" | "a-x" => old &&& 0o666
  | _ => Nat.ofDigitChars 8 (text.toList.filter Shell.isOctal) 0

/-- Sets permissions. -/
def chmod : List String → Running Nat
  | mode :: paths => forEach (fun path => change
      (fun fault => complain ("chmod: cannot access '" ++ path ++ "': " ++ fault.wording))
      fun fs here => do
        match ← fs.find here path with
        | (_, .file old _) => fs.setMode here path (modeOf old mode)
        | _ => return fs) paths
  | [] => complain "chmod: missing operand"

/-- Prints the directory. -/
def pwd : Running Nat := do
  print ("/" ++ String.intercalate "/" (← get).directory ++ "\n")
  return 0

/-- Prints the last name of a path. -/
def basename (arguments : List String) : Running Nat := do
  let path := arguments.headD ""
  let name := ((Path.mk path).names.getLast?).getD (if isAbsolute path then "/" else path)
  let ending := (arguments[1]?).getD ""
  let cs := name.toList
  let kept := if ending.toList.isSuffixOf cs && name != ending then
      cs.take (cs.length - ending.length) else cs
  print (String.ofList kept ++ "\n")
  return 0

/-- Prints a path without its last name. -/
def dirname (arguments : List String) : Running Nat := do
  let path := arguments.headD ""
  let trimmed := (path.toList.reverse.dropWhile (· = '/'))
  let parent := ((trimmed.dropWhile (· != '/')).dropWhile (· = '/')).reverse
  let shown := if !parent.isEmpty then String.ofList parent
    else if isAbsolute path then "/" else "."
  print (shown ++ "\n")
  return 0

/-! ## Time -/

/-- The span of time that a text asks for. -/
def span? (text : String) : Option Duration :=
  let cs := text.toList
  let whole := cs.takeWhile Char.isDigit
  let rest := cs.drop whole.length
  let (fraction, unit) := match rest with
    | '.' :: rest => (rest.takeWhile Char.isDigit, rest.dropWhile Char.isDigit)
    | _ => ([], rest)
  let scale? := match unit with
    | [] | ['s'] => some 1
    | ['m'] => some 60
    | ['h'] => some 3600
    | ['d'] => some 86400
    | _ => none
  if whole.isEmpty && fraction.isEmpty then none
  else
    scale?.map fun scale =>
      ⟨scale * (Nat.ofDigitChars 10 whole 0 * 1000000000
        + Nat.ofDigitChars 10 (fraction.take 9) 0 * Nat.pow 10 (9 - (fraction.take 9).length))⟩

/-- Sleeps for the sum of its arguments. -/
def sleep (arguments : List String) : Running Nat := do
  match arguments.mapM span? with
  | some spans =>
    if spans.isEmpty then complain "sleep: missing operand"
    else
      ask (.sleep ⟨spans.foldl (fun n span => n + span.nanoseconds) 0⟩)
      return 0
  | none =>
    let bad := (arguments.find? fun a => (span? a).isNone).getD ""
    complain ("sleep: invalid time interval '" ++ bad ++ "'")

/-! ## All of them -/

/-- The programs that need nothing of a shell, by name. -/
def all : List (String × (List String → Running Nat)) :=
  [("basename", basename), ("cat", filter "cat" id), ("chmod", chmod), ("cp", cp),
    ("dirname", dirname), ("echo", echo false), ("false", fun _ => return 1), ("head", head),
    ("ln", ln), ("ls", ls), ("mkdir", mkdir), ("mv", mv), ("printf", printf),
    ("pwd", fun _ => pwd), ("rm", rm), ("rmdir", rmdir), ("seq", seq), ("sleep", sleep),
    ("sort", sort), ("tail", tail), ("test", test "test"), ("touch", touch),
    ("true", fun _ => return 0), ("wc", wc)]

/-- The shell and the programs that start others. -/
def starters : List String := ["sh", "dash", "env"]

/-- The names of all programs. -/
def names : List String := starters ++ ["["] ++ all.map (·.1)

end DaemonKeeper.Rehearsal.Tools
