import DaemonKeeper.Rehearsal.Files
set_option autoImplicit false

/-!
# Rehearsal: what an executable file turns into

A file that is executed is a program of the machine, or a script that names the program which reads
it in its first line.
-/

namespace DaemonKeeper.Rehearsal

/-- A program of the machine with its arguments, the first of which is the name it goes by. -/
structure Image where
  tool : String
  argv : List String
  /-- The name of the process. -/
  command : String
  deriving DecidableEq, Repr

namespace Image

/-- The last name of a path. -/
def lastName (path : String) : String := ((Path.mk path).names.getLast?).getD path

/-- A space or a tab. -/
def isGap (c : Char) : Bool := c = ' ' || c = '\t'

/-- The program that a script names in its first line, with one argument perhaps. -/
def interpreter? (bytes : List UInt8) : Option (String × Option String) :=
  match bytes with
  | 0x23 :: 0x21 :: rest =>
    let line := Text.decodeLossy (rest.takeWhile (· != 10))
    let trimmed := ((line.dropWhile isGap).reverse.dropWhile isGap).reverse
    let program := trimmed.takeWhile fun c => !isGap c
    let argument := (trimmed.drop program.length).dropWhile isGap
    if program.isEmpty then none
    else some (String.ofList program,
      if argument.isEmpty then none else some (String.ofList argument))
  | _ => none

/-- How many scripts may be read by scripts. -/
def scriptLimit : Nat := 5

/-- What becomes of a path that is executed with these arguments. -/
def load (files : Files) (here : Place) : Nat → String → List String → Except IoFault Image
  | 0, _, _ => .error .tooManyLinks
  | limit + 1, path, argv =>
    match files.find here path with
    | .error fault => .error fault
    | .ok (_, .tool tool) => .ok ⟨tool, argv, lastName path⟩
    | .ok (_, .file mode bytes) =>
      if !Files.isExecutableMode mode then .error .permissionDenied
      else
        match interpreter? bytes with
        | none => .error .execFormat
        | some (program, argument) =>
          (load files here limit program (program :: argument.toList ++ path :: argv.drop 1)).map
            fun image => { image with command := lastName path }
    | .ok _ => .error .permissionDenied

/-- Where programs are looked for. -/
def searchPath : List String :=
  ["/usr/local/sbin", "/usr/local/bin", "/usr/sbin", "/usr/bin", "/sbin", "/bin"]

/-- The path of a program by its name.  One that may not be executed is named only if there is no
other. -/
def search (files : Files) (here : Place) (name : String) : List String → IoFault →
    Except IoFault String
  | [], fault => .error fault
  | directory :: rest, fault =>
    let path := directory ++ "/" ++ name
    if files.isExecutable here path then .ok path
    else search files here name rest
      (if files.exists? here path then .permissionDenied else fault)

/-- The path of a program: as it is if it has a separator, else looked for. -/
def resolve (files : Files) (here : Place) (name : String) : Except IoFault String :=
  if '/' ∈ name.toList then .ok name
  else if name.isEmpty then .error .notFound
  else search files here name searchPath .notFound

/-- What becomes of a command that is executed. -/
def ofCommand (files : Files) (here : Place) (argv : List String) : Except IoFault Image :=
  match argv with
  | [] => .error .notFound
  | name :: _ =>
    if argv.any fun a => '\x00' ∈ a.toList then .error .nulInArgument
    else do load files here scriptLimit (← resolve files here name) argv

end Image

end DaemonKeeper.Rehearsal
