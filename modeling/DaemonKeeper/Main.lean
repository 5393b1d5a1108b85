import DaemonKeeper.Entry
set_option autoImplicit false

/-!
# The program

Carries a run out on the machine that it is started on.  Files are read and written there.  Nothing
is started from here: the machine refuses commands and children, so only a run that needs none of
them comes to its end.
-/

namespace DaemonKeeper.Main

/-- What a failure on the machine is called here. -/
def faultOf : IO.Error → IoFault
  | .noFileOrDirectory .. => .notFound
  | .alreadyExists .. => .alreadyExists
  | .permissionDenied _ code _ | .inappropriateType _ code _ | .invalidArgument _ code _
  | .noSuchThing _ code _ | .unsatisfiedConstraints code _ =>
    (IoFault.ofNumber? code.toNat).getD .permissionDenied
  | _ => .notImplemented

/-- Does something with a path, and answers the refusal if there is one. -/
def tryWith {α : Type} (path : Path) (x : IO α) : IO (Except IoFault α) := do
  if '\x00' ∈ path.text.toList then return .error .nulInPath
  try return .ok (← x)
  catch e => return .error (faultOf e)

/-- Something is there that can be read like a directory. -/
def isDirectory (path : Path) : IO Bool := do
  match ← tryWith path (IO.FS.readBinFile path.text) with
  | .error .isADirectory => return true
  | _ => return false

/-- A span of time in whole milliseconds. -/
def milliseconds (d : Duration) : UInt32 := .ofNat (d.nanoseconds / 1000000)

/-- The machine answers a request. -/
def answer : (q : Request) → IO q.Reply
  | .run _ _ => return .error (.io .notImplemented)
  | .readFile path => do
    return (← tryWith path (IO.FS.readBinFile path.text)).map fun bytes => bytes.toList
  | .isDirectory path => isDirectory path
  | .isExecutable _ => return false
  | .createDirectory path => tryWith path (IO.FS.createDirAll path.text)
  | .writeFile path text => tryWith path (IO.FS.writeFile path.text text)
  | .spawn _ _ => return .error .notImplemented
  | .status _ => return .unknown
  | .signal _ _ => return .error .notImplemented
  | .kill _ => return .error .notImplemented
  | .sleep duration => IO.sleep (milliseconds duration)
  | .pause duration => do
    IO.sleep (milliseconds duration)
    return .elapsed
  | .clock => return .ofSeconds ((← IO.monoMsNow) / 1000 : Nat)

/-- Where the system tells about its processors. -/
def processorFile : Path := ⟨"/proc/cpuinfo"⟩

/-- The number of processors, at least one. -/
def processors : IO Nat := do
  match ← tryWith processorFile (IO.FS.lines processorFile.text) with
  | .ok lines => return max 1 (lines.toList.filter fun l => l.startsWith "processor").length
  | .error _ => return 1

end DaemonKeeper.Main

/-- Runs the program with the arguments of its command line. -/
def main (arguments : List String) : IO UInt32 := do
  let environment ← IO.getEnv DaemonKeeper.LogFilter.environmentName
  let run := DaemonKeeper.Entry.run arguments environment (← DaemonKeeper.Main.processors)
  let outcome ← run.runM DaemonKeeper.Main.answer
  IO.print outcome.stdout
  if let some report := outcome.report then IO.eprint report
  return .ofNat outcome.code
