import DaemonKeeper.Command.Completion
import DaemonKeeper.Duration
import DaemonKeeper.Rehearsal.Files
import DaemonKeeper.Rehearsal.Shell.Script
set_option autoImplicit false

/-!
# Rehearsal: programs that run

A program that runs is what is left of its dialogue with the machine, so it can be laid aside while
it sleeps or waits and taken up again later.  Most programs are shells or are started by one; they
share an environment of variables, descriptors and traps.
-/

namespace DaemonKeeper.Rehearsal

/-- What a signal does to a process. -/
inductive Disposition where
  | standard
  | ignored
  /-- It is kept until the process asks for it. -/
  | caught
  deriving DecidableEq, Repr

/-- Where output goes. -/
inductive Sink where
  | stdout
  | stderr
  | file (place : Place)
  | nowhere
  /-- Into the innermost capture but some, counted from outside. -/
  | held (index : Nat)
  deriving DecidableEq, Repr

/-- The environment of a shell and what it starts. -/
structure Surroundings where
  self : Nat
  /-- The name that the script goes by. -/
  name : String
  arguments : List String := []
  bindings : List (String × String) := []
  functions : List (String × Shell.Script) := []
  directory : Place
  /-- What is left of standard input. -/
  input : List UInt8 := []
  sinks : List (Nat × Sink)
  /-- Captured output, the innermost capture first, the latest piece first. -/
  held : List (List (List UInt8)) := []
  status : Nat := 0
  /-- The status of the last script whose output was put into a word. -/
  captureStatus : Nat := 0
  lastBackground : Option Nat := none
  jobs : List Nat := []
  /-- What is done on a signal; number zero is the end of the script. -/
  traps : List (Nat × String) := []
  line : Nat := 1
  /-- Another script of the same process started this one. -/
  nested : Bool := false
  /-- How many loops are around the present command. -/
  loops : Nat := 0
  /-- The script ends when a command fails, unless its status is tested. -/
  strict : Bool := false
  /-- The status of the present command is tested. -/
  tested : Bool := false
  /-- Variables that started programs see. -/
  exported : List String := ["PATH"]
  /-- What the local variables of the present function were before; outside of functions none. -/
  saved : Option (List (String × Option String)) := none

instance : Inhabited Surroundings := ⟨{ self := 0, name := "", directory := [], sinks := [] }⟩

/-- What a program asks of the machine. -/
inductive Call where
  /-- The files as they are. -/
  | look
  /-- The files as they are to be. -/
  | keep (files : Files)
  | emit (toStderr : Bool) (bytes : List UInt8)
  | sleep (duration : Duration)
  /-- Sends a signal and tells whether there was somebody to get it. -/
  | signal (target : Int) (number : Nat)
  | dispose (number : Nat) (disposition : Disposition)
  /-- A signal that was caught and not yet asked for. -/
  | caught
  /-- Takes a new command name. -/
  | rename (command : String)
  /-- Starts a script beside this one. -/
  | fork (script : Shell.Script) (surroundings : Surroundings)
  /-- Waits for a child, unless a signal comes first. -/
  | wait (pid : Nat)
  /-- Lets others run. -/
  | yield

/-- What the machine replies. -/
abbrev Call.Reply : Call → Type
  | .look => Files
  | .keep _ => Unit
  | .emit _ _ => Unit
  | .sleep _ => Unit
  | .signal _ _ => Bool
  | .dispose _ _ => Unit
  | .caught => Option Nat
  | .rename _ => Unit
  | .fork _ _ => Nat
  | .wait _ => Option Exit
  | .yield => Unit

/-- What is left of a program. -/
inductive Program (α : Type) : Type where
  | done (result : α)
  | call (c : Call) (next : c.Reply → Program α)

namespace Program

variable {α β : Type}

/-- First one program, then another that depends on its result. -/
protected def bind : Program α → (α → Program β) → Program β
  | .done a, next => next a
  | .call c k, next => .call c fun reply => (k reply).bind next

instance : Monad Program where
  pure := .done
  bind := Program.bind

end Program

/-- Why a script does not go on with the next command. -/
inductive Halt where
  | exit (status : Nat)
  | leave (levels : Nat)
  | again (levels : Nat)
  | back (status : Nat)
  deriving DecidableEq, Repr

/-- A program that runs in surroundings. -/
abbrev Running := ExceptT Halt (StateT Surroundings Program)

namespace Running

/-- Asks the machine. -/
def ask (c : Call) : Running c.Reply := ExceptT.lift (StateT.lift (.call c .done))

/-- The files as they are. -/
def files : Running Files := ask .look

/-- Where a descriptor leads. -/
def sink (descriptor : Nat) : Running Sink := do
  return ((← get).sinks.lookup descriptor).getD .nowhere

/-- Adds to the capture with an index counted from outside. -/
def hold (index : Nat) (bytes : List UInt8) : Running Unit := modify fun s =>
  let position := s.held.length - 1 - index
  { s with held := s.held.modify position (bytes :: ·) }

/-- Writes to a descriptor. -/
def emit (descriptor : Nat) (bytes : List UInt8) : Running Unit := do
  match ← sink descriptor with
  | .stdout => ask (.emit false bytes)
  | .stderr => ask (.emit true bytes)
  | .nowhere => return ()
  | .held index => hold index bytes
  | .file place => ask (.keep ((← files).fill place true bytes))

/-- Writes a text to standard output. -/
def print (s : String) : Running Unit := emit 1 (Text.bytes s)

/-- Writes a line to standard error, and fails. -/
def complain (s : String) : Running Nat := do
  emit 2 (Text.bytes (s ++ "\n"))
  return 1

/-- The value of a variable. -/
def lookup (name : String) : Running (Option String) := do return (← get).bindings.lookup name

/-- Sets a variable. -/
def assign (name value : String) : Running Unit := modify fun s =>
  { s with bindings := (name, value) :: s.bindings.filter (·.1 != name) }

/-- Takes a variable away. -/
def unset (name : String) : Running Unit := modify fun s =>
  { s with bindings := s.bindings.filter (·.1 != name) }

/-- Takes everything that is left of standard input. -/
def takeInput : Running (List UInt8) := do
  let s ← get
  set { s with input := [] }
  return s.input

/-- Carries something out and answers why it did not come to its end, if so. -/
def attempt {α : Type} (x : Running α) : Running (Except Halt α) := ExceptT.lift x.run

/-- Carries something out and then goes back to the surroundings before it, apart from what was
captured. -/
def isolated {α : Type} (x : Running α) : Running (Except Halt α) := do
  let before ← get
  modify fun s => { s with nested := true }
  let outcome ← attempt x
  modify fun s => { before with held := s.held }
  return outcome

end Running

end DaemonKeeper.Rehearsal
