import DaemonKeeper.Calendar
import DaemonKeeper.Command
import DaemonKeeper.Fault
set_option autoImplicit false

/-!
# Requests to the machine

Everything that is done outside the program is asked for by a request and seen again only through
the reply: commands (SPEC §3.1), child processes (SPEC §3.4), files, and the clock.  No reply is
promised: commands fail, files are missing and processes end at any moment.
-/

namespace DaemonKeeper

/-- What a status query says about a child process. -/
inductive ChildStatus where
  | alive
  /-- The child has ended, and this query has taken its exit status. -/
  | exited
  /-- The query itself failed; the child may be alive. -/
  | unknown
  deriving DecidableEq, Repr

/-- Why a pause ended. -/
inductive Wake where
  | elapsed
  | interrupted
  deriving DecidableEq, Repr

/-- The signal that asks a process to end, or the one that ends it. -/
inductive Signal where
  | terminate
  | kill
  deriving DecidableEq, Repr

/-- Something asked of the machine. -/
inductive Request where
  /-- Run a command in a directory to its end. -/
  | run (directory : Path) (command : Command)
  /-- Read a file. -/
  | readFile (path : Path)
  /-- Is there a directory here? -/
  | isDirectory (path : Path)
  /-- Is there a regular file here that may be executed? -/
  | isExecutable (path : Path)
  /-- Create a directory with its parents, unless it is there. -/
  | createDirectory (path : Path)
  /-- Write a file, replacing what is there. -/
  | writeFile (path : Path) (text : String)
  /-- Start a child process in a process group of its own, without standard input. -/
  | spawn (executable : Path) (arguments : List String)
  /-- Has a child ended? -/
  | status (pid : Nat)
  /-- Send a signal to a process, or to every process if the target is -1. -/
  | signal (target : Int) (signal : Signal)
  /-- Kill a child and wait for its end. -/
  | kill (pid : Nat)
  /-- Wait. -/
  | sleep (duration : Duration)
  /-- Wait until the time is over or the operator interrupts. -/
  | pause (duration : Duration)
  /-- What is the local time? -/
  | clock
  deriving DecidableEq, Repr

/-- What the reply to a request is. -/
abbrev Request.Reply : Request → Type
  | .run _ _ => Except Fault Output
  | .readFile _ => Except IoFault (List UInt8)
  | .isDirectory _ => Bool
  | .isExecutable _ => Bool
  | .createDirectory _ => Except IoFault Unit
  | .writeFile _ _ => Except IoFault Unit
  | .spawn _ _ => Except IoFault Nat
  | .status _ => ChildStatus
  | .signal _ _ => Except IoFault Unit
  | .kill _ => Except IoFault Unit
  | .sleep _ => Unit
  | .pause _ => Wake
  | .clock => Calendar.LocalTime

end DaemonKeeper
