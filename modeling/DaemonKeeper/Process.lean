import DaemonKeeper.Action
import DaemonKeeper.Config.Model
set_option autoImplicit false

/-!
# Process supervisor: one supervised child (SPEC §3.4)

The operations `start`, `isRunning`, `pid`, `stop` and `kill` of a managed process, which holds at
most one child.  The child is let go only after a status query has said that it ended, or after it
was killed; a query that fails keeps it.  Every operation answers with the process as it is
afterwards, also when it ends in a fault.

A stop sends one signal and then checks so often, with a pause between two checks.  It never goes
further by itself: SPEC §3.4 leaves `kill` to the shutdown.
-/

namespace DaemonKeeper

/-- A handle for a long-running child process. -/
structure ManagedProcess where
  label : String
  stopPolicy : StopPolicy := .default
  child : Option Nat := none
  deriving DecidableEq, Repr

namespace ManagedProcess

/-- The process id that is told when nothing is running. -/
def notRunningPid : Int := -1

/-- A child was started and has not been seen to end. -/
def isRunning (p : ManagedProcess) : Action (Bool × ManagedProcess) :=
  match p.child with
  | none => pure (false, p)
  | some pid => do
    match ← Action.request (.status pid) with
    | .exited => pure (false, { p with child := none })
    | .alive | .unknown => pure (true, p)

/-- The process id of the child. -/
def pid (p : ManagedProcess) : Action (Int × ManagedProcess) := do
  let (running, p) ← p.isRunning
  match running, p.child with
  | true, some pid => pure (pid, p)
  | _, _ => pure (notRunningPid, p)

/-- Starts an executable.  What is not an executable file is refused before it is looked whether a
child is running. -/
def start (p : ManagedProcess) (executable : Path) (arguments : List String) :
    Action (Except Fault Unit × ManagedProcess) := do
  if !(← Action.request (.isExecutable executable)) then
    return (.error (.notExecutable executable), p)
  let (running, p) ← p.isRunning
  if running then
    let (pid, p) ← p.pid
    return (.error (.alreadyRunning p.label pid), p)
  match ← Action.request (.spawn executable arguments) with
  | .ok pid => return (.ok (), { p with child := some pid })
  | .error cause =>
    return (.error (if cause.isDenial then .notExecutable executable else .io cause), p)

/-- Checks whether the child is running and sleeps if it is, at most `remaining` times.  Answers how
many sleeps there were, counted on from `checks`. -/
def awaitExit : Nat → Nat → ManagedProcess → Action (Nat × ManagedProcess)
  | 0, checks, p => pure (checks, p)
  | remaining + 1, checks, p => do
    let (running, p) ← p.isRunning
    if running then
      Action.request (.sleep p.stopPolicy.pollInterval)
      awaitExit remaining (checks + 1) p
    else pure (checks, p)

/-- Asks the child to end and waits for it as long as the stop policy allows.  A child that is alive
after that is a fault; it is not killed. -/
def stop (p : ManagedProcess) : Action (Except Fault Unit × ManagedProcess) := do
  let (running, p) ← p.isRunning
  if !running then return (.ok (), p)
  let (pid, p) ← p.pid
  match ← Action.request (.signal pid .terminate) with
  | .error cause => return (.error (.io cause), p)
  | .ok () =>
    let (checks, p) ← awaitExit p.stopPolicy.maxChecks 0 p
    let (running, p) ← p.isRunning
    if running then return (.error (.stopTimeout p.label pid checks), p)
    return (.ok (), p)

/-- Kills the child and waits for its end. -/
def kill (p : ManagedProcess) : Action (Except Fault Unit × ManagedProcess) :=
  match p.child with
  | none => pure (.ok (), p)
  | some pid => do
    match ← Action.request (.kill pid) with
    | .error cause => return (.error (.io cause), p)
    | .ok () => return (.ok (), { p with child := none })

end ManagedProcess

end DaemonKeeper
