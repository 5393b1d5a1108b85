import DaemonKeeper.Command
import DaemonKeeper.Fault
import DaemonKeeper.Text.Lines
set_option autoImplicit false

/-!
# Command runner: commands that have ended (SPEC §3.1)

What a command leaves when it ends, and what `run` makes of it.  Its output is captured whole and
told in lines.  Only an exit code of zero is success; a death by signal is told as the code -1.
-/

namespace DaemonKeeper

/-- How a process ended. -/
inductive Exit where
  | code (n : Nat)
  | signal (number : Nat)
  deriving DecidableEq, Repr, Inhabited

/-- The exit code that is told; a process that a signal ended has none of its own. -/
def Exit.told : Exit → Int
  | .code n => n
  | .signal _ => -1

/-- What a command leaves. -/
structure Completion where
  exit : Exit
  stdout : List UInt8
  stderr : List UInt8
  deriving DecidableEq, Repr

/-- The output of a command that succeeded, or the fault of one that did not. -/
def Completion.outcome (c : Completion) (command : Command) : Except Fault Output :=
  let stdout := Text.splitLines c.stdout
  let stderr := Text.splitLines c.stderr
  if c.exit = .code 0 then .ok ⟨0, stdout, stderr⟩
  else .error (.commandFailed command.text c.exit.told stdout stderr)

end DaemonKeeper
