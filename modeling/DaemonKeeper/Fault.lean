import DaemonKeeper.Config.Fault
import DaemonKeeper.IoFault
set_option autoImplicit false

/-!
# Faults (SPEC §4.2)

Everything that can go wrong in a run.  No fault is retried anywhere: it ends what was being done
and is reported once, in one wording.
-/

namespace DaemonKeeper

/-- What is wrong with a configuration file before its sections are looked at. -/
inductive TomlFault where
  /-- The text is not TOML. -/
  | malformed
  /-- A value does not have the form that its place asks for. -/
  | form (cause : FormFault)
  deriving DecidableEq, Repr

/-- Why something could not be done. -/
inductive Fault where
  | commandFailed (command : String) (code : Int) (stdout stderr : List String)
  | ambiguousReference (reference : String) (lines : Nat)
  | noCurrentBranch (directory : Path)
  | divergedHistory (repository : Path) (branch : String)
  | notExecutable (path : Path)
  | alreadyRunning (label : String) (pid : Int)
  | stopTimeout (label : String) (pid : Int) (checks : Nat)
  | invalidConfig (cause : ConfigFault)
  | dependencyCycle (project : String)
  | io (cause : IoFault)
  | toml (cause : TomlFault)
  | notBuilt (daemon : String)
  deriving DecidableEq, Repr

namespace Fault

/-- Lines of captured output, each on a line of its own. -/
def block (lines : List String) : String := String.intercalate "\n" lines

/-- How a fault is worded. -/
def message : Fault → String
  | .commandFailed command code stdout stderr =>
    "command `" ++ command ++ "` failed with exit code " ++ toString code ++ "\nstdout:\n"
      ++ block stdout ++ "\nstderr:\n" ++ block stderr
  | .ambiguousReference reference lines =>
    "reference '" ++ reference ++ "' resolved to " ++ toString lines
      ++ " lines, expected exactly one"
  | .noCurrentBranch directory => "no current branch found in " ++ Text.quoted directory.text
  | .divergedHistory repository branch =>
    "local branch '" ++ branch ++ "' and origin/" ++ branch ++ " have diverged in "
      ++ Text.quoted repository.text
  | .notExecutable path => Text.quoted path.text ++ " is not an executable regular file"
  | .alreadyRunning label pid =>
    "process '" ++ label ++ "' is already running (pid " ++ toString pid ++ ")"
  | .stopTimeout label pid checks =>
    "process '" ++ label ++ "' (pid " ++ toString pid ++ ") still alive after "
      ++ toString checks ++ " liveness checks"
  | .invalidConfig cause => "Configuration error: " ++ cause.message
  | .dependencyCycle project =>
    "Cycle detected in project dependencies: cycle detected in project dependencies involving "
      ++ "project '" ++ project ++ "'"
  | .io cause => "IO error: " ++ cause.message
  | .toml .malformed => "TOML parsing error"
  | .toml (.form cause) => "TOML parsing error: " ++ cause.message
  | .notBuilt daemon => "daemon '" ++ daemon ++ "' has not been built"

/-- The faults behind a fault, outermost first. -/
def causes : Fault → List String
  | .io cause => [cause.message]
  | .toml (.form cause) => [cause.message]
  | _ => []

end Fault

end DaemonKeeper
