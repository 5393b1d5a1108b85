import DaemonKeeper.Config.Summary
import DaemonKeeper.LogFilter
import DaemonKeeper.Supervisor
set_option autoImplicit false

/-!
# Entry: a run of the program (SPEC §4.2, §4.4)

From the arguments and the environment to an exit code, what is printed, and the report of what went
wrong.  The log filter is looked at before the configuration, the configuration before anything is
started.
-/

namespace DaemonKeeper.Entry

/-- The version of the program. -/
def version : String := "0.1.0"

/-- How a run ended. -/
structure Outcome where
  code : Nat
  stdout : String := ""
  /-- What is reported as an error. -/
  report : Option String := none
  deriving DecidableEq, Repr, Inhabited

namespace Outcome

/-- A run that did what it was asked to. -/
def success (stdout : String) : Outcome := { code := 0, stdout }

/-- A run that broke off without a report. -/
def broken : Outcome := { code := 101 }

end Outcome

/-- Lines, each ended by a line feed. -/
def printed (lines : List String) : String := String.join (lines.map (· ++ "\n"))

/-- The causes of a report, numbered if there are several. -/
def causesText : List String → String
  | [] => ""
  | [cause] => "\n\nCaused by:\n    " ++ cause
  | causes => "\n\nCaused by:"
    ++ String.join (causes.mapIdx fun i cause => "\n    " ++ toString i ++ ": " ++ cause)

/-- The report of something that went wrong. -/
def reportText (message : String) (causes : List String) : String :=
  "buildwatch error: " ++ message ++ causesText causes ++ "\n"

/-- A run that ended with a report. -/
def Outcome.failure (message : String) (causes : List String) : Outcome :=
  { code := 1, report := some (reportText message causes) }

/-- A run that a fault ended. -/
def Outcome.ofFault (fault : Fault) : Outcome := .failure fault.message fault.causes

/-- The help text. -/
def helpText : String :=
  printed [
    "Build, run, and rebuild daemons whenever their git branches move.",
    "",
    "Usage: buildwatch [OPTIONS]",
    "",
    "Options:",
    "      --config <PATH>           Path to the config file (TOML) [default: Buildwatch.toml]",
    "      --log-level <LEVEL>       Logging level (error, warn, info, debug, trace)",
    "      --dry-run                 Parse + validate, print the build plan, but don't run anything",
    "      --max-iterations <N>      Stop all daemons and exit after this many poll cycles",
    "  -h, --help                    Print help",
    "  -V, --version                 Print version"]

/-- What is printed when there is no run. -/
def refused : CommandLine.Refusal → Outcome
  | .help => .success helpText
  | .version => .success (printed ["buildwatch " ++ version])
  | refusal => { code := refusal.exitCode }

/-- Loads the configuration, then prints the summary or supervises. -/
def supervise (options : CommandLine.Options) (cpus : Nat) : Action Outcome := do
  match ← (Config.load options.config).attempt with
  | .error fault => return .ofFault fault
  | .ok cfg =>
    if options.dryRun then return .success (printed (cfg.summary cpus))
    match Supervisor.ofConfig cfg cpus with
    | .error fault => return .ofFault fault
    | .ok supervisor =>
      let (outcome, _) ← supervisor.run options.maxCycles
      match outcome with
      | .error fault => return .ofFault fault
      | .ok () => return .success ""

/-- Checks the log filter, then goes on. -/
def filtered (options : CommandLine.Options) (environment : Option String) (cpus : Nat) :
    Action Outcome :=
  let filter := LogFilter.directive options.logLevel environment
  match LogFilter.check filter with
  | .ok () => supervise options cpus
  | .error .cut => pure .broken
  | .error fault => pure <| .failure
      ("invalid log filter '" ++ filter ++ "' (from " ++ LogFilter.environmentName ++ ")")
      fault.causes

/-- A run with these arguments and this log filter in the environment, on a machine with `cpus`
processors. -/
def run (argv : List String) (environment : Option String) (cpus : Nat) : Action Outcome :=
  match CommandLine.parse argv with
  | .error refusal => pure (refused refusal)
  | .ok options => filtered options environment cpus

end DaemonKeeper.Entry
