import DaemonKeeper.Config.Model
import DaemonKeeper.Text.Quoted
set_option autoImplicit false

/-!
# Configuration: summary of what would be built and run (SPEC §4.4, §5)

The lines that `--dry-run` prints instead of a run: settings, coordinator, projects and daemons.  A
list is mentioned only if it is not empty.
-/

namespace DaemonKeeper

namespace Summary

/-- A line about something that was named on a line before. -/
def detail (key value : String) : String := "      " ++ key ++ ": " ++ value

/-- The line that names something. -/
def entry (name : String) : String := "  - " ++ name

/-- The line for a list of words, unless there are none. -/
def words (key : String) : List String → List String
  | [] => []
  | ws => [detail key (Text.quotedList ws)]

/-- The line that counts the entries of a section. -/
def heading (key : String) (count : Nat) : String := key ++ " (" ++ toString count ++ "):"

end Summary

/-- The lines about a project on a machine with `cpus` processors. -/
def ProjectSpec.summary (cpus : Nat) (name : String) (p : ProjectSpec) : List String :=
  [Summary.entry name,
    Summary.detail "repository" (p.repository ++ " (" ++ p.branch ++ ")"),
    Summary.detail "build" (p.buildSystem.name ++ " " ++ p.buildType.name ++ " -j "
      ++ toString (p.effectiveJobs cpus))]
    ++ Summary.words "cmake_flags" p.cmakeFlags
    ++ (if p.install then [Summary.detail "install" "true"] else [])
    ++ Summary.words "vendored" p.vendored
    ++ Summary.words "after" p.after

/-- The lines about a daemon. -/
def DaemonSpec.summary (name : String) (d : DaemonSpec) : List String :=
  [Summary.entry name,
    Summary.detail "project" d.project,
    Summary.detail "executable" d.executable.text,
    Summary.detail "restart" d.restart.name]
    ++ Summary.words "args" d.arguments

/-- The lines about the coordinator. -/
def CoordinatorSpec.summary (c : CoordinatorSpec) : List String :=
  ["coordinator:", Summary.detail "executable" c.executable.text]
    ++ Summary.words "args" c.arguments ++ [""]

namespace Config

/-- The lines about the settings. -/
def settingsSummary (cfg : Config) : List String :=
  ["buildwatch dry-run",
    "  config.workspace = " ++ cfg.settings.workspace.text,
    "  config.remote = git@" ++ cfg.settings.gitHost ++ ":" ++ cfg.settings.organization
      ++ "/<repository>.git",
    "  config.poll_interval = " ++ cfg.pollInterval.text,
    "  config.stop = " ++ toString cfg.stopPolicy.maxChecks ++ " checks every "
      ++ cfg.stopPolicy.pollInterval.text,
    ""]

/-- The whole summary. -/
def summary (cfg : Config) (cpus : Nat) : List String :=
  cfg.settingsSummary
    ++ (match cfg.coordinator with
      | some c => c.summary
      | none => [])
    ++ Summary.heading "projects" cfg.projects.size
      :: cfg.projects.entries.flatMap (fun e => e.2.summary cpus e.1)
    ++ "" :: Summary.heading "daemons" cfg.daemons.size
      :: cfg.daemons.entries.flatMap (fun e => e.2.summary e.1)

end Config

end DaemonKeeper
