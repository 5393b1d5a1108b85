import DaemonKeeper.Process
import DaemonKeeper.Project
set_option autoImplicit false

/-!
# Daemons: a project and the process that runs what it builds (SPEC §3.5, §5)

One daemon in the phases of the build-and-run loop.  `cloneSources` and `build` are its part of the
building phase: the sources, the recipe, and the check that the binary is there and executable.
`hasUpstreamChange` asks whether it has to be built again.  `ensureStarted`, `stop` and `shutdown`
start its process, stop it, and end it for good, by `kill` if it does not end in time.

A daemon knows the binary of its last build that was completed and checked.  Building changes that
binary and nothing else: a process that is running keeps the binary it was started from until it is
stopped.  Every operation answers with the daemon as it is afterwards, also when it ends in a fault.
-/

namespace DaemonKeeper

/-- A supervised daemon. -/
structure Daemon where
  name : String
  project : Project
  /-- The binary, relative to the build output. -/
  binary : Path
  arguments : List String
  restart : RestartPolicy
  process : ManagedProcess
  /-- The binary of the last build, if there was one. -/
  executable : Option Path := none

namespace Daemon

/-- A daemon of a configuration, with nothing built and nothing running. -/
def ofSpec (name : String) (spec : DaemonSpec) (project : Project) (stopPolicy : StopPolicy) :
    Daemon :=
  { name, project
    binary := spec.executable
    arguments := spec.arguments
    restart := spec.restart
    process := { label := name, stopPolicy } }

/-- The same daemon with its process as it is now. -/
def withProcess (d : Daemon) (p : ManagedProcess) : Daemon := { d with process := p }

/-- A process was started and has not been seen to end. -/
def isRunning (d : Daemon) : Action (Bool × Daemon) := do
  let (running, p) ← d.process.isRunning
  return (running, d.withProcess p)

/-- The process id, or the one that is told when nothing is running. -/
def pid (d : Daemon) : Action (Int × Daemon) := do
  let (pid, p) ← d.process.pid
  return (pid, d.withProcess p)

/-! ## Sources and builds -/

/-- Clones or updates the sources. -/
def cloneSources (d : Daemon) : Task Unit := d.project.cloneSources

/-- The sources have new commits upstream. -/
def hasUpstreamChange (d : Daemon) : Task Bool := d.project.hasUpstreamChange

/-- Refuses a path that is not an executable file. -/
def ensureExecutable (path : Path) : Task Unit := do
  if ← Task.request (.isExecutable path) then return ()
  else Task.fail (.notExecutable path)

/-- Builds the project and checks that the binary is there. -/
def buildBinary (d : Daemon) (buildName : String) : Task Path := do
  let output ← d.project.build buildName
  ensureExecutable (output.join d.binary.text)
  return output.join d.binary.text

/-- Builds and switches to the new binary. -/
def build (d : Daemon) (buildName : String) : Action (Except Fault Unit × Daemon) := do
  match ← (d.buildBinary buildName).attempt with
  | .ok path => return (.ok (), { d with executable := some path })
  | .error fault => return (.error fault, d)

/-- Updates the sources, then builds. -/
def refresh (d : Daemon) (buildName : String) : Action (Except Fault Unit × Daemon) := do
  match ← d.cloneSources.attempt with
  | .ok () => d.build buildName
  | .error fault => return (.error fault, d)

/-! ## The process -/

/-- Starts the daemon unless it is running, and tells whether it did. -/
def ensureStarted (d : Daemon) : Action (Except Fault Bool × Daemon) := do
  let (running, d) ← d.isRunning
  if running then return (.ok false, d)
  match d.executable with
  | none => return (.error (.notBuilt d.name), d)
  | some executable =>
    let (outcome, p) ← d.process.start executable d.arguments
    return (outcome.map fun _ => true, d.withProcess p)

/-- Asks the process to end. -/
def stop (d : Daemon) : Action (Except Fault Unit × Daemon) := do
  let (outcome, p) ← d.process.stop
  return (outcome, d.withProcess p)

/-- Asks the process to end, and kills it if it does not end in time. -/
def shutdown (d : Daemon) : Action (Except Fault Unit × Daemon) := do
  let (outcome, p) ← d.process.stop
  match outcome with
  | .error (.stopTimeout ..) =>
    let (outcome, p) ← p.kill
    return (outcome, d.withProcess p)
  | _ => return (outcome, d.withProcess p)

end Daemon

end DaemonKeeper
