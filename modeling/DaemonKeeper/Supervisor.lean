import DaemonKeeper.Daemon
set_option autoImplicit false

/-!
# The continuous build-and-run loop (SPEC §3.5, §3.6, §5)

The coordinator is started once (`startCoordinator`), and every daemon is built, in the order of the
configuration (`buildAll`).  Then the cycles follow: start what is not running (`ensureRunning`),
report, pause, rebuild what has changed upstream (`rebuildChanged`), stop what the restart policy
selects (`applyRestartPolicy`).  The next cycle starts what was stopped on its newest binary.  `run`
is the whole loop; an interruption, or a limit on the cycles, ends it with `shutdown`.

Everything happens in one sequence.  The first fault ends what is being done, and the daemons before
it keep what was done to them.
-/

namespace DaemonKeeper

/-- The coordination service with its process. -/
structure Coordinator where
  spec : CoordinatorSpec
  process : ManagedProcess
  deriving DecidableEq, Repr

/-- Everything that is supervised. -/
structure Supervisor where
  coordinator : Option Coordinator
  daemons : List Daemon
  pollInterval : Duration

namespace Supervisor

/-- The daemon of an entry of a configuration. -/
def daemonOf (cfg : Config) (cpus : Nat) (entry : String × DaemonSpec) : Except Fault Daemon := do
  let project ← Project.resolve cfg cpus entry.2.project
  return Daemon.ofSpec entry.1 entry.2 project cfg.stopPolicy

/-- The supervisor of a configuration on a machine with `cpus` processors. -/
def ofConfig (cfg : Config) (cpus : Nat) : Except Fault Supervisor := do
  let daemons ← cfg.daemons.entries.mapM (daemonOf cfg cpus)
  return {
    coordinator := cfg.coordinator.map fun spec =>
      { spec, process := { label := "coordinator", stopPolicy := cfg.stopPolicy } }
    daemons
    pollInterval := cfg.pollInterval }

/-! ## One step for every daemon -/

/-- Does one thing to every daemon in order and gathers the answers.  After a fault the daemons that
are left stay as they are. -/
def forDaemons {α : Type} (step : Daemon → Action (Except Fault α × Daemon)) :
    List Daemon → Action (Except Fault (List α) × List Daemon)
  | [] => pure (.ok [], [])
  | d :: rest => do
    let (outcome, d) ← step d
    match outcome with
    | .error fault => return (.error fault, d :: rest)
    | .ok a =>
      let (outcome, rest) ← forDaemons step rest
      return (outcome.map (a :: ·), d :: rest)

/-- The same supervisor with its daemons as they are now. -/
def withDaemons (s : Supervisor) (daemons : List Daemon) : Supervisor := { s with daemons }

/-- Does one thing to every daemon of a supervisor. -/
def eachDaemon {α : Type} (s : Supervisor) (step : Daemon → Action (Except Fault α × Daemon)) :
    Action (Except Fault (List α) × Supervisor) := do
  let (outcome, daemons) ← forDaemons step s.daemons
  return (outcome, s.withDaemons daemons)

/-- Does one thing to every daemon of a supervisor for its effect. -/
def eachDaemonEffect {α : Type} (s : Supervisor)
    (step : Daemon → Action (Except Fault α × Daemon)) :
    Action (Except Fault Unit × Supervisor) := do
  let (outcome, s) ← s.eachDaemon step
  return (outcome.map fun _ => (), s)

/-! ## The parts of a run -/

/-- Starts the coordinator, if there is one. -/
def startCoordinator (s : Supervisor) : Action (Except Fault Unit × Supervisor) :=
  match s.coordinator with
  | none => pure (.ok (), s)
  | some c => do
    let (outcome, p) ← c.process.start c.spec.executable c.spec.arguments
    return (outcome, { s with coordinator := some { c with process := p } })

/-- Clones and builds every daemon. -/
def buildAll (s : Supervisor) (buildName : String) : Action (Except Fault Unit × Supervisor) :=
  s.eachDaemonEffect (·.refresh buildName)

/-- Starts a daemon unless it is running; the process id of one that was started is asked for. -/
def startDaemon (d : Daemon) : Action (Except Fault Unit × Daemon) := do
  let (outcome, d) ← d.ensureStarted
  match outcome with
  | .error fault => return (.error fault, d)
  | .ok false => return (.ok (), d)
  | .ok true =>
    let (_, d) ← d.pid
    return (.ok (), d)

/-- Starts every daemon that is not running. -/
def ensureRunning (s : Supervisor) : Action (Except Fault Unit × Supervisor) :=
  s.eachDaemonEffect startDaemon

/-- Asks for a daemon's process id, which cannot fail. -/
def reportDaemon (d : Daemon) : Action (Except Fault Int × Daemon) := do
  let (pid, d) ← d.pid
  return (.ok pid, d)

/-- Asks for the process ids of all daemons and of the coordinator.  The coordinator is asked at
every log level here; the program asks it only where the line that tells its process id is logged.
-/
def report (s : Supervisor) : Action Supervisor := do
  let (_, s) ← s.eachDaemon reportDaemon
  match s.coordinator with
  | none => return s
  | some c =>
    let (_, p) ← c.process.pid
    return { s with coordinator := some { c with process := p } }

/-- Rebuilds a daemon whose sources have new commits upstream, and tells whether it did. -/
def rebuildDaemon (buildName : String) (d : Daemon) : Action (Except Fault Bool × Daemon) := do
  match ← d.hasUpstreamChange.attempt with
  | .error fault => return (.error fault, d)
  | .ok false => return (.ok false, d)
  | .ok true =>
    let (outcome, d) ← d.refresh buildName
    return (outcome.map fun _ => true, d)

/-- Rebuilds every daemon whose sources have new commits upstream, and tells for each whether it was
rebuilt. -/
def rebuildChanged (s : Supervisor) (buildName : String) :
    Action (Except Fault (List Bool) × Supervisor) :=
  s.eachDaemon (rebuildDaemon buildName)

/-- Stops the daemons that the restart policy selects, as long as both lists last. -/
def stopSelected : List Daemon → List Bool → Action (Except Fault Unit × List Daemon)
  | [], _ => pure (.ok (), [])
  | daemons, [] => pure (.ok (), daemons)
  | d :: rest, rebuilt :: flags => do
    if d.restart.restarts rebuilt then
      let (outcome, d) ← d.stop
      match outcome with
      | .error fault => return (.error fault, d :: rest)
      | .ok () =>
        let (outcome, rest) ← stopSelected rest flags
        return (outcome, d :: rest)
    else
      let (outcome, rest) ← stopSelected rest flags
      return (outcome, d :: rest)

/-- Stops the daemons that the restart policy selects, given which were rebuilt. -/
def applyRestartPolicy (s : Supervisor) (rebuilt : List Bool) :
    Action (Except Fault Unit × Supervisor) := do
  let (outcome, daemons) ← stopSelected s.daemons rebuilt
  return (outcome, s.withDaemons daemons)

/-- Stops all daemons for good.  The coordinator is left running. -/
def shutdown (s : Supervisor) : Action (Except Fault Unit × Supervisor) :=
  s.eachDaemonEffect Daemon.shutdown

/-! ## The run -/

/-- The name of a build that starts now. -/
def currentBuildName : Action String := do
  let now ← Action.request .clock
  return now.buildName

/-- What follows if there was no fault. -/
def andThen {α β : Type} (x : Action (Except Fault α × Supervisor))
    (next : α → Supervisor → Action (Except Fault β × Supervisor)) :
    Action (Except Fault β × Supervisor) := do
  let (outcome, s) ← x
  match outcome with
  | .ok a => next a s
  | .error fault => return (.error fault, s)

/-- The second half of a cycle: rebuild what has changed, then stop what is to be restarted. -/
def renew (s : Supervisor) : Action (Except Fault Unit × Supervisor) := do
  let buildName ← currentBuildName
  andThen (s.rebuildChanged buildName) fun rebuilt s => s.applyRestartPolicy rebuilt

/-- Cycles until a fault, an interruption, or the end of the last cycle; the last two shut the
daemons down.  `remaining` cycles follow the present one. -/
def cycles : Nat → Supervisor → Action (Except Fault Unit × Supervisor)
  | remaining, s =>
    andThen s.ensureRunning fun _ s => do
      let s ← s.report
      match ← Action.request (.pause s.pollInterval) with
      | .interrupted => s.shutdown
      | .elapsed =>
        andThen s.renew fun _ s =>
          match remaining with
          | 0 => s.shutdown
          | remaining + 1 => cycles remaining s

/-- How many cycles a run without a limit may have: the cycle counter has 64 bits. -/
def endless : Nat := Word.bound64 - 1

/-- The number of cycles that follow the first one.  There is always a first one. -/
def furtherCycles (limit : Option Nat) : Nat := limit.getD endless - 1

/-- A whole run, ended by a fault, an interruption, or a limit on the number of cycles. -/
def run (s : Supervisor) (limit : Option Nat) : Action (Except Fault Unit × Supervisor) :=
  andThen s.startCoordinator fun _ s => do
    let buildName ← currentBuildName
    andThen (s.buildAll buildName) fun _ s => cycles (furtherCycles limit) s

end Supervisor

end DaemonKeeper
