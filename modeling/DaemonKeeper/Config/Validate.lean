import DaemonKeeper.Config.Cycle
import DaemonKeeper.Config.Decode
import DaemonKeeper.Fault
import DaemonKeeper.Text.Utf8
import DaemonKeeper.Toml.Document
set_option autoImplicit false

/-!
# Configuration: validation (SPEC §4.1)

The sections fit together when there is a daemon, the global settings make sense, every project and
every daemon refers to projects that exist, no project comes after itself on any way round, and the
two intervals can be read.  `validate` checks the rules in this order and reports the first that is
broken.  `ofText` and `ofBytes` read the sections of a document without asking for any of them.
-/

namespace DaemonKeeper

/-- The graph of the projects, each an edge's end for the projects that it comes after. -/
def ProjectTable.graph (t : ProjectTable) : Graph where
  nodes := t.names
  successors name := (t.entries.filter fun entry => name ∈ entry.2.after).map (·.1)
  predecessors name :=
    match t.get? name with
    | some p => p.after.eraseDups
    | none => []

namespace Sections

/-- Refuses with the fault unless the condition holds. -/
def demand (condition : Bool) (fault : ConfigFault) : Except Fault Unit :=
  if condition then .ok () else .error (.invalidConfig fault)

/-- One name that a project comes after exists, and is not its own. -/
def checkDependency (projects : ProjectTable) (name dependency : String) : Except Fault Unit := do
  demand (projects.contains dependency) (.unknownDependency name dependency)
  demand (dependency != name) (.selfDependency name)

/-- A project has a repository, at least one job if it says how many, and known dependencies. -/
def checkProject (projects : ProjectTable) (entry : String × ProjectSpec) : Except Fault Unit := do
  demand (!Text.isBlankText entry.2.repository) (.blankRepository entry.1)
  demand (entry.2.jobs != some 0) (.noJobs entry.1)
  entry.2.after.forM (checkDependency projects entry.1)

/-- A daemon has a known project and an executable relative to the build output. -/
def checkDaemon (projects : ProjectTable) (entry : String × DaemonSpec) : Except Fault Unit := do
  demand (projects.contains entry.2.project) (.unknownProject entry.1 entry.2.project)
  demand (!entry.2.executable.isAbsolute) (.absoluteExecutable entry.1 entry.2.executable)

/-- No project comes after itself, directly or through others. -/
def checkCycle (projects : ProjectTable) : Except Fault Unit :=
  match projects.graph.cycle? with
  | none => .ok ()
  | some name => .error (.dependencyCycle name)

/-- Reads an interval of the settings. -/
def interval (blame : Duration.Fault → ConfigFault) (text : String) : Except Fault Duration :=
  (Duration.parse text).mapError fun cause => .invalidConfig (blame cause)

/-- The configuration that valid sections describe. -/
def validate (s : Sections) : Except Fault Config := do
  demand (!s.daemons.isEmpty) .noDaemons
  demand (!Text.isBlankText s.settings.organization) .blankOrganization
  demand (s.settings.stopMaxChecks != 0) .noStopChecks
  s.projects.entries.forM (checkProject s.projects)
  s.daemons.entries.forM (checkDaemon s.projects)
  checkCycle s.projects
  let pollInterval ← interval .pollInterval s.settings.pollInterval
  let stopPollInterval ← interval .stopPollInterval s.settings.stopPollInterval
  return { s with
    pollInterval := pollInterval
    stopPolicy := ⟨stopPollInterval, s.settings.stopMaxChecks⟩ }

/-- The sections that the text of a file declares. -/
def ofText (text : String) : Except Fault Sections :=
  match Toml.read text with
  | none => .error (.toml .malformed)
  | some document => (Config.readSections document).mapError fun cause => .toml (.form cause)

/-- The sections that the bytes of a file declare. -/
def ofBytes (bytes : List UInt8) : Except Fault Sections :=
  match Text.decode? bytes with
  | none => .error (.io .notUtf8)
  | some cs => ofText (String.ofList cs)

end Sections

end DaemonKeeper
