import DaemonKeeper.Config.Form
import DaemonKeeper.Config.Model
set_option autoImplicit false

/-!
# Configuration: reading the sections (SPEC §4.1)

One reader for each of the sections `[config]`, `[coordinator]`, `[project]` and `[daemon]`, and
`readSections` for the whole.  Every table is gone through once in the order of the document, and
the first value that does not fit is the fault of the whole.  Only after that the fields are looked
up by name, so that neither the order of the keys nor keys that nobody knows make a difference to
what is read.
-/

namespace DaemonKeeper.Config

/-- The written names of the build types. -/
def buildTypes : List (String × BuildType) :=
  [("Release", .release), ("Debug", .debug), ("RelWithDebInfo", .relWithDebInfo),
    ("MinSizeRel", .minSizeRel)]

/-- The written names of the build systems. -/
def buildSystems : List (String × BuildSystem) := [("cmake", .cmake), ("make", .make)]

/-- The written names of the restart policies. -/
def restartPolicies : List (String × RestartPolicy) :=
  [("on-rebuild", .onRebuild), ("every-cycle", .everyCycle)]

/-- The value has the form, whatever it reads as. -/
def fits {α : Type} (form : Toml.Value → Except FormFault α) (v : Toml.Value) :
    Except FormFault Unit := do
  let _ ← form v
  return ()

/-! ## Settings -/

/-- The record of the settings. -/
def settingsForm : RecordForm :=
  ⟨"ConfigSection", ["workspace", "git_host", "organization", "poll_interval",
    "stop_poll_interval", "stop_max_checks", "privilege_prefix"]⟩

/-- A stop check count. -/
def checksForm : Toml.Value → Except FormFault Nat := numberForm .document Word.bound32 "u32"

/-- One entry of the settings fits its key. -/
def checkSetting : String × Toml.Value → Except FormFault Unit
  | ("workspace", v) => fits (pathForm .document) v
  | ("git_host", v) => fits (stringForm .document) v
  | ("organization", v) => fits (stringForm .document) v
  | ("poll_interval", v) => fits (stringForm .document) v
  | ("stop_poll_interval", v) => fits (stringForm .document) v
  | ("stop_max_checks", v) => fits checksForm v
  | ("privilege_prefix", v) => fits (stringsForm .document) v
  | (_, v) => takeIn false v

/-- The settings, each with its default where it is left out. -/
def readSettings (v : Toml.Value) : Except FormFault Settings := do
  let g ← settingsForm.given .document v
  g.entries.forM checkSetting
  let base : Settings := {}
  return {
    workspace := (← g.optional "workspace" (pathForm .document)).getD base.workspace
    gitHost := (← g.optional "git_host" (stringForm .document)).getD base.gitHost
    organization := (← g.optional "organization" (stringForm .document)).getD base.organization
    pollInterval := (← g.optional "poll_interval" (stringForm .document)).getD base.pollInterval
    stopPollInterval :=
      (← g.optional "stop_poll_interval" (stringForm .document)).getD base.stopPollInterval
    stopMaxChecks := (← g.optional "stop_max_checks" checksForm).getD base.stopMaxChecks
    privilegePrefix :=
      (← g.optional "privilege_prefix" (stringsForm .document)).getD base.privilegePrefix }

/-! ## Coordinator -/

/-- The record of the coordinator. -/
def coordinatorForm : RecordForm := ⟨"CoordinatorConfig", ["executable", "args"]⟩

/-- One entry of the coordinator fits its key. -/
def checkCoordinator : String × Toml.Value → Except FormFault Unit
  | ("executable", v) => fits (pathForm .document) v
  | ("args", v) => fits (stringsForm .document) v
  | (_, v) => takeIn false v

/-- The coordinator. -/
def readCoordinator (v : Toml.Value) : Except FormFault CoordinatorSpec := do
  let g ← coordinatorForm.given .document v
  g.entries.forM checkCoordinator
  return {
    executable := ← g.required coordinatorForm "executable" (pathForm .document)
    arguments := (← g.optional "args" (stringsForm .document)).getD [] }

/-! ## Projects -/

/-- The record of a project. -/
def projectForm : RecordForm :=
  ⟨"ProjectConfig", ["repository", "branch", "build_type", "build_system", "cmake_flags", "jobs",
    "install", "vendored", "after"]⟩

/-- A job count. -/
def jobsForm : Toml.Value → Except FormFault Nat := numberForm .document Word.bound64 "usize"

/-- One entry of a project fits its key. -/
def checkProject : String × Toml.Value → Except FormFault Unit
  | ("repository", v) => fits (stringForm .document) v
  | ("branch", v) => fits (stringForm .document) v
  | ("build_type", v) => fits (choiceForm .document buildTypes) v
  | ("build_system", v) => fits (choiceForm .document buildSystems) v
  | ("cmake_flags", v) => fits (stringsForm .document) v
  | ("jobs", v) => fits jobsForm v
  | ("install", v) => fits (flagForm .document) v
  | ("vendored", v) => fits (stringsForm .document) v
  | ("after", v) => fits (stringsForm .document) v
  | (_, v) => takeIn false v

/-- A project. -/
def readProject (v : Toml.Value) : Except FormFault ProjectSpec := do
  let g ← projectForm.given .document v
  g.entries.forM checkProject
  return {
    repository := ← g.required projectForm "repository" (stringForm .document)
    branch := (← g.optional "branch" (stringForm .document)).getD "master"
    buildType := (← g.optional "build_type" (choiceForm .document buildTypes)).getD .release
    buildSystem := (← g.optional "build_system" (choiceForm .document buildSystems)).getD .cmake
    cmakeFlags := (← g.optional "cmake_flags" (stringsForm .document)).getD []
    jobs := ← g.optional "jobs" jobsForm
    install := (← g.optional "install" (flagForm .document)).getD false
    vendored := (← g.optional "vendored" (stringsForm .document)).getD []
    after := (← g.optional "after" (stringsForm .document)).getD [] }

/-- The projects of a map. -/
def readProjects (v : Toml.Value) : Except FormFault ProjectTable := do
  let specs ← (← mapForm .document v).mapM fun (name, v) => do return (name, ← readProject v)
  return specs.foldl (fun table (name, spec) => table.insert name spec) .empty

/-! ## Daemons -/

/-- The record of a daemon. -/
def daemonForm : RecordForm := ⟨"DaemonConfig", ["project", "executable", "args", "restart"]⟩

/-- One entry of a daemon fits its key. -/
def checkDaemonEntry : String × Toml.Value → Except FormFault Unit
  | ("project", v) => fits (stringForm .generic) v
  | ("executable", v) => fits (pathForm .generic) v
  | ("args", v) => fits (stringsForm .generic) v
  | ("restart", v) => fits (choiceForm .generic restartPolicies) v
  | (_, _) => .ok ()

/-- A fault of the daemon of this name. -/
def blame {α : Type} (name : String) (key : Option String) (r : Except FormFault α) :
    Except FormFault α :=
  r.mapError (.inDaemon name key)

/-- A daemon.  A fault inside an entry of a table names the key. -/
def readDaemon (name : String) (v : Toml.Value) : Except FormFault DaemonSpec := do
  let g ← blame name none (daemonForm.given .generic v)
  g.entries.forM fun entry =>
    blame name (if g.positional then none else some entry.1) (checkDaemonEntry entry)
  let spec : DaemonSpec := {
    project := ← blame name none (g.required daemonForm "project" (stringForm .generic))
    executable := ← blame name none (g.required daemonForm "executable" (pathForm .generic))
    arguments := (← blame name none (g.optional "args" (stringsForm .generic))).getD []
    restart :=
      (← blame name none (g.optional "restart" (choiceForm .generic restartPolicies))).getD
        .onRebuild }
  blame name none (daemonForm.checkLength .generic v)
  return spec

/-- The daemons of a map, which is first taken in as a whole. -/
def readDaemons (v : Toml.Value) : Except FormFault DaemonTable := do
  let entries ← mapForm .document v
  takeInEntries true entries
  let specs ← entries.mapM fun (name, v) => do return (name, ← readDaemon name v)
  return specs.foldl (fun table (name, spec) => table.insert name spec) .empty

/-! ## The file -/

/-- One section fits its key. -/
def checkSection : String × Toml.Value → Except FormFault Unit
  | ("config", v) => fits readSettings v
  | ("coordinator", v) => fits readCoordinator v
  | ("project", v) => fits readProjects v
  | ("daemon", v) => fits readDaemons v
  | (_, v) => takeIn false v

/-- The sections of a document. -/
def readSections (document : Toml.Table) : Except FormFault Sections := do
  document.forM checkSection
  let g : Given := ⟨document, false⟩
  return {
    settings := (← g.optional "config" readSettings).getD {}
    coordinator := ← g.optional "coordinator" readCoordinator
    projects := (← g.optional "project" readProjects).getD .empty
    daemons := (← g.optional "daemon" readDaemons).getD .empty }

end DaemonKeeper.Config
