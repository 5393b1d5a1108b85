import DaemonKeeper.Duration
import DaemonKeeper.Path
set_option autoImplicit false

/-!
# Configuration: what a file declares (SPEC §3.6, §4.1)

A configuration has settings, perhaps a coordinator, projects that can be built and daemons that are
built from them, with the defaults of SPEC §4.1.  Projects are kept in the order of their names;
daemons keep the order in which they were declared, because they are built and started in it.  The
restart policy decides by whether a daemon was rebuilt (`RestartPolicy.restarts`).
-/

namespace DaemonKeeper

/-- The optimisation profile of a configured build. -/
inductive BuildType where
  | release
  | debug
  | relWithDebInfo
  | minSizeRel
  deriving DecidableEq, Repr, Inhabited

/-- How the profile is written, in files and on command lines. -/
def BuildType.name : BuildType → String
  | .release => "Release"
  | .debug => "Debug"
  | .relWithDebInfo => "RelWithDebInfo"
  | .minSizeRel => "MinSizeRel"

/-- How a project is built: configured into a directory of its own for every build, or compiled in
its checkout. -/
inductive BuildSystem where
  | cmake
  | make
  deriving DecidableEq, Repr, Inhabited

/-- How the build system is shown. -/
def BuildSystem.name : BuildSystem → String
  | .cmake => "Cmake"
  | .make => "Make"

/-- When a running daemon is stopped at the end of a cycle: only if it was rebuilt, or always. -/
inductive RestartPolicy where
  | onRebuild
  | everyCycle
  deriving DecidableEq, Repr, Inhabited

namespace RestartPolicy

/-- How the policy is shown. -/
def name : RestartPolicy → String
  | .onRebuild => "OnRebuild"
  | .everyCycle => "EveryCycle"

/-- The daemon is stopped at the end of a cycle in which it was or was not rebuilt. -/
def restarts : RestartPolicy → Bool → Bool
  | .onRebuild, rebuilt => rebuilt
  | .everyCycle, _ => true

end RestartPolicy

/-- How long a stopping process is waited for. -/
structure StopPolicy where
  pollInterval : Duration
  maxChecks : Nat
  deriving DecidableEq, Repr, Inhabited

/-- One second between checks, five checks. -/
def StopPolicy.default : StopPolicy := ⟨Duration.ofSeconds 1, 5⟩

/-! ## Sections -/

/-- The settings that hold for the whole file. -/
structure Settings where
  /-- Parent directory of every checkout. -/
  workspace : Path := ⟨"."⟩
  gitHost : String := "github.com"
  /-- The owner part of every remote. -/
  organization : String := ""
  /-- Pause between two cycles. -/
  pollInterval : String := "60s"
  /-- Pause between two liveness checks of a stopping daemon. -/
  stopPollInterval : String := "1s"
  stopMaxChecks : Nat := 5
  /-- Words put before `make install`; none runs it as it is. -/
  privilegePrefix : List String := ["sudo"]
  deriving DecidableEq, Repr, Inhabited

/-- The coordination service, started once and never rebuilt. -/
structure CoordinatorSpec where
  executable : Path
  arguments : List String := []
  deriving DecidableEq, Repr, Inhabited

/-- A project that can be built. -/
structure ProjectSpec where
  /-- Repository name under the organization. -/
  repository : String
  branch : String := "master"
  buildType : BuildType := .release
  buildSystem : BuildSystem := .cmake
  /-- Arguments of the configuration step, before the build type. -/
  cmakeFlags : List String := []
  /-- Parallel jobs; by default one for each processor. -/
  jobs : Option Nat := none
  /-- Install after compiling. -/
  install : Bool := false
  /-- Library directories inside the repository, built and installed first. -/
  vendored : List String := []
  /-- Projects whose whole recipe runs before this one. -/
  after : List String := []
  deriving DecidableEq, Repr, Inhabited

/-- The number of parallel jobs on a machine with `cpus` processors. -/
def ProjectSpec.effectiveJobs (p : ProjectSpec) (cpus : Nat) : Nat := p.jobs.getD cpus

/-- A supervised daemon. -/
structure DaemonSpec where
  /-- The project that produces the binary. -/
  project : String
  /-- The binary, relative to the build output. -/
  executable : Path
  arguments : List String := []
  restart : RestartPolicy := .onRebuild
  deriving DecidableEq, Repr, Inhabited

/-! ## Tables by name -/

/-- Projects in the order of their names. -/
structure ProjectTable where
  entries : List (String × ProjectSpec)
  deriving DecidableEq, Repr, Inhabited

namespace ProjectTable

/-- No projects. -/
def empty : ProjectTable := ⟨[]⟩

/-- Puts an entry in its place among entries in the order of their names. -/
def insertSorted (name : String) (p : ProjectSpec) :
    List (String × ProjectSpec) → List (String × ProjectSpec)
  | [] => [(name, p)]
  | (n, q) :: rest =>
    if name < n then (name, p) :: (n, q) :: rest
    else if name = n then (name, p) :: rest
    else (n, q) :: insertSorted name p rest

/-- Adds a project, or replaces the one of that name. -/
def insert (t : ProjectTable) (name : String) (p : ProjectSpec) : ProjectTable :=
  ⟨insertSorted name p t.entries⟩

/-- The project of a name. -/
def get? (t : ProjectTable) (name : String) : Option ProjectSpec := t.entries.lookup name

/-- The names, in order. -/
def names (t : ProjectTable) : List String := t.entries.map (·.1)

/-- There is a project of that name. -/
def contains (t : ProjectTable) (name : String) : Bool := (t.get? name).isSome

/-- The number of projects. -/
def size (t : ProjectTable) : Nat := t.entries.length

end ProjectTable

/-- Daemons in the order of their first declaration. -/
structure DaemonTable where
  entries : List (String × DaemonSpec)
  deriving DecidableEq, Repr, Inhabited

namespace DaemonTable

/-- No daemons. -/
def empty : DaemonTable := ⟨[]⟩

/-- Gives the first entry of the name another daemon, where it stands, or adds an entry at the end. -/
def insertEntry (name : String) (d : DaemonSpec) :
    List (String × DaemonSpec) → List (String × DaemonSpec)
  | [] => [(name, d)]
  | (n, old) :: rest =>
    if n = name then (n, d) :: rest else (n, old) :: insertEntry name d rest

/-- Adds a daemon at the end, or replaces the one of that name where it stands. -/
def insert (t : DaemonTable) (name : String) (d : DaemonSpec) : DaemonTable :=
  ⟨insertEntry name d t.entries⟩

/-- The daemon of a name. -/
def get? (t : DaemonTable) (name : String) : Option DaemonSpec := t.entries.lookup name

/-- There is no daemon of this name. -/
structure Missing where
  name : String
  deriving DecidableEq, Repr

/-- How a missing daemon is reported. -/
def Missing.message (m : Missing) : String := "no daemon named '" ++ m.name ++ "'"

/-- The daemon of a name that should be there. -/
def fetch (t : DaemonTable) (name : String) : Except Missing DaemonSpec :=
  match t.get? name with
  | some d => .ok d
  | none => .error ⟨name⟩

/-- The names, in order. -/
def names (t : DaemonTable) : List String := t.entries.map (·.1)

/-- The number of daemons. -/
def size (t : DaemonTable) : Nat := t.entries.length

/-- There are no daemons. -/
def isEmpty (t : DaemonTable) : Bool := t.entries.isEmpty

end DaemonTable

/-! ## The whole -/

/-- Everything a file declares, before it is validated. -/
structure Sections where
  settings : Settings := {}
  coordinator : Option CoordinatorSpec := none
  projects : ProjectTable := .empty
  daemons : DaemonTable := .empty
  deriving DecidableEq, Repr, Inhabited

/-- A validated configuration: the sections with the intervals they spell out. -/
structure Config extends Sections where
  pollInterval : Duration
  stopPolicy : StopPolicy
  deriving DecidableEq, Repr

end DaemonKeeper
