import DaemonKeeper.Config.Validate
set_option autoImplicit false

/-!
# Rehearsal: drafts of configurations (SPEC §4.6)

A draft is a configuration put together by hand.  Its intervals are short and nothing is wrapped in
a privilege prefix, so a rehearsed run is over soon.
-/

namespace DaemonKeeper.Rehearsal.Draft

/-- The settings of every draft. -/
def settings (workspace : Path) : Settings :=
  { workspace
    organization := "acme"
    pollInterval := "10ms"
    stopPollInterval := "100ms"
    privilegePrefix := [] }

/-- A draft without projects and daemons. -/
def empty (workspace : Path) : Sections := { settings := settings workspace }

/-- A project of a draft, with one job. -/
def project (repository : String) : ProjectSpec := { repository, jobs := some 1 }

/-- Adds projects in order. -/
def withProjects (draft : Sections) (projects : List (String × ProjectSpec)) : Sections :=
  { draft with projects := projects.foldl (fun t e => t.insert e.1 e.2) draft.projects }

/-- Adds daemons in order. -/
def withDaemons (draft : Sections) (daemons : List (String × DaemonSpec)) : Sections :=
  { draft with daemons := daemons.foldl (fun t e => t.insert e.1 e.2) draft.daemons }

/-- Sets the coordinator. -/
def withCoordinator (draft : Sections) (coordinator : CoordinatorSpec) : Sections :=
  { draft with coordinator := some coordinator }

/-- Sets the words before an installation. -/
def withPrivilegePrefix (draft : Sections) (words : List String) : Sections :=
  { draft with settings := { draft.settings with privilegePrefix := words } }

/-- How the refusal of a draft that was expected to be valid is worded. -/
def refusal : Fault → String
  | .invalidConfig cause => "Failed to build valid config from builder: ConfigError("
      ++ Text.quoted cause.message ++ ")"
  | .dependencyCycle name => "Failed to build valid config from builder: DagCycle("
      ++ Text.quoted ("cycle detected in project dependencies involving project '" ++ name ++ "'")
      ++ ")"
  | fault => "Failed to build valid config from builder: " ++ fault.message

/-- The configuration of a draft that is expected to be valid. -/
def insist (draft : Sections) : Except String Config := draft.validate.mapError refusal

end DaemonKeeper.Rehearsal.Draft
