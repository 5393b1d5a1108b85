import DaemonKeeper.Supervisor
import DaemonKeeper.Text.Quoted
set_option autoImplicit false

/-!
# Shown forms

How the parts of a supervisor are shown to somebody who looks into it: the name of the part and its
fields in order.  Two dots at the end say that there is more that is not shown.
-/

namespace DaemonKeeper

namespace Shown

/-- A part with its fields; `more` says that some are left out. -/
def record (name : String) (fields : List (String × String)) (more : Bool) : String :=
  let shown := fields.map fun field => field.1 ++ ": " ++ field.2
  name ++ " \x7b " ++ String.intercalate ", " (shown ++ if more then [".."] else []) ++ " \x7d"

/-- Something that may be absent. -/
def optional : Option String → String
  | none => "None"
  | some s => "Some(" ++ s ++ ")"

end Shown

/-- How a repository is shown. -/
def Git.Repository.shown (r : Git.Repository) : String :=
  let handle := Shown.record "RepositoryHandle"
    [("parent_dir", Text.quoted r.parent.text), ("name", Text.quoted r.name),
      ("branch", Text.quoted r.branch), ("host", Text.quoted r.host),
      ("organization", Text.quoted r.organization)] false
  Shown.record "GitRepo" [("handle", handle)] true

namespace Project

mutual
/-- How a project is shown, with its dependencies inside. -/
def shown (p : Project) : String :=
  match p with
  | ⟨name, _, repository, dependencies, _, _⟩ =>
    Shown.record "Project"
      [("name", Text.quoted name), ("repo", repository.shown),
        ("deps", Text.bracketed (shownAll dependencies))] true

/-- How projects are shown. -/
def shownAll (ps : List Project) : List String :=
  match ps with
  | [] => []
  | p :: rest => shown p :: shownAll rest
end

end Project

/-- How a stop policy is shown. -/
def StopPolicy.shown (s : StopPolicy) : String :=
  Shown.record "StopPolicy"
    [("poll_interval", s.pollInterval.text), ("max_checks", toString s.maxChecks)] false

/-- How a process is shown. -/
def ManagedProcess.shown (p : ManagedProcess) : String :=
  Shown.record "ManagedProcess"
    [("label", Text.quoted p.label), ("stop_policy", p.stopPolicy.shown),
      ("child", Shown.optional (p.child.map fun pid => toString pid))] false

/-- How a daemon is shown. -/
def Daemon.shown (d : Daemon) : String :=
  Shown.record "Daemon"
    [("name", Text.quoted d.name), ("project", d.project.shown),
      ("executable_rel", Text.quoted d.binary.text), ("args", Text.quotedList d.arguments),
      ("restart", d.restart.name), ("process", d.process.shown),
      ("executable", Shown.optional (d.executable.map fun path => Text.quoted path.text))] false

/-- How a supervisor is shown. -/
def Supervisor.shown (s : Supervisor) : String :=
  Shown.record "Supervisor"
    [("daemons", Text.bracketed (s.daemons.map Daemon.shown)),
      ("poll_interval", s.pollInterval.text)] true

end DaemonKeeper
